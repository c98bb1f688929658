import TypedExpr.Proofs.Scanning.Regions
/-!
# The tokens of a written type

A type reference is written as names, brackets, commas and pairs of square brackets. Its text is cut
into just these, except that closing brackets that stand side by side come in pairs: how they pair
up depends on how many there are up to the next other character, not on the lists that they close.

* `Token.halves`: the kinds of tokens, each `>>` as two brackets.
* `TypeRef.spelling`: the tokens that a reference is written with, closing brackets one by one.
* `Lexes`: how some characters are cut, so that brackets can be put in front.
* `TypeRef.lexes_text`: **a written type is cut into the tokens that it is written with.**
-/

namespace TypedExpr

/-! ### The spelling -/

/-- A `>>` as two brackets. -/
def TokenKind.halves : TokenKind → List TokenKind
  | .operator (.binary .shr) => [.operator (.binary .gt), .operator (.binary .gt)]
  | kind => [kind]

/-- The kinds of some tokens, each `>>` as two brackets. -/
def Token.halves (ts : List Token) : List TokenKind := ts.flatMap (·.kind.halves)

theorem Token.halves_cons (t : Token) (ts : List Token) :
    halves (t :: ts) = t.kind.halves ++ halves ts := rfl

namespace TypeRef

mutual

/-- The tokens that a reference is written with, closing brackets one by one. -/
def spelling : TypeRef → List TokenKind
  | .named name [] => [.ident name []]
  | .named name (arg :: args) =>
    .ident name [] :: .operator (.binary .lt) ::
      (arg.spelling ++ (restSpelling args ++ [.operator (.binary .gt)]))
  | .array elem => elem.spelling ++ [.opening .square, .closing .square]

/-- The arguments after the first, each after a comma. -/
def restSpelling : List TypeRef → List TokenKind
  | [] => []
  | arg :: args => .comma :: (arg.spelling ++ restSpelling args)

end

end TypeRef

/-- A letter or an underscore, and then letters, digits and underscores. -/
def isIdentifier (name : String) : Bool :=
  match name.toList with
  | [] => false
  | c :: cs => Piece.isWordStart c && cs.all Piece.isWordPart

/-- An identifier that is no keyword. -/
def IsName (name : String) : Prop := isIdentifier name = true ∧ name ∉ ["true", "false", "new"]

instance (name : String) : Decidable (IsName name) := inferInstanceAs (Decidable (_ ∧ _))

theorem exists_of_isIdentifier {name : String} (h : isIdentifier name = true) : ∃ c cs,
    name.toList = c :: cs ∧ Piece.isWordStart c = true ∧ ∀ d ∈ cs, Piece.isWordPart d = true := by
  unfold isIdentifier at h
  cases hcs : name.toList with
  | nil =>
    rw [hcs] at h
    cases h
  | cons c cs =>
    rw [hcs, Bool.and_eq_true, List.all_eq_true] at h
    exact ⟨c, cs, rfl, h⟩

theorem TokenKind.ofSymbol?_of_isName {name : String} (h : IsName name) :
    ofSymbol? name = none := by
  have hall : ∀ kind ∈ symbols, ∀ text, kind.symbol? = some text → ¬IsName text := by
    decide +kernel
  exact ofSymbol?_eq_none fun kind hmem htext => hall kind hmem name htext h

/-! ### Pieces -/

namespace Piece

variable {c : Char} {cs w rest : List Char} {kind : TokenKind}

/-- A character that may stand behind a word. -/
def EndsWord (cs : List Char) : Prop := ∀ c ∈ cs.head?, isWordPart c = false

theorem piece_word (cs : List Char) (h : isWordStart c = true) : piece c cs =
    (.token (word (String.ofList (c :: cs.takeWhile isWordPart))),
      (cs.takeWhile isWordPart).length) := by
  have hline : c ≠ '\n' := ne_of_test h (by decide)
  have hblank : ¬(c = ' ' ∨ c = '\t' ∨ c = '\r') := by
    rintro (rfl | rfl | rfl) <;> exact absurd h (by decide)
  have hslash : ¬(c = '/' ∧ cs.head? = some '/') := fun hc => ne_of_test h (by decide) hc.1
  rw [piece, if_neg hline, if_neg hblank, if_neg hslash, if_pos h]

theorem takeWhile_word (hw : ∀ d ∈ w, isWordPart d = true) (hrest : EndsWord rest) :
    (w ++ rest).takeWhile isWordPart = w := by
  rw [List.takeWhile_append_of_pos hw]
  cases rest with
  | nil => simp
  | cons d rest => simp [hrest d rfl]

/-- No symbol that is longer than one character begins with these two. -/
def NoPair (c d : Char) : Prop :=
  ∀ kind ∈ TokenKind.symbols, ∀ text, kind.symbol? = some text → text.toList.take 2 ≠ [c, d]

theorem ofSymbol?_of_noPair {d : Char} (h : NoPair c d) (w : List Char) :
    TokenKind.ofSymbol? (String.ofList (c :: d :: w)) = none :=
  TokenKind.ofSymbol?_eq_none fun kind hmem htext =>
    h kind hmem _ htext (by rw [String.toList_ofList]; rfl)

/-- A symbol of one character, and no longer one begins here. -/
theorem symbol_alone (hkind : TokenKind.ofSymbol? (String.ofList [c]) = some kind)
    (h : ∀ d ∈ cs.head?, NoPair c d) : symbol c cs = (.token kind, 0) := by
  unfold symbol
  rcases cs with _ | ⟨d, _ | ⟨e, cs⟩⟩
  · simp only [List.take_nil, List.findSome?_cons, hkind]
    rfl
  · simp only [List.take_succ_cons, List.take_nil, List.findSome?_cons,
      ofSymbol?_of_noPair (h d rfl), hkind]
    rfl
  · simp only [List.take_succ_cons, List.take_zero, List.findSome?_cons,
      ofSymbol?_of_noPair (h d rfl), hkind]
    rfl

theorem noPair_of_second {d : Char} (h : ∀ kind ∈ TokenKind.symbols, ∀ text,
    kind.symbol? = some text → text.toList[0]? = some c → text.toList[1]? ≠ some d) :
    NoPair c d := by
  intro kind hmem text htext heq
  obtain ⟨w, hw⟩ : ∃ w, text.toList = c :: d :: w :=
    ⟨_, (List.take_append_drop 2 text.toList).symm.trans (by rw [heq]; rfl)⟩
  exact h kind hmem text htext (by rw [hw]; rfl) (by rw [hw]; rfl)

/-- Commas and square brackets stand alone; an angle bracket may stand in front of another, or of an
equals sign. -/
theorem noPair_of {d : Char} (h : c ∈ [',', '[', ']'] ∨ c ∈ ['<', '>'] ∧ d ≠ c ∧ d ≠ '=') :
    NoPair c d := by
  have hsingle : ∀ kind ∈ TokenKind.symbols, ∀ text, kind.symbol? = some text →
      text.toList[0]? ∈ [some ',', some '[', some ']'] → text.toList[1]? = none := by
    decide
  have hangle : ∀ kind ∈ TokenKind.symbols, ∀ text, kind.symbol? = some text →
      text.toList[0]? ∈ [some '<', some '>'] →
        text.toList[1]? ∈ [none, text.toList[0]?, some '='] := by
    decide
  refine noPair_of_second fun kind hmem text htext hfirst hsecond => ?_
  rcases h with hc | ⟨hc, hne, hequals⟩
  · have hnone := hsingle kind hmem text htext (by rw [hfirst]; simpa using hc)
    cases hsecond.symm.trans hnone
  · have hd := hangle kind hmem text htext (by rw [hfirst]; simpa using hc)
    rw [hfirst, hsecond] at hd
    simp [hne, hequals] at hd

/-- Two closing brackets, unless they are the beginning of an assignment. -/
theorem symbol_shr (h : cs.head? ≠ some '=') :
    symbol '>' ('>' :: cs) = (.token (.operator (.binary .shr)), 1) := by
  have hshr : TokenKind.ofSymbol? (String.ofList ['>', '>']) =
      some (.operator (.binary .shr)) := by decide
  unfold symbol
  cases cs with
  | nil =>
    simp only [List.take_succ_cons, List.take_nil, List.findSome?_cons, hshr]
    rfl
  | cons e cs =>
    have hnone : TokenKind.ofSymbol? (String.ofList ['>', '>', e]) = none := by
      have hall : ∀ kind ∈ TokenKind.symbols, ∀ text, kind.symbol? = some text →
          text.toList[0]? = some '>' → text.toList[2]? ∈ [none, some '='] := by
        decide
      refine TokenKind.ofSymbol?_eq_none fun kind hmem htext => ?_
      have hthird := hall kind hmem _ htext (by rw [String.toList_ofList]; rfl)
      rw [String.toList_ofList] at hthird
      simp only [List.mem_cons, List.not_mem_nil, or_false] at hthird
      rcases hthird with hthird | hthird
      · cases hthird
      · exact h hthird
    simp only [List.take_succ_cons, List.take_zero, List.findSome?_cons, hshr, hnone]
    rfl

end Piece

/-! ### Cutting -/

/-- The characters are cut into tokens of these kinds, brackets apart. -/
def Cuts (cs : List Char) (ks : List TokenKind) : Prop :=
  ∀ offset line, ∃ ts, Token.cutFrom offset line 0 cs = .ok ts ∧ Token.halves ts = ks

theorem Cuts.nil : Cuts [] [] := fun _ _ => ⟨[], rfl, rfl⟩

theorem Cuts.token {c : Char} {cs : List Char} {kind : TokenKind} {more : Nat}
    {ks : List TokenKind} (h : piece c cs = (.token kind, more)) (hrest : Cuts (cs.drop more) ks) :
    Cuts (c :: cs) (kind.halves ++ ks) := by
  intro offset line
  obtain ⟨ts, hts, rfl⟩ := hrest (offset + byteLength (c :: cs.take more)) line
  rw [Token.cutFrom, h]
  dsimp only
  rw [Token.cutFrom_skip, hts]
  exact ⟨_, rfl, rfl⟩

theorem Cuts.blank {cs : List Char} {ks : List TokenKind} (hrest : Cuts cs ks) :
    Cuts (' ' :: cs) ks := by
  intro offset line
  exact hrest (offset + 1) line

/-- How some characters are cut. One bracket may be taken away, since it may become the second one
of a `>>` when brackets are put in front. -/
structure Lexes (cs : List Char) (ks : List TokenKind) : Prop where
  cuts : Cuts cs ks
  head : cs.head? ≠ some '='
  tail : ∀ cs', cs = '>' :: cs' →
    ∃ ks', ks = .operator (.binary .gt) :: ks' ∧ Cuts cs' ks' ∧ cs'.head? ≠ some '='

namespace Lexes

variable {c : Char} {cs rest : List Char} {ks : List TokenKind}

theorem of_cuts (h : Cuts (c :: cs) ks) (hc : c ≠ '=' ∧ c ≠ '>') : Lexes (c :: cs) ks where
  cuts := h
  head heq := hc.1 (Option.some.inj heq)
  tail _ heq := absurd (List.cons.inj heq).1 hc.2

theorem nil : Lexes [] [] := ⟨.nil, nofun, nofun⟩

/-- A closing bracket goes together with the next one, if that does not go with yet another. -/
theorem gt (h : Lexes rest ks) : Lexes ('>' :: rest) (.operator (.binary .gt) :: ks) where
  cuts := by
    by_cases hnext : rest.head? = some '>'
    · obtain ⟨cs, rfl⟩ : ∃ cs, rest = '>' :: cs := List.head?_eq_some_iff.1 hnext
      obtain ⟨ks', rfl, hcuts, hhead⟩ := h.tail cs rfl
      have hpiece : piece '>' ('>' :: cs) = (.token (.operator (.binary .shr)), 1) :=
        Piece.symbol_shr hhead
      exact hcuts.token hpiece
    · have hpiece : piece '>' rest = (.token (.operator (.binary .gt)), 0) := by
        refine Piece.symbol_alone (by decide) fun d hd => ?_
        refine Piece.noPair_of (.inr ⟨by decide, ?_, ?_⟩)
        · rintro rfl
          exact hnext hd
        · rintro rfl
          exact h.head hd
      exact h.cuts.token hpiece
  head := nofun
  tail cs' heq := by
    obtain rfl := (List.cons.inj heq).2
    exact ⟨ks, rfl, h.cuts, h.head⟩

theorem lt (h : Lexes rest ks) (hrest : ∀ c ∈ rest.head?, Piece.isWordStart c = true) :
    Lexes ('<' :: rest) (.operator (.binary .lt) :: ks) := by
  have hpiece : piece '<' rest = (.token (.operator (.binary .lt)), 0) := by
    refine Piece.symbol_alone (by decide) fun d hd => ?_
    have hd := hrest d hd
    exact Piece.noPair_of (.inr ⟨by decide, Piece.ne_of_test hd (by decide),
      Piece.ne_of_test hd (by decide)⟩)
  exact .of_cuts (h.cuts.token hpiece) (by decide)

theorem comma (h : Lexes rest ks) : Lexes (',' :: ' ' :: rest) (.comma :: ks) := by
  have hpiece : piece ',' (' ' :: rest) = (.token .comma, 0) :=
    Piece.symbol_alone (by decide) fun d _ => Piece.noPair_of (.inl (by decide))
  exact .of_cuts (h.cuts.blank.token hpiece) (by decide)

theorem square (h : Lexes rest ks) :
    Lexes ('[' :: ']' :: rest) (.opening .square :: .closing .square :: ks) := by
  have hopening : piece '[' (']' :: rest) = (.token (.opening .square), 0) :=
    Piece.symbol_alone (by decide) fun d _ => Piece.noPair_of (.inl (by decide))
  have hclosing : piece ']' rest = (.token (.closing .square), 0) :=
    Piece.symbol_alone (by decide) fun d _ => Piece.noPair_of (.inl (by decide))
  exact .of_cuts (Cuts.token hopening (h.cuts.token hclosing)) (by decide)

theorem name {name : String} (hname : IsName name) (hrest : Piece.EndsWord rest)
    (h : Lexes rest ks) : Lexes (name.toList ++ rest) (.ident name [] :: ks) := by
  have hword : Piece.word name = .ident name [] := by
    rw [Piece.word, TokenKind.ofSymbol?_of_isName hname]
    rfl
  obtain ⟨c, cs, hcs, hstart, hpart⟩ := exists_of_isIdentifier hname.1
  have hpiece := Piece.piece_word (cs ++ rest) hstart
  rw [Piece.takeWhile_word hpart hrest, ← hcs, String.ofList_toList, hword] at hpiece
  have hdrop : (cs ++ rest).drop cs.length = rest := List.drop_left
  rw [hcs]
  refine .of_cuts (Cuts.token hpiece ?_)
    ⟨Piece.ne_of_test hstart (by decide), Piece.ne_of_test hstart (by decide)⟩
  rw [hdrop]
  exact h.cuts

end Lexes

namespace TypeRef

theorem toList_text_cons (name : String) (arg : TypeRef) (args : List TypeRef) :
    (named name (arg :: args)).text.toList =
      name.toList ++ '<' :: (arg.text.toList ++ ((restText args).toList ++ ['>'])) := by
  simp [text, toString]

theorem toList_restText_cons (arg : TypeRef) (args : List TypeRef) :
    (restText (arg :: args)).toList =
      ',' :: ' ' :: (arg.text.toList ++ (restText args).toList) := by
  simp [restText, toString]

theorem head_name {name : String} (h : IsName name) (rest : List Char) :
    ∀ c ∈ (name.toList ++ rest).head?, Piece.isWordStart c = true := by
  obtain ⟨c, cs, hcs, hstart, -⟩ := exists_of_isIdentifier h.1
  rw [hcs]
  rintro _ ⟨⟩
  exact hstart

/-- A written type begins with a name. -/
theorem head_text : ∀ p : TypeRef, (∀ name ∈ p.names, IsName name) →
    ∀ rest, ∀ c ∈ (p.text.toList ++ rest).head?, Piece.isWordStart c = true
  | .array elem, h, rest => by
    rw [text, String.toList_append, List.append_assoc]
    exact head_text elem h _
  | .named name [], h, rest => by
    rw [text]
    exact head_name (h name (.head _)) rest
  | .named name (arg :: args), h, rest => by
    rw [toList_text_cons, List.append_assoc]
    exact head_name (h name (.head _)) _

/-- Behind an argument there is a comma or the closing bracket. -/
theorem endsWord_restText (args : List TypeRef) {rest : List Char} (h : Piece.EndsWord rest) :
    Piece.EndsWord ((restText args).toList ++ rest) := by
  cases args with
  | nil => exact h
  | cons arg args =>
    rw [toList_restText_cons]
    rintro _ ⟨⟩
    decide

mutual

/-- **A written type is cut into the tokens that it is written with.** -/
theorem lexes_text : ∀ (p : TypeRef), (∀ name ∈ p.names, IsName name) →
    ∀ {rest : List Char} {ks : List TokenKind}, Piece.EndsWord rest → Lexes rest ks →
      Lexes (p.text.toList ++ rest) (p.spelling ++ ks)
  | .named name [], h, rest, ks, hrest, hks => by
    rw [text, spelling]
    exact .name (h name (.head _)) hrest hks
  | .named name (arg :: args), h, rest, ks, hrest, hks => by
    obtain ⟨harg, hargs⟩ : (∀ x ∈ arg.names, IsName x) ∧ ∀ x ∈ allNames args, IsName x := by
      simp only [names, allNames, List.forall_mem_cons, List.forall_mem_append] at h
      exact h.2
    have hclosed : Piece.EndsWord ('>' :: rest) := by rintro _ ⟨⟩; decide
    have hrestText := lexes_restText args hargs hclosed hks.gt
    have htext := lexes_text arg harg (endsWord_restText args hclosed) hrestText
    have hopened := htext.lt (head_text arg harg _)
    have hname := Lexes.name (h name (.head _)) (by rintro _ ⟨⟩; decide) hopened
    rw [toList_text_cons, spelling]
    simpa using hname
  | .array elem, h, rest, ks, hrest, hks => by
    rw [text, spelling, String.toList_append, List.append_assoc, List.append_assoc]
    exact lexes_text elem h (by rintro _ ⟨⟩; decide) hks.square

theorem lexes_restText : ∀ (args : List TypeRef), (∀ name ∈ allNames args, IsName name) →
    ∀ {rest : List Char} {ks : List TokenKind}, Piece.EndsWord rest → Lexes rest ks →
      Lexes ((restText args).toList ++ rest) (restSpelling args ++ ks)
  | [], _, rest, ks, hrest, hks => by
    rw [restText, restSpelling]
    exact hks
  | arg :: args, h, rest, ks, hrest, hks => by
    obtain ⟨harg, hargs⟩ := List.forall_mem_append.1 h
    have hrestText := lexes_restText args hargs hrest hks
    have htext := lexes_text arg harg (endsWord_restText args hrest) hrestText
    rw [toList_restText_cons, restSpelling]
    simpa using htext.comma

end

end TypeRef

end TypedExpr
