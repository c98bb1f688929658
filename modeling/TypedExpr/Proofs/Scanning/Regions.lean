import Mathlib.Data.List.Count
import Mathlib.Data.List.TakeWhile
import Mathlib.Tactic.SplitIfs
import TypedExpr.Token.Lexeme
/-!
# Code, comments and literals

Every character of a source text stands in a comment, in a string literal, or in the code outside of
both. This can be told from left to right, character by character, without knowing what the tokens
are: a comment goes from two slashes to the end of the line, a literal from quote to quote, where a
backslash takes the next character along.

* `marks`: the characters of a text, each with its region.
* `Piece.Stretch`: a piece that lies in one region, with nothing of it left open behind.
* `Piece.lies_piece`: every piece of a text is one.
* `TokenKind.angles`, `TokenKind.lists`: the closing brackets of a token.
* `Token.Cut`: the tokens of a text, piece by piece.
-/

namespace TypedExpr

/-- Where a character of a source text stands. -/
inductive Region where
  | code
  | comment
  | literal
  deriving DecidableEq, Repr

/-- The characters with their regions, the first of them in a region. In a literal it counts whether
a backslash comes before. -/
def marksFrom : Region → Bool → List Char → List (Char × Region)
  | _, _, [] => []
  | .code, _, c :: cs =>
    if c = '"' then (c, .literal) :: marksFrom .literal false cs
    else if c = '/' ∧ cs.head? = some '/' then (c, .comment) :: marksFrom .comment false cs
    else (c, .code) :: marksFrom .code false cs
  | .comment, _, c :: cs =>
    if c = '\n' then (c, .code) :: marksFrom .code false cs
    else (c, .comment) :: marksFrom .comment false cs
  | .literal, escaped, c :: cs =>
    (c, .literal) ::
      if escaped then marksFrom .literal false cs
      else if c = '\\' then marksFrom .literal true cs
      else if c = '"' then marksFrom .code false cs
      else marksFrom .literal false cs

/-- The characters of a text with their regions. -/
def marks (cs : List Char) : List (Char × Region) := marksFrom .code false cs

/-- A character that separates tokens. -/
def isBlank (c : Char) : Bool := c = ' ' || c = '\t' || c = '\r' || c = '\n'

/-- The character is neither blank nor in a comment. -/
def isSignificant (m : Char × Region) : Bool :=
  m.2 = .literal || m.2 = .code && !isBlank m.1

example : marks "1/\"/\"//\"".toList = [('1', .code), ('/', .code), ('"', .literal),
    ('/', .literal), ('"', .literal), ('/', .comment), ('/', .comment), ('"', .comment)] := by
  decide

namespace Piece

/-- The characters `w` lie in one region, and `rest` begins in the code. -/
def Stretch (r : Region) (w rest : List Char) : Prop :=
  marks (w ++ rest) = w.map (·, r) ++ marks rest

variable {c : Char} {w cs : List Char} {more : Nat}

/-! ### Comments and literals -/

theorem marksFrom_comment (h : ∀ c ∈ w, c ≠ '\n') (rest : List Char) :
    marksFrom .comment false (w ++ rest) =
      w.map (·, .comment) ++ marksFrom .comment false rest := by
  induction w with
  | nil => rfl
  | cons c w ih =>
    rw [List.cons_append, marksFrom, if_neg (h c (.head _)), ih fun d hd => h d (.tail _ hd)]
    rfl

/-- A comment ends with its line. -/
theorem marksFrom_comment_end {rest : List Char} (h : rest = [] ∨ rest.head? = some '\n') :
    marksFrom .comment false rest = marks rest := by
  rcases h with rfl | h
  · rfl
  · cases rest with
    | nil => rfl
    | cons c cs =>
      obtain rfl : c = '\n' := Option.some.inj h
      rfl

theorem stretch_comment (h : cs.head? = some '/') :
    Stretch .comment ('/' :: cs.takeWhile (· ≠ '\n')) (cs.dropWhile (· ≠ '\n')) := by
  have hw : ∀ c ∈ cs.takeWhile (· ≠ '\n'), c ≠ '\n' := fun c hc => by
    simpa using List.mem_takeWhile_imp hc
  have hrest : cs.dropWhile (· ≠ '\n') = [] ∨ (cs.dropWhile (· ≠ '\n')).head? = some '\n' := by
    cases hd : cs.dropWhile (· ≠ '\n') with
    | nil => exact .inl rfl
    | cons c ds =>
      have hc := List.head?_dropWhile_not (· ≠ '\n') cs
      rw [hd] at hc
      simpa using hc
  have hslash : (cs.takeWhile (· ≠ '\n') ++ cs.dropWhile (· ≠ '\n')).head? = some '/' := by
    rwa [List.takeWhile_append_dropWhile]
  unfold Stretch
  rw [List.cons_append, marks, marksFrom, if_neg (by decide), if_pos ⟨rfl, hslash⟩,
    marksFrom_comment hw, marksFrom_comment_end hrest]
  rfl

/-- What is left of a literal, up to its closing quote. -/
theorem marksFrom_literal (h : Text.isClosed cs = true) : ∃ rest,
    cs = Text.literalBody cs ++ '"' :: rest ∧
      marksFrom .literal false cs =
        (Text.literalBody cs ++ ['"']).map (·, .literal) ++ marks rest := by
  fun_induction Text.literalBody cs with
  | case1 | case3 | case4 | case5 => simp [Text.isClosed] at h
  | case2 cs => exact ⟨cs, rfl, rfl⟩
  | case6 c cs hc ih =>
    simp only [Text.isClosed] at h
    obtain ⟨rest, hcs, hmarks⟩ := ih h
    exact ⟨rest, by simp [← hcs], by simp [marksFrom, hmarks]⟩
  | case7 c cs hquote hline hlast hbroken hpair ih =>
    simp only [Text.isClosed] at h
    obtain ⟨rest, hcs, hmarks⟩ := ih h
    have hescape : c ≠ '\\' := by
      intro hc
      cases cs with
      | nil => exact hlast hc rfl
      | cons d ds => exact hpair d ds hc rfl
    have hquote : c ≠ '"' := hquote
    exact ⟨rest, by simp [← hcs], by simp [marksFrom, hescape, hquote, hmarks]⟩

/-- A literal, from quote to quote. -/
theorem stretch_literal (h : Text.isClosed cs = true) :
    Stretch .literal ('"' :: cs.take ((Text.literalBody cs).length + 1))
      (cs.drop ((Text.literalBody cs).length + 1)) := by
  obtain ⟨rest, hcs, hmarks⟩ := marksFrom_literal h
  have htake : (Text.literalBody cs ++ '"' :: rest).take ((Text.literalBody cs).length + 1) =
      Text.literalBody cs ++ ['"'] := by simp [List.take_append, List.take_of_length_le]
  have hdrop : (Text.literalBody cs ++ '"' :: rest).drop ((Text.literalBody cs).length + 1) =
      rest := by simp [List.drop_append]
  rw [← hcs] at htake hdrop
  unfold Stretch
  rw [List.cons_append, List.take_append_drop, marks, marksFrom, if_pos rfl, hmarks, htake, hdrop]
  rfl

/-! ### Code -/

theorem stretch_of_plain (h : ∀ c ∈ w, c ≠ '"' ∧ c ≠ '/') (rest : List Char) :
    Stretch .code w rest := by
  unfold Stretch
  induction w with
  | nil => rfl
  | cons c w ih =>
    obtain ⟨hquote, hslash⟩ := h c (.head _)
    have hopens : ¬(c = '/' ∧ (w ++ rest).head? = some '/') := fun hc => hslash hc.1
    rw [List.cons_append, marks, marksFrom, if_neg hquote, if_neg hopens]
    exact congrArg _ (ih fun d hd => h d (.tail _ hd))

/-- Only the first character may be a slash, and it does not open a comment. -/
theorem stretch_code (hquote : c ≠ '"') (hopens : ¬(c = '/' ∧ cs.head? = some '/'))
    (h : ∀ d ∈ cs.take more, d ≠ '"' ∧ d ≠ '/') :
    Stretch .code (c :: cs.take more) (cs.drop more) := by
  unfold Stretch
  rw [List.cons_append, marks, marksFrom, List.take_append_drop, if_neg hquote, if_neg hopens]
  have hmore := stretch_of_plain h (cs.drop more)
  unfold Stretch at hmore
  rw [List.take_append_drop] at hmore
  exact congrArg _ hmore

end Piece

/-! ### The brackets of a token -/

mutual

/-- How many lists of type arguments a reference has in it. -/
def TypeRef.lists : TypeRef → Nat
  | .named _ [] => 0
  | .named _ (arg :: args) => arg.lists + allLists args + 1
  | .array elem => elem.lists

/-- How many lists of type arguments several references have in them. -/
def TypeRef.allLists : List TypeRef → Nat
  | [] => 0
  | ref :: refs => ref.lists + allLists refs

end

namespace TokenKind

/-- How many `>` an operator is written with. -/
def angles : TokenKind → Nat
  | .operator op => op.symbol.toList.count '>'
  | _ => 0

/-- How many lists of type arguments are closed in a token. -/
def lists : TokenKind → Nat
  | .ident name args => (TypeRef.named name args).lists
  | .type ref => ref.lists
  | _ => 0

theorem angles_of_symbol? {kind : TokenKind} {text : String} (h : kind.symbol? = some text) :
    kind.angles = text.toList.count '>' := by
  cases kind with
  | operator op => cases h; rfl
  | bool b => cases b <;> cases h <;> decide
  | opening b | closing b => cases b <;> cases h <;> decide
  | new | dot | comma | semicolon | colon => cases h; decide
  | int | double | str | ident | type | eof => cases h

theorem lists_of_symbol? {kind : TokenKind} {text : String} (h : kind.symbol? = some text) :
    kind.lists = 0 := by
  cases kind <;> first | rfl | cases h

theorem ofSymbol?_spec {kind : TokenKind} {text : String} (h : ofSymbol? text = some kind) :
    kind ∈ symbols ∧ kind.symbol? = some text := by
  unfold ofSymbol? at h
  exact ⟨List.mem_of_find?_eq_some h, by simpa using List.find?_some h⟩

/-- A text that no symbol has. -/
theorem ofSymbol?_eq_none {text : String} (h : ∀ kind ∈ symbols, kind.symbol? ≠ some text) :
    ofSymbol? text = none := by
  cases hkind : ofSymbol? text with
  | none => rfl
  | some kind =>
    obtain ⟨hmem, htext⟩ := ofSymbol?_spec hkind
    exact absurd htext (h kind hmem)

/-- The characters of a symbol: none is blank or a quote, and only the first may be a slash. -/
def IsSymbol (cs : List Char) : Prop :=
  (∀ c ∈ cs, isBlank c = false ∧ c ≠ '"') ∧ ∀ c ∈ cs.tail, c ≠ '/'

theorem isSymbol_of_ofSymbol? {w : List Char} {kind : TokenKind}
    (h : ofSymbol? (String.ofList w) = some kind) : IsSymbol w := by
  have hall : ∀ kind ∈ symbols, ∀ text, kind.symbol? = some text →
      text.toList.all (fun c => !isBlank c && c != '"') = true ∧
        text.toList.tail.all (· != '/') = true := by
    decide
  obtain ⟨hmem, htext⟩ := ofSymbol?_spec h
  have hchars := hall kind hmem _ htext
  rw [String.toList_ofList] at hchars
  simpa [IsSymbol] using hchars

end TokenKind

namespace Piece

variable {c : Char} {w cs : List Char} {what : Piece} {kind : TokenKind} {more : Nat}

/-! ### Tokens -/

/-- How the characters of a token are, all of them in one region. -/
structure Spells (kind : TokenKind) (r : Region) (w : List Char) : Prop where
  significant : ∀ c ∈ w, isSignificant (c, r)
  angles : (w.map (·, r)).count ('>', .code) = kind.angles
  lists : kind.lists = 0
  inner : kind ≠ .eof
  pair : kind = .operator (.binary .shr) → w = ['>', '>']

/-- A character that words and numbers are made of. -/
def isPlain (c : Char) : Bool := isWordPart c || c = '.' || c = '+' || c = '-'

/-- Two characters that a test tells apart. -/
theorem ne_of_test {p : Char → Bool} {d : Char} (h : p c = true) (hd : p d = false) : c ≠ d := by
  rintro rfl
  exact Bool.false_ne_true (hd.symm.trans h)

theorem of_isPlain (h : isPlain c = true) :
    c ≠ '"' ∧ c ≠ '/' ∧ c ≠ '>' ∧ isBlank c = false := by
  have hne {d : Char} (hd : isPlain d = false) : c ≠ d := ne_of_test h hd
  refine ⟨hne (by decide), hne (by decide), hne (by decide), ?_⟩
  have hspace : c ≠ ' ' := hne (by decide)
  have htab : c ≠ '\t' := hne (by decide)
  have hreturn : c ≠ '\r' := hne (by decide)
  have hline : c ≠ '\n' := hne (by decide)
  simp [isBlank, hspace, htab, hreturn, hline]

theorem isPlain_of_isDigit (h : c.isDigit = true) : isPlain c = true := by
  simp [isPlain, isWordPart, h]

theorem spells_of_plain (h : ∀ d ∈ w, isPlain d = true) (hangles : kind.angles = 0)
    (hlists : kind.lists = 0) (hinner : kind ≠ .eof) : Spells kind .code w where
  significant d hd := by simp [isSignificant, (of_isPlain (h d hd)).2.2.2]
  angles := by
    rw [hangles, List.count_eq_zero]
    intro hmem
    obtain ⟨d, hd, heq⟩ := List.mem_map.1 hmem
    exact (of_isPlain (h d hd)).2.2.1 (congrArg Prod.fst heq)
  lists := hlists
  inner := hinner
  pair hkind := by
    rw [hkind] at hangles
    exact absurd hangles (by decide)

theorem spells_of_symbol (h : TokenKind.ofSymbol? (String.ofList w) = some kind) :
    Spells kind .code w := by
  obtain ⟨-, hsymbol⟩ := TokenKind.ofSymbol?_spec h
  have hchars := TokenKind.isSymbol_of_ofSymbol? h
  constructor
  · intro d hd
    simp [isSignificant, (hchars.1 d hd).1]
  · rw [TokenKind.angles_of_symbol? hsymbol, String.toList_ofList,
      List.count_map_of_injective _ (fun c : Char => (c, Region.code)) fun _ _ => congrArg Prod.fst]
  · exact TokenKind.lists_of_symbol? hsymbol
  · rintro rfl
    cases hsymbol
  · rintro rfl
    have hw : ">>" = String.ofList w := Option.some.inj hsymbol
    rw [← String.toList_ofList (l := w), ← hw]
    rfl

/-! ### Numbers -/

theorem exponent_spec {mark : List Char} (cs : List Char) (hmark : mark.all isPlain = true) :
    exponent mark cs <+: mark ++ cs ∧ ∀ d ∈ exponent mark cs, isPlain d = true := by
  unfold exponent
  dsimp only
  split
  · exact ⟨List.nil_prefix, nofun⟩
  · refine ⟨(List.prefix_append_right_inj mark).2 (List.takeWhile_prefix _), fun d hd => ?_⟩
    rcases List.mem_append.1 hd with hd | hd
    · exact List.all_eq_true.1 hmark d hd
    · exact isPlain_of_isDigit (List.mem_takeWhile_imp hd)

theorem exponentPart_spec (cs : List Char) :
    exponentPart cs <+: cs ∧ ∀ d ∈ exponentPart cs, isPlain d = true := by
  unfold exponentPart
  split
  case h_7 => exact ⟨List.nil_prefix, nofun⟩
  all_goals exact exponent_spec _ (by decide)

theorem fractionPart_spec (cs : List Char) :
    fractionPart cs <+: cs ∧ ∀ d ∈ fractionPart cs, isPlain d = true := by
  unfold fractionPart
  split
  · rename_i cs
    dsimp only
    split
    · exact ⟨List.nil_prefix, nofun⟩
    · obtain ⟨hbegin, hplain⟩ := exponentPart_spec (cs.dropWhile Char.isDigit)
      constructor
      · have hall := (List.prefix_append_right_inj ('.' :: cs.takeWhile Char.isDigit)).2 hbegin
        have hcs : '.' :: cs.takeWhile Char.isDigit ++ cs.dropWhile Char.isDigit = '.' :: cs :=
          congrArg _ List.takeWhile_append_dropWhile
        rwa [hcs] at hall
      · intro d hd
        rcases List.mem_append.1 hd with hd | hd
        · rcases List.mem_cons.1 hd with rfl | hd
          · decide
          · exact isPlain_of_isDigit (List.mem_takeWhile_imp hd)
        · exact hplain d hd
  · exact ⟨List.nil_prefix, nofun⟩

/-! ### All pieces -/

/-- What is known of a piece with the characters `w` when `rest` is behind it. -/
def Lies (what : Piece) (w rest : List Char) : Prop :=
  match what with
  | .token kind => ∃ r, Stretch r w rest ∧ Spells kind r w
  | .blank | .lineEnd => ∃ r, Stretch r w rest ∧ ∀ c ∈ w, isSignificant (c, r) = false
  | .junk => True

theorem stretch_plain (h : ∀ d ∈ w, isPlain d = true) (rest : List Char) :
    Stretch .code w rest :=
  stretch_of_plain (fun d hd => ⟨(of_isPlain (h d hd)).1, (of_isPlain (h d hd)).2.1⟩) rest

theorem lies_blank (h : isBlank c = true) (rest : List Char) : Lies .blank [c] rest := by
  refine ⟨.code, stretch_of_plain (List.forall_mem_singleton.2 ⟨?_, ?_⟩) rest, ?_⟩
  · exact ne_of_test h (by decide)
  · exact ne_of_test h (by decide)
  · simp [isSignificant, h]

theorem take_takeWhile (p : Char → Bool) (cs : List Char) :
    cs.take (cs.takeWhile p).length = cs.takeWhile p := by
  have h : (cs.takeWhile p ++ cs.dropWhile p).take (cs.takeWhile p).length = cs.takeWhile p :=
    List.take_left
  rwa [List.takeWhile_append_dropWhile] at h

theorem drop_takeWhile (p : Char → Bool) (cs : List Char) :
    cs.drop (cs.takeWhile p).length = cs.dropWhile p := by
  have h : (cs.takeWhile p ++ cs.dropWhile p).drop (cs.takeWhile p).length = cs.dropWhile p :=
    List.drop_left
  rwa [List.takeWhile_append_dropWhile] at h

/-- A word is a keyword or a name. -/
theorem lies_word (h : ∀ d ∈ w, isPlain d = true) (rest : List Char) :
    Lies (.token (word (String.ofList w))) w rest := by
  refine ⟨.code, stretch_plain h rest, ?_⟩
  unfold word
  cases hsymbol : TokenKind.ofSymbol? (String.ofList w) with
  | none => exact spells_of_plain h rfl rfl nofun
  | some kind => exact spells_of_symbol hsymbol

theorem lies_number (cs : List Char) (h : c.isDigit = true) :
    (number c cs).1.Lies (c :: cs.take (number c cs).2) (cs.drop (number c cs).2) := by
  have hc : isPlain c = true := isPlain_of_isDigit h
  have hdigits : ∀ d ∈ cs.takeWhile Char.isDigit, isPlain d = true := fun d hd =>
    isPlain_of_isDigit (List.mem_takeWhile_imp hd)
  unfold number
  dsimp only
  split_ifs
  · have hplain : ∀ d ∈ c :: cs.takeWhile Char.isDigit, isPlain d = true :=
      List.forall_mem_cons.2 ⟨hc, hdigits⟩
    rw [take_takeWhile]
    exact ⟨.code, stretch_plain hplain _, spells_of_plain hplain rfl rfl nofun⟩
  · trivial
  · obtain ⟨hbegin, hfraction⟩ := fractionPart_spec (cs.dropWhile Char.isDigit)
    have hall := (List.prefix_append_right_inj (cs.takeWhile Char.isDigit)).2 hbegin
    rw [List.takeWhile_append_dropWhile] at hall
    have htake := List.prefix_iff_eq_take.1 hall
    rw [List.length_append] at htake
    have hplain : ∀ d ∈ c :: (cs.takeWhile Char.isDigit ++
        fractionPart (cs.dropWhile Char.isDigit)), isPlain d = true :=
      List.forall_mem_cons.2 ⟨hc, List.forall_mem_append.2 ⟨hdigits, hfraction⟩⟩
    rw [← htake]
    exact ⟨.code, stretch_plain hplain _, spells_of_plain hplain rfl rfl nofun⟩

theorem lies_str (cs : List Char) :
    (str cs).1.Lies ('"' :: cs.take (str cs).2) (cs.drop (str cs).2) := by
  unfold str
  dsimp only
  split_ifs with hclosed
  · refine ⟨.literal, stretch_literal hclosed, by simp [isSignificant], ?_, rfl, nofun, nofun⟩
    refine List.count_eq_zero.2 fun hmem => ?_
    obtain ⟨d, -, heq⟩ := List.mem_map.1 hmem
    cases heq
  · trivial

theorem lies_symbol (hquote : c ≠ '"') (hopens : ¬(c = '/' ∧ cs.head? = some '/')) :
    (symbol c cs).1.Lies (c :: cs.take (symbol c cs).2) (cs.drop (symbol c cs).2) := by
  unfold symbol
  dsimp only
  cases hfound : [cs.take 2, cs.take 1, []].findSome? fun more =>
      (TokenKind.ofSymbol? (String.ofList (c :: more))).map fun kind =>
        (Piece.token kind, more.length) with
  | none => trivial
  | some found =>
    obtain ⟨w, hw, hsome⟩ := List.exists_of_findSome?_eq_some hfound
    obtain ⟨kind, hkind, rfl⟩ := Option.map_eq_some_iff.1 hsome
    have htake : cs.take w.length = w := by
      simp only [List.mem_cons, List.not_mem_nil, or_false] at hw
      rcases hw with rfl | rfl | rfl
      · simp
      · simp
      · rfl
    have hchars := TokenKind.isSymbol_of_ofSymbol? hkind
    rw [Option.getD_some]
    refine ⟨.code, stretch_code hquote hopens fun d hd => ?_, ?_⟩
    · rw [htake] at hd
      exact ⟨(hchars.1 d (.tail _ hd)).2, hchars.2 d hd⟩
    · exact htake.symm ▸ spells_of_symbol hkind

/-- **A piece lies in one region, and what is behind it begins in the code.** A token is made of
characters that matter, and no other piece is. -/
theorem lies_piece (h : piece c cs = (what, more)) :
    what.Lies (c :: cs.take more) (cs.drop more) := by
  unfold piece at h
  split_ifs at h with hline hblank hcomment hstart hdigit hquote
  · cases h
    exact lies_blank (by simp [isBlank, hline]) cs
  · cases h
    exact lies_blank (by rcases hblank with rfl | rfl | rfl <;> decide) cs
  · cases h
    obtain ⟨rfl, hslash⟩ := hcomment
    rw [take_takeWhile, drop_takeWhile]
    exact ⟨.comment, stretch_comment hslash, by simp [isSignificant]⟩
  · cases h
    rw [take_takeWhile]
    refine lies_word (List.forall_mem_cons.2 ⟨?_, fun d hd => ?_⟩) _
    · simp [isPlain, isWordPart, hstart]
    · simp [isPlain, List.mem_takeWhile_imp hd]
  · have hlies := lies_number cs hdigit
    rwa [h] at hlies
  · subst hquote
    have hlies := lies_str cs
    rwa [h] at hlies
  · have hlies := lies_symbol hquote hcomment
    rwa [h] at hlies

end Piece

/-! ### All tokens -/

/-- The tokens of some characters, which begin at a byte offset: one piece after the other, each in
one region, and the tokens are the pieces with characters that matter. -/
inductive Token.Cut : Nat → List Char → List Token → Prop
  | nil (offset : Nat) : Cut offset [] []
  | gap {offset : Nat} {w rest : List Char} {ts : List Token} {r : Region} (hw : w ≠ [])
      (hlies : Piece.Stretch r w rest) (hgap : ∀ c ∈ w, isSignificant (c, r) = false)
      (hrest : Cut (offset + byteLength w) rest ts) : Cut offset (w ++ rest) ts
  | token {offset line : Nat} {w rest : List Char} {ts : List Token} {r : Region}
      {kind : TokenKind} (hw : w ≠ []) (hlies : Piece.Stretch r w rest)
      (hspells : Piece.Spells kind r w) (hrest : Cut (offset + byteLength w) rest ts) :
      Cut offset (w ++ rest) (⟨kind, ⟨offset, offset + byteLength w⟩, line⟩ :: ts)

theorem Token.cut_of_cutFrom {offset line skip : Nat} {cs : List Char} {ts : List Token}
    (h : cutFrom offset line skip cs = .ok ts) : Cut offset (cs.drop skip) ts := by
  induction cs generalizing offset line skip ts with
  | nil =>
    cases h
    rw [List.drop_nil]
    exact .nil offset
  | cons c cs ih =>
    cases skip with
    | succ skip => exact ih h
    | zero =>
      rw [cutFrom] at h
      rcases hpiece : piece c cs with ⟨what, more⟩
      have hlies := Piece.lies_piece hpiece
      have hsplit : c :: cs = c :: cs.take more ++ cs.drop more := by simp
      rw [hpiece] at h
      dsimp only at h
      rw [List.drop_zero, hsplit]
      cases what with
      | blank | lineEnd =>
        obtain ⟨r, hstretch, hgap⟩ := hlies
        exact .gap (List.cons_ne_nil _ _) hstretch hgap (ih h)
      | junk => cases h
      | token kind =>
        obtain ⟨r, hstretch, hspells⟩ := hlies
        cases hrest : cutFrom (offset + byteLength (c :: cs.take more)) line more cs with
        | error e =>
          rw [hrest] at h
          cases h
        | ok us =>
          rw [hrest] at h
          cases h
          exact .token (List.cons_ne_nil _ _) hstretch hspells (ih hrest)

/-- The tokens are single pieces of the text. -/
theorem Token.Cut.plain {offset : Nat} {cs : List Char} {ts : List Token} (h : Cut offset cs ts) :
    ∀ t ∈ ts, t.kind.lists = 0 ∧ t.kind ≠ .eof := by
  induction h with
  | nil => nofun
  | gap _ _ _ _ ih => exact ih
  | token _ _ hspells _ ih => exact List.forall_mem_cons.2 ⟨⟨hspells.lists, hspells.inner⟩, ih⟩

/-- **Every text is cut into pieces that each lie in one region.** -/
theorem Token.cut_of_cut {text : String} {ts : List Token} (h : cut text = .ok ts) :
    Cut 0 text.toList ts := by
  have hcut := cut_of_cutFrom h
  rwa [List.drop_zero] at hcut

end TypedExpr
