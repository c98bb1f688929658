import Mathlib.Data.List.Forall2
import TypedExpr.Proofs.Outline
import TypedExpr.Proofs.Scanning.Reading
import TypedExpr.Proofs.Scanning.Regions
/-!
# What recognising type names does

Recognising type names goes along the tokens of a text. At a name it passes on the token as it is,
or joins it with the ones that follow to a type or to the name of a call. Besides, it may leave a
`>>` among the tokens to come without its first bracket.

* `Token.Trimmed`: the same tokens, but some `>>` have lost their first bracket.
* `Reading.stable_trimmed`: no reading of type names does more than that.
* `Token.named_nameToken`: what is done at a name.
* `Token.joins_recognise`: **recognising type names trims tokens and joins neighbours.**
-/

namespace TypedExpr

/-! ### Half of a `>>` -/

namespace Token

/-- The second bracket of a `>>`. -/
def second (t : Token) : Token :=
  ⟨.operator (.binary .gt), ⟨t.span.start + 1, t.span.stop⟩, t.line⟩

/-- A token stays as it is, or is a `>>` of which the second bracket is left. -/
inductive Trims : Token → Token → Prop
  | same (t : Token) : Trims t t
  | second {t : Token} (h : t.kind = .operator (.binary .shr)) : Trims t t.second

/-- Some `>>` have lost their first bracket. -/
abbrev Trimmed : List Token → List Token → Prop := List.Forall₂ Trims

variable {t u v : Token} {ts us vs : List Token}

theorem Trims.trans (h : Trims t u) (h' : Trims u v) : Trims t v := by
  cases h with
  | same => exact h'
  | second h =>
    cases h' with
    | same => exact .second h
    | second h' => cases h'

namespace Trimmed

theorem refl (ts : List Token) : Trimmed ts ts := List.forall₂_same.2 fun t _ => .same t

theorem trans (h : Trimmed ts us) (h' : Trimmed us vs) : Trimmed ts vs := by
  induction h generalizing vs with
  | nil => exact h'
  | cons ht _ ih =>
    cases h' with
    | cons hu hus => exact .cons (ht.trans hu) (ih hus)

theorem tail (h : Trimmed (t :: ts) (u :: us)) : Trimmed ts us := by
  cases h with
  | cons _ h => exact h

theorem append_left (ts : List Token) (h : Trimmed us vs) : Trimmed (ts ++ us) (ts ++ vs) :=
  List.rel_append (refl ts) h

theorem middle (us : List Token) (h : Trims t u) (ts : List Token) :
    Trimmed (us ++ t :: ts) (us ++ u :: ts) := append_left us (.cons h (refl ts))

end Trimmed

theorem exists_trims (h : Trimmed ts us) : ∀ t ∈ ts, ∃ u ∈ us, Trims t u := by
  induction h with
  | nil => nofun
  | cons ht _ ih =>
    refine List.forall_mem_cons.2 ⟨⟨_, .head _, ht⟩, fun t ht => ?_⟩
    obtain ⟨u, hu, htu⟩ := ih t ht
    exact ⟨u, .tail _ hu, htu⟩

theorem exists_trimmed (h : Trimmed ts us) : ∀ u ∈ us, ∃ t ∈ ts, Trims t u := by
  induction h with
  | nil => nofun
  | cons ht _ ih =>
    refine List.forall_mem_cons.2 ⟨⟨_, .head _, ht⟩, fun u hu => ?_⟩
    obtain ⟨t, ht, htu⟩ := ih u hu
    exact ⟨t, .tail _ ht, htu⟩

end Token

/-! ### Reading type names -/

namespace Reading

variable {r : Reading} {t : Token} {ts : List Token}

theorem stable_trimmed (ts : List Token) : Stable fun r => Token.Trimmed ts r.all where
  noted h _ := h
  pass h := by rwa [all_pass]
  cutNext {r} h hnext := by
    obtain ⟨passed, rest, c⟩ := r
    cases rest with
    | nil => cases hnext
    | cons u rest => exact h.trans (.middle _ (.second (Option.some.inj hnext)) rest)

theorem trimmed_typeAt {reg : Registry} {n : Nat} {c : Catalog} {ref? : Option TypeRef}
    (h : typeAt reg n ⟨[], ts, c⟩ = (ref?, r)) : Token.Trimmed ts r.all := by
  have hkeeps := (stable_trimmed ts).typeAt reg n (r := ⟨[], ts, c⟩) (.refl ts)
  exact hkeeps.of_eq h

/-- The token passed first stays the first one. -/
theorem stable_first (t : Token) : Stable fun r => [t] <:+ r.passed where
  noted h _ := h
  pass {r} h := by
    unfold Reading.pass
    split
    · exact h.trans (List.suffix_cons _ _)
    · exact h
  cutNext {r} h _ := by
    unfold Reading.cutNext
    split
    · exact h
    · exact h

end Reading

/-! ### At a name -/

/-- What happens at a name: a type is read, or else the attempt is given up, and there may be the
type arguments of a call. -/
theorem nameToken_cases {reg : Registry} {n : Nat} {t first : Token} {name : String}
    {rest left : List Token} {c c' : Catalog}
    (h : nameToken reg n t name rest c = (first, left, c')) :
    (∃ ref r, typeAt reg n ⟨[], t :: rest, c⟩ = (some ref, r) ∧
      first = ⟨.type ref, r.spanFrom t, t.line⟩ ∧ left = r.rest) ∨
    ∃ r, typeAt reg n ⟨[], t :: rest, c⟩ = (none, r) ∧
      ((∃ args r', callArgsAt reg n ⟨[t], r.all.tail, r.catalog⟩ = (some args, r') ∧
        Reading.next? ⟨[t], r.all.tail, r.catalog⟩ = some (.operator (.binary .lt)) ∧
        first = ⟨.ident name args, r'.spanFrom t, t.line⟩ ∧ left = r'.rest) ∨
      first = t ∧ left = r.all.tail) := by
  unfold nameToken at h
  split at h
  · rename_i ref r hr
    cases h
    exact .inl ⟨ref, r, hr, rfl, rfl⟩
  · rename_i r hr
    refine .inr ⟨r, hr, ?_⟩
    dsimp only at h
    split at h
    · rename_i hopened
      split at h
      · rename_i args r' hr'
        cases h
        exact .inl ⟨args, r', hr', hopened, rfl, rfl⟩
      · cases h
        exact .inr ⟨rfl, rfl⟩
    · cases h
      exact .inr ⟨rfl, rfl⟩

/-- A type or a name: no other token is put together. -/
def TokenKind.isJoined : TokenKind → Bool
  | .type _ | .ident _ _ => true
  | _ => false

namespace Token

/-- A token that begins with `t` and goes up to the end of `mid`. -/
def join (kind : TokenKind) (t : Token) (mid : List Token) : Token :=
  ⟨kind, t.span.merge ((t :: mid).getLast (List.cons_ne_nil _ _)).span, t.line⟩

/-- What stands in place of a name `t` before `rest`, and what is left to come. -/
inductive Named (t : Token) (rest : List Token) : Token → List Token → Prop
  | keep {left : List Token} (h : Trimmed rest left) : Named t rest t left
  | join {mid left : List Token} {kind : TokenKind} (ht : t.kind.isJoined) (hkind : kind.isJoined)
      (h : Trimmed rest (mid ++ left)) : Named t rest (join kind t mid) left

variable {t first : Token} {rest left : List Token}

theorem Named.trans {rest' : List Token} (hrest : Trimmed rest rest')
    (h : Named t rest' first left) : Named t rest first left := by
  cases h with
  | keep h => exact .keep (hrest.trans h)
  | join ht hkind h => exact .join ht hkind (hrest.trans h)

theorem named_of_reading {r : Reading} {kind : TokenKind} (ht : t.kind.isJoined)
    (hkind : kind.isJoined)
    (hall : Trimmed (t :: rest) r.all) (hfirst : [t] <:+ r.passed) :
    Named t rest ⟨kind, r.spanFrom t, t.line⟩ r.rest := by
  obtain ⟨above, habove⟩ := hfirst
  have hpassed : r.passed = (t :: above.reverse).reverse := by simp [← habove]
  have htokens : r.all = t :: (above.reverse ++ r.rest) := by simp [Reading.all, hpassed]
  have hspan : r.spanFrom t =
      t.span.merge ((t :: above.reverse).getLast (List.cons_ne_nil _ _)).span := by
    unfold Reading.spanFrom
    rw [hpassed]
    split
    · rename_i last below hlast
      rw [List.getLast_eq_head_reverse]
      simp only [hlast, List.head_cons]
    · rename_i hnil
      simp at hnil
  rw [htokens] at hall
  rw [hspan]
  exact .join ht hkind hall.tail

theorem named_nameToken {reg : Registry} {n : Nat} {name : String} {c c' : Catalog}
    (ht : t.kind.isJoined) (h : nameToken reg n t name rest c = (first, left, c')) :
    Named t rest first left := by
  obtain ⟨ref, r, hr, rfl, rfl⟩ | ⟨r, hr, h⟩ := nameToken_cases h
  · have hpassed := (Reading.stable_first t).typeAt_of_pass reg n (r := ⟨[], t :: rest, c⟩)
      (List.suffix_refl _)
    exact named_of_reading ht rfl (Reading.trimmed_typeAt hr) (hpassed ref r hr)
  · have htrim := Reading.trimmed_typeAt hr
    -- the tokens when the attempt is given up
    generalize r.all = tokens at htrim h
    cases htrim with
    | @cons _ u _ after hu hafter =>
    rw [List.tail_cons] at h
    obtain ⟨args, r', hr', -, rfl, rfl⟩ | ⟨rfl, rfl⟩ := h
    · have hcall := (Reading.stable_trimmed (t :: after)).callArgsAt reg n
        (r := ⟨[t], after, r.catalog⟩) (.refl _)
      have hpassed := (Reading.stable_first t).callArgsAt reg n (r := ⟨[t], after, r.catalog⟩)
        (List.suffix_refl _)
      exact .trans hafter (named_of_reading ht rfl (hcall.of_eq hr') (hpassed.of_eq hr'))
    · exact .keep hafter

end Token

/-! ### All tokens -/

/-- A reading of a type name that is given up: the tokens before it and after it. -/
structure Abandoned where
  before : List Token
  after : List Token

/-- The reading that is given up at a name, if it is. -/
def abandonedAt (reg : Registry) (n : Nat) (ts : List Token) (c : Catalog) : List Abandoned :=
  match typeAt reg n ⟨[], ts, c⟩ with
  | (some _, _) => []
  | (none, r) => [⟨ts, r.all⟩]

/-- The readings of type names that are given up when the type names of a text are recognised. -/
def abandoned (reg : Registry) : Nat → List Token → Catalog → List Abandoned
  | n + 1, t :: rest, c =>
    match t.kind with
    | .ident name _ =>
      let (_, left, c') := nameToken reg (n + 1) t name rest c
      abandonedAt reg (n + 1) (t :: rest) c ++ abandoned reg n left c'
    | .str s => abandoned reg n rest (c.noteName s)
    | _ => abandoned reg n rest c
  | _, _, _ => []

/-- What happens at a token: a name is looked at, and any other token stays. -/
theorem recognise_cons (reg : Registry) (n : Nat) (t : Token) (rest : List Token) (c : Catalog) :
    ∃ first left c' here,
      (recognise reg (n + 1) (t :: rest) c).1 = first :: (recognise reg n left c').1 ∧
      abandoned reg (n + 1) (t :: rest) c = here ++ abandoned reg n left c' ∧
      ((∃ name args, t.kind = .ident name args ∧
        nameToken reg (n + 1) t name rest c = (first, left, c') ∧
        here = abandonedAt reg (n + 1) (t :: rest) c) ∨
      first = t ∧ left = rest ∧ here = []) := by
  obtain ⟨k, span, line⟩ := t
  cases k with
  | ident name args =>
    rcases hname : nameToken reg (n + 1) ⟨.ident name args, span, line⟩ name rest c with
      ⟨first, left, c'⟩
    refine ⟨first, left, c', _, ?_, ?_, .inl ⟨name, args, rfl, hname, rfl⟩⟩
    · simp only [recognise, hname]
    · simp only [abandoned, hname]
  | str s => exact ⟨_, rest, c.noteName s, [], rfl, rfl, .inr ⟨rfl, rfl, rfl⟩⟩
  | _ => exact ⟨_, rest, c, [], rfl, rfl, .inr ⟨rfl, rfl, rfl⟩⟩

namespace Token

/-- Neighbours are joined, the first of them a name. -/
inductive Joins : List Token → List Token → Prop
  | nil : Joins [] []
  | keep (t : Token) {ts us : List Token} (h : Joins ts us) : Joins (t :: ts) (t :: us)
  | join (t : Token) (mid : List Token) {kind : TokenKind} {ts us : List Token}
      (ht : t.kind.isJoined) (hkind : kind.isJoined) (h : Joins ts us) :
      Joins (t :: (mid ++ ts)) (join kind t mid :: us)

theorem Joins.refl : ∀ ts : List Token, Joins ts ts
  | [] => .nil
  | t :: ts => .keep t (refl ts)

/-- What is no type and no name has not been joined. -/
theorem Joins.mem_of_mem {us out : List Token} {o : Token} (h : Joins us out) (ho : o ∈ out) :
    o.kind.isJoined ∨ o ∈ us := by
  induction h with
  | nil => cases ho
  | keep t h ih =>
    rcases List.mem_cons.1 ho with rfl | ho
    · exact .inr (.head _)
    · exact (ih ho).imp_right (.tail _)
  | join t mid ht hkind h ih =>
    rcases List.mem_cons.1 ho with rfl | ho
    · exact .inl hkind
    · exact (ih ho).imp_right fun hmem => .tail _ (List.mem_append_right _ hmem)

/-- **Recognising type names trims tokens and joins neighbours.** -/
theorem joins_recognise (reg : Registry) (n : Nat) (ts : List Token) (c : Catalog) :
    ∃ us, Trimmed ts us ∧ Joins us (recognise reg n ts c).1 := by
  induction n generalizing ts c with
  | zero => exact ⟨ts, .refl ts, .refl ts⟩
  | succ n ih =>
    cases ts with
    | nil => exact ⟨[], .nil, .nil⟩
    | cons t rest =>
      obtain ⟨first, left, c', here, heq, -, h⟩ := recognise_cons reg n t rest c
      obtain ⟨us, hus, hjoins⟩ := ih left c'
      have hnamed : Named t rest first left := by
        obtain ⟨name, args, hk, hname, -⟩ | ⟨rfl, rfl, -⟩ := h
        · exact named_nameToken (hk ▸ rfl) hname
        · exact .keep (.refl _)
      rw [heq]
      cases hnamed with
      | keep hleft => exact ⟨t :: us, .cons (.same t) (hleft.trans hus), .keep t hjoins⟩
      | @join mid _ kind ht hkind hleft =>
        refine ⟨t :: (mid ++ us), .cons (.same t) ?_, .join t mid ht hkind hjoins⟩
        exact hleft.trans (.append_left mid hus)

end Token

/-- The end of input is not among the tokens before it. -/
theorem TokenList.init_ofTokens {tokens : List Token} (h : ∀ t ∈ tokens, t.kind ≠ .eof) :
    (ofTokens tokens.toArray).init = tokens.toArray := by
  unfold ofTokens
  split
  · rename_i t ht
    have hmem : t ∈ tokens := by
      rw [List.back?_toArray] at ht
      exact List.mem_of_getLast? ht
    rw [dif_neg (h t hmem)]
  · rfl

theorem TokenList.exists_of_ofText {reg : Registry} {text : String} {c c' : Catalog}
    {ts : TokenList} (h : ofText reg text c = .ok (ts, c')) : ∃ raw, Token.cut text = .ok raw ∧
      ts.init.toList = (recognise reg raw.length raw c).1 := by
  unfold ofText at h
  cases hcut : Token.cut text with
  | error e =>
    rw [hcut] at h
    cases h
  | ok raw =>
    rw [hcut] at h
    cases h
    obtain ⟨us, htrim, hjoins⟩ := Token.joins_recognise reg raw.length raw c
    refine ⟨raw, rfl, ?_⟩
    rw [init_ofTokens]
    intro o ho hk
    rcases hjoins.mem_of_mem ho with hjoined | hmem
    · rw [hk] at hjoined
      cases hjoined
    · obtain ⟨t, ht, htrims⟩ := Token.exists_trimmed htrim o hmem
      cases htrims with
      | same => exact ((Token.cut_of_cut hcut).plain o ht).2 hk
      | second => cases hk

theorem TokenList.ofText_of_cut {text : String} {raw : List Token}
    (h : Token.cut text = .ok raw) (reg : Registry) (c : Catalog) : ∃ ts c',
      ofText reg text c = .ok (ts, c') ∧
        ts.init.toList = (recognise reg raw.length raw c).1 := by
  obtain ⟨ts, c', hts⟩ : ∃ ts c', ofText reg text c = .ok (ts, c') := by
    unfold ofText
    rw [h]
    exact ⟨_, _, rfl⟩
  obtain ⟨raw', hraw, hinit⟩ := exists_of_ofText hts
  obtain rfl : raw = raw' := Except.ok.inj (h.symm.trans hraw)
  exact ⟨ts, c', hts, hinit⟩

/-- A registry in which `List` is a generic type. -/
def Registry.lists : Registry := .built .empty [.generic "List" 1]

end TypedExpr
