import TypedExpr.Proofs.Scanning.Recognition
/-!
# The closing brackets of a text

Each `>` in the code of a text belongs to an operator or closes a list of type arguments, unless it
is lost: a reading of a type name that is given up does not mend the `>>` that it has cut, and what
comes after it finds the second bracket only.

* `Token.angles`: the closing brackets that some tokens are written with.
* `Reading.angles_typeAt`: a type takes as many of them as it has lists of type arguments.
* `lost`: how many brackets the readings that are given up take with them.
* `TokenList.closings_of_ofText`: **operators, lists of type arguments and what is lost account for
  every bracket**; nothing is lost just if each of these readings leaves the tokens as they were.
-/

namespace TypedExpr

/-! ### The brackets of tokens -/

namespace Token

/-- How many `>` some tokens are written with. -/
def angles : List Token → Nat
  | [] => 0
  | t :: ts => t.kind.angles + angles ts

@[simp] theorem angles_cons (t : Token) (ts : List Token) :
    angles (t :: ts) = t.kind.angles + angles ts := rfl

theorem angles_shr {t : Token} (h : t.kind = .operator (.binary .shr)) : t.kind.angles = 2 := by
  rw [h]
  decide

theorem angles_second (t : Token) : t.second.kind.angles = 1 := by
  show (TokenKind.operator (.binary .gt)).angles = 1
  decide

variable {ts us : List Token}

theorem Trims.angles_le {t u : Token} (h : Trims t u) : u.kind.angles ≤ t.kind.angles := by
  cases h with
  | same => exact Nat.le_refl _
  | second hk => rw [angles_shr hk, angles_second]; exact Nat.le_succ 1

theorem Trims.eq_of_angles {t u : Token} (h : Trims t u) (heq : u.kind.angles = t.kind.angles) :
    u = t := by
  cases h with
  | same => rfl
  | second hk =>
    rw [angles_shr hk, angles_second] at heq
    cases heq

theorem Trimmed.angles_le (h : Trimmed ts us) : angles us ≤ angles ts := by
  induction h with
  | nil => exact Nat.le_refl _
  | cons ht _ ih => simpa using Nat.add_le_add ht.angles_le ih

/-- Whoever loses a token loses a bracket. -/
theorem Trimmed.eq_of_angles (h : Trimmed ts us) (heq : angles us = angles ts) : us = ts := by
  induction h with
  | nil => rfl
  | @cons t u ts us ht h ih =>
    have hle := ht.angles_le
    have hles := Trimmed.angles_le h
    rw [angles_cons, angles_cons] at heq
    rw [ht.eq_of_angles (by omega), ih (by omega)]

end Token

/-- The brackets in the code of a text are those of its tokens. -/
theorem Token.Cut.count_marks {offset : Nat} {cs : List Char} {ts : List Token}
    (h : Cut offset cs ts) : (marks cs).count ('>', .code) = angles ts := by
  induction h with
  | nil => rfl
  | @gap offset w rest ts r hw hlies hgap hrest ih =>
    have hnone : (w.map (·, r)).count ('>', .code) = 0 := by
      refine List.count_eq_zero.2 fun hmem => ?_
      obtain ⟨c, hc, heq⟩ := List.mem_map.1 hmem
      have hsig := hgap c hc
      rw [heq] at hsig
      exact absurd hsig (by decide)
    rw [show marks (w ++ rest) = _ from hlies, List.count_append, ih, hnone, Nat.zero_add]
  | token hw hlies hspells hrest ih =>
    rw [show marks (_ ++ _) = _ from hlies, List.count_append, ih, hspells.angles, angles_cons]

/-! ### Reading type names -/

namespace TypeRef

theorem lists_arrays (n : Nat) (ref : TypeRef) : (arrays n ref).lists = ref.lists := by
  induction n generalizing ref with
  | zero => rfl
  | succ n ih => rw [arrays, ih, lists]

theorem lists_named {args : List TypeRef} (name : String) (h : args ≠ []) :
    (named name args).lists = allLists args + 1 := by
  cases args with
  | nil => exact absurd rfl h
  | cons arg args => rw [lists, allLists]

end TypeRef

namespace Reading

variable {r : Reading}

theorem angles_pass {kind : TokenKind} (h : r.next? = some kind) :
    Token.angles r.rest = kind.angles + Token.angles r.pass.rest := by
  obtain ⟨passed, rest, c⟩ := r
  cases rest with
  | nil => cases h
  | cons t rest =>
    cases h
    rw [Token.angles_cons]
    rfl

theorem angles_cutNext (h : r.next? = some (.operator (.binary .shr))) :
    Token.angles r.rest = Token.angles r.cutNext.rest + 1 := by
  obtain ⟨passed, rest, c⟩ := r
  cases rest with
  | nil => cases h
  | cons t rest =>
    have htwo := Token.angles_shr (Option.some.inj h)
    have hone := Token.angles_second t
    rw [show Reading.cutNext ⟨passed, t :: rest, c⟩ = ⟨passed, t.second :: rest, c⟩ from rfl]
    simp only [Token.angles_cons]
    omega

/-- There are none in square brackets. -/
theorem angles_passAll (rest : List Token) : ∀ r : Reading, r.rest = rest →
    Token.angles (passAll (2 * squarePairs rest) r).rest = Token.angles rest := by
  fun_induction squarePairs rest with
  | case1 s t rest hpair ih =>
    rintro ⟨passed, _, c⟩ rfl
    have hpassed := ih ⟨t :: s :: passed, rest, c⟩ rfl
    rw [Token.angles_cons, Token.angles_cons, hpair.1, hpair.2, Nat.mul_succ]
    exact hpassed.trans (by simp [TokenKind.angles])
  | case2 | case3 =>
    intro r hr
    rw [← hr]
    rfl

/-- What is read of a type name, and how many brackets there are before it and after it. -/
def Balanced (r : Reading) (n : Nat) (r' : Reading) : Prop :=
  Token.angles r.rest = n + Token.angles r'.rest

variable {reg : Registry} {n : Nat}

theorem angles_suffixesAt (hargs : ∀ r, ReadM.Yields (fun args r' => args ≠ [] ∧
      Balanced r.pass (TypeRef.allLists args + 1) r') r (typeArgsAt reg n)) (name : String) :
    ReadM.Yields (fun ref r' => Balanced r ref.lists r') r (suffixesAt reg n name) := by
  refine .get ?_
  dsimp only
  split
  · rename_i hopened
    have hnext : r.next? = some (.operator (.binary .lt)) := by simp_all
    refine (hargs r).bind fun args r' hread => .get (.modify (.pure ?_))
    obtain ⟨hne, h⟩ := hread
    unfold Balanced at h ⊢
    have hlt : (TokenKind.operator (.binary .lt)).angles = 0 := by decide
    rw [angles_passAll _ _ rfl, TypeRef.lists_arrays, TypeRef.lists_named name hne,
      angles_pass hnext, h, hlt, Nat.zero_add]
  · refine (ReadM.Yields.pure (Q := fun args r' => args = [] ∧ r' = r) ⟨rfl, rfl⟩).bind
      fun args r' hnone => .get (.modify (.pure ?_))
    unfold Balanced
    rw [angles_passAll _ _ rfl, TypeRef.lists_arrays, hnone.1, hnone.2, TypeRef.lists,
      Nat.zero_add]

/-- The two functions go on with each other. Type arguments begin behind the bracket or comma. -/
theorem angles_typeAt_and_typeArgsAt (reg : Registry) (n : Nat) :
    (∀ r, ReadM.Yields (fun ref r' => Balanced r ref.lists r') r (typeAt reg n)) ∧
    ∀ r, ReadM.Yields (fun args r' => args ≠ [] ∧ Balanced r.pass (TypeRef.allLists args + 1) r') r
      (typeArgsAt reg n) := by
  induction n with
  | zero => exact ⟨fun r => .failure, fun r => .failure⟩
  | succ n ih =>
    obtain ⟨ihType, ihArgs⟩ := ih
    constructor
    · intro r
      rw [typeAt_succ]
      refine .get ?_
      split
      · rename_i name args s l rest hrest
        refine .modify ?_
        split
        · refine .modify (ReadM.Yields.mono (angles_suffixesAt ihArgs name) fun ref r' h => ?_)
          have hnext : r.next? = some (.ident name args) := by rw [Reading.next?, hrest]; rfl
          unfold Balanced at h ⊢
          rw [pass_noted] at h
          rw [angles_pass hnext, show (TokenKind.ident name args).angles = 0 from rfl, Nat.zero_add]
          exact h
        · exact .failure
      · exact .failure
    · intro r
      rw [typeArgsAt]
      refine .modify (ReadM.Yields.bind (ihType _) fun arg r' h => .get ?_)
      unfold Balanced at h ⊢
      split
      · rename_i hnext
        have hcomma := angles_pass hnext
        refine ReadM.Yields.bind (ihArgs r') fun args r'' hrest =>
          .pure ⟨List.cons_ne_nil _ _, ?_⟩
        have h' := hrest.2
        unfold Balanced at h'
        simp only [TypeRef.allLists, TokenKind.angles] at hcomma ⊢
        omega
      · rename_i hnext
        have hone : (TokenKind.operator (.binary .gt)).angles = 1 := by decide
        have hgt := angles_pass hnext
        refine .modify (.pure ⟨List.cons_ne_nil _ _, ?_⟩)
        simp only [TypeRef.allLists]
        omega
      · rename_i hnext
        have hshr := angles_cutNext hnext
        refine .modify (.pure ⟨List.cons_ne_nil _ _, ?_⟩)
        simp only [TypeRef.allLists]
        omega
      · exact .failure

theorem angles_typeAt {r r' : Reading} {ref : TypeRef} (h : typeAt reg n r = (some ref, r')) :
    Balanced r ref.lists r' := (angles_typeAt_and_typeArgsAt reg n).1 r ref r' h

theorem angles_callArgsAt {r r' : Reading} {args : List TypeRef}
    (h : callArgsAt reg n r = (some args, r')) :
    args ≠ [] ∧ Balanced r.pass (TypeRef.allLists args + 1) r' := by
  have hcall : ReadM.Yields (fun args r' =>
      args ≠ [] ∧ Balanced r.pass (TypeRef.allLists args + 1) r') r (callArgsAt reg n) := by
    refine ReadM.Yields.bind ((angles_typeAt_and_typeArgsAt reg n).2 r) fun args r' h => .get ?_
    split
    · exact .pure h
    · exact .failure
  exact hcall args r' h

end Reading

/-! ### What is lost -/

/-- How many brackets are gone after the readings that were given up. -/
def lost : List Abandoned → Nat
  | [] => 0
  | a :: as => Token.angles a.before - Token.angles a.after + lost as

theorem lost_append (as bs : List Abandoned) : lost (as ++ bs) = lost as + lost bs := by
  induction as with
  | nil => rw [List.nil_append, lost, Nat.zero_add]
  | cons a as ih => rw [List.cons_append, lost, lost, ih, Nat.add_assoc]

/-- How many brackets some tokens stand for: those they are written with, and those that close the
lists of type arguments in them. -/
def Token.closings : List Token → Nat
  | [] => 0
  | t :: ts => t.kind.angles + t.kind.lists + closings ts

/-- Tokens that have no lists in them stand for the brackets that they are written with. -/
theorem Token.closings_eq_angles {ts : List Token} (h : ∀ t ∈ ts, t.kind.lists = 0) :
    closings ts = angles ts := by
  induction ts with
  | nil => rfl
  | cons t ts ih =>
    obtain ⟨ht, hts⟩ := List.forall_mem_cons.1 h
    rw [closings, angles, ih hts, ht, Nat.add_zero]

/-- What a name takes, besides what is lost. -/
theorem angles_nameToken {reg : Registry} {n : Nat} {t first : Token} {name : String}
    {args : List TypeRef} {rest left : List Token} {c c' : Catalog} (hk : t.kind = .ident name args)
    (hplain : t.kind.lists = 0) (h : nameToken reg n t name rest c = (first, left, c')) :
    Token.angles rest = first.kind.angles + first.kind.lists +
      lost (abandonedAt reg n (t :: rest) c) + Token.angles left := by
  have hname : t.kind.angles = 0 := by rw [hk]; rfl
  unfold abandonedAt
  obtain ⟨ref, r, hr, rfl, rfl⟩ | ⟨r, hr, h⟩ := nameToken_cases h
  · have hread := Reading.angles_typeAt hr
    unfold Reading.Balanced at hread
    rw [Token.angles_cons, hname, Nat.zero_add] at hread
    rw [hr, hread]
    simp [lost, TokenKind.angles, TokenKind.lists]
  · have htrim := Reading.trimmed_typeAt hr
    rw [hr]
    dsimp only
    generalize r.all = tokens at htrim h ⊢
    have hle := htrim.angles_le
    cases htrim with
    | @cons _ u _ after hu hafter =>
    obtain rfl : u = t := by
      cases hu with
      | same => rfl
      | second hshr => cases hk.symm.trans hshr
    rw [List.tail_cons] at h
    simp only [lost, Token.angles_cons, hname] at hle ⊢
    obtain ⟨args, r', hr', hopened, rfl, rfl⟩ | ⟨rfl, rfl⟩ := h
    · obtain ⟨hne, hcall⟩ := Reading.angles_callArgsAt hr'
      have hlt : (TokenKind.operator (.binary .lt)).angles = 0 := by decide
      have hpass := Reading.angles_pass hopened
      unfold Reading.Balanced at hcall
      simp only [TokenKind.angles, TokenKind.lists, TypeRef.lists_named name hne]
      dsimp only at hpass
      omega
    · rw [hname, hplain]
      omega

/-- No list of type arguments is in the tokens to come. -/
theorem Token.Named.lists_eq_zero {t first : Token} {rest left : List Token}
    (h : Named t rest first left) (hplain : ∀ u ∈ rest, u.kind.lists = 0) :
    ∀ u ∈ left, u.kind.lists = 0 := by
  have htrims {us : List Token} (hus : Trimmed rest us) : ∀ u ∈ us, u.kind.lists = 0 := by
    intro u hu
    obtain ⟨v, hv, hvu⟩ := exists_trimmed hus u hu
    cases hvu with
    | same => exact hplain u hv
    | second => rfl
  cases h with
  | keep h => exact htrims h
  | join _ _ h => exact fun u hu => htrims h u (List.mem_append_right _ hu)

theorem angles_recognise (reg : Registry) (n : Nat) {ts : List Token} (c : Catalog)
    (hplain : ∀ t ∈ ts, t.kind.lists = 0) : Token.angles ts =
      Token.closings (recognise reg n ts c).1 + lost (abandoned reg n ts c) := by
  induction n generalizing ts c with
  | zero => exact (Token.closings_eq_angles hplain).symm
  | succ n ih =>
    cases ts with
    | nil => rfl
    | cons t rest =>
      obtain ⟨ht, hrest⟩ := List.forall_mem_cons.1 hplain
      obtain ⟨first, left, c', here, heq, habandoned, h⟩ := recognise_cons reg n t rest c
      rw [heq, habandoned, lost_append, Token.closings, Token.angles_cons]
      obtain ⟨name, args, hk, hname, rfl⟩ | ⟨rfl, rfl, rfl⟩ := h
      · have hnamed := Token.named_nameToken (hk ▸ rfl) hname
        have hangles : t.kind.angles = 0 := by rw [hk]; rfl
        rw [angles_nameToken hk ht hname, ih c' (hnamed.lists_eq_zero hrest)]
        omega
      · rw [ih c' hrest, ht]
        simp only [lost]
        omega

theorem trimmed_of_mem_abandoned (reg : Registry) (n : Nat) (ts : List Token) (c : Catalog) :
    ∀ a ∈ abandoned reg n ts c, Token.Trimmed a.before a.after := by
  induction n generalizing ts c with
  | zero => nofun
  | succ n ih =>
    cases ts with
    | nil => nofun
    | cons t rest =>
      obtain ⟨first, left, c', here, -, habandoned, h⟩ := recognise_cons reg n t rest c
      rw [habandoned]
      refine List.forall_mem_append.2 ⟨?_, ih left c'⟩
      obtain ⟨-, -, -, -, rfl⟩ | ⟨-, -, rfl⟩ := h
      · unfold abandonedAt
        split
        · nofun
        · exact List.forall_mem_singleton.2 (Reading.trimmed_typeAt ‹_›)
      · nofun

theorem lost_eq_zero_iff {as : List Abandoned}
    (h : ∀ a ∈ as, Token.Trimmed a.before a.after) :
    lost as = 0 ↔ ∀ a ∈ as, a.after = a.before := by
  induction as with
  | nil => exact ⟨fun _ => nofun, fun _ => rfl⟩
  | cons a as ih =>
    obtain ⟨ha, has⟩ := List.forall_mem_cons.1 h
    have hle := ha.angles_le
    have hfirst : Token.angles a.before - Token.angles a.after = 0 ↔ a.after = a.before := by
      refine ⟨fun hzero => ha.eq_of_angles (by omega), fun heq => ?_⟩
      rw [heq, Nat.sub_self]
    rw [lost, Nat.add_eq_zero_iff, ih has, hfirst, List.forall_mem_cons]

/-- **Operators, lists of type arguments and what is lost account for every bracket.** Nothing is
lost just if each reading that is given up leaves the tokens as they were. -/
theorem TokenList.closings_of_ofText {reg : Registry} {text : String} {c c' : Catalog}
    {ts : TokenList} (h : ofText reg text c = .ok (ts, c')) : ∃ raw, Token.cut text = .ok raw ∧
      (marks text.toList).count ('>', .code) =
        Token.closings ts.init.toList + lost (abandoned reg raw.length raw c) ∧
      (∀ a ∈ abandoned reg raw.length raw c, Token.Trimmed a.before a.after) ∧
      (lost (abandoned reg raw.length raw c) = 0 ↔
        ∀ a ∈ abandoned reg raw.length raw c, a.after = a.before) := by
  obtain ⟨raw, hcut, hinit⟩ := exists_of_ofText h
  have hpieces := Token.cut_of_cut hcut
  have htrimmed := trimmed_of_mem_abandoned reg raw.length raw c
  refine ⟨raw, hcut, ?_, htrimmed, lost_eq_zero_iff htrimmed⟩
  rw [hinit, hpieces.count_marks]
  exact angles_recognise reg raw.length c fun t ht => (hpieces.plain t ht).1

/-- Two lists are closed by a `>>`, and one of them by the second bracket of it: the list around
them is not closed, and its reading is given up when the `>>` has been cut. -/
theorem TokenList.closings_of_ofText_unclosed : ∃ ts c raw,
    ofText .lists "List<List<List<int>>" .initial = .ok (ts, c) ∧
      Token.cut "List<List<List<int>>" = .ok raw ∧ Token.closings ts.init.toList = 1 ∧
      (marks "List<List<List<int>>".toList).count ('>', .code) = 2 ∧
      ∃ a ∈ abandoned .lists raw.length raw .initial, a.after ≠ a.before := by
  have hcut : Token.cut "List<List<List<int>>" = .ok [⟨.ident "List" [], ⟨0, 4⟩, 1⟩,
      ⟨.operator (.binary .lt), ⟨4, 5⟩, 1⟩, ⟨.ident "List" [], ⟨5, 9⟩, 1⟩,
      ⟨.operator (.binary .lt), ⟨9, 10⟩, 1⟩, ⟨.ident "List" [], ⟨10, 14⟩, 1⟩,
      ⟨.operator (.binary .lt), ⟨14, 15⟩, 1⟩, ⟨.ident "int" [], ⟨15, 18⟩, 1⟩,
      ⟨.operator (.binary .shr), ⟨18, 20⟩, 1⟩] := by
    rfl
  obtain ⟨ts, c, hts, hinit⟩ := ofText_of_cut hcut .lists .initial
  obtain ⟨raw, hraw, hcount, -, hlost⟩ := closings_of_ofText hts
  have hclosings : Token.closings ts.init.toList = 1 := by
    rw [hinit]
    decide +kernel
  have htwo : (marks "List<List<List<int>>".toList).count ('>', .code) = 2 := by
    decide +kernel
  refine ⟨ts, c, raw, hts, hraw, hclosings, htwo, ?_⟩
  by_contra hnone
  push Not at hnone
  rw [hlost.2 hnone, hclosings, htwo] at hcount
  cases hcount

end TypedExpr
