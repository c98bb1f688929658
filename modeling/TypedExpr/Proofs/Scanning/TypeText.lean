import TypedExpr.Proofs.Scanning.Recognition
import TypedExpr.Proofs.Scanning.Spelling
/-!
# Written types are read back

A type reference that means a type is read back from its text, and its text is the name of the type:
resolving, naming and reading a type are three walks along the same tree. For reading it does not
matter how the closing brackets come in pairs, since a pair is cut in two wherever the first of its
brackets is enough.

* `Registry.HasNames`: all names of definitions are identifiers and stand for nothing else.
* `Registry.typeName_of_resolveType`: the name of a type is the text of the reference to it.
* `Registry.returns_typeAt`: a reference is read from the tokens that it is written with.
* `Registry.resolveType_readBack`: **a reference that means a type is read back from the name of the
  type**, so that different references mean different types with different names.
-/

namespace TypedExpr

namespace Registry

/-- All names of definitions are identifiers, and none is a keyword or the name of a primitive. -/
def HasNames (reg : Registry) : Prop :=
  ∀ e ∈ reg.names.entries, IsName e.1 ∧ Ty.ofPrimitiveName? e.1 = none

instance (reg : Registry) : Decidable reg.HasNames :=
  inferInstanceAs (Decidable (∀ e ∈ reg.names.entries, _))

variable {reg : Registry} {name : String} {args : List TypeRef}

/-! ### What resolves -/

theorem exists_of_map {α β ε : Type} {f : α → β} {x : Except ε α} {b : β}
    (h : x.map f = .ok b) : ∃ a, x = .ok a ∧ b = f a := by
  cases x with
  | error e => cases h
  | ok a => exact ⟨a, rfl, (Except.ok.inj h).symm⟩

/-- What a name stands for: a primitive, or a definition that takes these type arguments. -/
theorem named_of_resolveType {t : Ty} (h : reg.resolveType (.named name args) = .ok t) :
    (args = [] ∧ Ty.ofPrimitiveName? name = some t) ∨
    ∃ d ts, Ty.ofPrimitiveName? name = none ∧ reg.names.get? name = some d ∧
      (reg.definition d).arity = args.length ∧ reg.resolveTypes args = .ok ts ∧
      t = .named d ts := by
  rw [resolveType] at h
  split at h
  · rename_i u hu
    split at h
    · rename_i hargs
      cases h
      exact .inl ⟨List.isEmpty_iff.1 hargs, hu⟩
    · cases h
  · rename_i hnone
    split at h
    · cases h
    · rename_i d hd
      dsimp only at h
      split at h
      · rename_i harity
        obtain ⟨ts, hargs, rfl⟩ := exists_of_map h
        exact .inr ⟨d, ts, hnone, hd, harity, hargs, rfl⟩
      · cases h

theorem cons_of_resolveTypes {arg : TypeRef} {ts : List Ty}
    (h : reg.resolveTypes (arg :: args) = .ok ts) : ∃ u us, ts = u :: us ∧
      reg.resolveType arg = .ok u ∧ reg.resolveTypes args = .ok us := by
  rw [resolveTypes] at h
  split at h
  · rename_i u harg
    obtain ⟨us, hargs, rfl⟩ := exists_of_map h
    exact ⟨u, us, rfl, harg, hargs⟩
  · cases h

theorem elem_of_resolveType {elem : TypeRef} {t : Ty} (h : reg.resolveType (.array elem) = .ok t) :
    ∃ u, t = .array u ∧ reg.resolveType elem = .ok u := by
  rw [resolveType] at h
  obtain ⟨u, helem, rfl⟩ := exists_of_map h
  exact ⟨u, rfl, helem⟩

/-- A name that means a type is one word. It is followed by type arguments just if it stands for a
generic definition. -/
theorem isName_of_named {t : Ty} (hnames : reg.HasNames)
    (h : reg.resolveType (.named name args) = .ok t) :
    IsName name ∧ reg.isTypeName name = true ∧
      ((reg.genericArity? name).isSome = true ↔ args ≠ []) ∧
      ∃ ts, reg.resolveTypes args = .ok ts := by
  unfold isTypeName NameMap.contains genericArity?
  obtain ⟨rfl, hprimitive⟩ | ⟨d, ts, hnone, hd, harity, hargs, -⟩ := named_of_resolveType h
  · have hget : reg.names.get? name = none := by
      cases hget : reg.names.get? name with
      | none => rfl
      | some d =>
        have hnone := (hnames _ (NameMap.mem_of_find hget)).2
        cases hprimitive.symm.trans hnone
    refine ⟨?_, by simp [hprimitive], by simp [hget], [], rfl⟩
    unfold Ty.ofPrimitiveName? at hprimitive
    split at hprimitive
    case h_7 => cases hprimitive
    all_goals decide
  · refine ⟨(hnames _ (NameMap.mem_of_find hd)).1, by simp [hd], ?_, ts, hargs⟩
    cases args with
    | nil => simp [hd, harity]
    | cons arg args => simp [hd, harity]

mutual

theorem isName_of_resolveType (hnames : reg.HasNames) : ∀ (p : TypeRef) {t : Ty},
    reg.resolveType p = .ok t → ∀ name ∈ p.names, IsName name
  | .array elem, t, h => by
    obtain ⟨u, -, helem⟩ := elem_of_resolveType h
    rw [TypeRef.names]
    exact isName_of_resolveType hnames elem helem
  | .named name args, t, h => by
    obtain ⟨hname, -, -, ts, hargs⟩ := isName_of_named hnames h
    rw [TypeRef.names]
    exact List.forall_mem_cons.2 ⟨hname, isName_of_resolveTypes hnames args hargs⟩

theorem isName_of_resolveTypes (hnames : reg.HasNames) : ∀ (args : List TypeRef) {ts : List Ty},
    reg.resolveTypes args = .ok ts → ∀ name ∈ TypeRef.allNames args, IsName name
  | [], _, _ => nofun
  | arg :: args, ts, h => by
    obtain ⟨u, us, -, harg, hargs⟩ := cons_of_resolveTypes h
    rw [TypeRef.allNames]
    exact List.forall_mem_append.2
      ⟨isName_of_resolveType hnames arg harg, isName_of_resolveTypes hnames args hargs⟩

end

/-! ### Names of types -/

theorem typeName_of_ofPrimitiveName? {t : Ty} (h : Ty.ofPrimitiveName? name = some t) :
    reg.typeName t = name := by
  unfold Ty.ofPrimitiveName? at h
  split at h <;> cases h <;> rfl

mutual

/-- The name of a type is the text of the reference to it. -/
theorem typeName_of_resolveType (hreg : reg.WellNamed) : ∀ (p : TypeRef) {t : Ty},
    reg.resolveType p = .ok t → reg.typeName t = p.text
  | .array elem, t, h => by
    obtain ⟨u, rfl, helem⟩ := elem_of_resolveType h
    rw [typeName, TypeRef.text, typeName_of_resolveType hreg elem helem]
  | .named name [], t, h => by
    obtain ⟨-, hprimitive⟩ | ⟨d, ts, -, hd, -, hargs, rfl⟩ := named_of_resolveType h
    · exact typeName_of_ofPrimitiveName? hprimitive
    · cases hargs
      rw [typeName, TypeRef.text, hreg.name_eq hd]
  | .named name (arg :: args), t, h => by
    obtain ⟨hnil, -⟩ | ⟨d, ts, -, hd, -, hargs, rfl⟩ := named_of_resolveType h
    · cases hnil
    · obtain ⟨u, us, rfl, harg, hargs⟩ := cons_of_resolveTypes hargs
      rw [typeName, TypeRef.text, hreg.name_eq hd, typeName_of_resolveType hreg arg harg,
        restNames_of_resolveTypes hreg args hargs]

theorem restNames_of_resolveTypes (hreg : reg.WellNamed) : ∀ (args : List TypeRef) {ts : List Ty},
    reg.resolveTypes args = .ok ts → reg.restNames ts = TypeRef.restText args
  | [], ts, h => by
    cases h
    rfl
  | arg :: args, ts, h => by
    obtain ⟨u, us, rfl, harg, hargs⟩ := cons_of_resolveTypes h
    rw [restNames, TypeRef.restText, typeName_of_resolveType hreg arg harg,
      restNames_of_resolveTypes hreg args hargs]

end

end Registry

/-! ### Reading -/

namespace Token

variable {ts : List Token} {k : TokenKind} {ks : List TokenKind}

/-- The first token has the first kind, or is a `>>` of which this is the first bracket. -/
theorem exists_of_halves_eq_cons (h : halves ts = k :: ks) : ∃ t us, ts = t :: us ∧
    (t.kind = k ∧ k ≠ .operator (.binary .shr) ∧ halves us = ks ∨
      t.kind = .operator (.binary .shr) ∧ k = .operator (.binary .gt) ∧
        ks = .operator (.binary .gt) :: halves us) := by
  cases ts with
  | nil => cases h
  | cons t us =>
    refine ⟨t, us, rfl, ?_⟩
    rw [halves_cons] at h
    unfold TokenKind.halves at h
    split at h
    · rename_i hk
      cases h
      exact .inr ⟨hk, rfl, rfl⟩
    · rename_i hk
      cases h
      exact .inl ⟨rfl, hk, rfl⟩

end Token

namespace Reading

variable {r : Reading} {k : TokenKind} {ks : List TokenKind}

theorem next?_of_rest {t : Token} {us : List Token} (h : r.rest = t :: us) :
    r.next? = some t.kind := by
  rw [next?, h]
  rfl

theorem rest_pass {t : Token} {us : List Token} (h : r.rest = t :: us) : r.pass.rest = us := by
  unfold pass
  rw [h]

/-- What is no closing bracket is a token of its own. -/
theorem exists_next (h : Token.halves r.rest = k :: ks) (hk : k ≠ .operator (.binary .gt)) :
    ∃ t, r.rest = t :: r.pass.rest ∧ t.kind = k ∧ Token.halves r.pass.rest = ks := by
  obtain ⟨t, us, hrest, ⟨ht, -, hus⟩ | ⟨-, hgt, -⟩⟩ := Token.exists_of_halves_eq_cons h
  · rw [rest_pass hrest]
    exact ⟨t, hrest, ht, hus⟩
  · exact absurd hgt hk

/-- A closing bracket is passed, or cut off. -/
theorem closes (h : Token.halves r.rest = .operator (.binary .gt) :: ks) :
    (r.next? = some (.operator (.binary .gt)) ∧ Token.halves r.pass.rest = ks) ∨
      (r.next? = some (.operator (.binary .shr)) ∧ Token.halves r.cutNext.rest = ks) := by
  obtain ⟨t, us, hrest, ⟨ht, -, hus⟩ | ⟨ht, -, rfl⟩⟩ := Token.exists_of_halves_eq_cons h
  · exact .inl ⟨ht ▸ next?_of_rest hrest, by rw [rest_pass hrest, hus]⟩
  · refine .inr ⟨ht ▸ next?_of_rest hrest, ?_⟩
    unfold cutNext
    rw [hrest]
    rfl

/-- Pairs of square brackets in front of other tokens. -/
def squares : Nat → List TokenKind → List TokenKind
  | 0, ks => ks
  | n + 1, ks => .opening .square :: .closing .square :: squares n ks

theorem squarePairs_eq (n : Nat) (h : Token.halves r.rest = squares n ks)
    (hks : ks.head? ≠ some (.opening .square)) :
    squarePairs r.rest = n ∧ Token.halves (passAll (2 * n) r).rest = ks := by
  induction n generalizing r with
  | zero =>
    refine ⟨?_, h⟩
    unfold squarePairs
    split
    · rename_i s t rest hrest
      refine if_neg fun hpair => hks ?_
      rw [← show Token.halves r.rest = ks from h, hrest, Token.halves_cons, hpair.1]
      rfl
    · rfl
  | succ n ih =>
    obtain ⟨s, hrest, hs, hus⟩ := exists_next h nofun
    obtain ⟨t, hrest', ht, hvs⟩ := exists_next hus nofun
    obtain ⟨hpairs, hleft⟩ := ih hvs
    refine ⟨?_, hleft⟩
    rw [hrest, hrest', squarePairs, if_pos ⟨hs, ht⟩, hpairs]

end Reading

namespace TypeRef

mutual

/-- How many steps it takes at most to read a reference. -/
def cost : TypeRef → Nat
  | .named _ args => costs args + 1
  | .array elem => elem.cost

/-- How many steps it takes at most to read type arguments. -/
def costs : List TypeRef → Nat
  | [] => 0
  | arg :: args => arg.cost + costs args + 1

end

/-- What is no closing bracket. -/
def opens (k : TokenKind) : Bool := k ≠ .operator (.binary .gt)

mutual

theorem cost_le : ∀ p : TypeRef, p.cost ≤ p.spelling.countP opens
  | .named name [] => Nat.le_refl _
  | .named name (arg :: args) => by
    have harg := cost_le arg
    have hargs := costs_le args
    rw [spelling, cost, costs, List.countP_cons_of_pos rfl, List.countP_cons_of_pos rfl,
      List.countP_append, List.countP_append]
    omega
  | .array elem => by
    rw [spelling, cost, List.countP_append]
    exact Nat.le_add_right_of_le (cost_le elem)

theorem costs_le : ∀ args : List TypeRef, costs args ≤ (restSpelling args).countP opens
  | [] => Nat.le_refl _
  | arg :: args => by
    have harg := cost_le arg
    have hargs := costs_le args
    rw [restSpelling, costs, List.countP_cons_of_pos rfl, List.countP_append]
    omega

end

end TypeRef

/-- A `>>` opens nothing. -/
theorem Token.countP_halves_le (ts : List Token) :
    (halves ts).countP TypeRef.opens ≤ ts.length := by
  induction ts with
  | nil => exact Nat.le_refl _
  | cons t ts ih =>
    have ht : t.kind.halves.countP TypeRef.opens ≤ 1 := by
      unfold TokenKind.halves
      split
      · decide
      · exact List.countP_le_length
    rw [halves_cons, List.countP_append, List.length_cons]
    omega

namespace Registry

open TypedExpr.Reading (squares)

variable {reg : Registry}

theorem returns_suffixesAt {name : String} {args : List TypeRef} {n m : Nat} {r : Reading}
    {ks : List TokenKind} (hgeneric : (reg.genericArity? name).isSome = true ↔ args ≠ [])
    (hargs : args ≠ [] → r.next? = some (.operator (.binary .lt)) ∧
      ReadM.Returns args (fun r' => Token.halves r'.rest = squares m ks) r (typeArgsAt reg n))
    (hnil : args = [] → Token.halves r.rest = squares m ks)
    (hks : ks.head? ≠ some (.opening .square)) :
    ReadM.Returns (.arrays m (.named name args)) (fun r' => Token.halves r'.rest = ks) r
      (suffixesAt reg n name) := by
  have hsquares (r' : Reading) (h : Token.halves r'.rest = squares m ks) :
      ReadM.Returns (.arrays m (.named name args)) (fun r' => Token.halves r'.rest = ks) r' (do
        let pairs := squarePairs (← get).rest
        modify (Reading.passAll (2 * pairs))
        return TypeRef.arrays pairs (.named name args)) := by
    obtain ⟨hpairs, hleft⟩ := Reading.squarePairs_eq m h hks
    refine .get (.modify ?_)
    rw [hpairs]
    exact .pure hleft
  refine .get ?_
  dsimp only
  by_cases hne : args = []
  · have hplain : (reg.genericArity? name).isSome = false := by simpa [hne] using hgeneric
    rw [hplain]
    subst hne
    exact ReadM.Returns.bind (.pure (hnil rfl)) hsquares
  · obtain ⟨hnext, hread⟩ := hargs hne
    rw [hgeneric.2 hne, hnext]
    exact hread.bind hsquares

theorem returns_typeAt_succ {name : String} {p : TypeRef} {n : Nat} {r : Reading}
    {ks ks' : List TokenKind} (hname : reg.isTypeName name = true)
    (h : Token.halves r.rest = .ident name [] :: ks')
    (hsuffixes : ∀ r', Token.halves r'.rest = ks' →
      ReadM.Returns p (fun r' => Token.halves r'.rest = ks) r' (suffixesAt reg n name)) :
    ReadM.Returns p (fun r' => Token.halves r'.rest = ks) r (typeAt reg (n + 1)) := by
  obtain ⟨⟨k, s, l⟩, hrest, rfl, hleft⟩ := Reading.exists_next h nofun
  rw [typeAt_succ]
  refine .get ?_
  rw [hrest]
  refine .modify ?_
  rw [if_pos hname]
  refine .modify (hsuffixes _ ?_)
  rw [Reading.pass_noted]
  exact hleft

mutual

/-- A reference is read from the tokens that it is written with, and so are square brackets behind
it. -/
theorem returns_typeAt (hnames : reg.HasNames) : ∀ (p : TypeRef) {t : Ty},
    reg.resolveType p = .ok t → ∀ {n m : Nat} {r : Reading} {ks : List TokenKind}, p.cost ≤ n →
      Token.halves r.rest = p.spelling ++ squares m ks →
      ks.head? ≠ some (.opening .square) →
      ReadM.Returns (.arrays m p) (fun r' => Token.halves r'.rest = ks) r (typeAt reg n)
  | .array elem, t, h, n, m, r, ks, hn, hrest, hks => by
    obtain ⟨u, -, helem⟩ := elem_of_resolveType h
    rw [TypeRef.spelling, List.append_assoc] at hrest
    rw [TypeRef.cost] at hn
    have hread := returns_typeAt hnames elem helem (m := m + 1) hn hrest hks
    exact hread
  | .named name [], t, h, n, m, r, ks, hn, hrest, hks => by
    obtain ⟨-, hname, hgeneric, -⟩ := isName_of_named hnames h
    obtain ⟨n, rfl⟩ : ∃ n', n = n' + 1 := Nat.exists_eq_succ_of_ne_zero (by
      rw [TypeRef.cost] at hn
      omega)
    exact returns_typeAt_succ hname hrest fun r' h =>
      returns_suffixesAt hgeneric (absurd rfl) (fun _ => h) hks
  | .named name (arg :: args), t, h, n, m, r, ks, hn, hrest, hks => by
    obtain ⟨-, hname, hgeneric, ts, hargs⟩ := isName_of_named hnames h
    rw [TypeRef.cost] at hn
    obtain ⟨n, rfl⟩ : ∃ n', n = n' + 1 := Nat.exists_eq_succ_of_ne_zero (by omega)
    refine returns_typeAt_succ hname hrest fun r' h => ?_
    refine returns_suffixesAt hgeneric (fun _ => ?_) nofun hks
    obtain ⟨t', hrest', ht', hleft⟩ := Reading.exists_next h nofun
    refine ⟨by rw [Reading.next?_of_rest hrest', ht'], ?_⟩
    refine returns_typeArgsAt hnames (arg :: args) hargs (List.cons_ne_nil _ _) (by omega) ?_
    rw [TypeRef.restSpelling, hleft]
    simp

/-- Type arguments are read up to their closing bracket, whatever stands in front of the first. -/
theorem returns_typeArgsAt (hnames : reg.HasNames) : ∀ (args : List TypeRef) {ts : List Ty},
    reg.resolveTypes args = .ok ts → args ≠ [] → ∀ {n : Nat} {r : Reading} {ks : List TokenKind},
      TypeRef.costs args ≤ n → .comma :: Token.halves r.pass.rest =
        TypeRef.restSpelling args ++ .operator (.binary .gt) :: ks →
      ReadM.Returns args (fun r' => Token.halves r'.rest = ks) r (typeArgsAt reg n)
  | [], _, _, hne, _, _, _, _, _ => absurd rfl hne
  | arg :: args, ts, h, _, n, r, ks, hn, hrest => by
    obtain ⟨u, us, -, harg, hargs⟩ := cons_of_resolveTypes h
    rw [TypeRef.costs] at hn
    obtain ⟨n, rfl⟩ : ∃ n', n = n' + 1 := Nat.exists_eq_succ_of_ne_zero (by omega)
    rw [TypeRef.restSpelling, List.cons_append, List.append_assoc] at hrest
    have hread := returns_typeAt hnames arg harg (n := n) (m := 0) (by omega)
      (List.cons.inj hrest).2 (by cases args <;> nofun)
    rw [typeArgsAt]
    refine .modify (hread.bind fun r' h' => .get ?_)
    cases args with
    | nil =>
      rcases Reading.closes h' with ⟨hnext, hleft⟩ | ⟨hnext, hleft⟩
      · rw [hnext]
        exact .modify (.pure hleft)
      · rw [hnext]
        exact .modify (.pure hleft)
    | cons arg' args =>
      obtain ⟨t, hrest', ht, hleft⟩ := Reading.exists_next h' nofun
      rw [Reading.next?_of_rest hrest', ht]
      have hreads : ReadM.Returns (arg' :: args) (fun r => Token.halves r.rest = ks) r'
          (typeArgsAt reg n) :=
        returns_typeArgsAt hnames (arg' :: args) hargs (List.cons_ne_nil _ _) (by omega)
          (by rw [hleft]; rfl)
      exact hreads.bind fun _ h => .pure h

end

/-! ### The whole text -/

theorem exists_spelling : ∀ p : TypeRef, ∃ name ks, p.spelling = .ident name [] :: ks
  | .array elem => by
    obtain ⟨name, ks, h⟩ := exists_spelling elem
    exact ⟨name, _, by rw [TypeRef.spelling, h]; rfl⟩
  | .named name [] => ⟨name, [], rfl⟩
  | .named name (_ :: _) => ⟨name, _, rfl⟩

theorem recognise_nil (reg : Registry) (n : Nat) (c : Catalog) :
    recognise reg n [] c = ([], c) := by
  cases n <;> rfl

/-- A reference that means a type is all that is found in the tokens that it is written with. -/
theorem recognise_spelling (hnames : reg.HasNames) {p : TypeRef} {t : Ty}
    (h : reg.resolveType p = .ok t) {ts : List Token} (hts : Token.halves ts = p.spelling)
    (c : Catalog) : ∃ s l, (recognise reg ts.length ts c).1 = [⟨.type p, s, l⟩] := by
  have hcost : p.cost ≤ ts.length := by
    have hle := TypeRef.cost_le p
    rw [← hts] at hle
    exact Nat.le_trans hle (Token.countP_halves_le ts)
  have hread : ReadM.Returns p (fun r => Token.halves r.rest = []) ⟨[], ts, c⟩
      (typeAt reg ts.length) :=
    returns_typeAt hnames p h (m := 0) hcost (hts.trans (List.append_nil _).symm) nofun
  obtain ⟨r, hr, hleft⟩ := hread
  have hrest : r.rest = [] := by
    cases hr : r.rest with
    | nil => rfl
    | cons u us =>
      rw [hr, Token.halves_cons] at hleft
      unfold TokenKind.halves at hleft
      split at hleft <;> cases hleft
  obtain ⟨name, ks, hhead⟩ := exists_spelling p
  obtain ⟨first, rest, rfl, ⟨hk, -, -⟩ | ⟨-, hgt, -⟩⟩ :=
    Token.exists_of_halves_eq_cons (hts.trans hhead)
  · refine ⟨r.spanFrom first, first.line, ?_⟩
    rw [List.length_cons] at hr ⊢
    rw [recognise]
    simp only [hk, nameToken, hr, hrest, recognise_nil]
  · cases hgt

/-- **A reference that means a type is read back from the name of the type.** So different
references mean different types, and these have different names. -/
theorem resolveType_readBack (preset : Preset) (decls : List Declaration)
    (hnames : (built preset decls).HasNames) {p : TypeRef} {t : Ty}
    (h : (built preset decls).resolveType p = .ok t) :
    (built preset decls).typeName t = p.text ∧
    (∀ c, ∃ ts c', TokenList.ofText (built preset decls) p.text c = .ok (ts, c') ∧
      ts.toArray.toList.map (·.kind) = [.type p, .eof]) ∧
    ∀ q u, (built preset decls).resolveType q = .ok u → q ≠ p →
      u ≠ t ∧ (built preset decls).typeName u ≠ (built preset decls).typeName t := by
  have hwell := wellNamed_built preset decls
  revert hwell hnames h
  generalize built preset decls = reg
  intro hnames h hwell
  have hreads {p : TypeRef} {t : Ty} (h : reg.resolveType p = .ok t) (c : Catalog) :
      ∃ ts c', TokenList.ofText reg p.text c = .ok (ts, c') ∧
        ts.toArray.toList.map (·.kind) = [.type p, .eof] := by
    have hend : Piece.EndsWord [] := by rintro _ ⟨⟩
    have hlexes := TypeRef.lexes_text p (isName_of_resolveType hnames p h) hend .nil
    rw [List.append_nil, List.append_nil] at hlexes
    obtain ⟨raw, hcut, hraw⟩ := hlexes.cuts 0 1
    obtain ⟨ts, c', hts, hinit⟩ := TokenList.ofText_of_cut hcut reg c
    obtain ⟨s, l, hout⟩ := recognise_spelling hnames h hraw c
    refine ⟨ts, c', hts, ?_⟩
    rw [TokenList.toArray, Array.toList_push, hinit, hout]
    simp [ts.last_eof]
  refine ⟨typeName_of_resolveType hwell p h, hreads h, fun q u hq hne => ?_⟩
  have htext : reg.typeName u ≠ reg.typeName t := by
    rw [typeName_of_resolveType hwell p h, typeName_of_resolveType hwell q hq]
    intro heq
    obtain ⟨ts, c, hts, hkinds⟩ := hreads h .initial
    obtain ⟨ts', c', hts', hkinds'⟩ := hreads hq .initial
    rw [heq] at hts'
    obtain rfl := congrArg Prod.fst (Except.ok.inj (hts.symm.trans hts'))
    rw [hkinds] at hkinds'
    cases hkinds'
    exact hne rfl
  exact ⟨fun heq => htext (by rw [heq]), htext⟩

/-- Three lists are closed at once, by `>>` and `>`. -/
theorem resolveType_readBack_nested :
    (built .empty [.generic "List" 1, .generic "Pair" 2]).HasNames ∧
    (built .empty [.generic "List" 1, .generic "Pair" 2]).typeName
        (.array (.named 3 [.string, .named 2 [.named 2 [.array .int]]])) =
      "Pair<string, List<List<int[]>>>[]" ∧
    ∃ ts c, TokenList.ofText (built .empty [.generic "List" 1, .generic "Pair" 2])
        "Pair<string, List<List<int[]>>>[]" .initial = .ok (ts, c) ∧
      ts.toArray.toList.map (·.kind) = [.type (.array (.named "Pair" [.named "string" [],
        .named "List" [.named "List" [.array (.named "int" [])]]])), .eof] := by
  have hnames : (built .empty [.generic "List" 1, .generic "Pair" 2]).HasNames := by
    decide +kernel
  have h : (built .empty [.generic "List" 1, .generic "Pair" 2]).resolveType
      (.array (.named "Pair" [.named "string" [],
        .named "List" [.named "List" [.array (.named "int" [])]]])) =
      .ok (.array (.named 3 [.string, .named 2 [.named 2 [.array .int]]])) := by
    rfl
  obtain ⟨hname, hread, -⟩ :=
    resolveType_readBack .empty [.generic "List" 1, .generic "Pair" 2] hnames h
  have htext : (TypeRef.array (.named "Pair" [.named "string" [],
      .named "List" [.named "List" [.array (.named "int" [])]]])).text =
      "Pair<string, List<List<int[]>>>[]" := by
    decide +kernel
  obtain ⟨ts, c, hts, hkinds⟩ := hread .initial
  exact ⟨hnames, hname.trans htext, ts, c, htext ▸ hts, hkinds⟩

end Registry

end TypedExpr
