import Mathlib.Algebra.Ring.Int.Defs
import Mathlib.Order.Bounds.Basic
import TypedExpr.Proofs.Callables
/-!
# The members of `string` agree

Lengths and positions count characters, whatever the characters are. All calls go to the callables
that every registry has, in any world; the texts are those that there can be (`Text.Small`).

* `Text.findFrom_spec`: the search finds the first place, if there is one.
* `Builtin.substring_eq_ok_iff`: which parts a text has.
* `TextMember.agree`: **lengths, parts, places and occurrences fit together.**
* `TextMember.arithmetic`: **the sum that a part is taken by is exact or out of range; the
  difference is exact but for starts that are refused.**
-/

namespace TypedExpr

/-! ### Searching -/

namespace Text

/-- The places at which `needle` stands in a text. -/
def places {α : Type} (needle s : List α) : Set Nat := {i | i ≤ s.length ∧ needle <+: s.drop i}

section

variable {α : Type} {needle s : List α} {c : α}

@[simp] theorem zero_mem_places : 0 ∈ places needle s ↔ needle <+: s := by simp [places]

@[simp] theorem succ_mem_places {i : Nat} :
    i + 1 ∈ places needle (c :: s) ↔ i ∈ places needle s := by simp [places]

/-- The search finds the first place, if there is one. -/
theorem findFrom_spec [BEq α] [LawfulBEq α] (needle s : List α) (i : Nat) :
    (∃ j, findFrom needle s i = some (i + j) ∧ IsLeast (places needle s) j) ∨
      findFrom needle s i = none ∧ places needle s = ∅ := by
  induction s generalizing i with
  | nil =>
    cases needle with
    | nil => exact .inl ⟨0, rfl, by simp, fun _ _ => Nat.zero_le _⟩
    | cons d ds =>
      refine .inr ⟨rfl, Set.eq_empty_of_forall_notMem ?_⟩
      rintro j ⟨-, hj⟩
      simp at hj
  | cons c s ih =>
    by_cases hp : needle <+: c :: s
    · refine .inl ⟨0, ?_, zero_mem_places.mpr hp, fun _ _ => Nat.zero_le _⟩
      exact if_pos (List.isPrefixOf_iff_prefix.mpr hp)
    · have hstep : findFrom needle (c :: s) i = findFrom needle s (i + 1) :=
        if_neg fun h => hp (List.isPrefixOf_iff_prefix.mp h)
      rw [hstep]
      rcases ih (i + 1) with ⟨j, hfind, hmem, hleast⟩ | ⟨hfind, hnone⟩
      · refine .inl ⟨j + 1, by rw [hfind]; congr 1; omega, succ_mem_places.mpr hmem, ?_⟩
        rintro (_ | k) hk
        · exact absurd (zero_mem_places.mp hk) hp
        · exact Nat.succ_le_succ (hleast (succ_mem_places.mp hk))
      · refine .inr ⟨hfind, Set.eq_empty_of_forall_notMem ?_⟩
        rintro (_ | k) hk
        · exact hp (zero_mem_places.mp hk)
        · have : k ∈ places needle s := succ_mem_places.mp hk
          simp [hnone] at this

end

/-- A text that there can be: it has fewer characters than the greatest integer. All that can be
addressed with 63 bits are so. -/
def Small (s : String) : Prop := (s.length : Int) < Int64.maxValue.toInt

instance (s : String) : Decidable (Small s) := inferInstanceAs (Decidable (_ < _))

/-- The `n` characters of a text from `i` on. -/
def part (s : String) (i n : Nat) : String := String.ofList ((s.toList.drop i).take n)

theorem length_part {s : String} {i n : Nat} (h : i + n ≤ s.length) : (part s i n).length = n := by
  rw [part, String.length_ofList, List.length_take, List.length_drop, String.length_toList]
  omega

theorem part_append_part {s : String} {i : Nat} :
    part s 0 i ++ part s i (s.length - i) = s := by
  have hrest : (s.toList.drop i).take (s.length - i) = s.toList.drop i :=
    List.take_of_length_le (by rw [List.length_drop, String.length_toList])
  rw [← String.toList_inj, String.toList_append, part, part, String.toList_ofList,
    String.toList_ofList, hrest, List.drop_zero, List.take_append_drop]

/-- A place of a text is one at which it is the part of its own length. -/
theorem part_eq_iff {s t : String} {i : Nat} :
    (i + t.length ≤ s.length ∧ part s i t.length = t) ↔ i ∈ places t.toList s.toList := by
  have hpart : part s i t.length = t ↔ t.toList <+: s.toList.drop i := by
    rw [← String.toList_inj, part, String.toList_ofList, List.prefix_iff_eq_take,
      String.length_toList, eq_comm]
  rw [hpart]
  constructor
  · rintro ⟨hle, hp⟩
    exact ⟨by rw [String.length_toList]; omega, hp⟩
  · rintro ⟨hle, hp⟩
    have hlen := hp.length_le
    rw [List.length_drop, String.length_toList, String.length_toList] at hlen
    rw [String.length_toList] at hle
    exact ⟨by omega, hp⟩

end Text

/-! ### Parts -/

namespace Builtin

variable {s : String} {start count : Int64}

theorem minValue_eq : Int64.minValue.toInt = -2 ^ 63 := by decide

theorem maxValue_eq : Int64.maxValue.toInt = 2 ^ 63 - 1 := by decide

theorem toInt_lengthInt_length (h : Text.Small s) : (lengthInt s.length).toInt = s.length :=
  toInt_lengthInt h.le

theorem partEnd_of_fits (h : Integer.Fits (start.toInt + count.toInt)) :
    partEnd start count = start.toInt + count.toInt := if_pos h

theorem partEnd_of_not_fits (h : ¬Integer.Fits (start.toInt + count.toInt)) :
    partEnd start count = Int64.maxValue.toInt := if_neg h

/-- A start outside the text is refused, whatever the length. -/
theorem substring_of_start (h : ¬(0 ≤ start.toInt ∧ start.toInt ≤ s.length)) (count : Int64) :
    substring s start count = .error (.indexOutOfRange start.toInt s.length) := if_pos h

/-- From a start inside the text on, a length below zero and an end outside are refused. -/
theorem substring_of_end (hs : 0 ≤ start.toInt ∧ start.toInt ≤ s.length)
    (h : count.toInt < 0 ∨ ¬(0 ≤ partEnd start count ∧ partEnd start count ≤ s.length)) :
    substring s start count = .error (.indexOutOfRange (partEnd start count) s.length) :=
  (if_neg (not_not.mpr hs)).trans (if_pos h)

/-- In a text that there can be, the end that is taken is inside only if it is exact. -/
theorem fits_of_partEnd_le (h : Text.Small s) (he : partEnd start count ≤ s.length) :
    Integer.Fits (start.toInt + count.toInt) := by
  by_contra hn
  rw [partEnd_of_not_fits hn] at he
  exact absurd h (not_lt.mpr he)

/-- A part that the text has is given. -/
theorem substring_of_range (h : Text.Small s) (hs : 0 ≤ start.toInt) (hc : 0 ≤ count.toInt)
    (he : start.toInt + count.toInt ≤ s.length) :
    substring s start count =
      .ok (.str (Text.part s start.toInt.toNat count.toInt.toNat)) := by
  have hfits : Integer.Fits (start.toInt + count.toInt) := by
    refine ⟨?_, he.trans h.le⟩
    rw [minValue_eq]
    omega
  have hend := partEnd_of_fits hfits
  have hslice : Text.slice? s start.toInt.toNat (partEnd start count).toNat =
      some (Text.part s start.toInt.toNat count.toInt.toNat) := by
    rw [hend, Text.slice?, if_pos (by omega), Text.part]
    congr 3
    omega
  unfold substring
  dsimp only
  rw [if_neg (by omega), if_neg (by omega), hslice]

/-- The difference that the rest of a text is taken by is exact where it is an integer. -/
theorem toInt_restCount_of_fits (h : Text.Small s)
    (hd : Integer.Fits (s.length - start.toInt)) :
    (restCount s start).toInt = s.length - start.toInt := by
  unfold Integer.Fits at hd
  rw [minValue_eq, maxValue_eq] at hd
  rw [restCount, Int64.toInt_sub, toInt_lengthInt_length h]
  exact Int.bmod_eq_of_le (by omega) (by omega)

/-- Elsewhere it is wrong by `2 ^ 64`. -/
theorem toInt_restCount_of_not_fits (h : Text.Small s)
    (hd : ¬Integer.Fits (s.length - start.toInt)) :
    (restCount s start).toInt = s.length - start.toInt - 2 ^ 64 := by
  have hstart := Integer.fits_toInt start
  unfold Integer.Fits at hd hstart
  unfold Text.Small at h
  rw [minValue_eq, maxValue_eq] at hd hstart
  rw [maxValue_eq] at h
  rw [restCount, Int64.toInt_sub, toInt_lengthInt_length h, Int.bmod_def]
  omega

/-- The difference is an integer for all starts but the `2 ^ 63 - n` least, where `n` is the length
of the text. -/
theorem fits_rest_iff (h : Text.Small s) :
    Integer.Fits (s.length - start.toInt) ↔ (s.length : Int) - 2 ^ 63 < start.toInt := by
  have hstart := Integer.fits_toInt start
  unfold Integer.Fits at hstart ⊢
  unfold Text.Small at h
  rw [minValue_eq, maxValue_eq] at *
  omega

/-- The parts that a text has. -/
theorem substring_eq_ok_iff (h : Text.Small s) {v : Value} :
    substring s start count = .ok v ↔
      (0 ≤ start.toInt ∧ 0 ≤ count.toInt ∧ start.toInt + count.toInt ≤ s.length) ∧
        v = .str (Text.part s start.toInt.toNat count.toInt.toNat) := by
  constructor
  · intro hv
    have hs : 0 ≤ start.toInt ∧ start.toInt ≤ s.length := by
      by_contra hs
      rw [substring_of_start hs] at hv
      cases hv
    obtain ⟨hc, he⟩ : 0 ≤ count.toInt ∧ partEnd start count ≤ s.length := by
      by_contra he
      rw [substring_of_end hs (by omega)] at hv
      cases hv
    have hr : start.toInt + count.toInt ≤ s.length :=
      partEnd_of_fits (fits_of_partEnd_le h he) ▸ he
    rw [substring_of_range h hs.1 hc hr] at hv
    exact ⟨⟨hs.1, hc, hr⟩, (Except.ok.inj hv).symm⟩
  · rintro ⟨⟨hs, hc, he⟩, rfl⟩
    exact substring_of_range h hs hc he

end Builtin

/-! ### Calls -/

/-- The members of `string` that count characters. Parts are taken with a length or without. -/
inductive TextMember where
  | length
  | contains
  | indexOf
  | rest
  | part
  deriving DecidableEq

namespace TextMember

open TypedExpr.Builtin

/-- The number of its callable. -/
def id : TextMember → CallableId
  | length => 0
  | contains => 3
  | indexOf => 4
  | rest => 5
  | part => 6

/-- The type of its results. -/
def type : TextMember → Ty
  | length | indexOf => .int
  | contains => .bool
  | rest | part => .string

/-- A call of it, in a registry with all that is built in. -/
def call (decls : List Declaration) (m : TextMember) (args : List Value) : Run Value :=
  (Registry.declared decls).call m.id args m.type

/-- The answer to a call in a world. -/
def answer (decls : List Declaration) (w : World) (m : TextMember) (args : List Value) :
    Except Fault Value := ((m.call decls args).run w).1

section

variable {decls : List Declaration} {w : World} {s t : String} {start count : Int64}

theorem answer_eq {m : TextMember} {f : HostFunction} (h : textFunctions[m.id]? = some f)
    (args : List Value) :
    m.answer decls w args = ((f.run ⟨args, m.type, w.catalog.typeLabel m.type⟩).run w.heap).1 := by
  obtain ⟨name, hid⟩ := Registry.callable?_declared_text decls h
  unfold answer call
  rw [Registry.run_call hid]

theorem run_call_of_answer {m : TextMember} {args : List Value} {v : Value}
    (h : m.answer decls w args = .ok v) : ∃ w', (m.call decls args).run w = (.ok v, w') :=
  ⟨_, Prod.ext h rfl⟩

theorem answer_length : length.answer decls w [.str s] = .ok (lengthValue s.length) :=
  answer_eq (f := textLength) rfl _

theorem answer_contains :
    contains.answer decls w [.str s, .str t] = .ok (.bool (Text.find? s t).isSome) :=
  answer_eq (f := textContains) rfl _

theorem run_indexOf (s t : String) (type : Ty) (label : String) (h : Heap) :
    (textIndexOf.run ⟨[.str s, .str t], type, label⟩).run h =
      (.ok (((Text.find? s t).map lengthValue).getD (.int (-1))), h) :=
  (run_bind_of_ok (a := s) rfl).trans
    ((run_bind_of_ok (a := t) rfl).trans (by cases Text.find? s t <;> rfl))

theorem answer_indexOf : indexOf.answer decls w [.str s, .str t] =
    .ok (((Text.find? s t).map lengthValue).getD (.int (-1))) := by
  rw [answer_eq (f := textIndexOf) rfl, run_indexOf]

theorem answer_rest :
    rest.answer decls w [.str s, .int start] = substring s start (restCount s start) :=
  answer_eq (f := textFrom) rfl _

theorem answer_part :
    part.answer decls w [.str s, .int start, .int count] = substring s start count :=
  answer_eq (f := textPart) rfl _

/-- A text is found at a place if the part of its length there is the text. -/
theorem answer_part_eq_iff (hs : Text.Small s) (ht : Text.Small t) {i : Int64} :
    part.answer decls w [.str s, .int i, .int (lengthInt t.length)] = .ok (.str t) ↔
      0 ≤ i.toInt ∧ i.toInt.toNat ∈ Text.places t.toList s.toList := by
  have hlen := toInt_lengthInt_length ht
  rw [answer_part, substring_eq_ok_iff hs, hlen, Int.toNat_natCast, ← Text.part_eq_iff]
  simp only [Value.str.injEq]
  constructor
  · rintro ⟨⟨hi, -, hle⟩, hpart⟩
    exact ⟨hi, by omega, hpart.symm⟩
  · rintro ⟨hi, hle, hpart⟩
    exact ⟨⟨hi, by omega, by omega⟩, hpart.symm⟩

/-- The search gives the least place, or `-1`. -/
theorem answer_indexOf_spec (hs : Text.Small s) (ht : Text.Small t) :
    ∃ i : Int64, indexOf.answer decls w [.str s, .str t] = .ok (.int i) ∧
      contains.answer decls w [.str s, .str t] = .ok (.bool (i != -1)) ∧
      (IsLeast {j : Int64 | part.answer decls w [.str s, .int j, .int (lengthInt t.length)] =
          .ok (.str t)} i ∨
        i = -1 ∧ ∀ j : Int64,
          part.answer decls w [.str s, .int j, .int (lengthInt t.length)] ≠ .ok (.str t)) := by
  rw [answer_indexOf, answer_contains]
  rcases Text.findFrom_spec t.toList s.toList 0 with ⟨j, hfind, hmem, hleast⟩ | ⟨hfind, hnone⟩
  · have hfound : Text.find? s t = some j := by rw [Text.find?, hfind, Nat.zero_add]
    have hj : (lengthInt j).toInt = j := by
      have hle := hmem.1
      rw [String.length_toList] at hle
      refine toInt_lengthInt ?_
      unfold Text.Small at hs
      omega
    refine ⟨lengthInt j, by rw [hfound]; rfl, ?_, .inl ⟨?_, fun k hk => ?_⟩⟩
    · have hne : lengthInt j ≠ -1 := by
        intro h
        rw [h, show (-1 : Int64).toInt = -1 from rfl] at hj
        omega
      rw [hfound, bne_iff_ne.mpr hne]
      rfl
    · exact (answer_part_eq_iff hs ht).mpr ⟨by omega, by rwa [hj]⟩
    · obtain ⟨hk, hmem'⟩ := (answer_part_eq_iff hs ht).mp hk
      have := hleast hmem'
      rw [Int64.le_iff_toInt_le]
      omega
  · have hlost : Text.find? s t = none := hfind
    refine ⟨-1, by rw [hlost]; rfl, by rw [hlost]; rfl, .inr ⟨rfl, fun j hj => ?_⟩⟩
    have := ((answer_part_eq_iff hs ht).mp hj).2
    rw [hnone] at this
    exact this

/-- A text cut in two is the text again. -/
theorem run_cut (hs : Text.Small s) (k : Int64) (h : 0 ≤ k.toInt ∧ k.toInt ≤ s.length) :
    ((do
      let a ← part.call decls [.str s, .int 0, .int k]
      let b ← rest.call decls [.str s, .int k]
      (Registry.declared decls).applyBinary .add .concat a b .string).run w).1 = .ok (.str s) := by
  obtain ⟨h0, hk⟩ := h
  have hrest : (restCount s k).toInt = s.length - k.toInt := by
    refine toInt_restCount_of_fits hs ⟨?_, ?_⟩
    · rw [minValue_eq]
      omega
    · unfold Text.Small at hs
      omega
  have hfst : substring s 0 k = .ok (.str (Text.part s 0 k.toInt.toNat)) :=
    substring_of_range hs le_rfl h0 (by rw [Int64.toInt_zero]; omega)
  have hsnd : substring s k (restCount s k) =
      .ok (.str (Text.part s k.toInt.toNat (s.length - k.toInt.toNat))) := by
    rw [substring_of_range hs h0 (by omega) (by omega), hrest]
    congr 4
    omega
  obtain ⟨w₁, hw₁⟩ := run_call_of_answer ((@answer_part decls w s 0 k).trans hfst)
  obtain ⟨w₂, hw₂⟩ := run_call_of_answer ((@answer_rest decls w₁ s k).trans hsnd)
  rw [run_bind_of_ok hw₁, run_bind_of_ok hw₂]
  exact congrArg (Except.ok ∘ Value.str) Text.part_append_part

/-- **The members of `string` agree.** A length counts characters. A part is given exactly if it is
inside the text; it has its length, and is the characters from its start on. A text cut in two is
the text again. The place of a text in another is the least one at which the part of its length is
that text, or `-1` if there is none, and a text is contained if the place is not `-1`. -/
theorem agree (decls : List Declaration) (w : World) {s t : String} (hs : Text.Small s)
    (ht : Text.Small t) :
    ∃ n m : Int64, n.toInt = s.length ∧ length.answer decls w [.str s] = .ok (.int n) ∧
      m.toInt = t.length ∧ length.answer decls w [.str t] = .ok (.int m) ∧
      (∀ start count : Int64,
        ((∃ v, part.answer decls w [.str s, .int start, .int count] = .ok v) ↔
          0 ≤ start.toInt ∧ 0 ≤ count.toInt ∧ start.toInt + count.toInt ≤ n.toInt) ∧
        ∀ v, part.answer decls w [.str s, .int start, .int count] = .ok v →
          length.answer decls w [v] = .ok (.int count) ∧
          v = .str (String.ofList ((s.toList.drop start.toInt.toNat).take count.toInt.toNat))) ∧
      (∀ k : Int64, 0 ≤ k.toInt ∧ k.toInt ≤ n.toInt →
        ((do
          let a ← part.call decls [.str s, .int 0, .int k]
          let b ← rest.call decls [.str s, .int k]
          (Registry.declared decls).applyBinary .add .concat a b .string).run w).1 =
          .ok (.str s)) ∧
      ∃ i : Int64, indexOf.answer decls w [.str s, .str t] = .ok (.int i) ∧
        contains.answer decls w [.str s, .str t] = .ok (.bool (i != -1)) ∧
        (IsLeast {j : Int64 | part.answer decls w [.str s, .int j, .int m] = .ok (.str t)} i ∨
          i = -1 ∧ ∀ j : Int64, part.answer decls w [.str s, .int j, .int m] ≠ .ok (.str t)) := by
  have hn := toInt_lengthInt_length hs
  refine ⟨lengthInt s.length, lengthInt t.length, hn, answer_length, toInt_lengthInt_length ht,
    answer_length, fun start count => ⟨?_, fun v hv => ?_⟩, fun k hk => run_cut hs k (hn ▸ hk),
    answer_indexOf_spec hs ht⟩
  · rw [answer_part, hn]
    simp only [substring_eq_ok_iff hs, exists_and_left, exists_eq, and_true]
  · rw [answer_part, substring_eq_ok_iff hs] at hv
    obtain ⟨⟨hstart, hcount, hend⟩, rfl⟩ := hv
    refine ⟨?_, rfl⟩
    have hnat : (count.toInt.toNat : Int) = count.toInt := Int.toNat_of_nonneg hcount
    have hlen : lengthInt count.toInt.toNat = count := by
      rw [← Int64.toInt_inj, toInt_lengthInt (hnat.le.trans (Integer.fits_toInt count).2), hnat]
    rw [answer_length, Text.length_part (by omega), lengthValue, hlen]

/-- It covers the members that the standard registry finds by name, on a text in which characters
take one, two and four bytes. -/
theorem agree_accented :
    (((Registry.declared []).resolveProperty .string "Length" false).map (·.get) = .ok length.id ∧
      ((Registry.declared []).resolveMethod .string "Contains" [] [.string] false).map
        (·.callable) = .ok contains.id ∧
      ((Registry.declared []).resolveMethod .string "IndexOf" [] [.string] false).map
        (·.callable) = .ok indexOf.id ∧
      ((Registry.declared []).resolveMethod .string "Substring" [] [.int] false).map
        (·.callable) = .ok rest.id ∧
      ((Registry.declared []).resolveMethod .string "Substring" [] [.int, .int] false).map
        (·.callable) = .ok part.id) ∧
    part.answer [] default [.str "hé😀é", .int 1, .int 2] = .ok (.str "é😀") ∧
      (∀ v, part.answer [] default [.str "hé😀é", .int 1, .int Int64.maxValue] ≠ .ok v) ∧
      ((do
        let a ← part.call [] [.str "hé😀é", .int 0, .int 3]
        let b ← rest.call [] [.str "hé😀é", .int 3]
        (Registry.declared []).applyBinary .add .concat a b .string).run default).1 =
        .ok (.str "hé😀é") := by
  refine ⟨⟨by decide +kernel, by decide +kernel, by decide +kernel, by decide +kernel,
    by decide +kernel⟩, ?_⟩
  obtain ⟨n, -, hn, -, -, -, hpart, hcut, -⟩ :=
    agree [] default (s := "hé😀é") (t := "é") (by decide +kernel) (by decide +kernel)
  have hn : n.toInt = 4 := hn
  refine ⟨?_, fun v hv => ?_, hcut 3 (by rw [hn]; decide)⟩
  · obtain ⟨v, hv⟩ := (hpart 1 2).1.mpr (by rw [hn]; decide)
    rw [hv, ((hpart 1 2).2 v hv).2]
    decide +kernel
  · have hrange := (hpart 1 Int64.maxValue).1.mp ⟨v, hv⟩
    rw [hn] at hrange
    exact absurd hrange (by decide)

/-- **The arithmetic of parts.** The difference that the rest of a text is taken by is not checked.
It is exact for all starts above the length of the text less `2 ^ 63`, and the rest is then the part
with that many characters; for the other starts it is wrong by `2 ^ 64`, and the start is refused.
The sum by which a part is taken is exact if it is an integer; if it is none, the greatest integer
stands for it, and the part is refused. -/
theorem arithmetic (decls : List Declaration) (w : World) {s : String} (hs : Text.Small s)
    (start count : Int64) :
    ((restCount s start).toInt = s.length - start.toInt ↔
      (s.length : Int) - 2 ^ 63 < start.toInt) ∧
    (∀ n : Int64, n.toInt = s.length - start.toInt →
      rest.answer decls w [.str s, .int start] =
        part.answer decls w [.str s, .int start, .int n]) ∧
    (start.toInt ≤ (s.length : Int) - 2 ^ 63 →
      (restCount s start).toInt = s.length - start.toInt - 2 ^ 64 ∧
      rest.answer decls w [.str s, .int start] =
        .error (.indexOutOfRange start.toInt s.length)) ∧
    (Integer.Fits (start.toInt + count.toInt) →
      partEnd start count = start.toInt + count.toInt) ∧
    (¬Integer.Fits (start.toInt + count.toInt) →
      partEnd start count = Int64.maxValue.toInt ∧
      part.answer decls w [.str s, .int start, .int count] =
        .error (.indexOutOfRange (if 0 ≤ start.toInt ∧ start.toInt ≤ s.length
          then Int64.maxValue.toInt else start.toInt) s.length)) := by
  refine ⟨⟨fun h => ?_, fun h => toInt_restCount_of_fits hs ((fits_rest_iff hs).mpr h)⟩,
    fun n hn => ?_, fun h => ⟨?_, ?_⟩, partEnd_of_fits, fun h => ⟨partEnd_of_not_fits h, ?_⟩⟩
  · exact (fits_rest_iff hs).mp (h ▸ Integer.fits_toInt _)
  · have hrest : restCount s start = n := by
      rw [← Int64.toInt_inj, hn]
      exact toInt_restCount_of_fits hs (hn ▸ Integer.fits_toInt n)
    rw [answer_rest, answer_part, hrest]
  · exact toInt_restCount_of_not_fits hs fun hd => not_lt.mpr h ((fits_rest_iff hs).mp hd)
  · unfold Text.Small at hs
    rw [maxValue_eq] at hs
    rw [answer_rest, substring_of_start (by omega)]
  · rw [answer_part]
    split
    · rename_i hstart
      have hend : ¬partEnd start count ≤ s.length := fun he => h (fits_of_partEnd_le hs he)
      rw [substring_of_end hstart (.inr fun he => hend he.2), partEnd_of_not_fits h]
    · rename_i hstart
      exact substring_of_start hstart count

/-- At the least start the difference is `2 ^ 63 + 3`, and comes out below zero. -/
theorem arithmetic_least :
    Text.Small "abc" ∧ (restCount "abc" Int64.minValue).toInt = 3 - 2 ^ 63 ∧
      rest.answer [] default [.str "abc", .int Int64.minValue] =
        .error (.indexOutOfRange (-2 ^ 63) 3) := by
  have hs : Text.Small "abc" := by decide
  obtain ⟨hcount, hrest⟩ := (arithmetic [] default hs Int64.minValue 0).2.2.1 (by decide)
  rw [minValue_eq, show "abc".length = 3 from rfl] at hcount hrest
  exact ⟨hs, hcount, hrest⟩

end

end TextMember

end TypedExpr
