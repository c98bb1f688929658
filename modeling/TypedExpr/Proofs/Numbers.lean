import TypedExpr.Catalog
/-!
# Numbers are stable

Names and types are numbered on first mention, in any order and with lookups in between. There are
`limit` numbers: once all of them are given away, the mention of something new is refused. The
parts of a type are numbered before the type, whose own entry has their numbers.

* `Numbering.Answers`: what operations on a numbering should do, in terms of the table alone.
* `Numbering.Canonical`: things and numbers belong together one to one, operations answer as they
  should, and what has a number keeps it whatever is done.
* `TypeTable.Denotes.eq_iff`: whole types are told apart by their numbers.
* `Catalog.numbers_stable`: **the numbers of names and of types are a stable bijection.**
-/

namespace TypedExpr

namespace Numbering

variable {α : Type} [DecidableEq α] {n m k : Numbering α} {a : α}

/-- All that is numbered in `n` has the same number in `m`. -/
def Within (n m : Numbering α) : Prop := ∀ ⦃i a⦄, n.get? i = some a → m.get? i = some a

theorem Within.rfl : Within n n := fun _ _ h => h

theorem Within.trans (h : Within n m) (h' : Within m k) : Within n k := fun _ _ hi => h' (h hi)

theorem within_note {a : α} : Within n (n.note a) := fun _ _ => get?_note n a

theorem get?_isSome_iff {i : Nat} : (n.get? i).isSome ↔ i < n.size := by simp [get?, size]

theorem get?_eq_none_iff {i : Nat} : n.get? i = none ↔ n.size ≤ i := by simp [get?, size]

theorem eq_of_get? {i j : Nat} {a : α} (hi : n.get? i = some a) (hj : n.get? j = some a) : i = j :=
  Option.some.inj ((find?_eq_some_iff.mpr hi).symm.trans (find?_eq_some_iff.mpr hj))

/-- What has no number is not in the table. -/
theorem not_mem_of_find? (h : n.find? a = none) : a ∉ n.items := by
  intro ha
  obtain ⟨i, hi⟩ := Array.getElem?_of_mem ha
  cases h.symm.trans (find?_eq_some_iff.mpr hi)

theorem items_note (h : n.find? a = none) : (n.note a).items = n.items.push a := by
  rw [note_of_free h]
  rfl

theorem size_note (h : n.find? a = none) : (n.note a).size = n.size + 1 := by
  rw [size, items_note h, Array.size_push]
  rfl

/-! ### Operations -/

open TypedExpr.Numbering.Operation (after)

/-- What an operation should answer and leave behind, by the table: what is in it has its place as
its number, and a mention of something else puts this in the next place, if there is one. -/
inductive Answers (limit : Nat) (fallback : Option α) (n : Numbering α) :
    Operation α → Answer α → Numbering α → Prop
  | known {a : α} {i : Nat} (h : n.items[i]? = some a) :
    Answers limit fallback n (.mention a) (.number i) n
  | fresh {a : α} {m : Numbering α} (h : a ∉ n.items) (hroom : n.items.size < limit)
      (hm : m.items = n.items.push a) :
    Answers limit fallback n (.mention a) (.number n.items.size) m
  | full {a : α} (h : a ∉ n.items) (hfull : limit ≤ n.items.size) :
    Answers limit fallback n (.mention a) (.full n.items.size) n
  | found {a : α} {i : Nat} (h : n.items[i]? = some a) :
    Answers limit fallback n (.find a) (.found (some i)) n
  | missing {a : α} (h : a ∉ n.items) : Answers limit fallback n (.find a) (.found none) n
  | entry {a : α} {i : Nat} (h : n.items[i]? = some a) :
    Answers limit fallback n (.look i) (.thing a) n
  | fallback {a : α} {i : Nat} (h : n.items.size ≤ i) (hfallback : fallback = some a) :
    Answers limit fallback n (.look i) (.thing a) n
  | unknown {i : Nat} (h : n.items.size ≤ i) (hfallback : fallback = none) :
    Answers limit fallback n (.look i) .unknown n
  | count : Answers limit fallback n .count (.size n.items.size) n

variable {limit : Nat} {fallback : Option α}

/-- Operations do what they should. -/
theorem answers_run (limit : Nat) (fallback : Option α) (n : Numbering α) (op : Operation α) :
    Answers limit fallback n op (op.run limit fallback n).1 (after limit fallback n op) := by
  unfold after Operation.run
  cases op with
  | mention a =>
    dsimp only
    split
    · rename_i i hi
      exact .known (find?_eq_some_iff.mp hi)
    · rename_i hnone
      split
      · rename_i hroom
        exact .fresh (not_mem_of_find? hnone) hroom (items_note hnone)
      · rename_i hfull
        exact .full (not_mem_of_find? hnone) (Nat.le_of_not_lt hfull)
  | find a =>
    dsimp only
    cases hi : n.find? a with
    | some i => exact .found (find?_eq_some_iff.mp hi)
    | none => exact .missing (not_mem_of_find? hi)
  | look i =>
    dsimp only
    cases ha : n.get? i with
    | some a => exact .entry ha
    | none =>
      have hsize := get?_eq_none_iff.mp ha
      cases fallback with
      | some a => exact .fallback hsize rfl
      | none => exact .unknown hsize rfl
  | count => exact .count

theorem Answers.within {op : Operation α} {answer : Answer α}
    (h : Answers limit fallback n op answer m) : Within n m := by
  cases h with
  | fresh h hroom hm =>
    intro i b hi
    rw [get?, hm, Array.getElem?_push_lt (Array.getElem?_eq_some_iff.mp hi).1]
    exact (Array.getElem?_eq_getElem _).symm.trans hi
  | _ => exact .rfl

/-- A number that is answered belongs to what was mentioned. -/
theorem Answers.get?_number {i : Nat} (h : Answers limit fallback n (.mention a) (.number i) m) :
    m.get? i = some a := by
  cases h with
  | known h => exact h
  | fresh h hroom hm =>
    rw [get?, hm]
    exact Array.getElem?_push_size

/-- Whatever is done, what has a number keeps it. -/
theorem within_foldl (ops : List (Operation α)) :
    Within n (ops.foldl (after limit fallback) n) := by
  induction ops generalizing n with
  | nil => exact .rfl
  | cons op ops ih => exact (answers_run limit fallback n op).within.trans ih

/-- **Things and numbers belong together one to one, and go on to do so.** The numbers in use are
those below the size, and every operation does what it should. What has a number keeps it whatever
is done, and what is mentioned then is answered with the same number just if it is the same. -/
structure Canonical (limit : Nat) (fallback : Option α) (n : Numbering α) : Prop where
  inverse : ∀ a i, n.find? a = some i ↔ n.get? i = some a
  dense : ∀ i, (n.get? i).isSome ↔ i < n.size
  answers : ∀ op : Operation α,
    Answers limit fallback n op (op.run limit fallback n).1 (after limit fallback n op)
  denotes : ∀ a i, n.get? i = some a → ∀ ops : List (Operation α),
    let later := ops.foldl (after limit fallback) n
    (Operation.mention a).run limit fallback later = (.number i, later) ∧
      (Operation.find a).run limit fallback later = (.found (some i), later) ∧
      (Operation.look i).run limit fallback later = (.thing a, later)
  unique : ∀ a i, ((Operation.mention a).run limit fallback n).1 = .number i →
    ∀ (ops : List (Operation α)) (b : α) (j : Nat),
      let later := ops.foldl (after limit fallback) (after limit fallback n (.mention a))
      ((Operation.mention b).run limit fallback later).1 = .number j → (i = j ↔ a = b)

/-- This is so for every numbering, since its map and its table are made to be inverse. -/
theorem canonical (limit : Nat) (fallback : Option α) (n : Numbering α) :
    Canonical limit fallback n where
  inverse _ _ := find?_eq_some_iff
  dense _ := get?_isSome_iff
  answers := answers_run limit fallback n
  denotes a i hi ops := by
    have hget : (ops.foldl (after limit fallback) n).get? i = some a := within_foldl ops hi
    have hfind := find?_eq_some_iff.mpr hget
    refine ⟨?_, ?_, ?_⟩
    · rw [Operation.run, hfind]
    · rw [Operation.run, hfind]
    · rw [Operation.run, hget]
      rfl
  unique a i hi ops b j hj := by
    have ha := answers_run limit fallback n (.mention a)
    have hb := answers_run limit fallback
      (ops.foldl (after limit fallback) (after limit fallback n (.mention a))) (.mention b)
    rw [hi] at ha
    rw [hj] at hb
    have hold := hb.within (within_foldl ops ha.get?_number)
    constructor
    · rintro rfl
      exact Option.some.inj (hold.symm.trans hb.get?_number)
    · rintro rfl
      exact eq_of_get? hold hb.get?_number

/-- A mention that stays within the limit is not refused. -/
theorem after_mention (h : (n.note a).size ≤ limit) :
    after limit fallback n (.mention a) = n.note a := by
  unfold after Operation.run
  dsimp only
  split
  · rename_i i hi
    exact (note_of_find? hi).symm
  · rename_i hnone
    rw [size_note hnone] at h
    exact congrArg Prod.snd (if_pos h)

theorem size_le_note : n.size ≤ (n.note a).size := by
  cases h : n.find? a with
  | some i => exact Nat.le_of_eq (congrArg size (note_of_find? h).symm)
  | none => exact size_note h ▸ Nat.le_succ _

end Numbering

/-! ### Whole types -/

namespace TypeTable

open TypedExpr.Numbering (Within Operation size_le_note after_mention)
open TypedExpr.Numbering.Operation (after)

variable {table later : TypeTable}

mutual

/-- The entry `shape` is that of `t`: its parts are given by their numbers. -/
def Shapes (table : TypeTable) : Ty → TypeShape → Prop
  | .int, shape => shape = .int
  | .double, shape => shape = .double
  | .bool, shape => shape = .bool
  | .string, shape => shape = .string
  | .object, shape => shape = .object
  | .void, shape => shape = .void
  | .array t, shape =>
    ∃ i entry, Shapes table t entry ∧ table.get? i = some entry ∧ shape = .array i
  | .named d ts, shape => ∃ is, ShapesAll table ts is ∧ shape = .named d is

/-- The numbers `is` are those of the types, in order. -/
def ShapesAll (table : TypeTable) : List Ty → List TypeId → Prop
  | [], is => is = []
  | t :: ts, is =>
    ∃ i entry rest, Shapes table t entry ∧ table.get? i = some entry ∧
      ShapesAll table ts rest ∧ is = i :: rest

end

/-- The number `i` denotes the type. -/
def Denotes (table : TypeTable) (t : Ty) (i : TypeId) : Prop :=
  ∃ shape, Shapes table t shape ∧ table.get? i = some shape

mutual

theorem Shapes.mono (h : Within table later) :
    ∀ {t : Ty} {shape : TypeShape}, Shapes table t shape → Shapes later t shape
  | .int, _, hs | .double, _, hs | .bool, _, hs | .string, _, hs | .object, _, hs
  | .void, _, hs => hs
  | .array _, _, ⟨i, entry, hs, hi, e⟩ => ⟨i, entry, hs.mono h, h hi, e⟩
  | .named _ _, _, ⟨is, hs, e⟩ => ⟨is, hs.mono h, e⟩

theorem ShapesAll.mono (h : Within table later) :
    ∀ {ts : List Ty} {is : List TypeId}, ShapesAll table ts is → ShapesAll later ts is
  | [], _, hs => hs
  | _ :: _, _, ⟨i, entry, rest, hs, hi, hrest, e⟩ =>
    ⟨i, entry, rest, hs.mono h, h hi, hrest.mono h, e⟩

end

/-- A number goes on to denote what it denotes. -/
theorem Denotes.mono {t : Ty} {i : TypeId} (h : Within table later) :
    Denotes table t i → Denotes later t i := fun ⟨shape, hs, hi⟩ => ⟨shape, hs.mono h, h hi⟩

/-- Numbers are the same if and only if their entries are. -/
theorem eq_iff_of_get? {i j : TypeId} {a b : TypeShape} (hi : table.get? i = some a)
    (hj : table.get? j = some b) : i = j ↔ a = b := by
  constructor
  · intro h
    exact Option.some.inj (hi.symm.trans (h ▸ hj))
  · intro h
    exact Numbering.eq_of_get? hi (h ▸ hj)

mutual

/-- Types are the same if and only if their entries are. -/
theorem Shapes.eq_iff {t u : Ty} {x y : TypeShape} (hx : Shapes table t x)
    (hy : Shapes table u y) : x = y ↔ t = u := by
  cases t <;> cases u
  case array.array t u =>
    obtain ⟨i, a, ha, hi, rfl⟩ := hx
    obtain ⟨j, b, hb, hj, rfl⟩ := hy
    rw [TypeShape.array.injEq, Ty.array.injEq, eq_iff_of_get? hi hj, ha.eq_iff hb]
  case named.named d ts e us =>
    obtain ⟨is, hts, rfl⟩ := hx
    obtain ⟨js, hus, rfl⟩ := hy
    rw [TypeShape.named.injEq, Ty.named.injEq, hts.eq_iff hus]
  all_goals grind [Shapes]

theorem ShapesAll.eq_iff {ts us : List Ty} {is js : List TypeId} (hx : ShapesAll table ts is)
    (hy : ShapesAll table us js) : is = js ↔ ts = us := by
  cases ts <;> cases us
  case cons.cons t ts u us =>
    obtain ⟨i, a, is, ha, hi, hts, rfl⟩ := hx
    obtain ⟨j, b, js, hb, hj, hus, rfl⟩ := hy
    rw [List.cons.injEq, List.cons.injEq, eq_iff_of_get? hi hj, ha.eq_iff hb, hts.eq_iff hus]
  all_goals grind [ShapesAll]

end

/-- **Whole types are the same if and only if their numbers are.** -/
theorem Denotes.eq_iff {t u : Ty} {i j : TypeId} :
    Denotes table t i → Denotes table u j → (i = j ↔ t = u) := by
  rintro ⟨x, hx, hi⟩ ⟨y, hy, hj⟩
  rw [eq_iff_of_get? hi hj, hx.eq_iff hy]

mutual

theorem within_note : ∀ (table : TypeTable) (t : Ty), Within table (table.note t).2
  | _, .int | _, .double | _, .bool | _, .string | _, .object | _, .void => .rfl
  | table, .array t => (within_note table t).trans Numbering.within_note
  | table, .named _ ts => (within_noteAll table ts).trans Numbering.within_note

theorem within_noteAll : ∀ (table : TypeTable) (ts : List Ty), Within table (table.noteAll ts).2
  | _, [] => .rfl
  | table, t :: ts => (within_note table t).trans (within_noteAll (table.note t).2 ts)

end

theorem items_primitives :
    primitives.items = #[.int, .double, .bool, .string, .object, .void] := rfl

mutual

/-- A type that is mentioned gets a number that denotes it. -/
theorem denotes_note : ∀ (table : TypeTable) (t : Ty), Within primitives table →
    Denotes (table.note t).2 t (table.note t).1
  | _, .int, h | _, .double, h | _, .bool, h | _, .string, h | _, .object, h | _, .void, h =>
    ⟨_, rfl, h (by rw [Numbering.get?, items_primitives]; rfl)⟩
  | table, .array t, h => by
    obtain ⟨entry, hs, hi⟩ := denotes_note table t h
    have hlater := Numbering.within_note (n := (table.note t).2) (a := .array (table.note t).1)
    exact ⟨_, ⟨_, entry, hs.mono hlater, hlater hi, rfl⟩, Numbering.get?_note_self _ _⟩
  | table, .named d ts, h =>
    ⟨_, ⟨_, (shapesAll_noteAll table ts h).mono Numbering.within_note, rfl⟩,
      Numbering.get?_note_self _ _⟩

theorem shapesAll_noteAll : ∀ (table : TypeTable) (ts : List Ty), Within primitives table →
    ShapesAll (table.noteAll ts).2 ts (table.noteAll ts).1
  | _, [], _ => rfl
  | table, t :: ts, h => by
    obtain ⟨entry, hs, hi⟩ := denotes_note table t h
    have hrest := within_noteAll (table.note t).2 ts
    exact ⟨_, entry, _, hs.mono hrest, hrest hi,
      shapesAll_noteAll _ ts (h.trans (within_note table t)), rfl⟩

end

/-! ### Mentions of whole types -/

mutual

theorem size_note_le : ∀ (table : TypeTable) (t : Ty), table.size ≤ (table.note t).2.size
  | _, .int | _, .double | _, .bool | _, .string | _, .object | _, .void => Nat.le_refl _
  | table, .array t => Nat.le_trans (size_note_le table t) size_le_note
  | table, .named _ ts => Nat.le_trans (size_noteAll_le table ts) size_le_note

theorem size_noteAll_le : ∀ (table : TypeTable) (ts : List Ty),
    table.size ≤ (table.noteAll ts).2.size
  | _, [] => Nat.le_refl _
  | table, t :: ts => Nat.le_trans (size_note_le table t) (size_noteAll_le (table.note t).2 ts)

end

/-- There are numbers for the type and all its parts. -/
def HasRoom (limit : Nat) (table : TypeTable) (t : Ty) : Prop := (table.note t).2.size ≤ limit

instance {limit : Nat} {t : Ty} : Decidable (HasRoom limit table t) :=
  inferInstanceAs (Decidable (_ ≤ _))

/-- The table comes to be as it is later by mentions of entries. -/
def Mentions (limit : Nat) (table later : TypeTable) : Prop :=
  ∃ shapes : List TypeShape,
    later = (shapes.map .mention).foldl (after limit none) table

variable {limit : Nat}

theorem Mentions.refl : Mentions limit table table := ⟨[], rfl⟩

theorem Mentions.trans {last : TypeTable} :
    Mentions limit table later → Mentions limit later last → Mentions limit table last := by
  rintro ⟨shapes, rfl⟩ ⟨shapes', rfl⟩
  refine ⟨shapes ++ shapes', ?_⟩
  rw [List.map_append, List.foldl_append]

theorem Mentions.entry {shape : TypeShape} (h : (Numbering.note table shape).size ≤ limit) :
    Mentions limit table (Numbering.note table shape) := ⟨[shape], (after_mention h).symm⟩

mutual

/-- A whole type is mentioned entry by entry. -/
theorem mentions_note : ∀ (table : TypeTable) (t : Ty), (table.note t).2.size ≤ limit →
    Mentions limit table (table.note t).2
  | _, .int, _ | _, .double, _ | _, .bool, _ | _, .string, _ | _, .object, _ | _, .void, _ => .refl
  | table, .array t, h => (mentions_note table t (Nat.le_trans size_le_note h)).trans (.entry h)
  | table, .named _ ts, h =>
    (mentions_noteAll table ts (Nat.le_trans size_le_note h)).trans (.entry h)

theorem mentions_noteAll : ∀ (table : TypeTable) (ts : List Ty),
    (table.noteAll ts).2.size ≤ limit → Mentions limit table (table.noteAll ts).2
  | _, [], _ => .refl
  | table, t :: ts, h =>
    have hfirst := mentions_note table t (Nat.le_trans (size_noteAll_le _ ts) h)
    hfirst.trans (mentions_noteAll _ ts h)

end

end TypeTable

/-! ### The numbers of a catalog -/

open TypedExpr.Numbering (Within Operation Canonical)
open TypedExpr.Numbering.Operation (after)

/-- **The numbers of names and of types are a stable bijection.** Whatever is done with the names
from the start on, and whatever with the entries of types: numbers and what they belong to determine
each other, every operation answers as it should, and a number goes on to denote what it was given
for. The empty name keeps the number `0`, and the primitives keep `0` to `5`. A name that is not
known is looked up as the empty one. A whole type is mentioned entry by entry, if there is room for
all of it; it has its number from then on, and a type mentioned later gets the same one if and only
if it is the same type. -/
theorem Catalog.numbers_stable (limit : Nat) :
    (∀ ops : List (Operation String),
      let names := ops.foldl (after limit (some "")) initial.names
      names.Canonical limit (some "") ∧ names.find? "" = some 0 ∧ names.get? 0 = some "") ∧
    ∀ ops : List (Operation TypeShape),
      let types : TypeTable := ops.foldl (after limit none) initial.types
      Canonical limit none types ∧
      [.int, .double, .bool, .string, .object, .void].map types.find? = (List.range 6).map some ∧
      ∀ t : Ty, types.HasRoom limit t →
        types.Mentions limit (types.note t).2 ∧
        ∀ more : List (Operation TypeShape),
          let later : TypeTable := more.foldl (after limit none) (types.note t).2
          later.Denotes t (types.number t) ∧
            ∀ u, later.HasRoom limit u → (types.number t = later.number u ↔ t = u) := by
  refine ⟨fun ops => ?_, fun ops => ⟨Numbering.canonical .., ?_, fun t hroom => ⟨?_, ?_⟩⟩⟩
  · have hempty : (ops.foldl (after limit (some "")) initial.names).get? 0 = some "" :=
      Numbering.within_foldl ops (show initial.names.get? 0 = some "" from rfl)
    exact ⟨Numbering.canonical .., Numbering.find?_eq_some_iff.mpr hempty, hempty⟩
  · have hkeep (i : Nat) (shape : TypeShape)
        (h : (#[.int, .double, .bool, .string, .object, .void] : Array TypeShape)[i]? = some shape) :
        (ops.foldl (after limit none) initial.types).find? shape = some i := by
      refine Numbering.find?_eq_some_iff.mpr (Numbering.within_foldl ops ?_)
      rwa [← TypeTable.items_primitives] at h
    simp [hkeep 0, hkeep 1, hkeep 2, hkeep 3, hkeep 4, hkeep 5, List.range_succ]
  · exact TypeTable.mentions_note _ t hroom
  · intro more later
    have hstart : Within initial.types (ops.foldl (after limit none) initial.types) :=
      Numbering.within_foldl ops
    have hmore : Within _ later := Numbering.within_foldl more
    have hold := (TypeTable.denotes_note _ t hstart).mono hmore
    refine ⟨hold, fun u _ => ?_⟩
    have hlater := (hstart.trans (TypeTable.within_note _ t)).trans hmore
    exact (hold.mono (TypeTable.within_note later u)).eq_iff (TypeTable.denotes_note later u hlater)

/-- Two names are mentioned, and two types, an array of integers and an array of those. -/
theorem Catalog.numbers_stable_mentioned :
    let names := [.mention "x", .find "y", .mention "y", .mention "x"].foldl
      (after UInt32.size (some "")) initial.names
    let types : TypeTable := [.mention (.array 0), .look 7, .mention (.array 6)].foldl
      (after UInt32.size none) initial.types
    names.items = #["", "x", "y"] ∧
    ((Operation.look 7).run UInt32.size (some "") names).1 = .thing "" ∧
    ((Operation.mention "z").run 3 (some "") names).1 = .full 3 ∧
    (∀ ops : List (Operation String),
      let later := ops.foldl (after UInt32.size (some "")) names
      (Operation.mention "x").run UInt32.size (some "") later = (.number 1, later) ∧
        (Operation.look 2).run UInt32.size (some "") later = (.thing "y", later)) ∧
    types.get? 6 = some (.array 0) ∧ types.get? 7 = some (.array 6) ∧
    ((Operation.look 8).run UInt32.size none types).1 = .unknown ∧
    types.HasRoom UInt32.size (.array (.array .int)) ∧
    ∀ more : List (Operation TypeShape),
      let later : TypeTable := more.foldl (after UInt32.size none) types
      later.Denotes (.array (.array .int)) 7 ∧
        (later.HasRoom UInt32.size (.array .int) → later.number (.array .int) ≠ 7) := by
  intro names types
  obtain ⟨hnames, htypes⟩ := Catalog.numbers_stable UInt32.size
  obtain ⟨hcanonical, -, -⟩ := hnames [.mention "x", .find "y", .mention "y", .mention "x"]
  obtain ⟨-, -, hwhole⟩ := htypes [.mention (.array 0), .look 7, .mention (.array 6)]
  have hx : names.get? 1 = some "x" := by decide +kernel
  have hy : names.get? 2 = some "y" := by decide +kernel
  have hroom : types.HasRoom UInt32.size (.array (.array .int)) := by decide +kernel
  have hnumber : types.number (.array (.array .int)) = 7 := by decide +kernel
  have hsame : (types.note (.array (.array .int))).2 = types := rfl
  obtain ⟨-, hlater⟩ := hwhole (.array (.array .int)) hroom
  refine ⟨by decide +kernel, by decide +kernel, by decide +kernel, fun ops => ?_,
    by decide +kernel, by decide +kernel, by decide +kernel, hroom, fun more => ?_⟩
  · exact ⟨(hcanonical.denotes "x" 1 hx ops).1, (hcanonical.denotes "y" 2 hy ops).2.2⟩
  · have hmore := hlater more
    rw [hsame, hnumber] at hmore
    refine ⟨hmore.1, fun hu h => ?_⟩
    cases (hmore.2 _ hu).mp h.symm

end TypedExpr
