import TypedExpr.Parse
/-!
# Items in order

While an expression is parsed, an index stands right behind what it is taken of: a value, or another
index that is taken first. There is at most one `?`, the last item but two; its branches are behind
it. It is enough to know the item in front of some items to tell whether they are in order.

* `Item.Placed`: what must stand in front of an item and behind it.
* `Item.OrderlyFrom`, `Item.Orderly`: all items are placed so.
* `Item.OrderlyFrom.replace`: **a value in the place of an operator and its operands keeps the
  order.**
* `Item.Growing`: items that are still collected, the latest first.
-/

namespace TypedExpr.Item

open TypedExpr.Parser (canBeIndexed)

/-- Just the two branches of a conditional are there. -/
def areBranches : List Item → Bool
  | [yes, no] => yes.value?.isSome && no.value?.isSome
  | _ => false

/-- What must stand in front of an item and behind it. -/
structure Placed (before : Option Item) (item : Item) (behind : List Item) : Prop where
  index : item.isIndex = true → canBeIndexed before.toList = true
  choice : item.operator? = some .question → areBranches behind = true

instance (before : Option Item) (item : Item) (behind : List Item) :
    Decidable (Placed before item behind) :=
  decidable_of_iff ((item.isIndex = true → canBeIndexed before.toList = true) ∧
    (item.operator? = some .question → areBranches behind = true))
    ⟨fun h => ⟨h.1, h.2⟩, fun h => ⟨h.index, h.choice⟩⟩

/-- A value may stand anywhere. -/
theorem Placed.value {before : Option Item} {item : Item} {behind : List Item}
    (h : item.value?.isSome = true) : Placed before item behind := by
  obtain ⟨kind, _, _⟩ := item
  constructor <;> intro hk <;> cases kind <;> simp [isIndex, operator?, value?] at h hk

/-- All items are placed as they must be, with an item in front of the first. -/
def OrderlyFrom (before : Option Item) : List Item → Prop
  | [] => True
  | item :: rest => Placed before item rest ∧ OrderlyFrom (some item) rest

instance decidableOrderlyFrom (before : Option Item) :
    (items : List Item) → Decidable (OrderlyFrom before items)
  | [] => inferInstanceAs (Decidable True)
  | item :: rest =>
    have := decidableOrderlyFrom (some item) rest
    inferInstanceAs (Decidable (_ ∧ _))

/-- All items are placed as they must be. -/
abbrev Orderly (items : List Item) : Prop := OrderlyFrom none items

theorem orderlyFrom_iff {before : Option Item} {items : List Item} :
    OrderlyFrom before items ↔ ∀ front item behind, items = front ++ item :: behind →
      Placed (front.getLast?.or before) item behind := by
  induction items generalizing before with
  | nil => simp [OrderlyFrom]
  | cons item rest ih =>
    rw [OrderlyFrom, ih]
    constructor
    · rintro ⟨hitem, hrest⟩ (_ | ⟨first, front⟩) i behind heq
      · obtain ⟨rfl, rfl⟩ := List.cons.inj heq
        exact hitem
      · obtain ⟨rfl, rfl⟩ := List.cons.inj heq
        simpa [List.getLast?_cons] using hrest front i behind rfl
    · intro h
      refine ⟨h [] item rest rfl, fun front i behind heq => ?_⟩
      simpa [List.getLast?_cons] using h (item :: front) i behind (by rw [heq]; rfl)

namespace OrderlyFrom

variable {before before' : Option Item} {xs ys front seg back : List Item} {v : Item}

/-- What can be indexed may stand in front. -/
theorem behind (h : OrderlyFrom before xs) (hb : canBeIndexed before'.toList = true) :
    OrderlyFrom before' xs := by
  cases xs with
  | nil => trivial
  | cons x xs => exact ⟨⟨fun _ => hb, h.1.choice⟩, h.2⟩

theorem drop (h : OrderlyFrom before (seg ++ back)) (hb : canBeIndexed before'.toList = true) :
    OrderlyFrom before' back := by
  induction seg generalizing before with
  | nil => exact h.behind hb
  | cons i seg ih => exact ih h.2

theorem canBeIndexed_value (hv : v.value?.isSome = true) : canBeIndexed (some v).toList = true := by
  simp [canBeIndexed, hv]

/-- The branches of a conditional are values. -/
theorem value_of_areBranches (h : areBranches xs = true) : ∀ i ∈ xs, i.value?.isSome = true := by
  unfold areBranches at h
  split at h
  · simpa using h
  · cases h

/-- **A value in the place of an operator and its operands keeps the order.** -/
theorem replace (h : OrderlyFrom before (front ++ (seg ++ back)))
    (hseg : ∃ i ∈ seg, i.value? = none) (hv : v.value?.isSome = true) :
    OrderlyFrom before (front ++ v :: back) := by
  induction front generalizing before with
  | nil =>
    rw [List.nil_append] at h
    exact ⟨.value hv, h.drop (canBeIndexed_value hv)⟩
  | cons i front ih =>
    refine ⟨⟨h.1.index, fun hq => ?_⟩, ih h.2⟩
    obtain ⟨j, hj, hnone⟩ := hseg
    have hvalue := value_of_areBranches (h.1.choice hq) j (by simp [hj])
    rw [hnone] at hvalue
    cases hvalue

/-- There is at most one `?`. -/
theorem countP_question_le (h : OrderlyFrom before xs) :
    (xs.countP fun i => i.operator? = some .question) ≤ 1 := by
  induction xs generalizing before with
  | nil => exact Nat.zero_le 1
  | cons x xs ih =>
    by_cases hq : x.operator? = some .question
    · -- only the branches are behind it
      have hnone : (xs.countP fun i => i.operator? = some .question) = 0 := by
        refine List.countP_eq_zero.2 fun i hi hiq => ?_
        have hvalue := value_of_areBranches (h.1.choice hq) i hi
        obtain ⟨kind, _, _⟩ := i
        cases kind <;> simp [operator?, value?] at hiq hvalue
      rw [List.countP_cons, hnone]
      split <;> simp
    · rw [List.countP_cons, if_neg (by simpa using hq)]
      exact ih h.2

end OrderlyFrom

/-! ### Items that are still collected -/

/-- The items are collected in order, the latest first, and there is no `?` yet. -/
inductive Growing : List Item → Prop
  | nil : Growing []
  | cons {item : Item} {below : List Item} (hq : item.operator? ≠ some .question)
    (hi : item.isIndex = true → canBeIndexed below = true) (h : Growing below) :
    Growing (item :: below)

namespace Growing

variable {item q y n : Item} {items below behind : List Item}

/-- Items that may follow the latest one. -/
theorem append (h : Growing items) (hb : OrderlyFrom items.head? behind) :
    Orderly (items.reverse ++ behind) := by
  induction h generalizing behind with
  | nil => exact hb
  | @cons item below hq hi _ ih =>
    rw [List.reverse_cons, List.append_assoc]
    refine ih ⟨⟨fun hindex => ?_, fun hquestion => absurd hquestion hq⟩, hb⟩
    have hcan := hi hindex
    cases below with
    | nil => cases hcan
    | cons last below => exact hcan

theorem orderly (h : Growing items) : Orderly items.reverse := by
  have hnil : OrderlyFrom items.head? [] := trivial
  simpa using h.append hnil

/-- A `?` and its branches. -/
theorem choice (h : Growing items) (hq : q.isIndex = false) (hy : y.value?.isSome = true)
    (hn : n.value?.isSome = true) : Orderly (n :: y :: q :: items).reverse := by
  have hchoice : OrderlyFrom items.head? [q, y, n] := by
    refine ⟨⟨fun hi => ?_, fun _ => ?_⟩, .value hy, .value hn, trivial⟩
    · rw [hq] at hi
      cases hi
    · simp [areBranches, hy, hn]
  simpa using h.append hchoice

theorem dropWhile (h : Growing items) (p : Item → Bool) : Growing (items.dropWhile p) := by
  induction h with
  | nil => exact .nil
  | @cons item below hq hi hb ih =>
    rw [List.dropWhile_cons]
    split
    · exact ih
    · exact .cons hq hi hb

end Growing

end TypedExpr.Item
