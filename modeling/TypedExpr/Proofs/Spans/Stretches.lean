import TypedExpr.Proofs.Extent.Follows
import TypedExpr.Proofs.Spans.Merging
/-!
# Stretches of tokens

The items of an expression are made of stretches of tokens that follow one another without a gap,
and the span of an item reaches from the first token of its stretch to the last, brackets included.
The two branches of a conditional are different: they have the spans of their nodes, and the node of
an expression in parentheses does not reach as far as they do.

* `TokenList.Disjoint`: no token starts before the one in front of it ends.
* `TokenList.stretch`: how far the tokens from one place up to another reach.
* `TokenList.Core`: the span of an expression may leave out parentheses around it.
* `Item.Covers`, `Stacked`, `Units`: items and their stretches.
* `Units.fill`: the items are in order, and reach as far as the tokens or the last branch does.
-/

namespace TypedExpr

namespace TokenList

variable {ts : TokenList} {i j k l : Nat} {span : Span}

/-- No token starts before the one in front of it ends. -/
structure Disjoint (ts : TokenList) : Prop where
  start_le_stop : ∀ i < ts.size, (ts.get i).span.start ≤ (ts.get i).span.stop
  stop_le_start : ∀ i < ts.init.size, (ts.get i).span.stop ≤ (ts.get (i + 1)).span.start

instance (ts : TokenList) : Decidable ts.Disjoint :=
  decidable_of_iff _ ⟨fun h => ⟨h.1, h.2⟩, fun h => And.intro h.start_le_stop h.stop_le_start⟩

/-- Past the end there is nothing but the end of input. -/
theorem get_of_size_le (h : ts.init.size ≤ i) : ts.get i = ts.last := by
  unfold get
  rw [Array.getElem?_eq_none h]
  rfl

theorem Disjoint.before (h : ts.Disjoint) (hij : i ≤ j) :
    (ts.get i).span.Before (ts.get j).span := by
  induction hij with
  | refl => exact .refl _
  | @step j _ ih =>
    refine ih.trans ?_
    by_cases hj : j < ts.init.size
    · have hstop := h.start_le_stop j (Nat.lt_succ_of_lt hj)
      have hstop' := h.start_le_stop (j + 1) (Nat.succ_lt_succ hj)
      have hnext := h.stop_le_start j hj
      exact ⟨Nat.le_trans hstop hnext, Nat.le_trans hnext hstop'⟩
    · rw [get_of_size_le (i := j) (by omega), get_of_size_le (i := j + 1) (by omega)]
      exact .refl _

/-- How far the tokens from `i` up to, not including, `j` reach. -/
def stretch (ts : TokenList) (i j : Nat) : Span :=
  ⟨(ts.get i).span.start, (ts.get (j - 1)).span.stop⟩

@[simp] theorem stretch_start (ts : TokenList) (i j : Nat) :
    (ts.stretch i j).start = (ts.get i).span.start := rfl

@[simp] theorem stretch_stop (ts : TokenList) (i j : Nat) :
    (ts.stretch i j).stop = (ts.get (j - 1)).span.stop := rfl

/-- One token by itself. -/
theorem stretch_succ (ts : TokenList) (i : Nat) : ts.stretch i (i + 1) = (ts.get i).span := rfl

theorem Disjoint.stretch_before (h : ts.Disjoint) (hik : i ≤ k) (hjl : j ≤ l) :
    (ts.stretch i j).Before (ts.stretch k l) :=
  ⟨(h.before hik).1, (h.before (Nat.sub_le_sub_right hjl 1)).2⟩

theorem Disjoint.merge_stretch (h : ts.Disjoint) (hik : i ≤ k) (hjl : j ≤ l) :
    (ts.stretch i j).merge (ts.stretch k l) = ts.stretch i l :=
  (h.stretch_before hik hjl).merge_eq

/-- The span is that of the tokens from `i` up to `j`, but for parentheses around them. -/
def Core (ts : TokenList) (span : Span) (i j : Nat) : Prop :=
  ∃ a b, i ≤ a ∧ a < b ∧ b ≤ j ∧ span = ts.stretch a b ∧
    (∀ k, i ≤ k → k < a → (ts.get k).kind = .opening .paren) ∧
    ∀ k, b ≤ k → k < j → (ts.get k).kind = .closing .paren

namespace Core

theorem whole (h : i < j) : ts.Core (ts.stretch i j) i j :=
  ⟨i, j, Nat.le_refl _, h, Nat.le_refl _, rfl, by omega, by omega⟩

/-- Parentheses around are left out. -/
theorem group (h : ts.Core span (i + 1) j) (ho : (ts.get i).kind = .opening .paren)
    (hc : (ts.get j).kind = .closing .paren) : ts.Core span i (j + 1) := by
  obtain ⟨a, b, ha, hab, hb, hspan, hopening, hclosing⟩ := h
  refine ⟨a, b, by omega, hab, by omega, hspan, fun k hk hka => ?_, fun k hk hkj => ?_⟩
  · rcases Nat.eq_or_lt_of_le hk with rfl | hk
    · exact ho
    · exact hopening k hk hka
  · rcases Nat.eq_or_lt_of_le (Nat.le_of_lt_succ hkj) with rfl | hkj
    · exact hc
    · exact hclosing k hk hkj

theorem lt (h : ts.Core span i j) : i < j := by
  obtain ⟨a, b, ha, hab, hb, -⟩ := h
  omega

end Core

end TokenList

/-! ### Items and their stretches -/

/-- The item is made of the tokens from `i` up to `j` and reaches as far as they do. -/
structure Item.Covers (ts : TokenList) (item : Item) (i j : Nat) : Prop where
  lt : i < j
  span : item.span = ts.stretch i j
  core : ∀ e, item.kind = .value e → ts.Core e.span i j
  not_question : item.operator? ≠ some .question

/-- The items, the latest first, are made of stretches of tokens from `i` up to `j`. -/
inductive Stacked (ts : TokenList) (i : Nat) : List Item → Nat → Prop
  | nil : Stacked ts i [] i
  | cons {item : Item} {below : List Item} {j k : Nat} (h : Stacked ts i below j)
    (hi : item.Covers ts j k) : Stacked ts i (item :: below) k

/-- The items are made of the tokens from `i` up to `j`. The last of them may be a conditional. -/
inductive Units (ts : TokenList) (i : Nat) : List Item → Nat → Prop
  | plain {done : List Item} {j : Nat} (h : Stacked ts i done j) : Units ts i done.reverse j
  | choice {done : List Item} {j k l line : Nat} {yes no : Expr} (h : Stacked ts i done j)
    (hy : ts.Core yes.span (j + 1) k) (hn : ts.Core no.span (k + 1) l) :
    Units ts i (done.reverse ++ [⟨.operator .question, (ts.get j).span, line⟩,
      ⟨.value yes, yes.span, line⟩, ⟨.value no, no.span, line⟩]) l

namespace Item.Covers

variable {ts : TokenList} {item : Item} {i j k : Nat}

variable {span : Span} {line : Nat} {e : Expr}

/-- A value that may leave out parentheses around it. -/
theorem of_core (hspan : span = ts.stretch i j) (h : ts.Core e.span i j) :
    Item.Covers ts ⟨.value e, span, line⟩ i j := by
  refine ⟨h.lt, hspan, ?_, fun hop => by cases hop⟩
  rintro e' ⟨⟩
  exact h

/-- What is built from the tokens. -/
theorem value (hij : i < j) (he : e.span = span) (hspan : span = ts.stretch i j) (line : Nat) :
    Item.Covers ts ⟨.value e, span, line⟩ i j :=
  .of_core hspan (by rw [he, hspan]; exact .whole hij)

theorem operator (hij : i < j) (hspan : span = ts.stretch i j) {op : Operator}
    (hop : op ≠ .question) : Item.Covers ts ⟨.operator op, span, line⟩ i j := by
  refine ⟨hij, hspan, ?_, fun h => hop (Option.some.inj h)⟩
  rintro e ⟨⟩

/-- What is neither a value nor an operator. -/
theorem other (hij : i < j) (hspan : item.span = ts.stretch i j) (hv : item.value? = none)
    (hop : item.operator? = none) : item.Covers ts i j := by
  refine ⟨hij, hspan, fun e hk => ?_, fun h => ?_⟩
  · rw [Item.value?, hk] at hv
    cases hv
  · rw [hop] at h
    cases h

end Item.Covers

namespace Stacked

variable {ts : TokenList} {i j k : Nat} {items below below' : List Item} {item : Item}

theorem le (h : Stacked ts i items j) : i ≤ j := by
  induction h with
  | nil => exact Nat.le_refl _
  | cons _ hi ih => exact Nat.le_trans ih (Nat.le_of_lt hi.lt)

/-- The items at the bottom may be exchanged. -/
theorem replace (h : Stacked ts i (items ++ below) k)
    (hb : ∀ j, Stacked ts i below j → Stacked ts i below' j) : Stacked ts i (items ++ below') k := by
  induction items generalizing k with
  | nil => exact hb k h
  | cons item items ih =>
    cases h with
    | cons h hi => exact .cons (ih h) hi

theorem not_question (h : Stacked ts i items j) :
    ∀ item ∈ items, item.operator? ≠ some .question := by
  induction h with
  | nil => exact nofun
  | cons _ hi ih => exact List.forall_mem_cons.2 ⟨hi.not_question, ih⟩

section

variable (hd : ts.Disjoint)

include hd

/-- No item reaches behind the next token. -/
theorem before (h : Stacked ts i items j) (hjk : j ≤ k) :
    ∀ item ∈ items, item.span.Before (ts.get k).span := by
  induction h generalizing k with
  | nil => exact nofun
  | @cons item below j' k' _ hi ih =>
    refine List.forall_mem_cons.2 ⟨?_, ih (Nat.le_trans (Nat.le_of_lt hi.lt) hjk)⟩
    have hlt := hi.lt
    rw [hi.span, ← ts.stretch_succ k]
    exact hd.stretch_before (by omega) (by omega)

/-- The items reach as far as the tokens do. -/
theorem fill (h : Stacked ts i items j) : Item.Fill items.reverse (ts.stretch i j) := by
  induction h with
  | nil => exact .nil _
  | @cons item below j k hb hi ih =>
    have hj : j ≤ k := Nat.le_of_lt hi.lt
    have hbehind : ∀ i ∈ below.reverse, i.span.Before item.span := fun i hm => by
      rw [hi.span]
      exact (hb.before hd (Nat.le_refl j) i (List.mem_reverse.1 hm)).trans
        (hd.stretch_before (Nat.le_refl j) hi.lt)
    have hfirst (hnil : below.reverse = []) :
        item.span.start = (ts.stretch i j).start := by
      obtain rfl := List.reverse_eq_nil_iff.1 hnil
      cases hb
      rw [hi.span, TokenList.stretch_start, TokenList.stretch_start]
    rw [List.reverse_cons]
    simpa [hi.span, TokenList.stretch] using ih.concat item hbehind hfirst

end

end Stacked

namespace Units

variable {ts : TokenList} {i j : Nat} {items : List Item}

/-- Without a conditional the items reach as far as the tokens do. -/
theorem fill_of_not_question (hd : ts.Disjoint) (h : Units ts i items j)
    (hq : ∀ item ∈ items, item.operator? ≠ some .question) :
    Item.Fill items (ts.stretch i j) := by
  cases h with
  | plain h => exact h.fill hd
  | choice => exact absurd rfl (hq _ (List.mem_append_right _ (.head _)))

/-- The items reach from the first token to a place behind which there are only parentheses. With a
conditional that is where the node of the second branch ends. -/
theorem fill (hd : ts.Disjoint) (h : Units ts i items j) (hne : items ≠ []) : ∃ b, i < b ∧ b ≤ j ∧
    Item.Fill items (ts.stretch i b) ∧ ∀ k, b ≤ k → k < j → (ts.get k).kind = .closing .paren := by
  cases h with
  | @plain done _ h =>
    refine ⟨j, ?_, Nat.le_refl j, h.fill hd, by omega⟩
    cases h with
    | nil => exact absurd rfl hne
    | cons hb hi => exact Nat.lt_of_le_of_lt hb.le hi.lt
  | @choice done m k _ line yes no h hy hn =>
    obtain ⟨a, b, ha, hab, hb, hyes, -⟩ := hy
    obtain ⟨c, d, hc, hcd, hd', hno, -, hclosing⟩ := hn
    have hle := h.le
    have hdone : ∀ i ∈ done.reverse, i.span.Before (ts.get m).span := fun i hm =>
      h.before hd (Nat.le_refl m) i (List.mem_reverse.1 hm)
    have hfirst (hnil : done.reverse = []) : (ts.get m).span.start = (ts.stretch i m).start := by
      obtain rfl := List.reverse_eq_nil_iff.1 hnil
      cases h
      rfl
    have hquestion : (ts.get m).span.Before yes.span := by
      rw [hyes, ← ts.stretch_succ m]
      exact hd.stretch_before (by omega) (by omega)
    have hbranch : yes.span.Before no.span := by
      rw [hyes, hno]
      exact hd.stretch_before (by omega) (by omega)
    refine ⟨d, by omega, hd', ?_, hclosing⟩
    have hq := (h.fill hd).concat ⟨.operator .question, (ts.get m).span, line⟩ hdone hfirst
    have hy := hq.concat ⟨.value yes, yes.span, line⟩ ?_ (by simp)
    have hn := hy.concat ⟨.value no, no.span, line⟩ ?_ (by simp)
    · simpa [hno, TokenList.stretch] using hn
    · simp only [List.mem_append, List.mem_singleton]
      rintro i ((hi | rfl) | rfl)
      · exact ((hdone i hi).trans hquestion).trans hbranch
      · exact hquestion.trans hbranch
      · exact hbranch
    · simp only [List.mem_append, List.mem_singleton]
      rintro i (hi | rfl)
      · exact (hdone i hi).trans hquestion
      · exact hquestion

theorem covers {item : Item} (h : Units ts i [item] j) : item.Covers ts i j := by
  generalize hone : [item] = items at h
  cases h with
  | plain h =>
    rw [← List.reverse_singleton, List.reverse_inj] at hone
    subst hone
    obtain _ | ⟨h, hi⟩ := h
    cases h
    exact hi
  | choice =>
    have hlength := congrArg List.length hone
    simp at hlength

/-- A conditional is the last of the items, with its branches. -/
theorem eq_append_of_question (h : Units ts i items j)
    (hq : ∃ item ∈ items, item.operator? = some .question) : ∃ front question yes no line,
      items = front ++ [question, ⟨.value yes, yes.span, line⟩, ⟨.value no, no.span, line⟩] ∧
        question.operator? = some .question := by
  cases h with
  | plain h =>
    obtain ⟨item, hitem, hop⟩ := hq
    exact absurd hop (h.not_question item (List.mem_reverse.1 hitem))
  | choice => exact ⟨_, _, _, _, _, rfl, rfl⟩

end Units

end TypedExpr
