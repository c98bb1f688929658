import Mathlib.Data.List.Lattice
import Mathlib.Data.List.Nodup
import Mathlib.Data.List.Pairwise
import Mathlib.Logic.Relation
import TypedExpr.Proofs.Fragments.Building
/-!
# Nodes in the form of a tree

Nodes name their parts by number, so a node could be part of several others. If no number occurs
twice in an expression, then no node of it is.

* `Child`, `Reaches`: the parts of a node, their parts, and so on.
* `IsTree`: no node below a root has two parents.
* `Arena.isTree`: the nodes of an expression in which no number occurs twice.
-/

namespace TypedExpr

/-- The node of the second number is a part of the node of the first. -/
def Child (nodes : Array Expr) (i j : Nat) : Prop :=
  ∃ e, nodes[i]? = some e ∧ ∃ part ∈ e.form.parts, part.number = j

/-- The node of the second number is in the expression of the first. -/
abbrev Reaches (nodes : Array Expr) : Nat → Nat → Prop := Relation.ReflTransGen (Child nodes)

/-- The nodes in the expression of a number form a tree: none is a part of two of them, or twice of
one. -/
structure IsTree (nodes : Array Expr) (root : Nat) : Prop where
  parent {i i' k : Nat} (hi : Reaches nodes root i) (hi' : Reaches nodes root i')
    (hk : Child nodes i k) (hk' : Child nodes i' k) : i = i'
  parts {i : Nat} {e : Expr} (hi : Reaches nodes root i) (he : nodes[i]? = some e) :
    (e.form.parts.map Expr.number).Nodup

theorem Expr.number_mem_numbers (e : Expr) : e.number ∈ e.numbers := by
  obtain ⟨number, span, t, form⟩ := e
  rw [numbers_node]
  exact List.mem_cons_self

/-- The parts of a node have numbers among those in it. -/
theorem Expr.map_number_sublist (es : List Expr) :
    (es.map number).Sublist (es.flatMap numbers) := by
  induction es with
  | nil => exact .slnil
  | cons e es ih =>
    exact (List.singleton_sublist.2 e.number_mem_numbers).append ih

namespace Arena

variable {nodes : Array Expr} {e : Expr} {i j : Nat}

/-- Below a node there is the node itself, and what is below its parts. -/
theorem reaches_cases (ha : Arena nodes) (he : nodes[e.number]? = some e)
    (h : Reaches nodes e.number j) :
    j = e.number ∨ ∃ part ∈ e.form.parts, nodes[part.number]? = some part ∧
      Reaches nodes part.number j := by
  rcases Relation.ReflTransGen.cases_head h with rfl | ⟨c, ⟨e', he', part, hpart, rfl⟩, hj⟩
  · exact .inl rfl
  · obtain rfl : e = e' := Option.some.inj (he.symm.trans he')
    exact .inr ⟨part, hpart, ((ha _ _ he).2 part hpart).2, hj⟩

theorem mem_numbers (ha : Arena nodes) (he : nodes[e.number]? = some e)
    (h : Reaches nodes e.number j) : j ∈ e.numbers := by
  induction e using Expr.induct with
  | h number span t form ih =>
    rw [Expr.numbers_node]
    rcases ha.reaches_cases he h with rfl | ⟨part, hpart, hnode, hj⟩
    · exact List.mem_cons_self
    · exact .tail _ (List.mem_flatMap.2 ⟨part, hpart, ih part hpart hnode hj⟩)

theorem child_lt (ha : Arena nodes) (h : Child nodes i j) : j < i := by
  obtain ⟨e, he, part, hpart, rfl⟩ := h
  exact ((ha i e he).2 part hpart).1

theorem reaches_le (ha : Arena nodes) (h : Reaches nodes i j) : j ≤ i := by
  induction h with
  | refl => exact Nat.le_refl i
  | tail _ hchild ih => exact Nat.le_trans (Nat.le_of_lt (ha.child_lt hchild)) ih

/-- The nodes of an expression in which no number occurs twice form a tree. -/
theorem isTree (ha : Arena nodes) (he : nodes[e.number]? = some e) (hn : e.numbers.Nodup) :
    IsTree nodes e.number := by
  induction e using Expr.induct with
  | h number span t form ih =>
    rw [Expr.numbers_node, List.nodup_cons, List.nodup_flatMap] at hn
    obtain ⟨-, hparts, hdisjoint⟩ := hn
    -- what is below two parts is below one, since it has the same number
    have same {a b : Expr} (hpa : a ∈ form.parts) (hpb : b ∈ form.parts) {k : Nat}
        (hka : k ∈ a.numbers) (hkb : k ∈ b.numbers) : a = b := by
      have : Std.Symm (Function.onFun List.Disjoint Expr.numbers) :=
        ⟨fun _ _ h => List.Disjoint.symm h⟩
      by_contra hab
      exact hdisjoint.forall hpa hpb hab hka hkb
    -- a part of the root is in no other part of it
    have top {i k : Nat} (hk : Child nodes number k) (hk' : Child nodes i k) {b : Expr}
        (hpb : b ∈ form.parts) (hb : nodes[b.number]? = some b)
        (hi : Reaches nodes b.number i) : False := by
      obtain ⟨e', he', a, hpa, rfl⟩ := hk
      obtain rfl : Expr.node number span t form = e' := Option.some.inj (he.symm.trans he')
      obtain rfl := same hpa hpb a.number_mem_numbers (ha.mem_numbers hb (hi.tail hk'))
      exact Nat.not_le_of_lt (ha.child_lt hk') (ha.reaches_le hi)
    refine ⟨fun {i i' k} hi hi' hk hk' => ?_, fun {i e'} hi he' => ?_⟩
    · rcases ha.reaches_cases he hi with rfl | ⟨a, hpa, hna, hia⟩
      · rcases ha.reaches_cases he hi' with rfl | ⟨b, hpb, hnb, hib⟩
        · rfl
        · exact (top hk hk' hpb hnb hib).elim
      · rcases ha.reaches_cases he hi' with rfl | ⟨b, hpb, hnb, hib⟩
        · exact (top hk' hk hpa hna hia).elim
        · obtain rfl := same hpa hpb (ha.mem_numbers hna (hia.tail hk))
            (ha.mem_numbers hnb (hib.tail hk'))
          exact (ih a hpa hna (hparts a hpa)).parent hia hib hk hk'
    · rcases ha.reaches_cases he hi with hroot | ⟨a, hpa, hna, hia⟩
      · rw [hroot] at he'
        obtain rfl : Expr.node number span t form = e' := Option.some.inj (he.symm.trans he')
        refine .sublist (Expr.map_number_sublist form.parts) ?_
        exact List.nodup_flatMap.2 ⟨hparts, hdisjoint⟩
      · exact (ih a hpa hna (hparts a hpa)).parts hia he'

end Arena

end TypedExpr
