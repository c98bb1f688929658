import TypedExpr.Builtin.Standard
import TypedExpr.Proofs.Evaluation.Once
import TypedExpr.Proofs.Extent
import TypedExpr.Proofs.Fragments.Table
import TypedExpr.Proofs.Fragments.Tree
import TypedExpr.Proofs.Typing.Accepted
/-!
# Operands are used once

What is parsed is put together from all that is written: no operand or operator is lost, none is
used twice, and they stay in order. So the nodes of an expression form a tree. The table of nodes has
each of them with its lists, and one evaluation evaluates each of them at most once, also where a
place is both read and stored to.

* `Expr.denoteWith`: what an expression denotes, with a gap in place of a node.
* `Expr.Once`: an evaluation evaluates a node at most once.
* `Parser.next_linear`: **nothing is lost, used twice or moved.**
-/

namespace TypedExpr

/-- What is denoted, to be put in a gap. -/
def Denoted.gap (d : Denoted) : Gap := ⟨d.value, d.place⟩

namespace Expr

/-- What the expression denotes, with a gap in place of the node of a number. -/
def denoteWith (reg : Registry) (n : Nat) (g : Gap) (e : Expr) : Denoted :=
  e.fold fun number span t form =>
    if number = n then ⟨span, t, g.value, g.place⟩ else .ofForm reg span t form

theorem denoteWith_node (reg : Registry) (n : Nat) (g : Gap) (number : Nat) (span : Span) (t : Ty)
    (form : Form Expr) :
    (Expr.node number span t form).denoteWith reg n g =
      if number = n then ⟨span, t, g.value, g.place⟩
      else .ofForm reg span t (form.map (denoteWith reg n g)) :=
  fold_node _ number span t form

/-- One evaluation of an expression, for its value or for its place, evaluates a part at most once:
the expression denotes what it does with a gap for the part, and uses the gap at most once. -/
structure Once (reg : Registry) (e part : Expr) : Prop where
  plug : e.denoteWith reg part.number (part.denote reg).gap = e.denote reg
  value : Eval.Once fun g => (e.denoteWith reg part.number g).value
  place : Eval.Once fun g => (e.denoteWith reg part.number g).place

/-- A gap is used as often as the number occurs that it stands for. -/
theorem denoteWith_touches (reg : Registry) (n : Nat) (e : Expr) :
    Denoted.Touches (e.numbers.count n) e.span fun g => e.denoteWith reg n g := by
  induction e using Expr.induct with
  | h number span t form ih =>
    have hcount : (Expr.node number span t form).numbers.count n =
        (form.parts.map fun e => e.numbers.count n).sum + if number = n then 1 else 0 := by
      rw [numbers_node, List.count_cons, List.count_flatMap]
      simp [Function.comp_def]
    rw [hcount]
    by_cases hn : number = n
    · have hgap (g : Gap) : (Expr.node number span t form).denoteWith reg n g =
          ⟨span, t, g.value, g.place⟩ := by rw [denoteWith_node, if_pos hn]
      simp only [hgap, if_pos hn]
      exact ⟨fun _ => rfl, .gap_value (Nat.succ_pos _), .gap_place (Nat.succ_pos _)⟩
    · have hform (g : Gap) : (Expr.node number span t form).denoteWith reg n g =
          .ofForm reg span t (form.map (denoteWith reg n g)) := by rw [denoteWith_node, if_neg hn]
      simp only [hform, if_neg hn]
      exact ⟨fun _ => rfl, (Form.value_touches reg t ih).inside span,
        Form.place_touches span t ih⟩

/-- With what a node denotes in the gap for it, the expression denotes what it does. -/
theorem denoteWith_gap (reg : Registry) {nodes : Array Expr} (ha : Arena nodes) {e part : Expr}
    (he : nodes[e.number]? = some e) (hp : nodes[part.number]? = some part) :
    e.denoteWith reg part.number (part.denote reg).gap = e.denote reg := by
  induction e using Expr.induct with
  | h number span t form ih =>
    rw [denoteWith_node]
    split
    · rename_i hn
      obtain rfl : Expr.node number span t form = part :=
        Option.some.inj (he.symm.trans ((congrArg (nodes[·]?) hn).trans hp))
      rw [denote_node]
      rfl
    · rw [denote_node]
      congr 1
      exact Form.map_congr fun e hform => ih e hform ((ha _ _ he).2 e hform).2

/-- Where no number occurs twice, every node is evaluated at most once. -/
theorem once (reg : Registry) {nodes : Array Expr} (ha : Arena nodes) {e part : Expr}
    (he : nodes[e.number]? = some e) (hp : nodes[part.number]? = some part)
    (hn : e.numbers.Nodup) : Once reg e part := by
  have htouches := denoteWith_touches reg part.number e
  have hcount := List.nodup_iff_count_le_one.1 hn part.number
  exact ⟨denoteWith_gap reg ha he hp, htouches.value.once hcount, htouches.place.once hcount⟩

end Expr

namespace Parser

/-- **Nothing that is written is lost, used twice or moved.** Nodes are put together from nodes
before them. In the table every range of every node lies in the pool, and the node is found with its
lists, unless there are too many nodes or a list is too long. The words of the expression are those
of the tokens that have been passed, and its nodes form a tree, each of which one evaluation
evaluates at most once. -/
theorem next_linear (s : Setting) {p q : ParseState} {root : Option Expr}
    (hs : s.options.fold = false) (hp : Arena p.nodes) (hk : p.Kept)
    (h : (next s).run p = (.ok root, q)) :
    Arena q.nodes ∧
    (match q.table with
      | .ok table => table.Keeps q.nodes
      | .error _ => Overfull q.nodes) ∧
    root.elim [] Expr.words = s.scope.words (s.tokens.kinds p.position q.position) ∧
    ∀ e ∈ root, q.nodes[e.number]? = some e ∧ IsTree q.nodes e.number ∧
      ∀ part : Expr, q.nodes[part.number]? = some part → e.Once s.registry part := by
  have hturns := (local_next s s.tokens p root q h).2.1.consumes.turns
  obtain ⟨ha, hin⟩ := hturns.arena hp nofun
  have hwords := hturns.words hs
  refine ⟨ha, next_kept hk h, ?_, ?_⟩
  · cases root with
    | none => exact hwords
    | some e => simpa using hwords
  · rintro e rfl
    have he : q.nodes[e.number]? = some e := hin e (.head _)
    have hn : e.numbers.Nodup := by
      refine List.nodup_iff_count_le_one.2 fun n => ?_
      have hcount := hturns.count n
      have hfresh : p.fresh q n ≤ 1 := by
        unfold ParseState.fresh
        split <;> omega
      simp only [Option.toList_some, List.map_cons, List.map_nil, Fragments.count_part,
        Fragments.count_nil, Nat.zero_add] at hcount
      exact Nat.le_trans hcount hfresh
    exact ⟨he, ha.isTree he hn, fun part hpart => e.once s.registry ha he hpart hn⟩

end Parser

/-- `a[max(i++, n)] += new List<int>() { 2, n }.Count`, for an array `a` and a constant `n`. -/
@[irreducible] def Setting.stepped : Setting where
  registry := (Build.standard.run .primitive).2.registry
  scope := ((NameMap.empty.insert "a" (.var (.array .int))).insert "i" (.var .int)).insert "n"
    (.constant (.int 3))
  options := ⟨false, 256⟩
  tokens := .ofTokens (#[.ident "a" [], .opening .square, .ident "max" [], .opening .paren,
    .ident "i" [], .operator (.step .increment), .comma, .ident "n" [], .closing .paren,
    .closing .square, .operator (.assign (.compound .add)), .new,
    .type (.named "List" [.named "int" []]), .opening .paren, .closing .paren, .opening .brace,
    .int 2, .comma, .ident "n" [], .closing .brace, .dot, .ident "Count" []].map .unplaced)

/-- The arguments of the call are the nodes 2 and 3, and the items of the list the nodes 5 and 6. -/
theorem Parser.next_linear_stepped : ∃ e q table,
    (next .stepped).run (.start .initial) = (.ok (some e), q) ∧
    q.table = .ok table ∧ table.pool = #[2, 3, 5, 6] ∧ table.Keeps q.nodes ∧
    e.words = [.var "a", .var "i", .operator (.step .increment), .literal (.int 3),
      .operator (.assign (.compound .add)), .literal (.int 2), .literal (.int 3)] ∧
    IsTree q.nodes e.number ∧
    ∀ part : Expr, q.nodes[part.number]? = some part →
      e.Once Setting.stepped.registry part := by
  have hfirst : Setting.stepped.first?.map Expr.words = some [.var "a", .var "i",
      .operator (.step .increment), .literal (.int 3), .operator (.assign (.compound .add)),
      .literal (.int 2), .literal (.int 3)] := by
    decide +kernel
  have hpool : (((next .stepped).run (.start .initial)).2.table.map (·.pool)).toOption =
      some #[2, 3, 5, 6] := by
    decide +kernel
  obtain ⟨e, he, hwords⟩ := Option.map_eq_some_iff.1 hfirst
  obtain ⟨q, hq⟩ := Setting.exists_next he
  have hfold : Setting.stepped.options.fold = false := by decide +kernel
  obtain ⟨-, hkept, -, hroot⟩ :=
    next_linear .stepped hfold (p := .start .initial) Arena.empty (ParseState.kept_start _) hq
  obtain ⟨-, htree, honce⟩ := hroot e rfl
  rw [hq] at hpool
  cases htable : q.table with
  | error overflow =>
    rw [htable] at hpool
    cases hpool
  | ok table =>
    rw [htable] at hpool hkept
    exact ⟨e, q, table, hq, htable, Option.some.inj hpool, hkept, hwords, htree, honce⟩

end TypedExpr
