import TypedExpr.Parse.Item
import TypedExpr.Proofs.Form
import TypedExpr.Scope
/-!
# What expressions are put together from

The parser has fragments in hand, from left to right: expressions that are finished, and operators
that have not been applied. A node is put together from fragments too, its parts and what is written
beside them. So an expression comes down to words in an order, those of a source text, and to the
numbers of its nodes.

* `Word`: a literal, a variable or an operator.
* `Form.fragments`, `Item.fragments`, `Fragments.of`: the fragments of a node, of an item and of
  items.
* `Expr.words`, `Expr.numbers`: what is written in an expression, and the numbers of its nodes.
-/

namespace TypedExpr

/-- What stands in a source text for an operand or an operator. The literal that is put in place of
a constant is the word of the constant. -/
inductive Word where
  | literal (value : Constant)
  | var (name : String)
  | operator (op : Operator)
  deriving DecidableEq

/-- A finished part, or a word between parts. -/
inductive Fragment (α : Type) where
  | part (a : α)
  | word (w : Word)

/-- How a unary operator is written. -/
def UnaryOp.operator : UnaryOp → Operator
  | .neg => .binary .sub
  | .bitNot => .tilde
  | .not => .bang

/-- An operator in front of an operand is written as the operator it is read from. -/
theorem UnaryOp.operator_of_unary? {op : Operator} {unary : UnaryOp} (h : op.unary? = some unary) :
    unary.operator = op := by
  cases op with
  | binary op => cases op <;> cases h; rfl
  | bang | tilde => cases h; rfl
  | _ => cases h

namespace Fragment

variable {α β : Type}

/-- The fragment with its part replaced. -/
def map (f : α → β) : Fragment α → Fragment β
  | part a => part (f a)
  | word w => word w

/-- The part that the fragment is. -/
def part? : Fragment α → Option α
  | part a => some a
  | word _ => none

end Fragment

namespace Form

variable {α β : Type}

/-- The fragments of a node from left to right. What is neither an operand nor an operator leaves
nothing: a cast, a member, the type of what is constructed. -/
def fragments : Form α → List (Fragment α)
  | .int n => [.word (.literal (.int n))]
  | .double x => [.word (.literal (.double x))]
  | .bool b => [.word (.literal (.bool b))]
  | .str s => [.word (.literal (.str s))]
  | .var name => [.word (.var name)]
  | .unary op _ e => [.word (.operator op.operator), .part e]
  | .binary op _ l r => [.part l, .word (.operator (.binary op)), .part r]
  | .ternary c y n => [.part c, .word (.operator .question), .part y, .part n]
  | .assign target value => [.part target, .word (.operator (.assign .plain)), .part value]
  | .compound op _ target value =>
    [.part target, .word (.operator (.assign (.compound op))), .part value]
  | .step op before target =>
    if before then [.part target, .word (.operator (.step op))]
    else [.word (.operator (.step op)), .part target]
  | form => form.parts.map .part

theorem fragments_map (f : α → β) (form : Form α) :
    (form.map f).fragments = form.fragments.map (Fragment.map f) := by
  have parts (form : Form α) : (form.map f).parts.map Fragment.part =
      (form.parts.map Fragment.part).map (Fragment.map f) := by
    simp [Function.comp_def, Fragment.map]
  cases form with
  | step op before target => cases before <;> rfl
  | cast | index | property | method | call | new | newArray => exact parts _
  | _ => rfl

theorem filterMap_fragments (form : Form α) :
    form.fragments.filterMap Fragment.part? = form.parts := by
  have parts (as : List α) : (as.map Fragment.part).filterMap Fragment.part? = as := by
    simp [List.filterMap_map, Function.comp_def, Fragment.part?]
  cases form with
  | step op before target => cases before <;> rfl
  | cast | index | property | method | call | new | newArray => exact parts _
  | _ => rfl

theorem mem_parts {form : Form α} {a : α} : a ∈ form.parts ↔ .part a ∈ form.fragments := by
  rw [← filterMap_fragments, List.mem_filterMap]
  constructor
  · rintro ⟨⟨b⟩ | w, hb, h⟩
    · cases h
      exact hb
    · cases h
  · exact fun h => ⟨_, h, rfl⟩

end Form

namespace Expr

/-- The words of an expression from left to right. -/
def words (e : Expr) : List Word :=
  e.fold fun _ _ _ form => form.fragments.flatMap fun
    | .part ws => ws
    | .word w => [w]

/-- The numbers of the nodes of an expression, each as often as the node occurs. -/
def numbers (e : Expr) : List Nat := e.fold fun number _ _ form => number :: form.parts.flatten

end Expr

/-- What the parser has in hand, from left to right. -/
abbrev Fragments := List (Fragment Expr)

/-- The words in a fragment. -/
def Fragment.words : Fragment Expr → List Word
  | .part e => e.words
  | .word w => [w]

/-- The numbers of the nodes in a fragment. -/
def Fragment.numbers : Fragment Expr → List Nat
  | .part e => e.numbers
  | .word _ => []

namespace Fragments

/-- The words of fragments. -/
def words (ps : Fragments) : List Word := ps.flatMap Fragment.words

/-- How often a number occurs in fragments. -/
def count (n : Nat) (ps : Fragments) : Nat := (ps.flatMap Fragment.numbers).count n

@[simp] theorem words_nil : words [] = [] := rfl

@[simp] theorem words_append (ps qs : Fragments) : words (ps ++ qs) = words ps ++ words qs :=
  List.flatMap_append

@[simp] theorem words_word (w : Word) : words [.word w] = [w] := rfl

@[simp] theorem words_part (e : Expr) : words [.part e] = e.words := by simp [words, Fragment.words]

@[simp] theorem count_nil (n : Nat) : count n [] = 0 := rfl

@[simp] theorem count_append (n : Nat) (ps qs : Fragments) :
    count n (ps ++ qs) = count n ps + count n qs := by
  simp [count]

@[simp] theorem count_word (n : Nat) (w : Word) : count n [.word w] = 0 := rfl

@[simp] theorem count_part (n : Nat) (e : Expr) : count n [.part e] = e.numbers.count n := by
  simp [count, Fragment.numbers]

end Fragments

namespace Expr

theorem words_node (number : Nat) (span : Span) (t : Ty) (form : Form Expr) :
    (Expr.node number span t form).words = Fragments.words form.fragments := by
  rw [words, fold_node, Form.fragments_map, List.flatMap_map]
  refine List.flatMap_congr fun fragment _ => ?_
  cases fragment <;> rfl

theorem numbers_node (number : Nat) (span : Span) (t : Ty) (form : Form Expr) :
    (Expr.node number span t form).numbers = number :: form.parts.flatMap numbers := by
  rw [numbers, fold_node, Form.parts_map, List.flatMap_def]
  rfl

end Expr

theorem Form.flatMap_numbers (form : Form Expr) :
    form.fragments.flatMap Fragment.numbers = form.parts.flatMap Expr.numbers := by
  rw [← Form.filterMap_fragments]
  induction form.fragments with
  | nil => rfl
  | cons fragment ps ih =>
    cases fragment with
    | part e => simp [Fragment.part?, Fragment.numbers, ih]
    | word w => rw [List.filterMap_cons_none rfl, ← ih]; rfl

/-- The fragments of an item: types leave nothing, and an index is what is inside. -/
def Item.fragments (i : Item) : Fragments :=
  match i.kind with
  | .operator op => [.word (.operator op)]
  | .value e | .index e => [.part e]
  | .typeName _ | .cast _ => []

namespace Item

theorem fragments_of_operator? {i : Item} {op : Operator} (h : i.operator? = some op) :
    i.fragments = [.word (.operator op)] := by
  obtain ⟨kind, span, line⟩ := i
  cases kind <;> cases h
  rfl

theorem fragments_of_value {i : Item} {e : Expr} (h : i.kind = .value e) :
    i.fragments = [.part e] := by
  unfold fragments
  rw [h]

@[simp] theorem fragments_withValue (i : Item) (e : Expr) (span : Span) :
    (i.withValue e span).fragments = [.part e] := rfl

end Item

/-- The fragments of items from left to right. -/
def Fragments.of (items : List Item) : Fragments := items.flatMap Item.fragments

namespace Fragments

@[simp] theorem of_nil : of [] = [] := rfl

@[simp] theorem of_cons (i : Item) (items : List Item) :
    of (i :: items) = i.fragments ++ of items := rfl

@[simp] theorem of_append (items items' : List Item) :
    of (items ++ items') = of items ++ of items' := List.flatMap_append

end Fragments

end TypedExpr
