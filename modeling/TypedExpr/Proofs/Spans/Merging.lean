import Mathlib.Logic.Relation
import TypedExpr.Proofs.Fragments.Passes
/-!
# Passes over spans

A pass puts a node in the place of an operator and its operands, which stand side by side. The span
of the node joins the span of the first of them with that of the last, so the items keep their order
and reach as far as before.

* `Item.Merge`, `Item.Merges`: items that stand side by side become one, once or again and again.
* `Item.Fill`: items in order, and how far they reach.
* `Parser.applyPasses_merges`: all passes merge items.
* `Item.Merges.span_eq`: **the last node reaches from the first item to the last.**
-/

namespace TypedExpr

/-- The one span starts and ends where the other does, or before. -/
def Span.Before (s t : Span) : Prop := s.start ≤ t.start ∧ s.stop ≤ t.stop

namespace Span.Before

variable {s t u : Span}

theorem refl (s : Span) : s.Before s := ⟨Nat.le_refl _, Nat.le_refl _⟩

theorem trans (h : s.Before t) (h' : t.Before u) : s.Before u :=
  ⟨Nat.le_trans h.1 h'.1, Nat.le_trans h.2 h'.2⟩

theorem merge_eq (h : s.Before t) : s.merge t = ⟨s.start, t.stop⟩ := by
  rw [Span.merge, Nat.min_eq_left h.1, Nat.max_eq_right h.2]

end Span.Before

namespace Item

/-! ### Merging -/

/-- Several items that stand side by side become one, with the line of the first: a value with a
span that joins the spans of the first and the last. -/
inductive Merge : List Item → List Item → Prop
  | mk (front between back : List Item) {first last : Item} {e : Expr}
    (h : e.span = first.span.merge last.span) :
    Merge (front ++ first :: (between ++ last :: back))
      (front ++ first.withValue e (first.span.merge last.span) :: back)

/-- Items that stand side by side become one, again and again. -/
def Merges : List Item → List Item → Prop := Relation.ReflTransGen Merge

namespace Merge

variable {items items' : List Item}

theorem between (h : Merge items items') (front back : List Item) :
    Merge (front ++ items ++ back) (front ++ items' ++ back) := by
  cases h with
  | mk front' between back' he =>
    simpa using Merge.mk (front ++ front') between (back' ++ back) he

theorem two_le_length (h : Merge items items') : 2 ≤ items.length := by
  cases h
  simp only [List.length_append, List.length_cons]
  omega

end Merge

namespace Merges

variable {items items' items'' : List Item}

theorem refl (items : List Item) : Merges items items := Relation.ReflTransGen.refl

theorem trans (h : Merges items items') (h' : Merges items' items'') : Merges items items'' :=
  Relation.ReflTransGen.trans h h'

/-- What stands in front and behind stays as it is. -/
theorem between (h : Merges items items') (front back : List Item) :
    Merges (front ++ items ++ back) (front ++ items' ++ back) := by
  induction h with
  | refl => exact .refl _
  | tail _ hstep ih => exact Relation.ReflTransGen.tail ih (hstep.between front back)

theorem after (h : Merges items items') (front : List Item) :
    Merges (front ++ items) (front ++ items') := by
  simpa using h.between front []

theorem cons (h : Merges items items') (i : Item) : Merges (i :: items) (i :: items') :=
  h.after [i]

/-- All of some items become one. -/
theorem block (between : List Item) {first last : Item} {e : Expr}
    (h : e.span = first.span.merge last.span) :
    Merges (first :: (between ++ [last])) [first.withValue e (first.span.merge last.span)] :=
  .single (.mk [] between [] h)

/-- The first items become one. -/
theorem block_append (between back : List Item) {first last : Item} {e : Expr}
    (h : e.span = first.span.merge last.span) :
    Merges (first :: (between ++ last :: back))
      (first.withValue e (first.span.merge last.span) :: back) :=
  .single (.mk [] between back h)

end Merges

/-! ### How far items reach -/

/-- The items are in order, and reach from the start of the span to its end. -/
structure Fill (items : List Item) (span : Span) : Prop where
  order : items.Pairwise fun i j => i.span.Before j.span
  first : ∀ i ∈ items.head?, i.span.start = span.start
  last : ∀ i ∈ items.getLast?, i.span.stop = span.stop

namespace Fill

theorem nil (span : Span) : Fill [] span := ⟨.nil, nofun, nofun⟩

/-- One more item, behind the others. -/
theorem concat {items : List Item} {span : Span} (h : Fill items span) (item : Item)
    (hi : ∀ i ∈ items, i.span.Before item.span)
    (hfirst : items = [] → item.span.start = span.start) :
    Fill (items ++ [item]) ⟨span.start, item.span.stop⟩ := by
  refine ⟨List.pairwise_append.2 ⟨h.order, List.pairwise_singleton _ _, fun i hm j hj => ?_⟩,
    fun i hm => ?_, fun i hm => ?_⟩
  · obtain rfl := List.mem_singleton.1 hj
    exact hi i hm
  · cases items with
    | nil =>
      obtain rfl := Option.some.inj hm
      exact hfirst rfl
    | cons j items => exact h.first i hm
  · rw [List.getLast?_concat] at hm
    obtain rfl := Option.some.inj hm
    rfl

end Fill

/-- A node reaches as far as the items that it takes the place of. -/
theorem Merge.fill {items items' : List Item} {span : Span} (h : Merge items items')
    (hf : Fill items span) : Fill items' span := by
  obtain ⟨front, between, back, he⟩ := h
  rename_i first last e
  obtain ⟨hfront, hrest, hacross⟩ := List.pairwise_append.1 hf.order
  obtain ⟨hfirst, hrest⟩ := List.pairwise_cons.1 hrest
  obtain ⟨-, hlast, -⟩ := List.pairwise_append.1 hrest
  obtain ⟨hlast, hback⟩ := List.pairwise_cons.1 hlast
  have hends : first.span.merge last.span = ⟨first.span.start, last.span.stop⟩ :=
    (hfirst last (by simp)).merge_eq
  rw [hends]
  refine ⟨List.pairwise_append.2 ⟨hfront, List.pairwise_cons.2 ⟨fun i hi => ?_, hback⟩,
    fun i hi j hj => ?_⟩, ?_, ?_⟩
  · exact ⟨(hfirst i (by simp [hi])).1, (hlast i hi).2⟩
  · rcases List.mem_cons.1 hj with rfl | hj
    · exact ⟨(hacross i hi first (by simp)).1, (hacross i hi last (by simp)).2⟩
    · exact hacross i hi j (by simp [hj])
  · intro i hi
    have hhead := hf.first
    cases front with
    | nil =>
      obtain rfl := Option.some.inj hi
      exact hhead first rfl
    | cons j front => exact hhead i hi
  · intro i hi
    have hlast := hf.last
    rw [← List.cons_append, ← List.append_assoc, List.getLast?_append_cons] at hlast
    rw [List.getLast?_append_cons] at hi
    cases back with
    | nil =>
      obtain rfl := Option.some.inj hi
      exact hlast last rfl
    | cons j back => exact hlast i hi

namespace Merges

variable {items items' : List Item} {span : Span}

theorem fill (h : Merges items items') (hf : Fill items span) : Fill items' span := by
  induction h with
  | refl => exact hf
  | tail _ hstep ih => exact hstep.fill ih

/-- One item by itself stays. -/
theorem eq_of_length (h : Merges items items') (hlen : ¬2 ≤ items.length) : items' = items := by
  rcases Relation.ReflTransGen.cases_head h with rfl | ⟨_, hstep, -⟩
  · rfl
  · exact absurd hstep.two_le_length hlen

/-- **The last node reaches from the first item to the last.** -/
theorem span_eq {i : Item} {e : Expr} (h : Merges items [i]) (hi : i.kind = .value e)
    (hf : Fill items span) (hlen : 2 ≤ items.length) : e.span = span := by
  have hspan : i.span = span := by
    obtain ⟨-, hfirst, hlast⟩ := h.fill hf
    exact congrArg₂ Span.mk (hfirst i rfl) (hlast i rfl)
  rw [← hspan]
  rcases Relation.ReflTransGen.cases_tail h with heq | ⟨items', -, hstep⟩
  · rw [← heq] at hlen
    exact absurd hlen (Nat.lt_irrefl 1)
  · generalize hone : [i] = one at hstep
    obtain ⟨front, between, back, he⟩ := hstep
    rename_i first last e'
    cases front with
    | nil =>
      obtain ⟨rfl, -⟩ := List.cons.inj hone
      cases hi
      exact he
    | cons j front =>
      have hlength := congrArg List.length hone
      simp at hlength

end Merges

end Item

namespace Parser

variable {α β : Type} {s : Setting} {p q : ParseState}

/-! ### The spans of nodes -/

/-- Whatever the step results in, `P` holds of it. -/
def Gives (P : α → Prop) (x : Parser α) : Prop := ∀ p a q, x.run p = (.ok a, q) → P a

namespace Gives

variable {P : β → Prop} {x : Parser α} {y y' : Parser β}

theorem bind {f : α → Parser β} (h : ∀ a, Gives P (f a)) : Gives P (x >>= f) := by
  intro p b q hp
  obtain ⟨a, p₁, -, hp⟩ := run_bind_ok.1 hp
  exact h a p₁ b q hp

theorem ite {c : Prop} [Decidable c] (h : Gives P y) (h' : Gives P y') :
    Gives P (if c then y else y') := by
  split
  · exact h
  · exact h'

theorem pure {b : β} (h : P b) : Gives P (pure b) := fun _ _ _ hp => by
  cases hp
  exact h

theorem throw {e : ParseError} : Gives P (throw e) := fun _ _ _ hp => by cases hp

theorem refuse {d : Diagnostic} {line : Nat} : Gives P (refuse d line) := throw

theorem typed_error {e : OperatorError} {operator : Item} {symbol : String} {ts : List Ty} :
    Gives P (typed s (.error e) operator symbol ts) := fun _ _ _ hp => by cases hp

variable {span : Span}

theorem push (form : Form Expr) (span : Span) (t : Ty) :
    Gives (fun e => e.span = span) (push form span t) := fun _ _ _ hp => by
  cases hp
  rfl

theorem pushFold (s : Setting) (form : Form Expr) (span : Span) (t : Ty) :
    Gives (fun e => e.span = span) (do fold s (← Parser.push form span t)) := by
  intro p a q hp
  obtain ⟨e, p₁, he, ha⟩ := run_bind_ok.1 hp
  cases he
  rcases fold_cases ha with ⟨rfl, -⟩ | ⟨-, _, _, -, rfl, -⟩ <;> rfl

/-! Every builder gives a node of the span that it is told. -/

variable {operator : Item}

theorem buildStep (op : StepOp) (before : Bool) (target : Expr) :
    Gives (fun e => e.span = span) (buildStep s op before target operator span) := by
  unfold Parser.buildStep
  split
  · exact push _ _ _
  · exact typed_error

theorem buildUnary (op : UnaryOp) (operand : Expr) :
    Gives (fun e => e.span = span) (buildUnary s op operand operator span) :=
  .bind fun _ => .bind fun _ => .bind fun _ => pushFold s _ _ _

theorem buildCast (operand : Expr) (target : Ty) :
    Gives (fun e => e.span = span) (buildCast s operand target operator span) := by
  unfold Parser.buildCast
  split
  · exact pushFold s _ _ _
  · exact .refuse

theorem buildBinary (op : BinaryOp) (left right : Expr) :
    Gives (fun e => e.span = span) (buildBinary s op left right operator span) :=
  .bind fun _ => .bind fun _ => .bind fun _ => .bind fun _ => pushFold s _ _ _

theorem buildTernary (condition yes no : Expr) :
    Gives (fun e => e.span = span) (buildTernary s condition yes no operator span) := by
  refine .bind fun c => ?_
  dsimp only
  have branches (t : Ty) : Gives (fun e => e.span = span) (do
      let yes ← Parser.convert s yes t "branch" operator.line
      let no ← Parser.convert s no t "branch" operator.line
      Parser.push (.ternary c yes no) span t) := .bind fun _ => .bind fun _ => push _ _ _
  exact .ite (branches _) (.ite (branches _) .refuse)

theorem buildUpdate (op : AssignOp) (target value : Expr) :
    Gives (fun e => e.span = span) (buildUpdate s op target value operator span) := by
  cases op with
  | plain => exact .bind fun _ => push _ _ _
  | compound op => exact .bind fun _ => .bind fun _ => .bind fun _ => push _ _ _

end Gives

theorem buildIndex_ok {container bracket item : Item} {i : Expr}
    (h : (buildIndex s container i bracket).run p = (.ok item, q)) :
    ∃ e : Expr, e.span = container.span.merge bracket.span ∧
      item = container.withValue e (container.span.merge bracket.span) := by
  unfold buildIndex at h
  split at h
  · cases h
  · obtain ⟨_, _, -, h⟩ := run_bind_ok.1 h
    obtain ⟨_, _, -, h⟩ := run_bind_ok.1 h
    split at h
    · cases h
    · obtain ⟨_, _, -, h⟩ := run_bind_ok.1 h
      obtain ⟨e, _, he, h⟩ := run_bind_ok.1 h
      cases h
      exact ⟨e, Gives.push _ _ _ _ _ _ he, rfl⟩

/-! ### Operators with one operand -/

theorem operand_some {item : Option Item} {operator : Item} {side : String} {r : Item × Expr}
    (h : (operand s item operator side).run p = (.ok r, q)) : item = some r.1 :=
  (operand_fragments h).2.1

theorem applyIndexes_merges {done items items' : List Item}
    (h : (applyIndexes s done items).run p = (.ok items', q)) :
    Item.Merges (done.reverse ++ items) items' := by
  induction items generalizing done p with
  | nil =>
    cases h
    simpa using Item.Merges.refl _
  | cons item rest ih =>
    have skip (h : (applyIndexes s (item :: done) rest).run p = (.ok items', q)) :
        Item.Merges (done.reverse ++ item :: rest) items' := by simpa using ih h
    obtain ⟨kind, span, line⟩ := item
    cases kind with
    | index i =>
      cases done with
      | nil => cases h
      | cons container done =>
        obtain ⟨element, p₁, he, h⟩ := run_bind_ok.1 h
        obtain ⟨e, hspan, rfl⟩ := buildIndex_ok he
        have hstep := (Item.Merges.block [] hspan).between done.reverse rest
        simpa using hstep.trans (by simpa using ih h)
    | _ => exact skip h

theorem applyStepsAfter_merges {done items items' : List Item}
    (h : (applyStepsAfter s done items).run p = (.ok items', q)) :
    Item.Merges (done.reverse ++ items) items' := by
  induction items generalizing done p with
  | nil =>
    cases h
    simpa using Item.Merges.refl _
  | cons item rest ih =>
    have skip (h : (applyStepsAfter s (item :: done) rest).run p = (.ok items', q)) :
        Item.Merges (done.reverse ++ item :: rest) items' := by simpa using ih h
    unfold applyStepsAfter at h
    split at h
    · rename_i op target below hop
      split at h
      · obtain ⟨r, p₁, hr, h⟩ := run_bind_ok.1 h
        obtain ⟨e, p₂, he, h⟩ := run_bind_ok.1 h
        have hspan := Gives.buildStep _ _ _ _ _ _ he
        have hstep := (Item.Merges.block [] hspan).between below.reverse rest
        simpa using hstep.trans (by simpa using ih h)
      · exact skip h
    · exact skip h

theorem applyStepBefore_merges {op : StepOp} {before : Option Item} {operator : Item}
    {rest items' : List Item}
    (h : (applyStepBefore s op before operator rest).run p = (.ok items', q)) :
    Item.Merges (operator :: rest) items' := by
  obtain ⟨_, p₁, -, h⟩ := run_bind_ok.1 h
  obtain ⟨r, p₂, hr, h⟩ := run_bind_ok.1 h
  have ht := (placeOperand_fragments hr).2.1
  obtain ⟨e, p₃, he, h⟩ := run_bind_ok.1 h
  cases h
  rw [eq_cons_of_head? (Option.filter_eq_some_iff.1 ht).1]
  exact .block_append [] rest.tail (Gives.buildStep _ _ _ _ _ _ he)

theorem applyStepsBefore_merges {before : Option Item} {items items' : List Item}
    (h : (applyStepsBefore s before items).run p = (.ok items', q)) :
    Item.Merges items items' := by
  induction items generalizing before p q items' with
  | nil =>
    cases h
    exact .refl _
  | cons item rest ih =>
    obtain ⟨rest', p₁, hrest, h⟩ := run_bind_ok.1 h
    refine ((ih hrest).cons item).trans ?_
    split at h
    · exact applyStepBefore_merges h
    · cases h
      exact .refl _

theorem applyUnary_merges {op : UnaryOp} {operator : Item} {rest items' : List Item}
    (h : (applyUnary s op operator rest).run p = (.ok items', q)) :
    Item.Merges (operator :: rest) items' := by
  obtain ⟨r, p₁, hr, h⟩ := run_bind_ok.1 h
  obtain ⟨e, p₂, he, h⟩ := run_bind_ok.1 h
  cases h
  rw [eq_cons_of_head? (operand_some hr)]
  exact .block_append [] rest.tail (Gives.buildUnary _ _ _ _ _ he)

theorem applyPrefixes_merges {before : Option Item} {items items' : List Item}
    (h : (applyPrefixes s before items).run p = (.ok items', q)) : Item.Merges items items' := by
  induction items generalizing before p q items' with
  | nil =>
    cases h
    exact .refl _
  | cons item rest ih =>
    obtain ⟨rest', p₁, hrest, h⟩ := run_bind_ok.1 h
    refine ((ih hrest).cons item).trans ?_
    split at h
    · split at h
      · cases h
        exact .refl _
      · exact applyUnary_merges h
    · cases h
      exact .refl _

theorem applyWaiting_merges {before : Option Item} {item : Item} {isCast : Bool}
    {rest : List Item} {r : List Item × Bool}
    (h : (applyWaiting s before item isCast rest).run p = (.ok r, q)) :
    Item.Merges (item :: rest) r.1 := by
  unfold applyWaiting at h
  split at h
  · obtain ⟨items, p₁, hitems, h⟩ := run_bind_ok.1 h
    cases h
    exact applyUnary_merges hitems
  · cases h
    exact .refl _

theorem applyCastsFrom_merges {before : Option Item} {items : List Item} {r : List Item × Bool}
    (h : (applyCastsFrom s before items).run p = (.ok r, q)) : Item.Merges items r.1 := by
  induction items generalizing before p q r with
  | nil =>
    cases h
    exact .refl _
  | cons item rest ih =>
    obtain ⟨⟨rest', isCast⟩, p₁, hrest, h⟩ := run_bind_ok.1 h
    refine ((ih hrest).cons item).trans ?_
    dsimp only at h
    split at h
    · obtain ⟨operand, p₂, ho, h⟩ := run_bind_ok.1 h
      obtain ⟨e, p₃, he, h⟩ := run_bind_ok.1 h
      cases h
      rw [eq_cons_of_head? (operand_some ho)]
      exact .block_append [] rest'.tail (Gives.buildCast _ _ _ _ _ he)
    · exact applyWaiting_merges h

theorem applyCasts_merges {items items' : List Item}
    (h : (applyCasts s items).run p = (.ok items', q)) : Item.Merges items items' := by
  obtain ⟨r, p₁, hr, h⟩ := run_bind_ok.1 h
  cases h
  exact applyCastsFrom_merges hr

theorem applyNot_merges {items items' : List Item}
    (h : (applyNot s items).run p = (.ok items', q)) : Item.Merges items items' := by
  induction items generalizing p q items' with
  | nil =>
    cases h
    exact .refl _
  | cons item rest ih =>
    obtain ⟨rest', p₁, hrest, h⟩ := run_bind_ok.1 h
    refine ((ih hrest).cons item).trans ?_
    split at h
    · exact applyUnary_merges h
    · cases h
      exact .refl _

/-! ### Operators with two operands -/

theorem applyBinary_merges {op : BinaryOp} {left right : Option Item} {operator item : Item}
    (h : (applyBinary s op left operator right).run p = (.ok item, q)) :
    ∃ l r, left = some l ∧ right = some r ∧ Item.Merges [l, operator, r] [item] := by
  obtain ⟨⟨l, le⟩, p₁, hl, h⟩ := run_bind_ok.1 h
  obtain ⟨⟨r, re⟩, p₂, hr, h⟩ := run_bind_ok.1 h
  obtain ⟨e, p₃, he, h⟩ := run_bind_ok.1 h
  cases h
  exact ⟨l, r, operand_some hl, operand_some hr,
    .block [operator] (Gives.buildBinary _ _ _ _ _ _ he)⟩

theorem applyLeftward_merges {ops : List BinaryOp} {done items items' : List Item}
    (h : (applyLeftward s ops done items).run p = (.ok items', q)) :
    Item.Merges (done.reverse ++ items) items' := by
  induction done, items using applyLeftward.induct ops generalizing p with
  | case1 done =>
    cases h
    simpa using Item.Merges.refl _
  | case2 done item op right rest hop ih =>
    unfold applyLeftward at h
    rw [hop] at h
    obtain ⟨e, p₁, he, h⟩ := run_bind_ok.1 h
    obtain ⟨l, r, hl, ⟨⟩, hb⟩ := applyBinary_merges he
    have hstep := hb.between done.tail.reverse rest
    rw [eq_cons_of_head? hl]
    simpa using hstep.trans (by simpa using ih e h)
  | case3 done item op hop =>
    unfold applyLeftward at h
    rw [hop] at h
    obtain ⟨e, p₁, he, h⟩ := run_bind_ok.1 h
    obtain ⟨_, _, -, ⟨⟩, -⟩ := applyBinary_merges he
  | case4 done item rest hop ih =>
    unfold applyLeftward at h
    rw [hop] at h
    simpa using ih h

theorem applyRightward_merges {ops : List BinaryOp} {done items items' : List Item}
    (h : (applyRightward s ops done items).run p = (.ok items', q)) :
    Item.Merges (items.reverse ++ done) items' := by
  induction done, items using applyRightward.induct ops generalizing p with
  | case1 done =>
    cases h
    exact .refl _
  | case2 done item op left rest hop ih =>
    unfold applyRightward at h
    rw [hop] at h
    obtain ⟨e, p₁, he, h⟩ := run_bind_ok.1 h
    obtain ⟨l, r, ⟨⟩, hr, hb⟩ := applyBinary_merges he
    have hstep := hb.between rest.reverse done.tail
    rw [eq_cons_of_head? hr]
    simpa using hstep.trans (by simpa using ih e h)
  | case3 done item op hop =>
    unfold applyRightward at h
    rw [hop] at h
    obtain ⟨e, p₁, he, h⟩ := run_bind_ok.1 h
    obtain ⟨_, _, ⟨⟩, -⟩ := applyBinary_merges he
  | case4 done item rest hop ih =>
    unfold applyRightward at h
    rw [hop] at h
    simpa using ih h

/-! ### Conditionals and assignments -/

theorem applyTernary_merges {condition : Option Item} {operator : Item} {done items' : List Item}
    (h : (applyTernary s condition operator done).run p = (.ok items', q)) :
    ∃ c, condition = some c ∧ Item.Merges (c :: operator :: done) items' := by
  obtain ⟨⟨c, ce⟩, p₁, hc, h⟩ := run_bind_ok.1 h
  obtain ⟨⟨y, ye⟩, p₂, hy, h⟩ := run_bind_ok.1 h
  obtain ⟨⟨n, ne⟩, p₃, hn, h⟩ := run_bind_ok.1 h
  obtain ⟨e, p₄, he, h⟩ := run_bind_ok.1 h
  cases h
  obtain ⟨rest, rfl⟩ : ∃ rest, done = y :: n :: rest := by
    match done, operand_some hy, operand_some hn with
    | _ :: _ :: rest, rfl, rfl => exact ⟨rest, rfl⟩
  exact ⟨c, operand_some hc,
    .block_append [operator, y] rest (Gives.buildTernary _ _ _ _ _ _ he)⟩

theorem applyTernaries_merges {done items items' : List Item}
    (h : (applyTernaries s done items).run p = (.ok items', q)) :
    Item.Merges (items.reverse ++ done) items' := by
  induction done, items using applyTernaries.induct generalizing p with
  | case1 done =>
    cases h
    exact .refl _
  | case2 done item hop condition rest ih =>
    unfold applyTernaries at h
    rw [if_pos hop] at h
    obtain ⟨done', p₁, hd, h⟩ := run_bind_ok.1 h
    obtain ⟨c, ⟨⟩, hb⟩ := applyTernary_merges hd
    have hstep := hb.after rest.reverse
    simpa using hstep.trans (by simpa using ih done' h)
  | case3 done item hop =>
    unfold applyTernaries at h
    rw [if_pos hop] at h
    obtain ⟨_, ⟨⟩, -⟩ := applyTernary_merges h
  | case4 done item rest hop ih =>
    unfold applyTernaries at h
    rw [if_neg hop] at h
    simpa using ih h

theorem applyAssign_merges {op : AssignOp} {target value : Option Item} {operator item : Item}
    (h : (applyAssign s op target operator value).run p = (.ok item, q)) :
    ∃ t v, target = some t ∧ value = some v ∧ Item.Merges [t, operator, v] [item] := by
  obtain ⟨⟨t, te⟩, p₁, ht, h⟩ := run_bind_ok.1 h
  obtain ⟨⟨v, ve⟩, p₂, hv, h⟩ := run_bind_ok.1 h
  obtain ⟨e, p₃, he, h⟩ := run_bind_ok.1 h
  cases h
  exact ⟨t, v, (placeOperand_fragments ht).2.1, operand_some hv,
    .block [operator] (Gives.buildUpdate _ _ _ _ _ _ he)⟩

theorem applyAssignments_merges {done items items' : List Item}
    (h : (applyAssignments s done items).run p = (.ok items', q)) :
    Item.Merges (items.reverse ++ done) items' := by
  induction done, items using applyAssignments.induct generalizing p with
  | case1 done =>
    cases h
    exact .refl _
  | case2 done item op target rest hop ih =>
    unfold applyAssignments at h
    rw [hop] at h
    obtain ⟨e, p₁, he, h⟩ := run_bind_ok.1 h
    obtain ⟨t, v, ⟨⟩, hv, hb⟩ := applyAssign_merges he
    have hstep := hb.between rest.reverse done.tail
    rw [eq_cons_of_head? hv]
    simpa using hstep.trans (by simpa using ih e h)
  | case3 done item op hop =>
    unfold applyAssignments at h
    rw [hop] at h
    obtain ⟨e, p₁, he, h⟩ := run_bind_ok.1 h
    obtain ⟨_, _, ⟨⟩, -⟩ := applyAssign_merges he
  | case4 done item rest h₁ h₂ ih =>
    rw [applyAssignments_cons] at h
    · simpa using ih h
    · intro op hop
      cases rest with
      | nil => exact h₂ op hop rfl
      | cons target rest => exact h₁ op target rest hop rfl

/-! ### All passes -/

theorem applyPasses_merges {items items' : List Item}
    (h : (applyPasses s items).run p = (.ok items', q)) : Item.Merges items items' := by
  have forth {ops : List BinaryOp} {p q : ParseState} {items items' : List Item}
      (h : (applyLeftward s ops [] items).run p = (.ok items', q)) :
      Item.Merges items items' := applyLeftward_merges h
  have back {items items' : List Item} (h : Item.Merges (items.reverse.reverse ++ []) items') :
      Item.Merges items items' := by simpa using h
  obtain ⟨_, _, h₁, h⟩ := run_bind_ok.1 h
  refine (applyIndexes_merges h₁).trans ?_
  obtain ⟨_, _, h₁, h⟩ := run_bind_ok.1 h
  refine (applyStepsAfter_merges h₁).trans ?_
  obtain ⟨_, _, h₁, h⟩ := run_bind_ok.1 h
  refine (applyStepsBefore_merges h₁).trans ?_
  obtain ⟨_, _, h₁, h⟩ := run_bind_ok.1 h
  refine (applyPrefixes_merges h₁).trans ?_
  obtain ⟨_, _, h₁, h⟩ := run_bind_ok.1 h
  refine (applyCasts_merges h₁).trans ?_
  obtain ⟨_, _, h₁, h⟩ := run_bind_ok.1 h
  refine (back (applyRightward_merges h₁)).trans ?_
  obtain ⟨_, _, h₁, h⟩ := run_bind_ok.1 h
  refine (forth h₁).trans ?_
  obtain ⟨_, _, h₁, h⟩ := run_bind_ok.1 h
  refine (forth h₁).trans ?_
  obtain ⟨_, _, h₁, h⟩ := run_bind_ok.1 h
  refine (forth h₁).trans ?_
  obtain ⟨_, _, h₁, h⟩ := run_bind_ok.1 h
  refine (applyNot_merges h₁).trans ?_
  obtain ⟨_, _, h₁, h⟩ := run_bind_ok.1 h
  refine (forth h₁).trans ?_
  obtain ⟨_, _, h₁, h⟩ := run_bind_ok.1 h
  refine (forth h₁).trans ?_
  obtain ⟨_, _, h₁, h⟩ := run_bind_ok.1 h
  refine (forth h₁).trans ?_
  obtain ⟨_, _, h₁, h⟩ := run_bind_ok.1 h
  refine (forth h₁).trans ?_
  obtain ⟨_, _, h₁, h⟩ := run_bind_ok.1 h
  exact (back (applyTernaries_merges h₁)).trans (back (applyAssignments_merges h))

/-- The root comes of merging all items. -/
theorem applyOperators_merges {items : List Item} {e : Expr}
    (h : (applyOperators s items).run p = (.ok (some e), q)) :
    ∃ i : Item, i.kind = .value e ∧ Item.Merges items [i] := by
  obtain ⟨items', p₁, hitems, h⟩ := run_bind_ok.1 h
  obtain ⟨-, i, rfl, hi⟩ := remaining_ok.1 h
  exact ⟨i, hi, applyPasses_merges hitems⟩

end Parser

end TypedExpr
