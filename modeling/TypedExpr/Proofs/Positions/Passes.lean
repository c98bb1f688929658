import TypedExpr.Proofs.Positions.Indexed
import TypedExpr.Proofs.Positions.Mirrors
import TypedExpr.Proofs.Spans.Merging
/-!
# Passes that stay in bounds

The items before an index, the latest first, and those from it on make up a list. A pass that counts
then does with the list and the index what the pass of the parser does with the two parts: every
access is in bounds, and the items stay in order.

* `Parser.Indexed.merge_bind`: a node in the place of an operator and its operands.
* `Parser.Indexed.keepsUp_of_round`, `Parser.Indexed.keepsUpBack_of_round`: a loop does what a pass
  does if every round does.
* `Parser.Indexed.sweep`: passes that do the items behind an item first.
* `Parser.Indexed.passes_match`: **the passes that count do what the passes of the parser do.**
-/

namespace TypedExpr

namespace Parser.Indexed

open TypedExpr.Item (Orderly)

variable {s : Setting} {amiss : (α : Type) → Parser α} {γ δ : Type}
  {T : γ → δ → ParseState → Prop} {p : ParseState} {left right back : List Item}
  {item first last : Item} {n : Nat}

/-! ### Reading and replacing items -/

theorem getElem?_reverseAux (left right : List Item) (k : Nat) :
    (left.reverseAux right)[left.length + k]? = right[k]? := by
  rw [List.reverseAux_eq, List.getElem?_append_right (by simp)]
  simp

theorem getElem?_succ :
    (left.reverseAux (item :: right))[left.length + 1]? = right.head? := by
  rw [getElem?_reverseAux, List.getElem?_cons_succ, List.head?_eq_getElem?]

theorem itemAt_add {k : Nat} (h : right[k]? = some item) :
    itemAt amiss (left.reverseAux right) (left.length + k) = pure item := by
  rw [itemAt, getElem?_reverseAux, h]

theorem itemAt_length : itemAt amiss (left.reverseAux (item :: right)) left.length = pure item :=
  itemAt_add (k := 0) rfl

theorem itemAt_before :
    itemAt amiss ((first :: left).reverseAux right) left.length = pure first := by
  rw [List.reverseAux_cons, itemAt_length]

theorem itemBefore_length :
    itemBefore amiss (left.reverseAux right) left.length = pure left.head? := by
  cases left with
  | nil => rfl
  | cons before left =>
    rw [List.length_cons, itemBefore, itemAt_before, pure_bind]
    rfl

theorem take_append_drop (between : List Item) (v : Item) :
    (left.reverseAux (first :: (between ++ last :: back))).take left.length ++
        v :: (left.reverseAux (first :: (between ++ last :: back))).drop
          (left.length + (between.length + 1) + 1) = left.reverseAux (v :: back) := by
  have hsplit : left.reverseAux (first :: (between ++ last :: back)) =
      left.reverse ++ (first :: (between ++ [last])) ++ back := by simp [List.reverseAux_eq]
  have hlength : (left.reverse ++ first :: (between ++ [last])).length =
      left.length + (between.length + 1) + 1 := by simp [Nat.add_assoc]
  rw [hsplit, List.drop_left' hlength, List.append_assoc, List.take_left' List.length_reverse,
    List.reverseAux_eq]

/-- A value in the place of an operator and its operands, before the rest goes on. -/
theorem splice_bind (between : List Item) {v : Item} {f : List Item → Parser γ} {y : Parser δ}
    (h : Orderly (left.reverseAux (first :: (between ++ last :: back))))
    (hnone : ∃ i ∈ first :: (between ++ [last]), i.value? = none) (hv : v.value?.isSome = true)
    (hf : Orderly (left.reverseAux (v :: back)) →
      Mirrors p T (f (left.reverseAux (v :: back))) y) :
    Mirrors p T (splice amiss (left.reverseAux (first :: (between ++ last :: back))) left.length
      (left.length + (between.length + 1)) v >>= f) y := by
  have horderly : Orderly (left.reverseAux (v :: back)) := by
    have hsegment : Orderly (left.reverse ++ (first :: (between ++ [last]) ++ back)) := by
      simpa [List.reverseAux_eq] using h
    rw [List.reverseAux_eq]
    exact hsegment.replace hnone hv
  have hbounds : left.length ≤ left.length + (between.length + 1) ∧
      left.length + (between.length + 1) <
        (left.reverseAux (first :: (between ++ last :: back))).length := by
    simp [List.reverseAux_eq]
  rw [splice, if_pos hbounds, take_append_drop, inOrder, if_pos horderly, pure_bind]
  exact hf horderly

/-- A node in the place of an operator and its operands, before the rest goes on. -/
theorem merge_bind (between : List Item) {build : Span → Parser Expr} {f : List Item → Parser γ}
    {g : Expr → Parser δ} (h : Orderly (left.reverseAux (first :: (between ++ last :: back))))
    (hnone : ∃ i ∈ first :: (between ++ [last]), i.value? = none)
    (hfg : ∀ e q,
      let merged := left.reverseAux (first.withValue e (first.span.merge last.span) :: back)
      Orderly merged → Mirrors q T (f merged) (g e)) :
    Mirrors p T (merge amiss (left.reverseAux (first :: (between ++ last :: back))) left.length
        (left.length + (between.length + 1)) build >>= f)
      (build (first.span.merge last.span) >>= g) := by
  have hlast : (first :: (between ++ last :: back))[between.length + 1]? = some last := by simp
  simp only [merge, itemAt_length, itemAt_add hlast, pure_bind, bind_assoc]
  exact .next fun e q _ => splice_bind between h hnone rfl (hfg e q)

theorem passed (h : Orderly (left.reverseAux (item :: right))) :
    Orderly ((item :: left).reverseAux right) := h

/-! ### Loops -/

/-- The items are the same on both sides, and in order. -/
def Kept (items items' : List Item) (_ : ParseState) : Prop := items = items' ∧ Orderly items'

section Loops

variable (amiss) (round : List Item → Nat → Parser (List Item × Nat))
  (f : List Item → List Item → Parser (List Item))

/-- With so many rounds, a loop does what a pass does that has the items done, the latest first, and
those to come. It has started from an index. -/
def KeepsUp (start n : Nat) : Prop :=
  ∀ done rest p, start ≤ done.length → rest.length ≤ n → Orderly (done.reverseAux rest) →
    Mirrors p Kept (forward amiss round n (done.reverseAux rest) done.length) (f done rest)

/-- With so many rounds, a loop back does what a pass does that has the items to come, the latest
first, and those done. -/
def KeepsUpBack (n : Nat) : Prop :=
  ∀ rest done p, rest.length ≤ n → Orderly (rest.reverseAux done) →
    Mirrors p Kept (backward amiss round n (rest.reverseAux done) rest.length) (f done rest)

variable {amiss round f}

/-- A loop keeps up if every round does. -/
theorem keepsUp_of_round {start : Nat} (hnil : ∀ done, f done [] = pure done.reverse)
    (hround : ∀ n, KeepsUp amiss round f start n → ∀ done item rest p, start ≤ done.length →
      rest.length ≤ n → Orderly (done.reverseAux (item :: rest)) →
      Mirrors p Kept (do
          let r ← round (done.reverseAux (item :: rest)) done.length
          forward amiss round n r.1 r.2)
        (f done (item :: rest)))
    (n : Nat) : KeepsUp amiss round f start n := by
  have ends (n : Nat) (done : List Item) (p : ParseState) (h : Orderly (done.reverseAux [])) :
      Mirrors p Kept (forward amiss round n (done.reverseAux []) done.length) (f done []) := by
    have hend : ¬done.length < (done.reverseAux []).length := by simp [List.reverseAux_eq]
    rw [hnil]
    cases n <;> rw [forward, if_neg hend] <;> exact .pure ⟨rfl, h⟩
  induction n with
  | zero =>
    rintro done rest p - hn h
    obtain rfl := List.eq_nil_of_length_eq_zero (Nat.le_zero.1 hn)
    exact ends 0 done p h
  | succ n ih =>
    rintro done (_ | ⟨item, rest⟩) p hs hn h
    · exact ends _ done p h
    · have hmore : done.length < (done.reverseAux (item :: rest)).length := by
        simp [List.reverseAux_eq]
      rw [forward, if_pos hmore]
      exact hround n ih done item rest p hs (Nat.le_of_succ_le_succ hn) h

/-- A loop back keeps up if every round does. -/
theorem keepsUpBack_of_round (hnil : ∀ done, f done [] = pure done)
    (hround : ∀ n, KeepsUpBack amiss round f n → ∀ item rest done p, rest.length ≤ n →
      Orderly (rest.reverseAux (item :: done)) →
      Mirrors p Kept (do
          let r ← round (rest.reverseAux (item :: done)) rest.length
          backward amiss round n r.1 r.2)
        (f done (item :: rest)))
    (n : Nat) : KeepsUpBack amiss round f n := by
  have ends (n : Nat) (done : List Item) (p : ParseState) (h : Orderly done) :
      Mirrors p Kept (backward amiss round n done 0) (f done []) := by
    rw [hnil, backward]
    exact .pure ⟨rfl, h⟩
  induction n with
  | zero =>
    rintro rest done p hn h
    obtain rfl := List.eq_nil_of_length_eq_zero (Nat.le_zero.1 hn)
    exact ends 0 done p h
  | succ n ih =>
    rintro (_ | ⟨item, rest⟩) done p hn h
    · exact ends _ done p h
    · rw [List.length_cons, backward]
      exact hround n ih item rest done p (Nat.le_of_succ_le_succ hn) h

/-- At the start of a pass all items are to come. -/
theorem pass_mirrors (hf : ∀ n, KeepsUp amiss round f 0 n) {items : List Item} (h : Orderly items) :
    Mirrors p Kept (pass amiss round 0 items) (f [] items) :=
  hf items.length [] items p (Nat.le_refl _) (Nat.le_refl _) h

/-- At the start of a pass back all items are to come. -/
theorem passBack_mirrors (hf : ∀ n, KeepsUpBack amiss round f n) {items : List Item}
    (h : Orderly items) : Mirrors p Kept (passBack amiss round items) (f [] items.reverse) := by
  have hitems : items.reverse.reverseAux [] = items := items.reverse_reverse
  have hlen : items.reverse.length = items.length := List.length_reverse
  have hback := hf items.length items.reverse [] p (Nat.le_of_eq hlen)
  rw [hitems, hlen] at hback
  exact hback h

end Loops

/-! ### Operators with one operand -/

theorem value?_of_index {e : Expr} (h : item.kind = .index e) : item.value? = none := by
  rw [Item.value?, h]

theorem value?_of_operator? {op : Operator} (h : item.operator? = some op) :
    item.value? = none := by
  obtain ⟨kind, _, _⟩ := item
  cases kind <;> simp [Item.operator?, Item.value?] at h ⊢

theorem keepsUp_indexRound : ∀ n, KeepsUp amiss (indexRound s amiss) (applyIndexes s) 0 n := by
  refine keepsUp_of_round (fun _ => rfl) fun n ih done item rest p _ hn h => ?_
  rw [indexRound, itemAt_length, pure_bind]
  cases hk : item.kind with
  | index e =>
    cases done with
    | nil =>
      -- an index is never the first item
      exact absurd (h.1.index (by rw [Item.isIndex, hk])) nofun
    | cons container below =>
      simp only [applyIndexes, hk, List.length_cons, previous, itemAt_before, pure_bind, bind_assoc]
      refine .next fun element q hbuild => ?_
      obtain ⟨e, -, rfl⟩ := buildIndex_ok hbuild
      refine splice_bind [] h ⟨item, by simp, value?_of_index hk⟩ rfl fun horderly => ?_
      exact ih _ _ q (Nat.zero_le _) hn (passed horderly)
  | _ =>
    simp only [applyIndexes, hk, pure_bind]
    exact ih _ _ p (Nat.zero_le _) hn (passed h)

theorem keepsUp_stepAfterRound :
    ∀ n, KeepsUp amiss (stepAfterRound s amiss) (applyStepsAfter s) 1 n := by
  refine keepsUp_of_round (fun _ => rfl) fun n ih done item rest p hs hn h => ?_
  obtain ⟨target, below, rfl⟩ := List.exists_cons_of_length_pos hs
  rw [stepAfterRound, itemAt_length, pure_bind]
  have skip : Mirrors p Kept
      (forward amiss (stepAfterRound s amiss) n ((item :: target :: below).reverseAux rest)
        (item :: target :: below).length)
      (applyStepsAfter s (item :: target :: below) rest) :=
    ih _ _ p (Nat.le_add_left 1 _) hn (passed h)
  rcases hop : item.operator? with _ | op
  · simp only [applyStepsAfter, hop, pure_bind]
    exact skip
  cases op with
  | step op =>
    simp only [applyStepsAfter, hop, List.length_cons, previous, itemAt_before, pure_bind]
    by_cases hm : target.isModifiable = true
    · simp only [if_pos hm, bind_assoc]
      refine .next fun r q _ => ?_
      refine merge_bind [] h ⟨item, by simp, value?_of_operator? hop⟩ fun e q horderly => ?_
      exact ih _ _ q (Nat.le_add_left 1 _) hn (passed horderly)
    · simp only [if_neg hm, pure_bind]
      exact skip
  | _ =>
    simp only [applyStepsAfter, hop, pure_bind]
    exact skip

/-! ### Coming back to an item -/

section Sweep

variable {β : Type} (step : Option Item → Item → β → Parser β)

/-- Take a step for each of the items to come, the latest first, with what there is behind it. -/
def sweep : List Item → β → Parser β
  | [], b => return b
  | item :: rest, b => do sweep rest (← step rest.head? item b)

/-- A pass that does the items behind an item first. -/
theorem eq_sweep (f : Option Item → List Item → Parser β) {b : β}
    (hnil : ∀ before, f before [] = pure b)
    (hcons : ∀ before item items, f before (item :: items) =
      (do step before item (← f (some item) items)))
    (items : List Item) : f none items = sweep step items.reverse b := by
  have split (rest done : List Item) :
      f none (rest.reverseAux done) = (do sweep step rest (← f rest.head? done)) := by
    induction rest generalizing done with
    | nil => exact (bind_pure _).symm
    | cons item rest ih => rw [List.reverseAux_cons, ih, hcons, bind_assoc]; rfl
  have hitems : items.reverse.reverseAux [] = items := items.reverse_reverse
  have := split items.reverse []
  rwa [hitems, hnil, pure_bind] at this

end Sweep

variable (s) in
/-- What `applyStepsBefore` does with one item. -/
def onStep (before : Option Item) (item : Item) (rest : List Item) : Parser (List Item) :=
  match item.operator? with
  | some (.step op) => applyStepBefore s op before item rest
  | _ => return item :: rest

variable (s) in
/-- What `applyPrefixes` does with one item. -/
def onPrefix (before : Option Item) (item : Item) (rest : List Item) : Parser (List Item) :=
  match prefixOperator? before item with
  | some op => if rest.head?.any isWaiting then return item :: rest else applyUnary s op item rest
  | none => return item :: rest

variable (s) in
/-- What `applyNot` does with one item. -/
def onNot (_ : Option Item) (item : Item) (rest : List Item) : Parser (List Item) :=
  if item.operator? = some .bang then applyUnary s .not item rest else return item :: rest

variable (s) in
/-- What `applyCasts` does with one item. -/
def onCast (before : Option Item) (item : Item) (r : List Item × Bool) :
    Parser (List Item × Bool) :=
  match item.kind with
  | .cast type => do
    let (target, e) ← operand s r.1.head? item "right"
    let span := item.span.merge target.span
    let e ← buildCast s e type item span
    return (item.withValue e span :: r.1.tail, true)
  | _ => Parser.applyWaiting s before item r.2 r.1

theorem applyStepsBefore_eq_sweep (items : List Item) :
    applyStepsBefore s none items = sweep (onStep s) items.reverse [] :=
  eq_sweep (onStep s) (applyStepsBefore s) (fun _ => rfl) (fun _ _ _ => rfl) items

theorem applyPrefixes_eq_sweep (items : List Item) :
    applyPrefixes s none items = sweep (onPrefix s) items.reverse [] :=
  eq_sweep (onPrefix s) (applyPrefixes s) (fun _ => rfl) (fun _ _ _ => rfl) items

theorem applyNot_eq_sweep (items : List Item) :
    applyNot s items = sweep (onNot s) items.reverse [] :=
  eq_sweep (onNot s) (fun _ => applyNot s) (fun _ => rfl) (fun _ _ _ => rfl) items

theorem applyCastsFrom_eq_sweep (items : List Item) :
    applyCastsFrom s none items = sweep (onCast s) items.reverse ([], false) :=
  eq_sweep (onCast s) (applyCastsFrom s) (fun _ => rfl) (fun _ _ _ => rfl) items

/-- An operator is applied to the item behind it, before the rest goes on. -/
theorem unaryAt_bind {op : UnaryOp} {f : List Item → Parser γ} {g : List Item → Parser δ}
    (h : Orderly (left.reverseAux (item :: right))) (hnone : item.value? = none)
    (hfg : ∀ rest q, Orderly (left.reverseAux rest) →
      Mirrors q T (f (left.reverseAux rest)) (g rest)) :
    Mirrors p T (unaryAt s amiss op (left.reverseAux (item :: right)) left.length >>= f)
      (applyUnary s op item right >>= g) := by
  simp only [unaryAt, applyUnary, itemAt_length, getElem?_succ, pure_bind, bind_assoc]
  refine .next ?_
  rintro ⟨target, e⟩ q hr
  cases right with
  | nil => cases operand_some hr
  | cons r back =>
    obtain rfl := Option.some.inj (operand_some hr)
    exact merge_bind [] h ⟨item, by simp, hnone⟩ fun e q horderly => hfg _ q horderly

theorem keepsUpBack_stepBeforeRound :
    ∀ n, KeepsUpBack amiss (stepBeforeRound s amiss) (fun done rest => sweep (onStep s) rest done)
      n := by
  refine keepsUpBack_of_round (fun _ => rfl) fun n ih item rest done p hn h => ?_
  simp only [stepBeforeRound, sweep, itemAt_length, itemBefore_length, pure_bind]
  have skip : Mirrors p Kept
      (backward amiss (stepBeforeRound s amiss) n (rest.reverseAux (item :: done)) rest.length)
      (sweep (onStep s) rest (item :: done)) := ih rest (item :: done) p hn h
  rcases hop : item.operator? with _ | op
  · simp only [onStep, hop, pure_bind]
    exact skip
  cases op with
  | step op =>
    simp only [onStep, applyStepBefore, hop, getElem?_succ, bind_assoc, pure_bind]
    refine .next fun _ q _ => .next ?_
    rintro ⟨target, e⟩ r hr
    have htarget : done.head?.filter (·.value?.isSome) = some target :=
      (placeOperand_fragments hr).2.1
    cases done with
    | nil => cases htarget
    | cons d done =>
      obtain ⟨rfl, -⟩ : d = target ∧ _ := by simpa using htarget
      refine merge_bind [] h ⟨item, by simp, value?_of_operator? hop⟩ fun e q horderly => ?_
      exact ih rest _ q hn horderly
  | _ =>
    simp only [onStep, hop, pure_bind]
    exact skip

theorem prefixAt_length :
    prefixAt amiss (left.reverseAux (item :: right)) left.length =
      pure (prefixOperator? left.head? item) := by
  rw [prefixAt, itemAt_length, pure_bind, itemBefore_length, pure_bind]

theorem value?_of_prefixOperator? {before : Option Item} {op : UnaryOp}
    (h : prefixOperator? before item = some op) : item.value? = none := by
  unfold prefixOperator? at h
  obtain ⟨o, ho, -⟩ := Option.bind_eq_some_iff.1 h
  exact value?_of_operator? ho

theorem keepsUpBack_prefixRound :
    ∀ n, KeepsUpBack amiss (prefixRound s amiss) (fun done rest => sweep (onPrefix s) rest done)
      n := by
  refine keepsUpBack_of_round (fun _ => rfl) fun n ih item rest done p hn h => ?_
  simp only [prefixRound, sweep, onPrefix, prefixAt_length, getElem?_succ, pure_bind]
  have skip : Mirrors p Kept
      (backward amiss (prefixRound s amiss) n (rest.reverseAux (item :: done)) rest.length)
      (sweep (onPrefix s) rest (item :: done)) := ih rest (item :: done) p hn h
  rcases hop : prefixOperator? rest.head? item with _ | op
  · simp only [pure_bind]
    exact skip
  by_cases hw : done.head?.any isWaiting = true
  · simp only [if_pos hw, pure_bind]
    exact skip
  · simp only [if_neg hw, bind_assoc, pure_bind]
    exact unaryAt_bind h (value?_of_prefixOperator? hop) fun done q horderly =>
      ih rest done q hn horderly

theorem keepsUpBack_notRound :
    ∀ n, KeepsUpBack amiss (notRound s amiss) (fun done rest => sweep (onNot s) rest done) n := by
  refine keepsUpBack_of_round (fun _ => rfl) fun n ih item rest done p hn h => ?_
  simp only [notRound, sweep, onNot, itemAt_length, pure_bind]
  by_cases hop : item.operator? = some .bang
  · simp only [if_pos hop, bind_assoc, pure_bind]
    exact unaryAt_bind h (value?_of_operator? hop) fun done q horderly =>
      ih rest done q hn horderly
  · simp only [if_neg hop, pure_bind]
    exact ih rest (item :: done) p hn h

/-! ### Casts -/

theorem value?_of_cast {type : Ty} (h : item.kind = .cast type) : item.value? = none := by
  rw [Item.value?, h]

/-- An operator that has waited for a cast is applied. -/
theorem onCast_of_some {before : Option Item} {op : UnaryOp}
    (h : prefixOperator? before item = some op) (done : List Item) :
    onCast s before item (done, true) = (do return (← applyUnary s op item done, true)) := by
  unfold onCast
  split
  · rename_i type hk
    rw [prefixOperator?, Item.operator?, hk] at h
    cases h
  · simp only [Parser.applyWaiting, h]

/-- Where no operator has waited it does not matter whether the item behind comes from a cast. -/
theorem onCast_of_none {before : Option Item} (h : prefixOperator? before item = none)
    (done : List Item) :
    onCast s before item (done, true) = onCast s before item (done, false) := by
  unfold onCast
  split
  · rfl
  · simp only [Parser.applyWaiting, h]

/-- The loop over the casts keeps up, and so does the one over the operators in front of a cast that
has been applied. -/
theorem castRound_mirrors (rest : List Item) :
    (∀ n done p, rest.length ≤ n → Orderly (rest.reverseAux done) →
      Mirrors p (fun items r q => Kept items r.1 q)
        (backward amiss (castRound s amiss) n (rest.reverseAux done) rest.length)
        (sweep (onCast s) rest (done, false))) ∧
    ∀ n done p, rest.length ≤ n → Orderly (rest.reverseAux done) →
      Mirrors p (fun items r q => Kept items r.1 q)
        (do
          let r ← applyWaiting s amiss rest.length (rest.reverseAux done)
          backward amiss (castRound s amiss) n r.1 r.2)
        (sweep (onCast s) rest (done, true)) := by
  induction rest with
  | nil =>
    have ends (isCast : Bool) (n : Nat) (done : List Item) (p : ParseState) (h : Orderly done) :
        Mirrors p (fun items r q => Kept items r.1 q)
          (backward amiss (castRound s amiss) n done 0) (pure (done, isCast)) := by
      rw [backward]
      exact .pure ⟨rfl, h⟩
    exact ⟨fun n done p _ => ends false n done p, fun n done p _ => ends true n done p⟩
  | cons item rest ih =>
    obtain ⟨loop, waiting⟩ := ih
    have round : ∀ n done p, (item :: rest).length ≤ n → Orderly ((item :: rest).reverseAux done) →
        Mirrors p (fun items r q => Kept items r.1 q)
          (backward amiss (castRound s amiss) n ((item :: rest).reverseAux done)
            (item :: rest).length)
          (sweep (onCast s) (item :: rest) (done, false)) := by
      rintro (_ | n) done p hn h
      · cases hn
      have hn : rest.length ≤ n := Nat.le_of_succ_le_succ hn
      rw [List.length_cons, backward, sweep, castRound, List.reverseAux_cons, itemAt_length,
        pure_bind]
      cases hk : item.kind with
      | cast type =>
        simp only [onCast, hk, getElem?_succ, bind_assoc, pure_bind]
        refine .next ?_
        rintro ⟨target, e⟩ q hr
        cases done with
        | nil => cases operand_some hr
        | cons d done =>
          obtain rfl := Option.some.inj (operand_some hr)
          refine merge_bind [] h ⟨item, by simp, value?_of_cast hk⟩ fun e q horderly => ?_
          exact waiting n _ q hn horderly
      | _ =>
        simp only [onCast, hk, Parser.applyWaiting, pure_bind]
        exact loop n (item :: done) p hn h
    refine ⟨round, fun n done p hn h => ?_⟩
    rw [List.length_cons, applyWaiting, List.reverseAux_cons, prefixAt_length, pure_bind, sweep]
    rcases hop : prefixOperator? rest.head? item with _ | op
    · rw [onCast_of_none hop]
      exact round n done p hn h
    · rw [onCast_of_some hop]
      simp only [bind_assoc, pure_bind]
      exact unaryAt_bind h (value?_of_prefixOperator? hop) fun done q horderly =>
        waiting n done q (Nat.le_of_succ_le hn) horderly

theorem keepsUpBack_castRound :
    ∀ n, KeepsUpBack amiss (castRound s amiss)
      (fun done rest => do return (← sweep (onCast s) rest (done, false)).1) n :=
  fun n rest done p hn h => ((castRound_mirrors rest).1 n done p hn h).result

/-! ### Operators with several operands -/

theorem operator?_of_isOneOf? {ops : List BinaryOp} {op : BinaryOp}
    (h : isOneOf? ops item = some op) : item.operator? = some (.binary op) := by
  unfold isOneOf? at h
  split at h
  · split at h
    · cases h
      assumption
    · cases h
  · cases h

/-- A binary operator is applied to the items on both sides, before the rest goes on. -/
theorem binaryAt_bind {op : BinaryOp} {f : List Item → Parser γ} {g : Item → Parser δ}
    (h : Orderly (left.reverseAux (item :: right))) (hnone : item.value? = none)
    (hfg : ∀ l below r back e q, left = l :: below → right = r :: back →
      Orderly (below.reverseAux (e :: back)) →
      Mirrors q T (f (below.reverseAux (e :: back))) (g e)) :
    Mirrors p T (binaryAt s amiss op (left.reverseAux (item :: right)) left.length >>= f)
      (applyBinary s op left.head? item right.head? >>= g) := by
  simp only [binaryAt, applyBinary, itemAt_length, itemBefore_length, getElem?_succ, pure_bind,
    bind_assoc]
  refine .next ?_
  rintro ⟨l, el⟩ q₁ hl
  refine .next ?_
  rintro ⟨r, er⟩ q₂ hr
  cases left with
  | nil => cases operand_some hl
  | cons l below =>
    cases right with
    | nil => cases operand_some hr
    | cons r back =>
      obtain rfl := Option.some.inj (operand_some hl)
      obtain rfl := Option.some.inj (operand_some hr)
      simp only [List.length_cons, previous, pure_bind]
      exact merge_bind [item] h ⟨item, by simp, hnone⟩ fun e q horderly =>
        hfg _ _ _ _ _ q rfl rfl horderly

theorem keepsUp_leftwardRound (ops : List BinaryOp) :
    ∀ n, KeepsUp amiss (leftwardRound s amiss ops) (applyLeftward s ops) 0 n := by
  refine keepsUp_of_round (fun _ => rfl) fun n ih done item rest p _ hn h => ?_
  rw [leftwardRound, itemAt_length, pure_bind]
  rcases hop : isOneOf? ops item with _ | op
  · simp only [applyLeftward, hop, pure_bind]
    exact ih _ rest p (Nat.zero_le _) hn (passed h)
  have hnone : item.value? = none := value?_of_operator? (operator?_of_isOneOf? hop)
  cases rest with
  | nil =>
    unfold applyLeftward
    simp only [hop, bind_assoc, pure_bind]
    refine binaryAt_bind h hnone fun _ _ _ _ _ _ _ hright => ?_
    cases hright
  | cons r rest =>
    unfold applyLeftward
    simp only [hop, bind_assoc, pure_bind]
    refine binaryAt_bind h hnone ?_
    intro l below _ _ e q hleft hright horderly
    cases hright
    subst hleft
    exact ih _ rest q (Nat.zero_le _) (Nat.le_of_succ_le hn) (passed horderly)

theorem keepsUpBack_rightwardRound (ops : List BinaryOp) :
    ∀ n, KeepsUpBack amiss (rightwardRound s amiss ops) (applyRightward s ops) n := by
  refine keepsUpBack_of_round (fun _ => rfl) fun n ih item rest done p hn h => ?_
  rw [rightwardRound, itemAt_length, pure_bind]
  rcases hop : isOneOf? ops item with _ | op
  · simp only [applyRightward, hop, pure_bind]
    exact ih rest _ p hn h
  have hnone : item.value? = none := value?_of_operator? (operator?_of_isOneOf? hop)
  cases rest with
  | nil =>
    unfold applyRightward
    simp only [hop, bind_assoc]
    refine binaryAt_bind h hnone fun _ _ _ _ _ _ hleft => ?_
    cases hleft
  | cons l rest =>
    unfold applyRightward
    simp only [hop, bind_assoc]
    refine binaryAt_bind h hnone ?_
    intro _ _ r back e q hleft hright horderly
    cases hleft
    cases hright
    simp only [List.length_cons, previous, pure_bind]
    exact ih rest _ q (Nat.le_of_succ_le hn) horderly

theorem keepsUpBack_ternaryRound :
    ∀ n, KeepsUpBack amiss (ternaryRound s amiss) (applyTernaries s) n := by
  refine keepsUpBack_of_round (fun _ => rfl) fun n ih item rest done p hn h => ?_
  rw [ternaryRound, itemAt_length, pure_bind]
  unfold applyTernaries
  by_cases hop : item.operator? = some .question
  · have hnone : item.value? = none := value?_of_operator? hop
    simp only [if_pos hop, itemBefore_length, getElem?_reverseAux, List.getElem?_cons_succ,
      bind_assoc, pure_bind]
    cases rest with
    | nil =>
      refine .next ?_
      rintro ⟨c, e⟩ q hc
      cases operand_some hc
    | cons c rest =>
      simp only [applyTernary, bind_assoc]
      refine .next ?_
      rintro ⟨c, _⟩ q₁ hc
      refine .next ?_
      rintro ⟨yes, _⟩ q₂ hyes
      refine .next ?_
      rintro ⟨no, _⟩ q₃ hno
      obtain rfl := Option.some.inj (operand_some hc)
      obtain ⟨back, rfl⟩ : ∃ back, done = yes :: no :: back := by
        match done, operand_some hyes, operand_some hno with
        | _ :: _ :: back, rfl, rfl => exact ⟨back, rfl⟩
      simp only [List.length_cons, previous, pure_bind]
      refine merge_bind [item, yes] h ⟨item, by simp, hnone⟩ fun e q horderly => ?_
      exact ih rest _ q (Nat.le_of_succ_le hn) horderly
  · simp only [if_neg hop, pure_bind]
    exact ih rest (item :: done) p hn h

theorem keepsUpBack_assignRound :
    ∀ n, KeepsUpBack amiss (assignRound s amiss) (applyAssignments s) n := by
  refine keepsUpBack_of_round (fun _ => rfl) fun n ih item rest done p hn h => ?_
  rw [assignRound, itemAt_length, pure_bind]
  rcases hop : item.operator? with _ | op
  · rw [applyAssignments_cons (by simp [hop])]
    exact ih rest (item :: done) p hn h
  cases op with
  | assign op =>
    unfold applyAssignments
    simp only [hop, applyAssign, itemBefore_length, getElem?_succ, bind_assoc, pure_bind]
    cases rest with
    | nil =>
      refine .next ?_
      rintro ⟨t, _⟩ q ht
      cases (placeOperand_fragments ht).2.1
    | cons t rest =>
      refine .next ?_
      rintro ⟨t, _⟩ q₁ ht
      refine .next ?_
      rintro ⟨v, _⟩ q₂ hv
      obtain rfl := Option.some.inj (placeOperand_fragments ht).2.1
      cases done with
      | nil => cases operand_some hv
      | cons v back =>
        obtain rfl := Option.some.inj (operand_some hv)
        simp only [List.length_cons, previous, pure_bind]
        refine merge_bind [item] h ⟨item, by simp, value?_of_operator? hop⟩ fun e q horderly => ?_
        exact ih rest _ q (Nat.le_of_succ_le hn) horderly
  | _ =>
    rw [applyAssignments_cons (by simp [hop])]
    exact ih rest (item :: done) p hn h

/-! ### All passes -/

/-- The passes of the parser, as `applyPasses` goes through them. -/
def plainPasses (s : Setting) : List (List Item → Parser (List Item)) := [
  applyIndexes s [],
  applyStepsAfter s [],
  applyStepsBefore s none,
  applyPrefixes s none,
  applyCasts s,
  fun items => applyRightward s [.pow] [] items.reverse,
  applyLeftward s [.mul, .div, .mod] [],
  applyLeftward s [.add, .sub] [],
  applyLeftward s [.shl, .shr] [],
  applyNot s,
  applyLeftward s [.lt, .gt, .le, .ge] [],
  applyLeftward s [.eq, .ne] [],
  applyLeftward s [.bitAnd, .bitOr, .bitXor] [],
  applyLeftward s [.and, .or] [],
  fun items => applyTernaries s [] items.reverse,
  fun items => applyAssignments s [] items.reverse]

theorem applyPasses_eq_foldlM (items : List Item) :
    applyPasses s items = (plainPasses s).foldlM (fun items pass => pass items) items := by
  simp [applyPasses, plainPasses, List.foldlM_cons]

/-- From items in order, both passes do the same, and the items stay in order. -/
def Matches (x y : List Item → Parser (List Item)) : Prop :=
  ∀ items p, Orderly items → Mirrors p Kept (x items) (y items)

theorem matches_stepsAfter :
    Matches (pass amiss (stepAfterRound s amiss) 1) (applyStepsAfter s []) := by
  rintro (_ | ⟨item, rest⟩) p h
  · exact .pure ⟨rfl, h⟩
  · have hfirst : applyStepsAfter s [] (item :: rest) = applyStepsAfter s [item] rest := by
      rw [applyStepsAfter]
      simp
    rw [hfirst]
    exact keepsUp_stepAfterRound _ [item] rest p (Nat.le_refl 1) (Nat.le_succ _) h

theorem matches_casts : Matches (passBack amiss (castRound s amiss)) (applyCasts s) := by
  intro items p h
  rw [applyCasts, applyCastsFrom_eq_sweep]
  exact passBack_mirrors keepsUpBack_castRound h

/-- A pass that comes back to the items. -/
theorem matches_sweep {round : List Item → Nat → Parser (List Item × Nat)}
    {step : Option Item → Item → List Item → Parser (List Item)}
    {f : List Item → Parser (List Item)}
    (hf : ∀ items, f items = sweep step items.reverse [])
    (hround : ∀ n, KeepsUpBack amiss round (fun done rest => sweep step rest done) n) :
    Matches (passBack amiss round) f := by
  intro items p h
  rw [hf]
  exact passBack_mirrors hround h

/-- **The passes that count do what the passes of the parser do**, one by one. -/
theorem passes_match : List.Forall₂ Matches (passes s amiss) (plainPasses s) := by
  have leftward (ops : List BinaryOp) :
      Matches (pass amiss (leftwardRound s amiss ops) 0) (applyLeftward s ops []) :=
    fun _ _ h => pass_mirrors (keepsUp_leftwardRound ops) h
  refine .cons (fun _ _ h => pass_mirrors keepsUp_indexRound h) ?_
  refine .cons matches_stepsAfter ?_
  refine .cons (matches_sweep applyStepsBefore_eq_sweep keepsUpBack_stepBeforeRound) ?_
  refine .cons (matches_sweep applyPrefixes_eq_sweep keepsUpBack_prefixRound) ?_
  refine .cons matches_casts ?_
  refine .cons (fun _ _ h => passBack_mirrors (keepsUpBack_rightwardRound _) h) ?_
  refine .cons (leftward _) (.cons (leftward _) (.cons (leftward _) ?_))
  refine .cons (matches_sweep applyNot_eq_sweep keepsUpBack_notRound) ?_
  refine .cons (leftward _) (.cons (leftward _) (.cons (leftward _) (.cons (leftward _) ?_)))
  refine .cons (fun _ _ h => passBack_mirrors keepsUpBack_ternaryRound h) ?_
  exact .cons (fun _ _ h => passBack_mirrors keepsUpBack_assignRound h) .nil

theorem foldlM_mirrors {xs ys : List (List Item → Parser (List Item))}
    (h : List.Forall₂ Matches xs ys) {items : List Item} (ho : Orderly items) :
    Mirrors p Kept (xs.foldlM (fun items pass => pass items) items)
      (ys.foldlM (fun items pass => pass items) items) := by
  induction h generalizing items p with
  | nil => exact .pure ⟨rfl, ho⟩
  | cons hxy _ ih =>
    rw [List.foldlM_cons, List.foldlM_cons]
    refine (hxy items p ho).bind ?_
    rintro items' _ q ⟨rfl, ho'⟩
    exact ih ho'

end Parser.Indexed

end TypedExpr
