import TypedExpr.Proofs.Lines.Located
import TypedExpr.Proofs.Typing.Plain
/-!
# Items and their tokens

Every item of an expression has the start and the line of the token at which it begins, and so has
what is built in its place. The two branches of a conditional have the line of the `?` instead; they
stand behind it, as the last of the items.

* `Item.At`, `Item.Stands`: the item begins at the token.
* `Aligned`, `Behind`: items in the order of their tokens, from the first on or from the last back.
* `Parser.Leads.buildBinary`, `Parser.Leads.buildIndex`, …: a node of each form, or an error that is
  located.
-/

namespace TypedExpr

/-! ### Items -/

/-- What an item is fits the token at which it begins. -/
def ItemKind.BeginsAt (ts : TokenList) (t : Token) : ItemKind → Prop
  | .operator op => t.kind = .operator op
  | .value e => e.BeginsAt ts t
  | .index e => ts.StartsAt e.span.start ∧ t.kind = .opening .square
  | .typeName _ | .cast _ => True

/-- The item begins at the token, and has its line. -/
structure Item.At (ts : TokenList) (item : Item) (t : Token) : Prop where
  mem : t ∈ ts.toArray
  start : item.span.start = t.span.start
  line : item.line = t.line
  kind : item.kind.BeginsAt ts t

/-- The item begins at the token, and no branches follow it. -/
structure Item.Stands (ts : TokenList) (item : Item) (t : Token) : Prop where
  placed : item.At ts t
  ne_question : item.kind ≠ .operator .question

namespace Item

variable {ts : TokenList} {item : Item} {t : Token}

/-- What is built from a token on. -/
theorem stands_value (ht : t ∈ ts.toArray) {e : Expr} {span : Span} {line : Nat}
    (he : e.span = span) (hs : span.start = t.span.start) (hl : line = t.line) :
    Item.Stands ts ⟨.value e, span, line⟩ t :=
  ⟨⟨ht, hs, hl, .of_eq ht (he ▸ hs)⟩, nofun⟩

theorem kind_of_operator? {op : Operator} (h : item.operator? = some op) :
    item.kind = .operator op := by
  unfold operator? at h
  split at h
  · rename_i hk
    rw [hk, Option.some.inj h]
  · cases h

namespace At

theorem value (h : item.At ts t) {e : Expr} (hk : item.kind = .value e) : e.BeginsAt ts t := by
  have hkind := h.kind
  rwa [hk] at hkind

theorem operator (h : item.At ts t) {op : Operator} (hk : item.kind = .operator op) :
    t.kind = .operator op := by
  have hkind := h.kind
  rwa [hk] at hkind

theorem index (h : item.At ts t) {e : Expr} (hk : item.kind = .index e) :
    ts.StartsAt e.span.start ∧ t.kind = .opening .square := by
  have hkind := h.kind
  rwa [hk] at hkind

/-- An error about the item. -/
theorem points (h : item.At ts t) (code : ErrorCode) (remark : String) :
    ts.Points item.span.start item.line code remark := .of_mem h.mem h.start h.line

/-- What is built from an item and what stands behind it takes the place of the item. -/
theorem merged (h : item.At ts t) {e : Expr} {span : Span} (he : e.span = item.span.merge span)
    (hle : t.span.start ≤ span.start) :
    (item.withValue e (item.span.merge span)).Stands ts t := by
  refine stands_value h.mem he (Eq.trans (Nat.min_eq_left ?_) h.start) h.line
  rw [h.start]
  exact hle

/-- The only item that there is. -/
theorem some (h : item.At ts t) : ∀ i ∈ Option.some item, i.At ts t := by
  rintro i ⟨⟩
  exact h

/-- There is no item. -/
theorem none : ∀ i ∈ (Option.none : Option Item), i.At ts t := by
  rintro i ⟨⟩

end At

end Item

/-! ### Items in order -/

/-- The expression in a branch of the conditional at the token. -/
structure Expr.Branches (ts : TokenList) (t : Token) (e : Expr) : Prop where
  starts : ts.StartsAt e.span.start
  le : t.span.start ≤ e.span.start
  ne_void : e.type ≠ .void

/-- The items begin at tokens one behind the other, the first of them at `t`. If `choice` is true,
they may end with a conditional and its branches. -/
inductive Aligned (ts : TokenList) : (choice : Bool) → (t : Token) → List Item → Prop
  | nil {choice : Bool} {t : Token} : Aligned ts choice t []
  | cons {choice : Bool} {t u : Token} {item : Item} {rest : List Item} (h : item.Stands ts t)
    (hle : t.span.start ≤ u.span.start) (hr : Aligned ts choice u rest) :
    Aligned ts choice t (item :: rest)
  | choice {t : Token} {span : Span} {line l l' : Nat} {yes no : Expr}
    (h : Item.At ts ⟨.operator .question, span, line⟩ t) (hy : yes.Branches ts t)
    (hn : no.Branches ts t) :
    Aligned ts true t [⟨.operator .question, span, line⟩, ⟨.value yes, yes.span, l⟩,
      ⟨.value no, no.span, l'⟩]

/-- The items, the latest first, begin at tokens one behind the other, the first of them at `t` and
none behind `u`. If there are none, the next one may begin at `t`, which is `u`. -/
inductive Behind (ts : TokenList) (t : Token) : (u : Token) → List Item → Prop
  | nil : Behind ts t t []
  | cons {u v : Token} {item : Item} {done : List Item} (h : item.Stands ts u)
    (hle : u.span.start ≤ v.span.start) (hd : Behind ts t u done) : Behind ts t v (item :: done)

namespace Aligned

variable {ts : TokenList} {choice : Bool} {t u : Token} {item : Item} {items rest : List Item}

theorem head (h : Aligned ts choice t (item :: rest)) : item.At ts t := by
  cases h with
  | cons h => exact h.placed
  | choice h => exact h

/-- What stands behind a value. -/
theorem tail (h : Aligned ts choice t (item :: rest)) {e : Expr} (hk : item.kind = .value e) :
    ∃ u, t.span.start ≤ u.span.start ∧ Aligned ts choice u rest := by
  cases h with
  | cons _ hle hr => exact ⟨_, hle, hr⟩
  | choice => cases hk

/-- What is built from the first item, which is a value, takes its place. -/
theorem replaceHead (h : Aligned ts choice u rest) {i : Item} {e : Expr}
    (hi : rest.head? = some i) (hk : i.kind = .value e) (hitem : item.Stands ts t)
    (hle : t.span.start ≤ u.span.start) : Aligned ts choice t (item :: rest.tail) := by
  cases rest with
  | nil => cases hi
  | cons j rest =>
    obtain rfl := Option.some.inj hi
    obtain ⟨v, huv, hrest⟩ := h.tail hk
    exact .cons hitem (Nat.le_trans hle huv) hrest

theorem at_of_head (h : Aligned ts choice u rest) : ∀ i ∈ rest.head?, i.At ts u := by
  cases rest with
  | nil => exact nofun
  | cons item rest =>
    exact h.head.some

theorem exists_at (h : Aligned ts false t items) : ∀ i ∈ items, ∃ u, i.At ts u := by
  generalize hc : false = choice at h
  induction h with
  | nil => exact nofun
  | cons h _ _ ih => exact List.forall_mem_cons.2 ⟨⟨_, h.placed⟩, ih hc⟩
  | choice => cases hc

end Aligned

namespace Behind

variable {ts : TokenList} {choice : Bool} {t u v : Token} {item : Item} {done rest : List Item}

theorem append (h : Behind ts t u done) (hr : Aligned ts choice u rest) :
    Aligned ts choice t (done.reverse ++ rest) := by
  induction h generalizing rest with
  | nil => exact hr
  | cons h hle _ ih =>
    rw [List.reverse_cons, List.append_assoc]
    exact ih (.cons h hle hr)

theorem reverse (h : Behind ts t u done) : Aligned ts choice t done.reverse := by
  have happend : Aligned ts choice t (done.reverse ++ []) := h.append .nil
  rwa [List.append_nil] at happend

theorem concat (h : Behind ts u v done) (hi : item.Stands ts t)
    (hle : t.span.start ≤ u.span.start) : Behind ts t v (done ++ [item]) := by
  induction h with
  | nil => exact .cons hi hle .nil
  | cons h hv _ ih => exact .cons h hv ih

/-- The items without the indexes that they end with. -/
theorem dropIndexes (h : Behind ts t u done) :
    ∃ v, v.span.start ≤ u.span.start ∧ Behind ts t v (done.dropWhile (·.isIndex)) ∧
      ∀ i ∈ done.takeWhile (·.isIndex), ∃ w, i.At ts w ∧ v.span.start ≤ w.span.start := by
  induction h with
  | nil => exact ⟨t, Nat.le_refl _, .nil, nofun⟩
  | @cons u v item done h hle hd ih =>
    cases hi : item.isIndex with
    | false =>
      rw [List.dropWhile_cons_of_neg (by simp [hi]), List.takeWhile_cons_of_neg (by simp [hi])]
      exact ⟨v, Nat.le_refl _, .cons h hle hd, nofun⟩
    | true =>
      obtain ⟨w, hw, hdrop, htake⟩ := ih
      rw [List.dropWhile_cons_of_pos hi, List.takeWhile_cons_of_pos hi]
      refine ⟨w, Nat.le_trans hw hle, hdrop, List.forall_mem_cons.2 ⟨⟨u, h.placed, hw⟩, htake⟩⟩

/-- The last item, and what may be put in its place. -/
theorem exists_last (h : Behind ts t u done) : ∃ v, v.span.start ≤ u.span.start ∧
    (∀ i ∈ done.head?, i.At ts v) ∧ ∀ {i : Item} {w : Token}, done.head?.isSome = true →
      i.Stands ts v → u.span.start ≤ w.span.start → Behind ts t w (i :: done.tail) := by
  cases h with
  | nil => exact ⟨t, Nat.le_refl _, nofun, nofun⟩
  | @cons v _ item done hi hle hd =>
    exact ⟨v, hle, hi.placed.some, fun _ h hw => .cons h (Nat.le_trans hle hw) hd⟩

end Behind

/-- Items in order, taken from the last back, up to the conditional and its branches if they end
with one. -/
theorem Aligned.split {ts : TokenList} {choice : Bool} {t : Token} {items : List Item}
    (h : Aligned ts choice t items) : ∃ done last u, items = done ++ last ∧
      Behind ts t u done.reverse ∧ Aligned ts choice u last ∧
      (last = [] ∨ choice = true ∧ ∃ span line l l' yes no,
        last = [⟨.operator .question, span, line⟩, ⟨.value yes, yes.span, l⟩,
          ⟨.value no, no.span, l'⟩]) := by
  induction h with
  | nil => exact ⟨[], [], _, rfl, .nil, .nil, .inl rfl⟩
  | cons h hle _ ih =>
    obtain ⟨done, last, v, rfl, hd, hl, hlast⟩ := ih
    refine ⟨_ :: done, last, v, rfl, ?_, hl, hlast⟩
    rw [List.reverse_cons]
    exact hd.concat h hle
  | choice h hy hn =>
    exact ⟨[], _, _, rfl, .nil, .choice h hy hn, .inr ⟨rfl, _, _, _, _, _, _, rfl⟩⟩

/-! ### Building -/

namespace Parser

theorem operatorFailure_labels (reg : Registry) (e : OperatorError) (span : Span) (symbol : String)
    (operands : List Ty) : ∃ remark,
    (operatorFailure reg e span symbol operands).labels.find? (·.isPrimary) =
      some ⟨span, remark, true⟩ := by
  cases e with
  | unsupported =>
    unfold operatorFailure
    dsimp only
    split <;> exact ⟨_, rfl⟩
  | _ => exact ⟨_, rfl⟩

namespace Leads

variable {α : Type} {s : Setting} {p : ParseState} {t u : Token} {operator container bracket : Item}

theorem typed (ho : operator.At s.tokens u) (result : Except OperatorError α) (symbol : String)
    (operands : List Ty) (p : ParseState) :
    Leads s p (fun a _ => result = .ok a) (typed s result operator symbol operands) := by
  cases result with
  | ok a => exact .pure rfl
  | error e =>
    obtain ⟨remark, hd⟩ := operatorFailure_labels s.registry e operator.span symbol operands
    exact .refuse hd (ho.points _ _)

theorem buildIndex {i : Expr} (hc : container.At s.tokens t) (hb : bracket.At s.tokens u)
    (hi : bracket.kind = .index i) (hle : t.span.start ≤ u.span.start) (p : ParseState) :
    Leads s p (fun item _ => item.Stands s.tokens t) (buildIndex s container i bracket) := by
  obtain ⟨hstarts, hsquare⟩ := hb.index hi
  unfold Parser.buildIndex
  split
  · exact .refuse rfl (hb.points _ _)
  · rename_i e he
    have hkind : container.kind = .value e := by
      unfold Item.value? at he
      split at he
      · rename_i hk
        rw [hk, Option.some.inj he]
      · cases he
    refine (requireValue hc.mem (hc.value hkind) hc.line p).bind fun _ p₁ _ _ => ?_
    refine (noteTypes s _ p₁).bind fun _ p₂ _ _ => ?_
    split
    · exact .refuse rfl (hb.points _ _)
    · have hpoints := hstarts.points hb.mem hb.line hsquare .index
      refine (convert (.inr hpoints) p₂).bind fun a p₃ _ _ => ?_
      refine (push s _ _ _ p₃).bind fun e p₄ _ he => .pure ?_
      exact hc.merged he (Nat.le_trans hle (Nat.le_of_eq hb.start.symm))

theorem buildStep (ho : operator.At s.tokens u) (op : StepOp) (before : Bool) (target : Expr)
    (span : Span) (p : ParseState) :
    Leads s p (fun e _ => e.span = span) (buildStep s op before target operator span) := by
  unfold Parser.buildStep
  split
  · exact push s _ _ _ p
  · exact (typed ho _ _ _ p).mono fun _ _ _ h => by cases h

theorem buildUnary (ho : operator.At s.tokens u) (op : UnaryOp) {operand : Expr}
    (hv : operand.type ≠ .void) (span : Span) (p : ParseState) :
    Leads s p (fun e _ => e.span = span) (buildUnary s op operand operator span) := by
  refine (noteTypes s _ p).bind fun _ p₁ _ _ => ?_
  refine (typed ho _ _ _ p₁).bind fun typing p₂ _ ht => ?_
  have hconverts : s.registry.isAssignable operand.type typing.operand = true := by
    rcases Registry.typeUnary_ok ht with ⟨plan, -, rfl⟩ | ⟨id, -, ha, -⟩
    · exact Registry.isAssignable_self hv
    · exact ha
  refine (convert (.inl hconverts) p₂).bind fun a p₃ _ _ => ?_
  exact pushFold s _ _ _ p₃

theorem buildCast (ho : operator.At s.tokens u) (operand : Expr) (target : Ty) (span : Span)
    (p : ParseState) :
    Leads s p (fun e _ => e.span = span) (buildCast s operand target operator span) := by
  unfold Parser.buildCast
  split
  · exact pushFold s _ _ _ p
  · exact .refuse rfl (ho.points _ _)

theorem buildBinary (ho : operator.At s.tokens u) (op : BinaryOp) (left right : Expr) (span : Span)
    (p : ParseState) :
    Leads s p (fun e _ => e.span = span) (buildBinary s op left right operator span) := by
  refine (noteTypes s _ p).bind fun _ p₁ _ _ => ?_
  refine (typed ho _ _ _ p₁).bind fun typing p₂ _ ht => ?_
  obtain ⟨hl, hr⟩ := Registry.typeBinary_assignable ht
  refine (convert (.inl hl) p₂).bind fun l p₃ _ _ => ?_
  refine (convert (.inl hr) p₃).bind fun r p₄ _ _ => ?_
  exact pushFold s _ _ _ p₄

/-- The condition, and the second branch, are reported on the line of the `?`. -/
theorem buildTernary (ho : operator.At s.tokens u) (hq : operator.kind = .operator .question)
    {condition yes no : Expr} (hc : s.tokens.StartsAt condition.span.start)
    (hy : yes.type ≠ .void) (hn : no.type ≠ .void) (hno : s.tokens.StartsAt no.span.start)
    (span : Span) (p : ParseState) :
    Leads s p (fun e _ => e.span = span) (buildTernary s condition yes no operator span) := by
  have hkind := ho.operator hq
  have hcondition := hc.points ho.mem ho.line hkind .condition
  refine (convert (.inr hcondition) p).bind fun c p₁ _ _ => ?_
  have finish (t : Ty) (hyes : s.registry.isAssignable yes.type t = true)
      (hno : s.registry.isAssignable no.type t = true) (p : ParseState) :
      Leads s p (fun e _ => e.span = span) (do
        let yes ← Parser.convert s yes t "branch" operator.line
        let no ← Parser.convert s no t "branch" operator.line
        Parser.push (.ternary c yes no) span t) := by
    refine (convert (.inl hyes) p).bind fun y p₂ _ _ => ?_
    refine (convert (.inl hno) p₂).bind fun n p₃ _ _ => ?_
    exact push s _ _ _ p₃
  dsimp only
  refine .ite (fun ha => ?_) fun _ => .ite (fun ha => ?_) fun _ => ?_
  · exact finish yes.type (Registry.isAssignable_self hy) ha p₁
  · exact finish no.type ha (Registry.isAssignable_self hn) p₁
  · have hpoints := hno.points ho.mem ho.line hkind .branches
    exact (Leads.refuse (Q := fun _ _ => False) rfl hpoints).bind fun _ _ _ h => h.elim

/-- The value is reported on the line of the `=`. -/
theorem buildAssign (ho : operator.At s.tokens u) (hk : operator.kind = .operator (.assign .plain))
    (target : Expr) {value : Expr} (hv : s.tokens.StartsAt value.span.start) (span : Span)
    (p : ParseState) :
    Leads s p (fun e _ => e.span = span) (buildAssign s target value operator span) := by
  have hkind := ho.operator hk
  have hpoints := hv.points ho.mem ho.line hkind .assigned
  refine (convert (.inr hpoints) p).bind fun v p₁ _ _ => ?_
  exact push s _ _ _ p₁

theorem buildCompound (ho : operator.At s.tokens u) (op : BinaryOp) (target value : Expr)
    (span : Span) (p : ParseState) :
    Leads s p (fun e _ => e.span = span) (buildCompound s op target value operator span) := by
  refine (noteTypes s _ p).bind fun _ p₁ _ _ => ?_
  refine (typed ho _ _ _ p₁).bind fun typing p₂ _ ht => ?_
  have hop : op.kind ≠ .shortCircuit := fun hop => by
    rw [Registry.typeCompound, if_pos hop] at ht
    cases ht
  have hbinary := ((Registry.typeCompound_ok hop).1 ht).1
  refine (convert (.inl (Registry.typeBinary_assignable hbinary).2) p₂).bind fun v p₃ _ _ => ?_
  exact push s _ _ _ p₃

theorem buildUpdate (ho : operator.At s.tokens u) {op : AssignOp}
    (hk : operator.kind = .operator (.assign op)) (target : Expr) {value : Expr}
    (hv : s.tokens.StartsAt value.span.start) (span : Span) (p : ParseState) :
    Leads s p (fun e _ => e.span = span) (buildUpdate s op target value operator span) := by
  cases op with
  | plain => exact buildAssign ho hk target hv span p
  | compound op => exact buildCompound ho op target value span p

end Leads

end Parser

end TypedExpr
