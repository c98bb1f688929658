import TypedExpr.Proofs.Lines.Tokens
import TypedExpr.Proofs.Parse.Built
/-!
# The line of an error

An error points at a place in the text and names a line. Both are those of a token. It is one and
the same token unless the error is about an expression and was found where another token is at
hand, whose line it then names.

* `Strays`: the errors that name the line of another token.
* `TokenList.Locates`: the error points at a token, and names its line or that of another token.
* `Parser.Leads`: what is known of a step that succeeds, and that one that fails locates its error.
  There is one rule for each construct of the monad, and one for each step over a token.
-/

namespace TypedExpr

/-! ### Errors and tokens -/

/-- The errors that do not name the line of what they point at, by their code, their remark at the
place, and the kind of the token whose line they name. -/
inductive Strays : ErrorCode → String → TokenKind → Prop
  | arrayElement : Strays .typeMismatch "array element" .new
  | collectionElement : Strays .typeMismatch "collection element" .new
  | arrayLength : Strays .typeMismatch "array length" (.opening .paren)
  | index : Strays .typeMismatch "index" (.opening .square)
  | condition : Strays .typeMismatch "condition" (.operator .question)
  | branches : Strays .typeMismatch "branches of a conditional must have compatible types"
    (.operator .question)
  | assigned : Strays .typeMismatch "assigned value" (.operator (.assign .plain))
  | noValue : Strays .noValue "this has type `void`" (.opening .paren)
  | notModifiable (op : StepOp) :
    Strays .notModifiable "cannot be assigned to" (.operator (.step op))

theorem Strays.code {code : ErrorCode} {remark : String} {kind : TokenKind}
    (h : Strays code remark kind) :
    code = .typeMismatch ∨ code = .noValue ∨ code = .notModifiable := by
  cases h <;> simp

namespace TokenList

variable {ts : TokenList} {start line : Nat} {code : ErrorCode} {remark : String}

/-- A token starts there. -/
def StartsAt (ts : TokenList) (start : Nat) : Prop := ∃ t ∈ ts.toArray, t.span.start = start

/-- A token starts there and is on that line, or else an error with that code and that remark names
the line of another token. -/
def Points (ts : TokenList) (start line : Nat) (code : ErrorCode) (remark : String) : Prop :=
  ∃ t ∈ ts.toArray, t.span.start = start ∧
    ∃ u ∈ ts.toArray, u.line = line ∧ (u = t ∨ Strays code remark u.kind)

/-- The error has a primary label, which begins where a token does, and names the line of that
token, unless it is one of those that name the line of another one. -/
def Locates (ts : TokenList) (e : ParseError) : Prop :=
  ∃ label, e.diagnostic.labels.find? (·.isPrimary) = some label ∧
    ts.Points label.span.start e.line e.code label.message

theorem get_mem (ts : TokenList) (i : Nat) : ts.get i ∈ ts.toArray := by
  unfold get toArray
  cases h : ts.init[i]? with
  | none => exact Array.mem_push_self
  | some t => exact Array.mem_push_of_mem _ (Array.mem_of_getElem? h)

theorem Points.of_mem {t : Token} (h : t ∈ ts.toArray) (hs : start = t.span.start)
    (hl : line = t.line) : ts.Points start line code remark :=
  ⟨t, h, hs.symm, t, h, hl.symm, .inl rfl⟩

theorem StartsAt.points {u : Token} {kind : TokenKind} (h : ts.StartsAt start)
    (hu : u ∈ ts.toArray) (hl : line = u.line) (hk : u.kind = kind)
    (hs : Strays code remark kind) : ts.Points start line code remark := by
  obtain ⟨t, ht, hstart⟩ := h
  exact ⟨t, ht, hstart, u, hu, hl.symm, .inr (hk ▸ hs)⟩

end TokenList

/-- The expression begins at the token, or inside of the brackets that the token opens. -/
structure Expr.BeginsAt (ts : TokenList) (t : Token) (e : Expr) : Prop where
  starts : ts.StartsAt e.span.start
  le : t.span.start ≤ e.span.start
  eq : e.span.start = t.span.start ∨ t.kind = .opening .paren

theorem Expr.BeginsAt.of_eq {ts : TokenList} {t : Token} {e : Expr} (ht : t ∈ ts.toArray)
    (h : e.span.start = t.span.start) : e.BeginsAt ts t :=
  ⟨⟨t, ht, h.symm⟩, Nat.le_of_eq h.symm, .inl h⟩

/-- An error about the expression that names the line of the token. -/
theorem Expr.BeginsAt.points {ts : TokenList} {t : Token} {e : Expr} (h : e.BeginsAt ts t)
    (ht : t ∈ ts.toArray) {line : Nat} (hl : line = t.line) {code : ErrorCode} {remark : String}
    (hs : Strays code remark (.opening .paren)) : ts.Points e.span.start line code remark := by
  rcases h.eq with heq | hk
  · exact .of_mem ht heq hl
  · exact h.starts.points ht hl hk hs

/-- The token at hand. -/
def Setting.tokenAt (s : Setting) (p : ParseState) : Token := s.tokens.get p.position

theorem Setting.tokenAt_mem (s : Setting) (p : ParseState) : s.tokenAt p ∈ s.tokens.toArray :=
  s.tokens.get_mem _

/-- The token at hand does not start before the one that was. -/
def Setting.Onward (s : Setting) (p q : ParseState) : Prop :=
  (s.tokenAt p).span.start ≤ (s.tokenAt q).span.start

theorem Setting.Onward.refl (s : Setting) (p : ParseState) : s.Onward p p := Nat.le_refl _

theorem Setting.Onward.trans {s : Setting} {p q r : ParseState} (h : s.Onward p q)
    (h' : s.Onward q r) : s.Onward p r := Nat.le_trans h h'

theorem Setting.Onward.of_position {s : Setting} {p q : ParseState}
    (h : q.position = p.position) : s.Onward p q := by
  have htoken : s.tokenAt q = s.tokenAt p := congrArg s.tokens.get h
  exact Nat.le_of_eq (congrArg (·.span.start) htoken.symm)

/-! ### Steps -/

namespace Parser

variable {α β : Type} {s : Setting} {p : ParseState}

/-- If the step succeeds from the state, it has gone forward, and `Q` holds of its result and the
state after it. If it fails, its error is located among the tokens. -/
structure Leads (s : Setting) (p : ParseState) (Q : α → ParseState → Prop) (x : Parser α) :
    Prop where
  ok {a : α} {q : ParseState} (h : x.run p = (.ok a, q)) : s.Onward p q ∧ Q a q
  error {e : ParseError} {q : ParseState} (h : x.run p = (.error e, q)) : s.tokens.Locates e

namespace Leads

variable {Q : α → ParseState → Prop} {R : β → ParseState → Prop} {x y : Parser α}

/-- A step that succeeds. -/
theorem succeeds {a : α} {q : ParseState} (hx : x.run p = (.ok a, q)) (hpq : s.Onward p q)
    (h : Q a q) : Leads s p Q x where
  ok hr := by
    cases hx.symm.trans hr
    exact ⟨hpq, h⟩
  error hr := by cases hx.symm.trans hr

theorem pure {a : α} (h : Q a p) : Leads s p Q (pure a) := .succeeds rfl (.refl s p) h

theorem bind {f : α → Parser β} (hx : Leads s p Q x)
    (hf : ∀ a q, s.Onward p q → Q a q → Leads s q R (f a)) : Leads s p R (x >>= f) where
  ok h := by
    obtain ⟨a, q, ha, hb⟩ := run_bind_ok.1 h
    obtain ⟨hpq, hQ⟩ := hx.ok ha
    obtain ⟨hqr, hR⟩ := (hf a q hpq hQ).ok hb
    exact ⟨hpq.trans hqr, hR⟩
  error h := by
    rw [run_bind] at h
    rcases hr : x.run p with ⟨_ | a, q⟩
    · rw [hr] at h
      cases h
      exact hx.error hr
    · rw [hr] at h
      obtain ⟨hpq, hQ⟩ := hx.ok hr
      exact (hf a q hpq hQ).error h

theorem mono {Q' : α → ParseState → Prop} (hx : Leads s p Q x)
    (h : ∀ a q, s.Onward p q → Q a q → Q' a q) : Leads s p Q' x where
  ok hr := by
    obtain ⟨hpq, hQ⟩ := hx.ok hr
    exact ⟨hpq, h _ _ hpq hQ⟩
  error := hx.error

/-- What is known anyway when the step succeeds. -/
theorem and {P : α → ParseState → Prop} (hx : Leads s p Q x)
    (h : ∀ a q, x.run p = (.ok a, q) → P a q) : Leads s p (fun a q => Q a q ∧ P a q) x where
  ok hr := (hx.ok hr).imp id fun hQ => ⟨hQ, h _ _ hr⟩
  error := hx.error

/-- A step that succeeds without passing a token. -/
theorem still {a : α} {q : ParseState} (hx : x.run p = (.ok a, q)) (hq : q.position = p.position)
    (h : Q a q) : Leads s p Q x := .succeeds hx (.of_position hq) h

theorem ite {c : Prop} [Decidable c] (h : c → Leads s p Q x) (h' : ¬c → Leads s p Q y) :
    Leads s p Q (if c then x else y) := by
  by_cases hc : c
  · rw [if_pos hc]
    exact h hc
  · rw [if_neg hc]
    exact h' hc

theorem refuse {d : Diagnostic} {line : Nat} {span : Span} {remark : String}
    (hd : d.labels.find? (·.isPrimary) = some ⟨span, remark, true⟩)
    (h : s.tokens.Points span.start line d.code remark) : Leads s p Q (refuse d line) where
  ok hr := by cases hr
  error hr := by
    cases hr
    exact ⟨_, hd, h⟩

theorem throw {e : ParseError} (h : s.tokens.Locates e) : Leads s p Q (throw e) where
  ok hr := by cases hr
  error hr := by
    cases hr
    exact h

/-- An error about a token. -/
theorem refuse_at {d : Diagnostic} {t : Token} {remark : String} (ht : t ∈ s.tokens.toArray)
    (hd : d.labels.find? (·.isPrimary) = some ⟨t.span, remark, true⟩) :
    Leads s p Q (Parser.refuse d t.line) := refuse hd (.of_mem ht rfl rfl)

/-- A step for each member of a list, of which none makes a difference to the others. -/
theorem mapM {f : α → Parser β} {as : List α}
    (h : ∀ a ∈ as, ∀ p, Leads s p (fun _ _ => True) (f a)) :
    Leads s p (fun _ _ => True) (as.mapM f) := by
  induction as generalizing p with
  | nil => exact .pure trivial
  | cons a as ih =>
    rw [List.mapM_cons]
    refine (h a (.head _) p).bind fun b q _ _ => ?_
    refine (ih fun a' ha' => h a' (.tail _ ha')).bind fun bs r _ _ => .pure trivial

/-! ### Tokens -/

theorem current (s : Setting) (p : ParseState) :
    Leads s p (fun token q => token = s.tokenAt p ∧ q = p) (current s) :=
  .still rfl rfl ⟨rfl, rfl⟩

theorem kindAfter (s : Setting) (n : Nat) (p : ParseState) :
    Leads s p (fun kind q => kind = (s.tokens.get (p.position + n)).kind ∧ q = p)
      (kindAfter s n) := .still rfl rfl ⟨rfl, rfl⟩

theorem isAt (s : Setting) (kind : TokenKind) (p : ParseState) :
    Leads s p (fun b q => (b = true ↔ (s.tokenAt p).kind = kind) ∧ q = p) (isAt s kind) :=
  .still rfl rfl ⟨decide_eq_true_iff, rfl⟩

theorem unexpected {expected : String} : Leads s p Q (unexpected s expected) := by
  refine (current s p).bind ?_
  rintro token q _ ⟨rfl, rfl⟩
  exact .refuse_at (s.tokenAt_mem _) rfl

variable (ho : s.tokens.Ordered)

include ho

theorem advance (p : ParseState) : Leads s p (fun token _ => token = s.tokenAt p) (advance s) := by
  refine (current s p).bind ?_
  rintro token q _ ⟨rfl, rfl⟩
  dsimp only
  split
  · exact .succeeds rfl (ho q.position) rfl
  · exact .pure rfl

theorem eat (kind : TokenKind) (p : ParseState) : Leads s p (fun _ _ => True) (eat s kind) := by
  refine (isAt s kind p).bind ?_
  rintro b q _ ⟨-, rfl⟩
  refine .ite (fun _ => ?_) fun _ => .pure trivial
  exact (advance ho q).bind fun _ _ _ _ => .pure trivial

theorem expectOpening (bracket : Bracket) (p : ParseState) :
    Leads s p (fun opened _ => opened = s.tokenAt p) (expectOpening s bracket) := by
  refine (isAt s _ p).bind ?_
  rintro b q _ ⟨-, rfl⟩
  exact .ite (fun _ => advance ho q) fun _ => .unexpected

theorem expectClosing (opened : Token) (bracket : Bracket) (p : ParseState) :
    Leads s p (fun closed _ => closed = s.tokenAt p) (expectClosing s opened bracket) := by
  refine (isAt s _ p).bind ?_
  rintro b q _ ⟨-, rfl⟩
  refine .ite (fun _ => advance ho q) fun _ => (current s q).bind ?_
  rintro token q _ ⟨rfl, rfl⟩
  exact .refuse_at (s.tokenAt_mem _) rfl

omit ho

/-! ### Types and members -/

theorem noteTypes (s : Setting) (ts : List Ty) (p : ParseState) :
    Leads s p (fun _ _ => True) (noteTypes ts) := .still rfl rfl trivial

theorem noteName (s : Setting) (name : String) (p : ParseState) :
    Leads s p (fun _ _ => True) (noteName name) := .still rfl rfl trivial

/-- An expression that yields nothing is reported on the line of the token at which it begins, or of
the bracket in front of it. -/
theorem requireValue {e : Expr} {t : Token} {line : Nat} (ht : t ∈ s.tokens.toArray)
    (he : e.BeginsAt s.tokens t) (hl : line = t.line) (p : ParseState) :
    Leads s p (fun _ _ => e.type ≠ .void) (requireValue e line) := by
  exact .ite (fun _ => .refuse rfl (he.points ht hl .noValue)) fun hv => .pure hv

theorem resolveType {token : Token} (ht : token ∈ s.tokens.toArray) (ref : TypeRef)
    (p : ParseState) : Leads s p (fun _ _ => True) (resolveType s ref token) := by
  refine (noteTypes s _ p).bind fun _ q _ _ => ?_
  split
  · exact .pure trivial
  · exact .refuse_at ht rfl

theorem resolveTypes {token : Token} (ht : token ∈ s.tokens.toArray) (refs : List TypeRef)
    (p : ParseState) : Leads s p (fun _ _ => True) (resolveTypes s refs token) :=
  mapM fun ref _ p => resolveType ht ref p

theorem resolveFailure_labels (reg : Registry) (e : ResolveError) (span : Span) (owner : Option Ty)
    (member : String) : ∃ remark,
    (resolveFailure reg e span owner member).labels.find? (·.isPrimary) =
      some ⟨span, remark, true⟩ := by
  cases e with
  | notFound => cases owner <;> exact ⟨_, rfl⟩
  | _ => exact ⟨_, rfl⟩

theorem found {token : Token} (ht : token ∈ s.tokens.toArray) (result : Except ResolveError α)
    (owner : Option Ty) (member : String) (p : ParseState) :
    Leads s p (fun a _ => result = .ok a) (found s result token owner member) := by
  cases result with
  | ok a => exact .pure rfl
  | error e =>
    obtain ⟨remark, hd⟩ := resolveFailure_labels s.registry e token.span owner member
    exact .refuse_at ht hd

/-! ### Nodes -/

theorem push (s : Setting) (form : Form Expr) (span : Span) (t : Ty) (p : ParseState) :
    Leads s p (fun e _ => e.span = span) (push form span t) := .still rfl rfl rfl

theorem fold (s : Setting) (e : Expr) (p : ParseState) :
    Leads s p (fun a _ => a.span = e.span) (fold s e) := by
  obtain ⟨a, q, h⟩ := exists_fold s e p
  rcases fold_cases h with ⟨rfl, rfl⟩ | ⟨-, form, c, -, rfl, rfl, -⟩
  · exact .still h rfl rfl
  · exact .still h rfl rfl

theorem pushFold (s : Setting) (form : Form Expr) (span : Span) (t : Ty) (p : ParseState) :
    Leads s p (fun a _ => a.span = span) (do Parser.fold s (← Parser.push form span t)) := by
  refine (push s form span t p).bind ?_
  rintro e q _ rfl
  exact fold s e q

/-- An expression that does not convert is reported where it begins. -/
theorem convert {e : Expr} {target : Ty} {context : String} {line : Nat}
    (h : s.registry.isAssignable e.type target = true ∨
      s.tokens.Points e.span.start line .typeMismatch context) (p : ParseState) :
    Leads s p (fun a _ => a.span = e.span) (convert s e target context line) := by
  refine .ite (fun _ => .pure rfl) fun _ => ?_
  split
  · rename_i hc
    refine .refuse rfl (h.resolve_left fun ha => ?_)
    rw [Registry.isAssignable, hc] at ha
    cases ha
  · exact .ite (fun _ => pushFold s _ _ _ p) fun _ => .pure rfl

/-- Arguments that are known to convert. -/
theorem convertAll (s : Setting) (context : String) (line : Nat) {es : List Expr}
    {targets : List Ty}
    (h : List.Forall₂ (fun e t => s.registry.isAssignable e.type t = true) es targets)
    (p : ParseState) : Leads s p (fun _ _ => True) (convertAll s context line es targets) := by
  induction h generalizing p with
  | nil => exact .pure trivial
  | cons ha _ ih =>
    refine (convert (.inl ha) p).bind fun a q _ _ => ?_
    exact (ih q).bind fun as r _ _ => .pure trivial

end Leads

end Parser

end TypedExpr
