import TypedExpr.Engine
import TypedExpr.Proofs.Numbers
import TypedExpr.Proofs.Parse.Built
import TypedExpr.Proofs.Parse.Front
import TypedExpr.Proofs.Scanning.Literal
import TypedExpr.Proofs.Scanning.Recognition
/-!
# Literals

What an engine makes of a text that is a literal, or the digits of an integer with their sign. The
sign is no part of the literal: `-5` is the negation of `5`, which may be folded.

* `Setting.parse_literal`, `Setting.parse_minus`: what is built.
* `Engine.Yields`: a text is scanned, compiled and evaluated.
* `Engine.literal_denotes`: **a string literal denotes its text.**
* `Engine.int_readBack`: **a printed integer is read back, unless it is the least one.**
-/

namespace TypedExpr

/-! ### Parsing -/

/-- What a literal is parsed to. -/
def TokenKind.literal? : TokenKind → Option (Form Expr × Ty)
  | .int n => some (.int n, .int)
  | .double x => some (.double x, .double)
  | .str text => some (.str text, .string)
  | .bool b => some (.bool b, .bool)
  | _ => none

namespace Setting

variable {s : Setting} {t : Token}

/-- A literal that stands alone. -/
theorem parse_literal {form : Form Expr} {type : Ty} (h : t.kind.literal? = some (form, type))
    (hs : s.tokens = .ofTokens #[t]) (hdepth : 0 < s.options.maxDepth) (c : Catalog) :
    (s.parse c).1 = .ok ⟨some (.node 0 t.span type form), #[.node 0 t.span type form]⟩ := by
  obtain ⟨reg, scope, ⟨fold, _ | depth⟩, tokens⟩ := s
  · cases hdepth
  · obtain ⟨kind, span, line⟩ := t
    subst hs
    cases kind <;> cases h <;> rfl

end Setting

namespace Parser

variable {s : Setting} {p q : ParseState}

/-- The negation of an integer literal is built, also where it is folded. -/
theorem exists_negated (s : Setting) (n : Int64) (number : Nat) (place : Span) (operator : Item)
    (span : Span) (p : ParseState) :
    let e : Expr := .node number place .int (.int n)
    ∃ a q, (buildUnary s .neg e operator span).run p = (.ok a, q) ∧ q.position = p.position ∧
      a.denote s.registry =
        .ofForm s.registry span .int (.unary .neg .int (e.denote s.registry)) := by
  intro e
  obtain ⟨a, q, h⟩ := exists_pushFold s (.unary .neg .int e) span .int p
  refine ⟨a, q, h, ?_, pushFold_ok h⟩
  obtain ⟨e', p', he, ha⟩ := run_bind_ok.1 h
  cases he
  rcases fold_cases ha with ⟨-, rfl⟩ | ⟨-, _, _, -, -, rfl, -⟩ <;> rfl

/-- A minus sign and an integer literal are applied in the pass for prefixes. -/
theorem exists_applyOperators (s : Setting) (minus operand : Item) {n : Int64} {number : Nat}
    {place : Span} (hm : minus.kind = .operator (.binary .sub))
    (ho : operand.kind = .value (.node number place .int (.int n))) (p : ParseState) :
    ∃ a q, (applyOperators s [minus, operand]).run p = (.ok (some a), q) ∧
      q.position = p.position ∧
      a.denote s.registry = .ofForm s.registry (minus.span.merge operand.span) .int
        (.unary .neg .int ((Expr.node number place .int (.int n)).denote s.registry)) := by
  obtain ⟨_, span, line⟩ := minus
  obtain ⟨_, span', line'⟩ := operand
  cases hm
  cases ho
  obtain ⟨a, q, h, hq, ha⟩ := exists_negated s n number place
    ⟨.operator (.binary .sub), span, line⟩ (span.merge span') p
  refine ⟨a, q, ?_, hq, ha⟩
  have hunary : (applyUnary s .neg ⟨.operator (.binary .sub), span, line⟩
      [⟨.value (.node number place .int (.int n)), span', line'⟩]).run p =
        (.ok [⟨.value a, span.merge span', line⟩], q) :=
    run_bind_ok.2 ⟨_, p, rfl, run_bind_ok.2 ⟨a, q, h, rfl⟩⟩
  have hpasses : (applyPasses s [⟨.operator (.binary .sub), span, line⟩,
      ⟨.value (.node number place .int (.int n)), span', line'⟩]).run p =
        (.ok [⟨.value a, span.merge span', line⟩], q) :=
    run_bind_ok.2 ⟨_, p, rfl, run_bind_ok.2 ⟨_, p, rfl, run_bind_ok.2 ⟨_, p, rfl,
      run_bind_ok.2 ⟨_, q, hunary, rfl⟩⟩⟩⟩
  exact run_bind_ok.2 ⟨_, q, hpasses, rfl⟩

end Parser

namespace Setting

variable {s : Setting} {t u : Token} {n : Int64}

/-- A minus sign in front of an integer literal. -/
theorem parse_minus (ht : t.kind = .operator (.binary .sub)) (hu : u.kind = .int n)
    (hs : s.tokens = .ofTokens #[t, u]) (hdepth : 0 < s.options.maxDepth) (c : Catalog) :
    ∃ a nodes, (s.parse c).1 = .ok ⟨some a, nodes⟩ ∧
      a.denote s.registry = .ofForm s.registry (t.span.merge u.span) .int
        (.unary .neg .int ((Expr.node 0 u.span .int (.int n)).denote s.registry)) := by
  obtain ⟨reg, scope, ⟨fold, _ | depth⟩, tokens⟩ := s
  · cases hdepth
  · obtain ⟨_, span, line⟩ := t
    obtain ⟨_, span', line'⟩ := u
    cases ht
    cases hu
    subst hs
    let s : Setting := ⟨reg, scope, ⟨fold, depth + 1⟩,
      .ofTokens #[⟨.operator (.binary .sub), span, line⟩, ⟨.int n, span', line'⟩]⟩
    let literal : Expr := .node 0 span' .int (.int n)
    obtain ⟨a, q, h, hq, ha⟩ := Parser.exists_applyOperators s
      ⟨.operator (.binary .sub), span, line⟩ ⟨.value literal, span', line'⟩ rfl rfl
      { ParseState.build (.start c) literal with position := 2 }
    have hwhole : (Parser.whole s).run (.start c) = (.ok (some a), q) := by
      refine run_bind_ok.2 ⟨some a, q, run_bind_ok.2 ⟨_, _, rfl, h⟩, ?_⟩
      obtain ⟨_, catalog, nodes, table⟩ := q
      cases hq
      rfl
    refine ⟨a, q.nodes, ?_, ha⟩
    rw [parse, hwhole]
    rfl

end Setting

/-! ### Reading back -/

namespace Engine

/-- The text is scanned, compiled and evaluated, and the value is `v`. -/
def Yields (engine : Engine) (text : String) (v : Value) : Prop :=
  ∃ ts e₁ parsed e₂ e₃, (scan text).run engine = (.ok ts, e₁) ∧
    (compile ts).run e₁ = (.ok parsed, e₂) ∧ (evaluate parsed).run e₂ = (.ok v, e₃)

/-- The engine with other numbers for names and types. -/
def withCatalog (engine : Engine) (c : Catalog) : Engine :=
  { engine with world := { engine.world with catalog := c } }

variable {engine : Engine} {text : String} {raw ts : List Token} {c : Catalog} {v : Value}

theorem run_scan_of_cut (hcut : Token.cut text = .ok raw)
    (h : recognise engine.registry raw.length raw engine.world.catalog = (ts, c)) :
    (scan text).run engine = (.ok (.ofTokens ts.toArray), engine.withCatalog c) := by
  rw [scan, ExceptT.run_mk, TokenList.ofText, hcut]
  simp only [Except.map, h]
  rfl

theorem run_scan_of_error {e : LexError} (engine : Engine) (hcut : Token.cut text = .error e) :
    (scan text).run engine = (.error e, engine) := by
  rw [scan, ExceptT.run_mk, TokenList.ofText, hcut]
  rfl

theorem run_compile_of_parse (engine : Engine) {tokens : TokenList} {a : Expr} {nodes : Array Expr}
    (h : ((engine.setting tokens).parse engine.world.catalog).1 = .ok ⟨some a, nodes⟩) :
    ∃ c, (compile tokens).run engine = (.ok ⟨some a, nodes⟩, engine.withCatalog c) :=
  ⟨_, by rw [run_compile, h]; rfl⟩

theorem run_evaluate_of_value {a : Expr} (engine : Engine) (nodes : Array Expr)
    (h : (a.denote engine.registry).value = pure v) :
    (evaluate ⟨some a, nodes⟩).run engine = (.ok v, engine) := by
  rw [run_evaluate, h]
  rfl

/-- Tokens that stay as they are cut are compiled and evaluated. -/
theorem yields_of_parse (hcut : Token.cut text = .ok raw)
    (h : recognise engine.registry raw.length raw engine.world.catalog = (raw, c))
    (hparse : ∃ a nodes, ((engine.setting (.ofTokens raw.toArray)).parse c).1 =
      .ok ⟨some a, nodes⟩ ∧ (a.denote engine.registry).value = pure v) :
    engine.Yields text v := by
  obtain ⟨a, nodes, ha, hv⟩ := hparse
  obtain ⟨c', hcompile⟩ := run_compile_of_parse (engine.withCatalog c) ha
  exact ⟨_, _, _, _, _, run_scan_of_cut hcut h, hcompile, run_evaluate_of_value _ nodes hv⟩

/-- The value of a negation. -/
theorem value_negated (reg : Registry) (span : Span) {e : Expr} {n m : Int64}
    (he : e.form.literal? = some (.int n)) (h : Integer.neg n = .ok m) :
    (Denoted.ofForm reg span .int (.unary .neg .int (e.denote reg))).value = pure (.int m) := by
  show Eval.inside span ((Form.unary .neg .int (e.denote reg)).value reg .int) = _
  have hplain : plainUnary .neg .int (.int n) = .ok (.int m) := by
    simp only [plainUnary, Value.toInt, bind, Except.bind, h]
    rfl
  rw [Expr.value_unary reg (by simp) he, hplain]
  rfl

/-- **A string literal denotes its text**, whatever the text is: it is scanned as one token, whose
text is known by a number from then on, and its value is the text. With a limit of no nesting at all
nothing is compiled. -/
theorem literal_denotes (engine : Engine) (hdepth : 0 < engine.options.maxDepth) (s : String) :
    (∃ ts e₁ i, (scan (Text.literal s)).run engine = (.ok ts, e₁) ∧
      ts.toArray.toList.map (·.kind) = [.str s, .eof] ∧
      e₁.world.catalog.names.find? s = some i ∧ e₁.world.catalog.names.get? i = some s) ∧
    engine.Yields (Text.literal s) (.str s) := by
  obtain ⟨stop, hcut⟩ := Token.cut_literal s
  constructor
  · have hname := Numbering.get?_note_self engine.world.catalog.names s
    exact ⟨_, _, _, run_scan_of_cut hcut rfl, rfl, Numbering.find?_eq_some_iff.mpr hname, hname⟩
  · have hparse := Setting.parse_literal (s := engine.setting _) (t := ⟨.str s, ⟨0, stop⟩, 1⟩) rfl rfl
      hdepth (engine.world.catalog.noteName s)
    exact yields_of_parse hcut rfl ⟨_, _, hparse, Expr.value_literal rfl _⟩

/-- An engine with the primitives alone, in which nothing is declared. -/
def bare (options : ParseOptions) : Engine := ⟨.primitive, options, .empty, .empty, default⟩

/-- A text with a quote, a backslash and a line end. -/
theorem literal_denotes_escapes :
    (bare .standard).Yields "\"\\\"\\\\\\n\"" (.str "\"\\\n") :=
  (literal_denotes (bare .standard) (by decide) "\"\\\n").2

theorem yields_of_nat {n : Int64} {m : Nat} (h : n.toInt = m)
    (hdepth : 0 < engine.options.maxDepth) : engine.Yields (Value.int n).text (.int n) := by
  have htext : (Value.int n).text = m.repr := by
    show n.toInt.repr = _
    rw [h]
    rfl
  obtain ⟨stop, hcut⟩ := Token.cutFrom_digits m 0
  rw [if_pos (h ▸ Integer.fits_toInt n), ← h, Int64.ofInt_toInt] at hcut
  have hparse := Setting.parse_literal (s := engine.setting _) (t := ⟨.int n, ⟨0, stop⟩, 1⟩) rfl rfl
    hdepth engine.world.catalog
  rw [htext]
  exact yields_of_parse hcut rfl ⟨_, _, hparse, Expr.value_literal rfl _⟩

theorem yields_of_neg {n : Int64} {m : Nat} (h : n.toInt = -(m + 1 : Nat))
    (hfits : Integer.Fits (m + 1 : Nat)) (hdepth : 0 < engine.options.maxDepth) :
    engine.Yields (Value.int n).text (.int n) := by
  have htext : (Value.int n).text = "-" ++ (m + 1).repr := by
    show n.toInt.repr = _
    rw [h]
    rfl
  obtain ⟨stop, hcut⟩ := Token.cut_minus (m + 1)
  rw [if_pos hfits] at hcut
  have hneg : Integer.neg (Int64.ofInt (m + 1 : Nat)) = .ok n := by
    rw [Integer.neg, Integer.fit_eq_ok_iff, Integer.toInt_ofInt hfits, h]
  obtain ⟨a, nodes, hparse, ha⟩ := Setting.parse_minus (s := engine.setting _)
    (t := ⟨.operator (.binary .sub), ⟨0, 1⟩, 1⟩)
    (u := ⟨.int (Int64.ofInt (m + 1 : Nat)), ⟨1, stop⟩, 1⟩) rfl rfl rfl hdepth engine.world.catalog
  rw [htext]
  refine yields_of_parse hcut rfl ⟨a, nodes, hparse, ?_⟩
  exact (congrArg Denoted.value ha).trans (value_negated _ _ rfl hneg)

theorem cut_minValue :
    Token.cut (Value.int Int64.minValue).text = .error ⟨"9223372036854775808", 1⟩ := by
  have htext : (Value.int Int64.minValue).text = "-" ++ (2 ^ 63).repr := by decide
  have hrepr : (2 ^ 63).repr = "9223372036854775808" := by decide
  obtain ⟨stop, hcut⟩ := Token.cut_minus (2 ^ 63)
  rw [htext, hcut, if_neg (by decide), hrepr]

/-- **A printed integer is read back**, with folding or without, unless it is the least one: then
its digits are beyond the greatest integer, and no token. -/
theorem int_readBack (engine : Engine) (hdepth : 0 < engine.options.maxDepth) (n : Int64) :
    ∃ text, engine.registry.toText (.int n) = pure text ∧
      (n ≠ Int64.minValue → engine.Yields text (.int n)) ∧
      (n = Int64.minValue →
        (scan text).run engine = (.error ⟨"9223372036854775808", 1⟩, engine)) := by
  refine ⟨(Value.int n).text, rfl, fun hn => ?_, ?_⟩
  · cases h : n.toInt with
    | ofNat m => exact yields_of_nat h hdepth
    | negSucc m =>
      have hmin : Int64.minValue.toInt = -2 ^ 63 := by decide
      have hmax : Int64.maxValue.toInt = 2 ^ 63 - 1 := by decide
      have hle := n.le_toInt
      have hne : n.toInt ≠ Int64.minValue.toInt := fun e => hn (Int64.toInt_inj.mp e)
      refine yields_of_neg h ⟨?_, ?_⟩ hdepth <;> omega
  · rintro rfl
    exact run_scan_of_error engine cut_minValue

/-- The greatest integer, with folding, and the least one but one, without. -/
theorem int_readBack_ends :
    (∃ text, Registry.primitive.toText (.int Int64.maxValue) = pure text ∧
      (bare ⟨true, 1⟩).Yields text (.int Int64.maxValue)) ∧
    ∃ text, Registry.primitive.toText (.int (-Int64.maxValue)) = pure text ∧
      (bare ⟨false, 1⟩).Yields text (.int (-Int64.maxValue)) := by
  obtain ⟨text, htext, h, -⟩ := int_readBack (bare ⟨true, 1⟩) (by decide) Int64.maxValue
  obtain ⟨text', htext', h', -⟩ := int_readBack (bare ⟨false, 1⟩) (by decide) (-Int64.maxValue)
  exact ⟨⟨text, htext, h (by decide)⟩, text', htext', h' (by decide)⟩

/-- The text of the least integer is not read back. -/
theorem not_yields_minValue :
    Registry.primitive.toText (.int Int64.minValue) = pure (Value.int Int64.minValue).text ∧
      ¬(bare .standard).Yields (Value.int Int64.minValue).text (.int Int64.minValue) := by
  refine ⟨rfl, ?_⟩
  rintro ⟨ts, e₁, -, -, -, hscan, -⟩
  rw [run_scan_of_error (bare .standard) cut_minValue] at hscan
  cases hscan

end Engine

end TypedExpr
