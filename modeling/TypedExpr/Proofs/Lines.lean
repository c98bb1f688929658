import TypedExpr.Proofs.Extent
import TypedExpr.Proofs.Lines.Collection
import TypedExpr.Proofs.Lines.Passes
/-!
# The lines of errors

If the tokens of a text are no expression, the error points at a token and names a line. The line
is that of the token, with few exceptions: some errors about an expression name the line where they
were found, that of a `new`, of an operator or of a bracket. In an expression that is spread over
several lines these differ.

* `Parser.aims_expression`: an expression begins where its first token does, and errors are located.
* `Setting.parse_locates`: **every error is located among the tokens of the text.**
* `TokenList.Locates.exists_token`: errors of most codes name the line of what they point at.
-/

namespace TypedExpr

namespace Parser

variable {s : Setting}

theorem aims_expression (ho : s.tokens.Ordered) (levels : Nat) : Aims s (expression s levels) := by
  induction levels with
  | zero =>
    refine ⟨local_expression s s.tokens 0, fun p => ?_⟩
    refine (Leads.current s p).bind ?_
    rintro token p _ ⟨rfl, rfl⟩
    exact .refuse_at (s.tokenAt_mem p) rfl
  | succ levels ih =>
    refine ⟨local_expression s s.tokens (levels + 1), fun p => ?_⟩
    show Leads s p _ (do applyOperators s (← collect s (expression s levels)))
    exact (ih.collect ho p).bind fun items q _ hitems => .applyOperators hitems q

theorem leads_whole (ho : s.tokens.Ordered) (p : ParseState) :
    Leads s p (fun root _ => ∀ e ∈ root, e.BeginsAt s.tokens (s.tokenAt p)) (whole s) := by
  refine ((aims_expression ho _).leads p).bind fun root q _ hroot => ?_
  have hend : Leads s q (fun _ _ => True) (expectEnd s) := by
    refine (Leads.current s q).bind ?_
    rintro token q _ ⟨rfl, rfl⟩
    exact .ite (fun _ => .pure trivial) fun _ => .unexpected
  exact hend.bind fun _ _ _ _ => .pure hroot

end Parser

/-- **Every error is located among the tokens of the text.** It has a primary label, which begins
where a token does, and names the line of that token or, if it is one of those that stray, that of
another token, whose kind is known. -/
theorem Setting.parse_locates {reg : Registry} {text : String} {c c' c₀ : Catalog} {s : Setting}
    {e : ParseError} (ht : TokenList.ofText reg text c = .ok (s.tokens, c'))
    (he : (s.parse c₀).1 = .error e) : s.tokens.Locates e := by
  have hordered := TokenList.ordered_of_ofText ht
  unfold Setting.parse at he
  rcases hrun : (Parser.whole s).run (.start c₀) with ⟨e' | root, q⟩
  · rw [hrun] at he
    cases he
    exact (Parser.leads_whole hordered _).error hrun
  · rw [hrun] at he
    cases he

/-- An array of one item that is no number, the item on a line of its own. -/
def Setting.spread : Setting where
  registry := .primitive
  scope := .empty
  options := .standard
  tokens := .ofTokens #[⟨.new, ⟨0, 3⟩, 1⟩, ⟨.type (.array (.named "int" [])), ⟨4, 9⟩, 1⟩,
    ⟨.opening .brace, ⟨10, 11⟩, 1⟩, ⟨.bool true, ⟨14, 18⟩, 2⟩, ⟨.closing .brace, ⟨19, 20⟩, 2⟩]

theorem Token.cut_spread : cut "new int[] \x7b\n  true \x7d" = .ok [⟨.new, ⟨0, 3⟩, 1⟩,
    ⟨.ident "int" [], ⟨4, 7⟩, 1⟩, ⟨.opening .square, ⟨7, 8⟩, 1⟩, ⟨.closing .square, ⟨8, 9⟩, 1⟩,
    ⟨.opening .brace, ⟨10, 11⟩, 1⟩, ⟨.bool true, ⟨14, 18⟩, 2⟩,
    ⟨.closing .brace, ⟨19, 20⟩, 2⟩] := by
  rfl

theorem TokenList.ofText_spread : ∃ c, ofText .primitive "new int[] \x7b\n  true \x7d" .initial =
    .ok (Setting.spread.tokens, c) := by
  unfold ofText
  rw [Token.cut_spread]
  exact ⟨_, rfl⟩

/-- The error is on the first line, the item that it points at on the second. -/
theorem Setting.parse_locates_spread : ∃ e, (Setting.spread.parse .initial).1 = .error e ∧
    Setting.spread.tokens.Locates e ∧ e.span = ⟨14, 18⟩ ∧ e.line = 1 ∧
    ∀ t ∈ Setting.spread.tokens.toArray, t.span.start = 14 → t.line = 2 := by
  obtain ⟨c, ht⟩ := TokenList.ofText_spread
  obtain ⟨e, he, hspan, hline⟩ : ∃ e, (Setting.spread.parse .initial).1 = .error e ∧
    e.span = ⟨14, 18⟩ ∧ e.line = 1 := ⟨_, rfl, rfl, rfl⟩
  exact ⟨e, he, Setting.parse_locates ht he, hspan, hline, by decide⟩

/-- Only errors of three codes stray. -/
theorem TokenList.Locates.exists_token {ts : TokenList} {e : ParseError} (h : ts.Locates e)
    (hcode : e.code ≠ .typeMismatch ∧ e.code ≠ .noValue ∧ e.code ≠ .notModifiable) :
    ∃ t ∈ ts.toArray, t.span.start = e.span.start ∧ t.line = e.line := by
  obtain ⟨label, hlabel, t, ht, hstart, u, -, hline, rfl | hstrays⟩ := h
  · refine ⟨u, ht, ?_, hline⟩
    rw [hstart, ParseError.span, Diagnostic.primarySpan?, hlabel]
    rfl
  · obtain ⟨hmismatch, hvalue, hmodifiable⟩ := hcode
    rcases hstrays.code with hc | hc | hc
    · exact absurd hc hmismatch
    · exact absurd hc hvalue
    · exact absurd hc hmodifiable

end TypedExpr
