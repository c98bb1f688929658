import Mathlib.Order.Bounds.Defs
import TypedExpr.Proofs.Fragments.Basic
import TypedExpr.Token
/-!
# Phrases

What the parser passes is made up of phrases: brackets are closed inside of them, every `?` is
followed by its `:`, and a dot by a name. A comma stands inside brackets only, and what else ends an
expression stands in no phrase. So the words of phrases are those of one after those of the other,
and no token in a phrase is where an expression could end.

* `Phrase`: the phrases, as lists of kinds of tokens.
* `Scope.words`: the words of tokens, where names mean what the scope says.
* `Balanced`: every bracket is closed; `Phrase.balanced`.
* `Nesting`, `TokenList.EndsAt`: the tokens at which an expression ends; `Phrase.passes`.
-/

namespace TypedExpr

/-! ### Tokens from one place to another -/

namespace TokenList

variable (ts : TokenList)

/-- The kinds of the tokens from one place up to another. -/
def kinds (i j : Nat) : List TokenKind := (List.range' i (j - i)).map fun k => (ts.get k).kind

@[simp] theorem kinds_self (i : Nat) : ts.kinds i i = [] := by simp [kinds]

theorem kinds_append {i j k : Nat} (hij : i ≤ j) (hjk : j ≤ k) :
    ts.kinds i j ++ ts.kinds j k = ts.kinds i k := by
  obtain ⟨m, rfl⟩ := Nat.exists_eq_add_of_le hij
  obtain ⟨n, rfl⟩ := Nat.exists_eq_add_of_le hjk
  unfold kinds
  rw [← List.map_append, Nat.add_sub_cancel_left, Nat.add_sub_cancel_left, Nat.add_assoc,
    Nat.add_sub_cancel_left, List.range'_append_1]

@[simp] theorem kinds_succ (i : Nat) : ts.kinds i (i + 1) = [(ts.get i).kind] := by
  simp [kinds]

theorem kinds_cons {i j : Nat} (h : i < j) :
    ts.kinds i j = (ts.get i).kind :: ts.kinds (i + 1) j := by
  rw [← ts.kinds_append (Nat.le_add_right i 1) h, kinds_succ]
  rfl

end TokenList

/-! ### Phrases -/

/-- The token is read by itself. -/
def TokenKind.isPlain : TokenKind → Bool
  | .int _ | .double _ | .str _ | .bool _ | .ident _ _ | .type _ | .new => true
  | .operator op => op ≠ .question
  | _ => false

theorem TokenKind.isTerminator_of_isPlain {k : TokenKind} (h : k.isPlain = true) :
    k.isTerminator = false := by
  cases k <;> first | rfl | cases h

/-- What the parser passes, inside of brackets or not. -/
inductive Phrase : Bool → List TokenKind → Prop
  | nil {inside : Bool} : Phrase inside []
  | token {inside : Bool} {k : TokenKind} (h : k.isPlain = true) : Phrase inside [k]
  | comma : Phrase true [.comma]
  | member {inside : Bool} (name : String) (typeArgs : List TypeRef) :
    Phrase inside [.dot, .ident name typeArgs]
  | group {inside : Bool} (bracket : Bracket) {ks : List TokenKind} (h : Phrase true ks) :
    Phrase inside (.opening bracket :: (ks ++ [.closing bracket]))
  | choice {inside : Bool} {yes no : List TokenKind} (hy : Phrase inside yes)
    (hn : Phrase inside no) : Phrase inside (.operator .question :: (yes ++ .colon :: no))
  | append {inside : Bool} {ks ls : List TokenKind} (h : Phrase inside ks)
    (h' : Phrase inside ls) : Phrase inside (ks ++ ls)

namespace Phrase

variable {inside : Bool} {ks ls : List TokenKind}

/-- Whatever stands outside of brackets may stand inside. -/
theorem within (h : Phrase inside ks) : Phrase true ks := by
  induction h with
  | nil => exact .nil
  | token h => exact .token h
  | comma => exact .comma
  | member name typeArgs => exact .member name typeArgs
  | group bracket _ ih => exact .group bracket ih
  | choice _ _ ihy ihn => exact .choice ihy ihn
  | append _ _ ih ih' => exact .append ih ih'

end Phrase

/-! ### Words -/

/-- The word of a token: of a name, that of its meaning as an operand. -/
def TokenKind.words (scope : Scope) : TokenKind → List Word
  | .int n => [.literal (.int n)]
  | .double x => [.literal (.double x)]
  | .bool b => [.literal (.bool b)]
  | .str text => [.literal (.str text)]
  | .ident name _ =>
    match scope.get? name with
    | some (.constant c) => [.literal c]
    | some (.var _) => [.var name]
    | _ => []
  | .operator op => [.operator op]
  | _ => []

/-- The words of tokens from left to right. A name after a dot is that of a member. -/
def Scope.words (scope : Scope) : List TokenKind → List Word
  | .dot :: _ :: ks => scope.words ks
  | k :: ks => k.words scope ++ scope.words ks
  | [] => []

theorem Scope.words_cons (scope : Scope) {k : TokenKind} (h : k ≠ .dot) (ks : List TokenKind) :
    scope.words (k :: ks) = k.words scope ++ scope.words ks := by
  cases k with
  | dot => exact absurd rfl h
  | _ => rfl

namespace Phrase

variable {inside : Bool} {ks : List TokenKind}

theorem words_append (h : Phrase inside ks) (scope : Scope) (ls : List TokenKind) :
    scope.words (ks ++ ls) = scope.words ks ++ scope.words ls := by
  induction h generalizing ls with
  | nil => rfl
  | @token _ k h =>
    have hk : k ≠ .dot := by
      rintro rfl
      cases h
    rw [List.singleton_append, scope.words_cons hk, scope.words_cons hk]
    simp [Scope.words]
  | comma => rfl
  | member name typeArgs => rfl
  | group bracket _ ih =>
    have hopening : (TokenKind.opening bracket).words scope = [] := rfl
    have hclosing : (TokenKind.closing bracket).words scope = [] := rfl
    simp [scope.words_cons, hopening, hclosing, ih, Scope.words]
  | choice _ _ ihy ihn =>
    have hcolon : TokenKind.colon.words scope = [] := rfl
    simp [scope.words_cons, hcolon, ihy, ihn]
  | append _ _ ih ih' => rw [List.append_assoc, ih, ih', ih, List.append_assoc]

end Phrase

/-! ### Brackets -/

/-- Every bracket that is opened is closed by one of its pair, and no other is closed. -/
inductive Balanced : List TokenKind → Prop
  | nil : Balanced []
  | other {k : TokenKind} (ho : ∀ b, k ≠ .opening b) (hc : ∀ b, k ≠ .closing b) : Balanced [k]
  | group (bracket : Bracket) {ks : List TokenKind} (h : Balanced ks) :
    Balanced (.opening bracket :: (ks ++ [.closing bracket]))
  | append {ks ls : List TokenKind} (h : Balanced ks) (h' : Balanced ls) : Balanced (ks ++ ls)

theorem Phrase.balanced {inside : Bool} {ks : List TokenKind} (h : Phrase inside ks) :
    Balanced ks := by
  induction h with
  | nil => exact .nil
  | token h =>
    refine .other ?_ ?_
    · rintro b rfl
      cases h
    · rintro b rfl
      cases h
  | comma => exact .other nofun nofun
  | member name typeArgs =>
    have hdot : Balanced [.dot] := .other nofun nofun
    exact hdot.append (.other nofun nofun)
  | group bracket _ ih => exact .group bracket ih
  | choice _ _ ihy ihn =>
    have hquestion : Balanced [.operator .question] := .other nofun nofun
    have hcolon : Balanced [.colon] := .other nofun nofun
    exact hquestion.append (ihy.append (hcolon.append ihn))
  | append _ _ ih ih' => exact .append ih ih'

/-! ### Where an expression ends -/

/-- How many brackets are open, and how many `?` outside of brackets have no `:` yet. -/
structure Nesting where
  depth : Nat
  questions : Nat

namespace Nesting

/-- The nesting after a token. -/
def after (n : Nesting) : TokenKind → Nesting
  | .opening _ => { n with depth := n.depth + 1 }
  | .closing _ => { n with depth := n.depth - 1 }
  | .operator .question => if n.depth = 0 then { n with questions := n.questions + 1 } else n
  | .colon => if n.depth = 0 then { n with questions := n.questions - 1 } else n
  | _ => n

theorem after_of_isPlain {k : TokenKind} (h : k.isPlain = true) (n : Nesting) : n.after k = n := by
  unfold after
  split
  · cases h
  · cases h
  · exact absurd h (by decide)
  · cases h
  · rfl

/-- The token ends an expression: it is a terminator outside of brackets, and no `:` that belongs to
a `?` of the expression. -/
def ends (n : Nesting) (k : TokenKind) : Prop :=
  n.depth = 0 ∧ k.isTerminator = true ∧ ¬(k = .colon ∧ 0 < n.questions)

/-- None of the tokens ends an expression. -/
def Passes (n : Nesting) : List TokenKind → Prop
  | [] => True
  | k :: ks => ¬n.ends k ∧ (n.after k).Passes ks

theorem passes_append {n : Nesting} {ks ls : List TokenKind} :
    n.Passes (ks ++ ls) ↔ n.Passes ks ∧ (ks.foldl after n).Passes ls := by
  induction ks generalizing n with
  | nil => exact ⟨fun h => ⟨trivial, h⟩, fun h => h.2⟩
  | cons k ks ih => exact (and_congr_right fun _ => ih).trans and_assoc.symm

end Nesting

/-- No token in a phrase ends an expression, and the phrase leaves the nesting as it is. Inside of
brackets a comma does not count. -/
theorem Phrase.passes {inside : Bool} {ks : List TokenKind} (h : Phrase inside ks) {n : Nesting}
    (hn : inside = true → 0 < n.depth) : n.Passes ks ∧ ks.foldl Nesting.after n = n := by
  induction h generalizing n with
  | nil => exact ⟨trivial, rfl⟩
  | @token _ k h =>
    refine ⟨⟨fun he => ?_, trivial⟩, n.after_of_isPlain h⟩
    rw [Nesting.ends, TokenKind.isTerminator_of_isPlain h] at he
    cases he.2.1
  | comma =>
    refine ⟨⟨fun he => ?_, trivial⟩, rfl⟩
    exact absurd he.1 (Nat.ne_of_gt (hn rfl))
  | member name typeArgs =>
    refine ⟨⟨fun he => ?_, fun he => ?_, trivial⟩, rfl⟩
    · cases he.2.1
    · cases he.2.1
  | @group _ bracket ks _ ih =>
    have hdepth : 0 < (n.after (.opening bracket)).depth := Nat.succ_pos _
    obtain ⟨hpass, hfold⟩ := ih (fun _ => hdepth)
    have hopening : ¬n.ends (.opening bracket) := fun he => by cases he.2.1
    refine ⟨⟨hopening, ?_⟩, ?_⟩
    · refine Nesting.passes_append.2 ⟨hpass, ?_⟩
      rw [hfold]
      exact ⟨fun he => absurd he.1 (Nat.ne_of_gt hdepth), trivial⟩
    · rw [List.foldl_cons, List.foldl_append, hfold]
      rfl
  | @choice inside yes no _ _ ihy ihn =>
    have hq : inside = true → 0 < (n.after (.operator .question)).depth := fun hi => by
      have := hn hi
      simp only [Nesting.after]
      split <;> simpa using this
    obtain ⟨hypass, hyfold⟩ := ihy hq
    obtain ⟨hnpass, hnfold⟩ := ihn hn
    have hback : (n.after (.operator .question)).after .colon = n := by
      obtain ⟨depth, questions⟩ := n
      cases depth <;> rfl
    have hquestion : ¬n.ends (.operator .question) := fun he => by cases he.2.1
    refine ⟨⟨hquestion, ?_⟩, ?_⟩
    · refine Nesting.passes_append.2 ⟨hypass, ?_⟩
      rw [hyfold]
      refine ⟨fun he => ?_, by rwa [hback]⟩
      obtain ⟨hd, -, hc⟩ := he
      refine hc ⟨rfl, ?_⟩
      by_cases hd' : n.depth = 0
      · simp [Nesting.after, hd']
      · simp [Nesting.after, hd'] at hd
    · rw [List.foldl_cons, List.foldl_append, hyfold, List.foldl_cons, hback, hnfold]
  | append _ _ ih ih' =>
    obtain ⟨hpass, hfold⟩ := ih hn
    obtain ⟨hpass', hfold'⟩ := ih' hn
    rw [List.foldl_append, hfold]
    exact ⟨Nesting.passes_append.2 ⟨hpass, by rwa [hfold]⟩, hfold'⟩

/-- Of the tokens from a place on, the one at another place ends an expression. -/
def TokenList.EndsAt (ts : TokenList) (start i : Nat) : Prop :=
  ((ts.kinds start i).foldl Nesting.after ⟨0, 0⟩).ends (ts.get i).kind

/-- After a phrase an expression ends at the first token that can end it. -/
theorem Phrase.isLeast {ts : TokenList} {i j : Nat} (hij : i ≤ j) (h : Phrase false (ts.kinds i j))
    (hj : (ts.get j).kind.isTerminator = true) : IsLeast {k | i ≤ k ∧ ts.EndsAt i k} j := by
  obtain ⟨hpass, hfold⟩ := h.passes (n := ⟨0, 0⟩) (fun h => by cases h)
  refine ⟨⟨hij, ?_⟩, fun k hk => ?_⟩
  · unfold TokenList.EndsAt
    rw [hfold]
    exact ⟨rfl, hj, fun h => absurd h.2 (Nat.lt_irrefl 0)⟩
  · by_contra hlt
    obtain ⟨hik, hends⟩ := hk
    have hkj : k < j := Nat.lt_of_not_le hlt
    rw [← ts.kinds_append hik (Nat.le_of_lt hkj), ts.kinds_cons hkj] at hpass
    exact (Nesting.passes_append.1 hpass).2.1 hends

end TypedExpr
