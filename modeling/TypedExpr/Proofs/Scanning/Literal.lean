import TypedExpr.Proofs.Scanning.Spelling
import TypedExpr.Token.TypeName
/-!
# Texts of literals

Any text can be written as a string literal, which is one token. The digits of a number are one
piece too, and a token if the number fits; a minus sign in front of them is a token of its own.

* `Text.literal`: a text between quotes, escaped.
* `Piece.str_escape`: **the literal ends where it should, and stands for the text.**
* `Piece.piece_digits`: **the digits of a number are an integer if it fits, and else no token.**
* `Token.cut_literal`, `Token.cut_digits`, `Token.cut_minus`: how such texts are cut.
-/

namespace TypedExpr

/-- A text as a string literal. -/
def Text.literal (s : String) : String := String.ofList ('"' :: (Text.escape s.toList ++ ['"']))

namespace Piece

variable {c : Char} {cs : List Char} {n : Nat}

/-- **The literal ends where it should, and stands for the text.** -/
theorem str_escape (s : String) (rest : List Char) :
    str (Text.escape s.toList ++ '"' :: rest) =
      (.token (.str s), (Text.escape s.toList).length + 1) := by
  rw [str, if_pos (Text.isClosed_escape _ _), Text.literalBody_escape, Text.unescape_escape,
    String.ofList_toList]

/-! ### Digits -/

theorem isWordStart_of_isDigit (h : c.isDigit = true) : isWordStart c = false := by
  have hline : c ≠ '_' := ne_of_test h (by decide)
  simp only [Char.isDigit, Bool.and_eq_true, decide_eq_true_eq, ge_iff_le, Char.reduceVal,
    UInt32.le_iff_toNat_le, UInt32.reduceToNat] at h
  delta isWordStart Char.isAlpha Char.isUpper Char.isLower
  simp only [Bool.or_eq_false_iff, decide_eq_false_iff_not, ge_iff_le, Char.reduceVal,
    Bool.and_eq_false_imp, decide_eq_true_eq, UInt32.le_iff_toNat_le, UInt32.reduceToNat]
  exact ⟨⟨by omega, by omega⟩, hline⟩

theorem piece_digit (h : c.isDigit = true) (cs : List Char) : piece c cs = number c cs := by
  have hline : c ≠ '\n' := ne_of_test h (by decide)
  have hblank : ¬(c = ' ' ∨ c = '\t' ∨ c = '\r') := by
    rintro (rfl | rfl | rfl) <;> exact absurd h (by decide)
  have hslash : ¬(c = '/' ∧ cs.head? = some '/') := fun hc => ne_of_test h (by decide) hc.1
  have hword : ¬isWordStart c = true := by simp [isWordStart_of_isDigit h]
  rw [piece, if_neg hline, if_neg hblank, if_neg hslash, if_neg hword, if_pos h]

/-- Digits with nothing behind them are no double. -/
theorem number_of_digits (h : ∀ d ∈ cs, d.isDigit = true) (c : Char) :
    number c cs =
      (if Integer.Fits (Double.digitsValue (c :: cs)) then
        .token (.int (Int64.ofInt (Double.digitsValue (c :: cs)))) else .junk, cs.length) := by
  have htake : cs.takeWhile Char.isDigit = cs := List.takeWhile_eq_self_iff.mpr h
  have hdrop : cs.dropWhile Char.isDigit = [] := List.dropWhile_eq_nil_iff.mpr h
  rw [number, htake, hdrop]
  rfl

theorem digitsValue_toDigits (n : Nat) : Double.digitsValue (Nat.toDigits 10 n) = n := by
  rw [Double.digitsValue, ← Nat.ofDigitChars_eq_foldl, Nat.ofDigitChars_ten_toDigits]

/-- **The digits of a number are an integer if it fits, and else no token.** -/
theorem piece_digits (h : Nat.toDigits 10 n = c :: cs) :
    piece c cs =
      (if Integer.Fits n then .token (.int (Int64.ofInt n)) else .junk, cs.length) := by
  have hdigit : ∀ d ∈ c :: cs, d.isDigit = true := by
    rw [← h]
    exact fun d hd => Nat.isDigit_of_mem_toDigits (by decide) (by decide) hd
  rw [piece_digit (hdigit c (.head _)), number_of_digits fun d hd => hdigit d (.tail _ hd), ← h,
    digitsValue_toDigits]

/-- A minus sign in front of a digit stands alone. -/
theorem piece_minus (h : ∀ d ∈ cs.head?, d.isDigit = true) :
    piece '-' cs = (.token (.operator (.binary .sub)), 0) := by
  have hsecond : ∀ kind ∈ TokenKind.symbols, ∀ text, kind.symbol? = some text →
      text.toList[0]? = some '-' → text.toList[1]? ∈ [none, some '-', some '='] := by
    decide
  refine symbol_alone (by decide) fun d hd => noPair_of_second ?_
  intro kind hmem text htext hfirst hd'
  have hmem := hsecond kind hmem text htext hfirst
  rw [hd'] at hmem
  simp only [List.mem_cons, Option.some.injEq, reduceCtorEq, false_or, List.not_mem_nil,
    or_false] at hmem
  rcases hmem with rfl | rfl <;> cases h _ hd

end Piece

namespace Token

/-- The literal of a text is cut into one token. -/
theorem cut_literal (s : String) : ∃ stop, cut (Text.literal s) = .ok [⟨.str s, ⟨0, stop⟩, 1⟩] := by
  have hpiece : piece '"' (Text.escape s.toList ++ ['"']) =
      (.token (.str s), (Text.escape s.toList).length + 1) := Piece.str_escape s []
  have hrest : (Text.escape s.toList ++ ['"']).drop ((Text.escape s.toList).length + 1) = [] := by
    simp
  rw [cut, Text.literal, String.toList_ofList, cutFrom, hpiece]
  dsimp only
  rw [cutFrom_skip, hrest]
  exact ⟨_, rfl⟩

/-- The digits of a number are cut into one token, or refused on the first line. -/
theorem cutFrom_digits (n offset : Nat) : ∃ stop, cutFrom offset 1 0 n.repr.toList =
    if Integer.Fits n then .ok [⟨.int (Int64.ofInt n), ⟨offset, stop⟩, 1⟩]
    else .error ⟨n.repr, 1⟩ := by
  obtain ⟨c, cs, hcs⟩ : ∃ c cs, n.repr.toList = c :: cs :=
    List.exists_cons_of_ne_nil (by rw [Nat.toList_repr]; exact Nat.toDigits_ne_nil)
  have hpiece := Piece.piece_digits (Nat.toList_repr.symm.trans hcs)
  rw [hcs, cutFrom, hpiece]
  by_cases hfits : Integer.Fits n
  · simp only [if_pos hfits]
    rw [cutFrom_skip, List.drop_length]
    exact ⟨_, rfl⟩
  · simp only [if_neg hfits]
    refine ⟨0, ?_⟩
    rw [List.take_length, ← hcs, String.ofList_toList]

/-- A minus sign and the digits behind it. -/
theorem cut_minus (n : Nat) : ∃ stop, cut ("-" ++ n.repr) =
    if Integer.Fits n then
      .ok [⟨.operator (.binary .sub), ⟨0, 1⟩, 1⟩, ⟨.int (Int64.ofInt n), ⟨1, stop⟩, 1⟩]
    else .error ⟨n.repr, 1⟩ := by
  obtain ⟨stop, hstop⟩ := cutFrom_digits n 1
  have hpiece : piece '-' n.repr.toList = (.token (.operator (.binary .sub)), 0) := by
    refine Piece.piece_minus fun d hd => ?_
    rw [Nat.toList_repr] at hd
    exact Nat.isDigit_of_mem_toDigits (by decide) (by decide) (List.mem_of_mem_head? hd)
  refine ⟨stop, ?_⟩
  rw [cut, String.toList_append]
  show cutFrom 0 1 0 ('-' :: n.repr.toList) = _
  rw [cutFrom, hpiece]
  show (cutFrom 1 1 0 n.repr.toList).map _ = _
  rw [hstop]
  split <;> rfl

end Token

end TypedExpr
