import TypedExpr.Text.Printable
/-!
# Quoted text

In a listing a text stands between quotes. The quote and the backslash are written after a
backslash, the usual controls by a letter, and every other character that is not shown as itself by
its code point.

* `quote`: the text in quotes.
-/

namespace TypedExpr.Text

/-- A character inside quotes. -/
def quoteChar (c : Char) : List Char :=
  match c with
  | '\x00' => ['\\', '0']
  | '\t' => ['\\', 't']
  | '\r' => ['\\', 'r']
  | '\n' => ['\\', 'n']
  | '"' => ['\\', '"']
  | '\\' => ['\\', '\\']
  | c => if isShown c then [c] else "\\u\x7b".toList ++ Nat.toDigits 16 c.toNat ++ ['\x7d']

/-- A text in quotes. -/
def quote (s : String) : String :=
  "\"" ++ String.ofList (s.toList.flatMap quoteChar) ++ "\""

/-- A character that is shown as itself and is neither the quote nor the backslash needs nothing. -/
theorem quoteChar_of_isAlphanum {c : Char} (h : c.isAlphanum = true) : quoteChar c = [c] := by
  have hs := isShown_of_isAlphanum h
  unfold quoteChar
  split <;> first | (exfalso; revert h; decide) | simp [hs]

end TypedExpr.Text
