import TypedExpr.Text.CaseTable
/-!
# Upper and lower case of a text

A text is put into upper or lower case character by character; one character may become several.
Only the lower case of a capital sigma depends on its neighbours: at the end of a word it has a
form of its own.

* `upper`, `lower`: the text in upper and in lower case.
-/

namespace TypedExpr.Text

/-- The code point is in one of the ranges. -/
def inRanges (ranges : Array (Nat × Nat)) (c : Char) : Bool :=
  ranges.any fun r => r.1 ≤ c.toNat && c.toNat ≤ r.2

/-- A character by a table of mappings; one that is in neither table is kept. -/
def mapCase (runs : Array CaseRun) (expansions : List (Nat × List Nat)) (c : Char) : List Char :=
  match expansions.lookup c.toNat with
  | some cs => cs.map Char.ofNat
  | none =>
    match runs.find? (·.contains c.toNat) with
    | some r => [Char.ofNat (c.toNat + r.shift).toNat]
    | none => [c]

/-- The upper case of a character. -/
def upperChar (c : Char) : List Char :=
  if c.toNat < 128 then [c.toUpper] else mapCase upperRuns upperExpansions c

/-- The lower case of a character that is not a capital sigma. -/
def lowerChar (c : Char) : List Char :=
  if c.toNat < 128 then [c.toLower] else mapCase lowerRuns lowerExpansions c

/-- The text in upper case. -/
def upper (s : String) : String := String.ofList (s.toList.flatMap upperChar)

/-- The first character that is not passed over has a case. -/
def startsCased (cs : List Char) : Bool :=
  match cs.dropWhile (inRanges caseIgnorableRanges) with
  | c :: _ => inRanges casedRanges c
  | [] => false

/-- The capital sigma. -/
def capitalSigma : Char := 'Σ'

/-- The characters `cs` in lower case, after the characters `before`, which are given backwards. A
sigma ends a word if a cased character is before it and none is after it. -/
def lowerFrom (before : List Char) : List Char → List Char
  | [] => []
  | c :: cs =>
    let here :=
      if c = capitalSigma then [if startsCased before && !startsCased cs then 'ς' else 'σ']
      else lowerChar c
    here ++ lowerFrom (c :: before) cs

/-- The text in lower case. -/
def lower (s : String) : String := String.ofList (lowerFrom [] s.toList)

end TypedExpr.Text
