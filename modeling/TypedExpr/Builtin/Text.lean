import TypedExpr.Integer
import TypedExpr.Registry.Builder
import TypedExpr.Text.Case
import TypedExpr.Text.Search
/-!
# Members of `string`

Length, case, search and parts. Lengths and positions count characters.

* `Builtin.substring`: a part by its start and its length; a part that the text does not have is an
  index out of range.
* `Builtin.textLength`, `Builtin.textIndexOf`, `Builtin.textFrom`, `Builtin.textPart`, …: the
  members.
-/

namespace TypedExpr.Builtin

/-- A length as an integer; one that is none is taken for the greatest. -/
def lengthInt (n : Nat) : Int64 := if Integer.Fits n then Int64.ofNat n else Int64.maxValue

theorem toInt_lengthInt {n : Nat} (h : (n : Int) ≤ Int64.maxValue.toInt) :
    (lengthInt n).toInt = n := by
  have hfits : Integer.Fits n :=
    ⟨Int.le_trans (show Int64.minValue.toInt ≤ 0 by decide) (Int.natCast_nonneg n), h⟩
  rw [lengthInt, if_pos hfits]
  exact Integer.toInt_ofInt hfits

/-- A length as a value. -/
def lengthValue (n : Nat) : Value := .int (lengthInt n)

/-- The end of a part; one that is no integer is taken for the greatest. -/
def partEnd (start count : Int64) : Int :=
  let stop := start.toInt + count.toInt
  if Integer.Fits stop then stop else Int64.maxValue.toInt

/-- How many characters of a text there are from `start` on. The difference is not checked. -/
def restCount (s : String) (start : Int64) : Int64 := lengthInt s.length - start

/-- The part of a text with `count` characters from `start` on. -/
def substring (s : String) (start count : Int64) : Except Fault Value :=
  let stop := partEnd start count
  if ¬(0 ≤ start.toInt ∧ start.toInt ≤ s.length) then
    .error (.indexOutOfRange start.toInt s.length)
  else if count.toInt < 0 ∨ ¬(0 ≤ stop ∧ stop ≤ s.length) then
    .error (.indexOutOfRange stop s.length)
  else
    match Text.slice? s start.toInt.toNat stop.toNat with
    | some part => .ok (.str part)
    | none => .error (.indexOutOfRange stop s.length)

/-- The number of characters of a text. -/
def textLength : HostFunction := .quiet fun call => do
  let s ← call.str "string.Length" 0
  return lengthValue s.length

/-- A text in upper case. -/
def textUpper : HostFunction := .quiet fun call => do
  let s ← call.str "string.ToUpper" 0
  return .str (Text.upper s)

/-- A text in lower case. -/
def textLower : HostFunction := .quiet fun call => do
  let s ← call.str "string.ToLower" 0
  return .str (Text.lower s)

/-- Whether one text occurs in another. -/
def textContains : HostFunction := .quiet fun call => do
  let s ← call.str "string.Contains" 0
  let needle ← call.str "string.Contains" 1
  return .bool (Text.find? s needle).isSome

/-- Where one text first occurs in another; `-1` if it does not. -/
def textIndexOf : HostFunction := .quiet fun call => do
  let s ← call.str "string.IndexOf" 0
  let needle ← call.str "string.IndexOf" 1
  match Text.find? s needle with
  | some i => return lengthValue i
  | none => return .int (-1)

/-- The part of a text from a position on. -/
def textFrom : HostFunction := .quiet fun call => do
  let s ← call.str "string.Substring" 0
  let start ← call.int "string.Substring" 1
  HostM.lift (substring s start (restCount s start))

/-- The part of a text with a number of characters from a position on. -/
def textPart : HostFunction := .quiet fun call => do
  let s ← call.str "string.Substring" 0
  let start ← call.int "string.Substring" 1
  let count ← call.int "string.Substring" 2
  HostM.lift (substring s start count)

/-- Declare the members of `string`. -/
def addText : Build Unit := do
  let d := Registry.stringDef
  let string : TypeSig := .fixed .string
  let int : TypeSig := .fixed .int
  Build.property d "Length" int textLength
  Build.method d "ToUpper" [] string textUpper
  Build.method d "ToLower" [] string textLower
  Build.method d "Contains" [string] (.fixed .bool) textContains
  Build.method d "IndexOf" [string] int textIndexOf
  Build.method d "Substring" [int] string textFrom
  Build.method d "Substring" [int, int] string textPart

end TypedExpr.Builtin
