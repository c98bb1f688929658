/-!
# Spans

A span is a range of byte offsets of the source text: everything that can be pointed at in a
message carries one. Spans are joined when sub-expressions are put together (`Span.merge`).

* `Span.merge_comm`, `Span.merge_assoc`, `Span.merge_self`: joining spans is a semilattice
  operation, so the span of a compound does not depend on the order in which its parts are joined.
* `Span.ofRange?`: an offset is a 32-bit number; a range with a larger one has no span.
-/

namespace TypedExpr

/-- The byte offsets from `start` up to, not including, `stop`. -/
structure Span where
  start : Nat
  stop : Nat
  deriving DecidableEq, Repr, Inhabited

/-- Why a range of offsets is not a span. -/
inductive SpanError where
  | startTooLarge (offset : Nat)
  | stopTooLarge (offset : Nat)
  deriving DecidableEq, Repr

namespace Span

/-- The span of what has no place in a source text. -/
def nowhere : Span := ⟨0, 0⟩

/-- The largest offset of a span. -/
def maxOffset : Nat := UInt32.size - 1

/-- A range of offsets as a span; of two offsets that are too large, the first is reported. -/
def ofRange? (start stop : Nat) : Except SpanError Span :=
  if start > maxOffset then .error (.startTooLarge start)
  else if stop > maxOffset then .error (.stopTooLarge stop)
  else .ok ⟨start, stop⟩

/-- The number of bytes covered. -/
def length (s : Span) : Nat := s.stop - s.start

/-- No byte is covered. -/
def isEmpty (s : Span) : Bool := s.start == s.stop

/-- The least span that covers both. -/
def merge (s t : Span) : Span := ⟨min s.start t.start, max s.stop t.stop⟩

/-- The written form `start..stop`. -/
def text (s : Span) : String := s!"{s.start}..{s.stop}"

@[simp] theorem merge_start (s t : Span) : (s.merge t).start = min s.start t.start := rfl

@[simp] theorem merge_stop (s t : Span) : (s.merge t).stop = max s.stop t.stop := rfl

theorem merge_comm (s t : Span) : s.merge t = t.merge s := by
  simp [merge, Nat.min_comm, Nat.max_comm]

theorem merge_assoc (s t u : Span) : (s.merge t).merge u = s.merge (t.merge u) := by
  simp [merge, Nat.min_assoc, Nat.max_assoc]

@[simp] theorem merge_self (s : Span) : s.merge s = s := by
  simp [merge]

end Span

/-- The words in which a range is refused. -/
def SpanError.message : SpanError → String
  | .startTooLarge n => s!"span start {n} exceeds u32::MAX"
  | .stopTooLarge n => s!"span end {n} exceeds u32::MAX"

end TypedExpr
