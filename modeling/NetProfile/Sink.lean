/-!
# Byte sinks

Where written text goes. A sink may take a limited number of bytes, and may
fail when it is asked to make what it took permanent.

## Main definitions

- `Sink` — the bytes taken so far and what limits them
- `Sink.write`, `Sink.flush`

## Design notes

A text that does not fit is taken as far as it fits before the write fails, so
the bytes of a sink are always the beginning of what a sink without a limit
would hold.
-/

namespace NetProfile

/-- A place for bytes. -/
structure Sink where
  /-- The bytes taken so far. -/
  bytes : ByteArray := .empty
  /-- How many bytes the sink takes in all, if there is a limit. -/
  limit : Option Nat := none
  /-- The cause given when a byte does not fit. -/
  fullCause : String := "sink full"
  /-- The cause given when flushing fails, if it does. -/
  flushCause : Option String := none

namespace Sink

/-- Takes a text, as far as it fits. Answers the sink afterwards and the cause
of the failure, if the text did not fit. -/
def write (sink : Sink) (text : String) : Sink × Option String :=
  let new := text.toUTF8
  match sink.limit with
  | none => ({ sink with bytes := sink.bytes ++ new }, none)
  | some limit =>
    let room := limit - sink.bytes.size
    if new.size ≤ room then ({ sink with bytes := sink.bytes ++ new }, none)
    else ({ sink with bytes := sink.bytes ++ new.extract 0 room }, some sink.fullCause)

/-- A sink without a limit takes the whole text. -/
theorem write_of_limit_eq_none {sink : Sink} (h : sink.limit = none) (text : String) :
    sink.write text = ({ sink with bytes := sink.bytes ++ text.toUTF8 }, none) := by
  simp [write, h]

/-- A write leaves the limit as it is. -/
theorem limit_write (sink : Sink) (text : String) : (sink.write text).1.limit = sink.limit := by
  unfold write
  split
  · rfl
  · simp only
    split <;> rfl

/-- Makes the bytes permanent; the cause of the failure, if that fails. -/
def flush (sink : Sink) : Option String := sink.flushCause

end Sink

end NetProfile
