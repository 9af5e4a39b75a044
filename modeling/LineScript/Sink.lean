import LineScript.Text.Utf8
import LineScript.Fault

/-!
# Sinks

Where a transcript is written. A sink takes text and can be flushed; either may
fail, and what a failed write has taken stays taken. The sink of this module
holds a limited number of bytes and allows a limited number of flushes.
-/

namespace LineScript

/-- A place for text, as a machine with states `σ`. -/
structure Sink (σ : Type) where
  /-- Takes a text, or part of it before failing. -/
  write : σ → String → σ × Option Fault
  /-- Passes on what was taken. -/
  flush : σ → σ × Option Fault

/-- A sink that fails after so many bytes and after so many flushes. -/
structure LimitedSink where
  /-- What it has taken, the latest first. -/
  pieces : List Bytes := []
  /-- How many more bytes it takes, if not any number. -/
  room : Option Nat := none
  /-- How many flushes succeed, if not all. -/
  flushLimit : Option Nat := none
  /-- The flushes so far, failed ones included. -/
  flushes : Nat := 0

namespace LimitedSink

/-- The failure of a write beyond the limit. -/
def full : Fault := ⟨.other, "sink is full"⟩

/-- The failure of a flush beyond the limit. -/
def flushFailed : Fault := ⟨.other, "flush failed"⟩

/-- The bytes taken so far. -/
def written (sink : LimitedSink) : Bytes := sink.pieces.reverse.flatten

/-- Takes the bytes that fit. -/
def takeBytes (sink : LimitedSink) (bytes : Bytes) : LimitedSink × Option Fault :=
  let pieces := bytes :: sink.pieces
  match sink.room with
  | none => ({ sink with pieces }, none)
  | some room =>
    if bytes.length ≤ room then ({ sink with pieces, room := some (room - bytes.length) }, none)
    else ({ sink with pieces := bytes.take room :: sink.pieces, room := some 0 }, some full)

/-- Takes a text. -/
def write (sink : LimitedSink) (text : String) : LimitedSink × Option Fault :=
  sink.takeBytes (Utf8.ofString text)

/-- Counts a flush. -/
def flush (sink : LimitedSink) : LimitedSink × Option Fault :=
  let flushes := sink.flushes + 1
  let failed := sink.flushLimit.any (· < flushes)
  ({ sink with flushes }, if failed then some flushFailed else none)

/-- What is taken comes after what was taken before. -/
theorem written_push (sink : LimitedSink) (bytes : Bytes) :
    written { sink with pieces := bytes :: sink.pieces } = sink.written ++ bytes := by
  simp [written]

/-- The limited sink as a place for text. -/
def sink : Sink LimitedSink := ⟨write, flush⟩

end LimitedSink

end LineScript
