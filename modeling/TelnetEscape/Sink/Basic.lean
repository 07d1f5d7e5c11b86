import TelnetEscape.Escape.Basic
import TelnetEscape.Event
import TelnetEscape.Poll

/-!
# Sinks

A sink takes bytes. An offer that is answered with `ok n` had its first `n` bytes taken, or all of
them if it was shorter; every other answer means that none were. A blocking sink answers at once, a
polled one may be pending.

A blocking sink comes with the usual way to write everything, which writes what is left until
nothing is. An interrupted write is tried again at once, without end if the interruptions do not
end, so it is given a number of calls that it may make; any other error ends it.
-/

namespace TelnetEscape

/-- A sink that answers at once. -/
class Sink (σ : Type) extends Observer σ where
  write : σ → Bytes → Except SinkError Nat × σ
  flush : σ → Except SinkError Unit × σ

/-- A sink that may be pending. -/
class AsyncSink (σ : Type) extends Observer σ where
  pollWrite : σ → Bytes → Poll (Except SinkError Nat) × σ
  pollFlush : σ → Poll (Except SinkError Unit) × σ
  pollShutdown : σ → Poll (Except SinkError Unit) × σ

/-- The buffer that a write of several buffers comes down to: the first that holds anything. -/
def firstNonempty (buffers : List Bytes) : Bytes :=
  (buffers.find? (fun b => !b.isEmpty)).getD []

namespace Sink

variable {σ : Type} [Sink σ]

/-- Writes the first of several buffers that holds anything, or an empty one. -/
def writeVectored (s : σ) (buffers : List Bytes) : Except SinkError Nat × σ :=
  write s (firstNonempty buffers)

/-- Writes all of `data` with at most `calls` calls. The answer is `none` if they do not suffice. A
count that is larger than the offer stands for all of it; a caller that cuts its data at the count
stops with a fault there. -/
def writeAll : Nat → σ → Bytes → Option (Except SinkError Unit) × σ
  | _, s, [] => (some (.ok ()), s)
  | 0, s, _ :: _ => (none, s)
  | calls + 1, s, data@(_ :: _) =>
    match write s data with
    | (.ok 0, s) => (some (.error (.described .writeZero "failed to write whole buffer")), s)
    | (.ok n, s) => writeAll calls s (data.drop n)
    | (.error e, s) => if e.kind = .interrupted then writeAll calls s data else (some (.error e), s)

end Sink

namespace AsyncSink

variable {σ : Type} [AsyncSink σ]

def pollWriteVectored (s : σ) (buffers : List Bytes) : Poll (Except SinkError Nat) × σ :=
  pollWrite s (firstNonempty buffers)

end AsyncSink
end TelnetEscape
