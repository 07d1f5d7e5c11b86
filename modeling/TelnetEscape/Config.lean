/-!
# Settings of a writer

A writer collects escaped output in a stage of bounded size before it reaches the sink. The
capacity is kept as it was given; `stageLimit` is the one that counts, raised to two bytes so that
a doubled IAC always fits.
-/

namespace TelnetEscape

/-- The smallest stage: one doubled IAC. -/
def minCapacity : Nat := 2

def defaultCapacity : Nat := 4096

structure Config where
  /-- Size of the stage, as asked for. -/
  capacity : Nat := defaultCapacity
  /-- Also flush the sink at the end of every send. -/
  flushSink : Bool := false
deriving DecidableEq, Repr

namespace Config

def withCapacity (c : Config) (capacity : Nat) : Config :=
  { c with capacity }

def withFlushSink (c : Config) (flushSink : Bool) : Config :=
  { c with flushSink }

/-- How many bytes a stage may hold. -/
def stageLimit (c : Config) : Nat :=
  max minCapacity c.capacity

theorem two_le_stageLimit (c : Config) : 2 ≤ c.stageLimit :=
  Nat.le_max_left _ _

end Config
end TelnetEscape
