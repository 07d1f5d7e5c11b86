import TelnetEscape.Error

/-!
# Events

What a writer reports about its work as it goes along, apart from its answers.
-/

namespace TelnetEscape

/-- How much an event matters. -/
inductive Level
  | trace
  | debug
deriving DecidableEq, Repr

inductive Event
  /-- The sink took all of a stage: `bytes` of output, standing for `inputs` input bytes where the
  writer keeps count of them. -/
  | drained (bytes : Nat) (inputs : Option Nat)
  /-- A write to the sink failed. `bytes`, where given, counts what the sink took of the stage. -/
  | failed (bytes : Option Nat) (inputs : Nat) (tornPair : Bool) (cause : SinkError)
deriving DecidableEq, Repr

namespace Event

def level : Event → Level
  | drained .. => .trace
  | failed .. => .debug

def message : Event → String
  | drained .. => "drained staged output"
  | failed .. => "sink write failed"

end Event

/-- Something that can be told of events. -/
class Observer (σ : Type) where
  observe : σ → Event → σ

end TelnetEscape
