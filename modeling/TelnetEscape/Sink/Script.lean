import TelnetEscape.Sink.Basic

/-!
# Scripted sinks

A sink that behaves as a script tells it: one reaction for each call, and a last one for every call
after those. A quota lets it record only so many bytes before it reacts in another way, for ever or
for some calls.

A reaction can take part of an offer, claim to have taken another amount than it did, fail, or be
pending. Callers that do not wait reach the sink through `Nonblocking`.
-/

namespace TelnetEscape

/-- What a scripted sink does when it is called. -/
inductive Reaction
  /-- Take all of the offer, or so many bytes of it. -/
  | take (most : Option Nat)
  /-- Take as many bytes as there are, and answer with this count whatever they were. -/
  | claim (count : Nat)
  | fail (error : SinkError)
  | pending
deriving DecidableEq, Repr

/-- The reactions to one sort of call. -/
structure Reactions where
  /-- One for each of the next calls. -/
  steps : List Reaction := []
  /-- For all calls after those. -/
  rest : Reaction := .take none
deriving DecidableEq, Repr

namespace Reactions

/-- The reaction to the next call, and what is left for later ones. -/
def next (r : Reactions) : Reaction × Reactions :=
  match r.steps with
  | [] => (r.rest, r)
  | reaction :: steps => (reaction, { r with steps })

end Reactions

/-- A bound on what a sink records, and what it does at the bound. -/
structure Quota where
  /-- The bound, on all that the sink has recorded in its life. -/
  bytes : Nat
  /-- The reaction to a write at the bound. -/
  reaction : Reaction := .take none
  /-- How many writes get that reaction before the bound is lifted; `none` for all. -/
  times : Option Nat := none
deriving DecidableEq, Repr

namespace Quota

/-- The quota after one write at the bound. -/
def spend (q : Quota) : Quota :=
  { q with times := q.times.map (· - 1) }

def isLifted (q : Quota) : Bool :=
  q.times == some 0

end Quota

/-- What a scripted sink will do. -/
structure Script where
  writes : Reactions := {}
  flushes : Reactions := {}
  shutdowns : Reactions := {}
  quota? : Option Quota := none
deriving DecidableEq, Repr

namespace Script

/-- The quota, unless it is lifted. -/
def activeQuota? (script : Script) : Option Quota :=
  script.quota?.filter (fun q => !q.isLifted)

/-- The reaction to a write, with the room that the quota leaves for it, and the script that is left.
A reaction at the bound is not bounded itself and uses up no step. -/
def nextWrite (script : Script) (recorded : Nat) : Reaction × Option Nat × Script :=
  match script.activeQuota? with
  | none =>
    let (reaction, writes) := script.writes.next
    (reaction, none, { script with writes })
  | some q =>
    if recorded < q.bytes then
      let (reaction, writes) := script.writes.next
      (reaction, some (q.bytes - recorded), { script with writes })
    else (q.reaction, none, { script with quota? := some q.spend })

end Script

/-- A sink that follows a script and counts the bytes that it records. -/
structure ScriptedSink where
  script : Script
  recorded : Nat := 0
deriving DecidableEq, Repr

namespace ScriptedSink

/-- At most `n`, and at most the bound if there is one. -/
def bounded (bound : Option Nat) (n : Nat) : Nat :=
  match bound with
  | none => n
  | some most => min most n

/-- The reaction to an offer. -/
def pollWrite (s : ScriptedSink) (offered : Bytes) : Poll (Except SinkError Nat) × ScriptedSink :=
  let (reaction, room, script) := s.script.nextWrite s.recorded
  match reaction with
  | .take most =>
    let n := bounded room (bounded most offered.length)
    (.ready (.ok n), { script, recorded := s.recorded + n })
  | .claim n => (.ready (.ok n), { script, recorded := s.recorded + min n offered.length })
  | .fail e => (.ready (.error e), { s with script })
  | .pending => (.pending, { s with script })

/-- The answer to a call that moves no bytes. -/
def answer : Reaction → Poll (Except SinkError Unit)
  | .take _ => .ready (.ok ())
  | .claim _ => .ready (.ok ())
  | .fail e => .ready (.error e)
  | .pending => .pending

def pollFlush (s : ScriptedSink) : Poll (Except SinkError Unit) × ScriptedSink :=
  let (reaction, flushes) := s.script.flushes.next
  (answer reaction, { s with script := { s.script with flushes } })

def pollShutdown (s : ScriptedSink) : Poll (Except SinkError Unit) × ScriptedSink :=
  let (reaction, shutdowns) := s.script.shutdowns.next
  (answer reaction, { s with script := { s.script with shutdowns } })

instance : AsyncSink ScriptedSink where
  observe s _ := s
  pollWrite := pollWrite
  pollFlush := pollFlush
  pollShutdown := pollShutdown

end ScriptedSink
end TelnetEscape
