import TelnetEscape.Sink.Basic

/-!
# Polled sinks called without waiting

A polled sink serves as a blocking one by not waiting: each call is one poll, and a call that is
pending fails with `wouldBlock`. The sink itself was pending, so a journal it keeps says so; only
its caller sees an error.
-/

namespace TelnetEscape

/-- The answer of one poll to a caller that does not wait. -/
def Poll.unwaited {α : Type} : Poll (Except SinkError α) → Except SinkError α
  | pending => .error (.plain .wouldBlock)
  | ready answer => answer

/-- A polled sink whose callers do not wait. -/
structure Nonblocking (σ : Type) where
  sink : σ
deriving DecidableEq, Repr

namespace Nonblocking

variable {σ : Type}

instance [AsyncSink σ] : Sink (Nonblocking σ) where
  observe s e := ⟨Observer.observe s.sink e⟩
  write s offered :=
    let (answer, sink) := AsyncSink.pollWrite s.sink offered
    (answer.unwaited, ⟨sink⟩)
  flush s :=
    let (answer, sink) := AsyncSink.pollFlush s.sink
    (answer.unwaited, ⟨sink⟩)

end Nonblocking
end TelnetEscape
