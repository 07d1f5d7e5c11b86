import TelnetEscape.Proofs.PolledSends

/-!
# Runs of a polled writer

A caller writes, flushes, shuts down and sends in any order. It polls a send as often as it likes
and may give it up while it is pending; another poll of a pending write, flush or shutdown is an
operation of its own. `Writer.run` performs any list of operations and keeps what came of each, so
the states after all lists are all states that a writer gets to between two polls.

`Performs` and `Runs` say which calls on the sink this comes to, and what it makes of the stage
(`perform_performs`, `run_runs`). Whatever holds of every operation is carried to whole runs by
induction on `Runs`.
-/

namespace TelnetEscape

inductive Operation
  | write (data : Bytes)
  | flush
  | shutdown
  /-- A send that is given up if it is still pending after so many polls. -/
  | send (data : Bytes) (polls : Nat)
deriving DecidableEq, Repr

/-- What came of an operation. -/
inductive Outcome
  | write (data : Bytes) (answer : Poll (Except SinkError Nat))
  | flush (answer : Poll (Except SinkError Unit))
  | shutdown (answer : Poll (Except SinkError Unit))
  /-- The send stopped in the part `stop`, where it had its answer or was given up. -/
  | send (data : Bytes) (stop : Sending) (answer? : Option (Except Shortfall Nat))

namespace Writer

variable {σ : Type} [AsyncSink σ]

/-- A new writer over a sink whose calls are recorded. -/
def fresh (s : σ) (config : Config) : Writer (Journaled σ) :=
  { sink := { sink := s }, config }

/-- One operation. -/
def perform (w : Writer σ) : Operation → Outcome × Writer σ
  | .write data =>
    let (answer, w') := w.pollWrite data
    (.write data answer, w')
  | .flush =>
    let (answer, w') := w.pollFlush
    (.flush answer, w')
  | .shutdown =>
    let (answer, w') := w.pollShutdown
    (.shutdown answer, w')
  | .send data polls =>
    let (stop, answer?, w') := sendFrom polls (.clearing data) w
    (.send data stop answer?, w')

/-- One operation after the other. -/
def run (w : Writer σ) : List Operation → List Outcome × Writer σ
  | [] => ([], w)
  | operation :: operations =>
    let (outcome, w') := w.perform operation
    let (outcomes, w'') := w'.run operations
    (outcome :: outcomes, w'')

end Writer

/-! ## What operations and runs do -/

/-- One operation: its calls, what came of it, and what it makes of the stage. -/
inductive Performs (config : Config) (stage : Stage) : Journal → Outcome → Stage → Prop
  | write {data : Bytes} {lines : Journal} {answer : Poll (Except SinkError Nat)} {stage' : Stage}
      (writes : PollWrites config.stageLimit stage data lines answer stage') :
      Performs config stage lines (.write data answer) stage'
  | flush {lines : Journal} {answer : Poll (Except SinkError Unit)} {stage' : Stage}
      (ends : PollEnds .flush stage lines answer stage') :
      Performs config stage lines (.flush answer) stage'
  | shutdown {lines : Journal} {answer : Poll (Except SinkError Unit)} {stage' : Stage}
      (ends : PollEnds .shutdown stage lines answer stage') :
      Performs config stage lines (.shutdown answer) stage'
  | send {data : Bytes} {lines : Journal} {stop : Sending} {answer? : Option (Except Shortfall Nat)}
      {stage' : Stage} (runs : SendRuns config (.clearing data) stage lines stop answer? stage') :
      Performs config stage lines (.send data stop answer?) stage'

/-- One operation after the other. -/
inductive Runs (config : Config) : Stage → Journal → List Outcome → Stage → Prop
  | nil (stage : Stage) : Runs config stage [] [] stage
  | cons {stage stage' stage'' : Stage} {lines more : Journal} {outcome : Outcome}
      {outcomes : List Outcome} (first : Performs config stage lines outcome stage')
      (rest : Runs config stage' more outcomes stage'') :
      Runs config stage (lines ++ more) (outcome :: outcomes) stage''

namespace Writer

variable {σ : Type} [AsyncSink σ]

theorem perform_performs (w : Writer σ) (operation : Operation) :
    ∃ lines, w.Moves lines (w.perform operation).2 ∧
      Performs w.config w.stage lines (w.perform operation).1 (w.perform operation).2.stage := by
  cases operation with
  | write data =>
    obtain ⟨lines, hmoves, hwrites⟩ := w.pollWrite_writes data
    exact ⟨lines, hmoves, .write hwrites⟩
  | flush =>
    obtain ⟨lines, hmoves, hends⟩ := w.pollFlush_ends
    exact ⟨lines, hmoves, .flush hends⟩
  | shutdown =>
    obtain ⟨lines, hmoves, hends⟩ := w.pollShutdown_ends
    exact ⟨lines, hmoves, .shutdown hends⟩
  | send data polls =>
    obtain ⟨lines, hmoves, hruns⟩ := w.sendFrom_runs polls (.clearing data) trivial
    exact ⟨lines, hmoves, .send hruns⟩

theorem run_runs (w : Writer σ) (operations : List Operation) :
    ∃ lines, w.Moves lines (w.run operations).2 ∧
      Runs w.config w.stage lines (w.run operations).1 (w.run operations).2.stage := by
  induction operations generalizing w with
  | nil => exact ⟨[], ⟨.nil _, rfl⟩, .nil _⟩
  | cons operation operations ih =>
    obtain ⟨lines, hmoves, hperforms⟩ := w.perform_performs operation
    obtain ⟨more, hmore, hruns⟩ := ih (w.perform operation).2
    rw [hmoves.config_eq] at hruns
    exact ⟨lines ++ more, hmoves.append hmore, .cons hperforms hruns⟩

end Writer
end TelnetEscape
