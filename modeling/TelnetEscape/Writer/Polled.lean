import TelnetEscape.Writer.Basic

/-!
# Polled writers

`pollWrite` stages escaped data and asks the sink only when the stage has no room; `pollFlush` and
`pollShutdown` push out what is staged first. An operation that is pending or fails leaves unsent
output staged, and the next one goes on from there.
-/

namespace TelnetEscape.Writer

variable {σ : Type} [AsyncSink σ]

/-- Offers what is unsent until the sink has taken all of it, is pending or fails. -/
def pollPush (w : Writer σ) : Poll (Except SinkError Unit) × Writer σ :=
  if w.stage.pending = 0 then (.ready (.ok ()), w)
  else
    match AsyncSink.pollWrite w.sink w.stage.unsent with
    | (.pending, s) => (.pending, { w with sink := s })
    | (.ready (.ok 0), s) => (.ready (.error .nothingTaken), { w with sink := s })
    | (.ready (.ok (n + 1)), s) => pollPush (w.advance s (n + 1))
    | (.ready (.error e), s) => (.ready (.error e), { w with sink := s })
termination_by w.stage.pending
decreasing_by exact Stage.pending_advance_lt _ (Nat.succ_pos n) ‹_›

/-- Empties a stage that was sent in full, and reports it unless it was empty before. -/
def settle (w : Writer σ) : Writer σ :=
  if w.stage.bytes = [] then w.clearStage
  else (w.observe (.drained w.stage.bytes.length none)).clearStage

/-- Pushes out the stage and empties it when all of it is sent. -/
def pollDrain (w : Writer σ) : Poll (Except SinkError Unit) × Writer σ :=
  match w.pollPush with
  | (.ready (.ok ()), w) => (.ready (.ok ()), w.settle)
  | (.ready (.error e), w) => (.ready (.error e), w)
  | (.pending, w) => (.pending, w)

/-- Stages as much of `data` as there is room for, pushing out the stage first if there is none. -/
def pollWrite (w : Writer σ) (data : Bytes) : Poll (Except SinkError Nat) × Writer σ :=
  if data = [] then (.ready (.ok 0), w)
  else if 0 < w.fitting data then (.ready (.ok (w.fitting data)), w.fill data)
  else
    match w.pollDrain with
    | (.ready (.ok ()), w) => (.ready (.ok (w.fitting data)), w.fill data)
    | (.ready (.error e), w) => (.ready (.error e), w)
    | (.pending, w) => (.pending, w)

/-- Pushes out the stage, then flushes the sink. -/
def pollFlush (w : Writer σ) : Poll (Except SinkError Unit) × Writer σ :=
  match w.pollDrain with
  | (.ready (.ok ()), w) => w.onSink AsyncSink.pollFlush
  | (answer, w) => (answer, w)

/-- Pushes out the stage, then shuts the sink down. -/
def pollShutdown (w : Writer σ) : Poll (Except SinkError Unit) × Writer σ :=
  match w.pollDrain with
  | (.ready (.ok ()), w) => w.onSink AsyncSink.pollShutdown
  | (answer, w) => (answer, w)

instance instAsyncSink : AsyncSink (Writer σ) where
  pollWrite := pollWrite
  pollFlush := pollFlush
  pollShutdown := pollShutdown

end TelnetEscape.Writer
