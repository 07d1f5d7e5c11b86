import TelnetEscape.Writer.Polled

/-!
# Polled sends

A send over a polled sink may need many polls. It is pending in one of three places: while it
pushes out what earlier writes left staged, while it pushes out a batch of its own, or while the
sink is being flushed. `Sending` says where it stands, and is all that is lost if the send is given
up: what is staged stays with the writer.

Failing to push out earlier output fails the send before any of its data is looked at, and that
output stays staged. Failing on a batch of its own drops the rest of the batch.
-/

namespace TelnetEscape

/-- What is left of a send. -/
inductive Sending
  /-- Earlier output is being pushed out; `data` is all still to do. -/
  | clearing (data : Bytes)
  /-- A batch of `inputs` input bytes is staged, `delivered` bytes are through and `rest` follows. -/
  | pushing (delivered inputs : Nat) (rest : Bytes)
  /-- All `delivered` bytes are through and the sink is being flushed. -/
  | flushing (delivered : Nat)
deriving DecidableEq, Repr

/-- What one poll makes of a send. -/
abbrev SendTurn := Turn Sending (Except Shortfall Nat)

namespace Writer

variable {σ : Type} [AsyncSink σ]

/-- A poll of the flush at the end. -/
def pollEndFlush (w : Writer σ) (delivered : Nat) : SendTurn × Writer σ :=
  match w.onSink AsyncSink.pollFlush with
  | (.pending, w) => (.pending (.flushing delivered), w)
  | (.ready (.ok ()), w) => (.ready (.ok delivered), w)
  | (.ready (.error e), w) => (.ready (.error ⟨delivered, false, e⟩), w)

/-- All data is through. -/
def finishSend (w : Writer σ) (delivered : Nat) : SendTurn × Writer σ :=
  if w.config.flushSink then w.pollEndFlush delivered else (.ready (.ok delivered), w)

/-- The sink failed with `e` on a batch of this send, before which `delivered` input bytes were
through: what is left of the batch is dropped. -/
def abandonBatch (w : Writer σ) (delivered : Nat) (e : SinkError) : SendTurn × Writer σ :=
  let p := w.stage.progress
  (.ready (.error ⟨delivered + p.inputs, p.midPair, e⟩),
    w.clearStage.observe (.failed none (delivered + p.inputs) p.midPair e))

/-- Sends `data` batch by batch from an empty stage, after `delivered` bytes that are through. -/
def pollBatches (w : Writer σ) (delivered : Nat) (data : Bytes) : SendTurn × Writer σ :=
  if data = [] then w.finishSend delivered
  else
    match (w.startBatch data).pollDrain with
    | (.pending, w') =>
      (.pending (.pushing delivered (w.batchSize data) (data.drop (w.batchSize data))), w')
    | (.ready (.error e), w') => w'.abandonBatch delivered e
    | (.ready (.ok ()), w') =>
      pollBatches w' (delivered + w.batchSize data) (data.drop (w.batchSize data))
termination_by data.length
decreasing_by exact length_drop_batchSize_lt w ‹_›

/-- One poll of a send. -/
def pollSend (w : Writer σ) : Sending → SendTurn × Writer σ
  | .clearing data =>
    match w.pollDrain with
    | (.pending, w) => (.pending (.clearing data), w)
    | (.ready (.error e), w) => (.ready (.error ⟨0, false, e⟩), w)
    | (.ready (.ok ()), w) => w.pollBatches 0 data
  | .pushing delivered inputs rest =>
    match w.pollDrain with
    | (.pending, w) => (.pending (.pushing delivered inputs rest), w)
    | (.ready (.error e), w) => w.abandonBatch delivered e
    | (.ready (.ok ()), w) => w.pollBatches (delivered + inputs) rest
  | .flushing delivered => w.pollEndFlush delivered

end Writer
end TelnetEscape
