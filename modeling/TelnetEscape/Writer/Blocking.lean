import TelnetEscape.Writer.Basic

/-!
# Blocking writers

`send` escapes all of its data and hands it to the sink batch by batch. On failure it says exactly
how much of the input the sink has, and drops the rest of the batch; nothing is kept for a later
call. `write` is the same as one call of a plain byte sink, so a writer can serve as the sink of
another writer.
-/

namespace TelnetEscape.Writer

variable {σ : Type} [Sink σ]

/-- Offers what is unsent until the sink has taken all of it or a write fails. -/
def push (w : Writer σ) : Except SinkError Unit × Writer σ :=
  if w.stage.pending = 0 then (.ok (), w)
  else
    match Sink.write w.sink w.stage.unsent with
    | (.ok 0, s) => (.error .nothingTaken, { w with sink := s })
    | (.ok (n + 1), s) => push (w.advance s (n + 1))
    | (.error e, s) => (.error e, { w with sink := s })
termination_by w.stage.pending
decreasing_by exact Stage.pending_advance_lt _ (Nat.succ_pos n) ‹_›

/-- Hands the staged batch, which stands for `inputs` bytes of input, to the sink and empties the
stage, whether that works or not. -/
def drain (w : Writer σ) (inputs : Nat) : Except Shortfall Unit × Writer σ :=
  match w.push with
  | (.ok (), w) => (.ok (), (w.observe (.drained w.stage.sent (some inputs))).clearStage)
  | (.error e, w) =>
    let p := w.stage.progress
    (.error ⟨p.inputs, p.midPair, e⟩,
      (w.observe (.failed (some w.stage.sent) p.inputs p.midPair e)).clearStage)

/-- Sends `data` batch by batch, after `delivered` bytes of input that got through. There is always
a first batch, which is empty if the data is. -/
def sendBatches (w : Writer σ) (delivered : Nat) (data : Bytes) : Except Shortfall Nat × Writer σ :=
  match (w.startBatch data).drain (w.batchSize data) with
  | (.error f, w') => (.error { f with delivered := delivered + f.delivered }, w')
  | (.ok (), w') =>
    if data.drop (w.batchSize data) = [] then (.ok (delivered + w.batchSize data), w')
    else sendBatches w' (delivered + w.batchSize data) (data.drop (w.batchSize data))
termination_by data.length
decreasing_by exact length_drop_batchSize_lt w fun h => ‹¬_› (by rw [h, List.drop_nil])

/-- Flushes the sink. -/
def flush (w : Writer σ) : Except SinkError Unit × Writer σ :=
  w.onSink Sink.flush

/-- Flushes the sink at the end of a send that came to `answer`. Of two errors the first stands; a
failed flush after all input got through is a shortfall of nothing but the flush. -/
def endFlush (w : Writer σ) (answer : Except Shortfall Nat) : Except Shortfall Nat × Writer σ :=
  match w.flush with
  | (.ok (), w') => (answer, w')
  | (.error e, w') => (answer.bind (fun n => .error ⟨n, false, e⟩), w')

/-- Escapes `data` and hands it to the sink. The answer counts input bytes. With `flushSink` the
sink is flushed at the end, even if a write failed. -/
def send (w : Writer σ) (data : Bytes) : Except Shortfall Nat × Writer σ :=
  match w.sendBatches 0 data with
  | (answer, w') => if w'.config.flushSink then w'.endFlush answer else (answer, w')

/-- Sends `data` as one call of a plain byte sink. -/
def write (w : Writer σ) (data : Bytes) : Except SinkError Nat × Writer σ :=
  match w.send data with
  | (.ok n, w) => (.ok n, w)
  | (.error f, w) => (f.toWriteAnswer, w)

instance instSink : Sink (Writer σ) where
  write := write
  flush := flush

end TelnetEscape.Writer
