import TelnetEscape.Config
import TelnetEscape.Sink.Basic
import TelnetEscape.Stage

/-!
# Writers

A writer escapes data on its way to a sink. It can be driven in two ways, over a blocking sink or
over a polled one. Blocking operations leave nothing staged; polled writes may, until a later
operation pushes it out.

`onSink` lets a caller act on the sink itself, as for a command that must not be escaped. It
overtakes what is staged.
-/

namespace TelnetEscape

structure Writer (σ : Type) where
  sink : σ
  config : Config := {}
  stage : Stage := {}
deriving DecidableEq, Repr

namespace Writer

variable {σ : Type}

/-- How many escaped bytes are staged that the sink has not taken. -/
def pending (w : Writer σ) : Nat :=
  w.stage.pending

/-- How much of `data` fits beside what is staged. -/
def fitting (w : Writer σ) (data : Bytes) : Nat :=
  w.stage.fitting w.config.stageLimit data

/-- Stages as much of `data` as fits beside what is staged. -/
def fill (w : Writer σ) (data : Bytes) : Writer σ :=
  { w with stage := w.stage.fill w.config.stageLimit data }

/-- How much of `data` goes into one batch: as much as fits into an empty stage. -/
def batchSize (w : Writer σ) (data : Bytes) : Nat :=
  ({} : Stage).fitting w.config.stageLimit data

/-- Starts a new batch with the front of `data`. -/
def startBatch (w : Writer σ) (data : Bytes) : Writer σ :=
  { w with stage := ({} : Stage).fill w.config.stageLimit data }

/-- Empties the stage. -/
def clearStage (w : Writer σ) : Writer σ :=
  { w with stage := {} }

/-- The sink, in its new state `s`, took `n` bytes of what it was offered. -/
def advance (w : Writer σ) (s : σ) (n : Nat) : Writer σ :=
  { w with sink := s, stage := w.stage.advance n }

/-- Acts on the sink itself, past escaping and past what is staged. -/
def onSink {α : Type} (w : Writer σ) (act : σ → α × σ) : α × Writer σ :=
  let (a, s) := act w.sink
  (a, { w with sink := s })

/-- Reports an event, which is passed down to the sink. -/
def observe [Observer σ] (w : Writer σ) (e : Event) : Writer σ :=
  { w with sink := Observer.observe w.sink e }

instance instObserver [Observer σ] : Observer (Writer σ) where
  observe := observe

/-! ## What the steps leave alone -/

@[simp] theorem sink_advance (w : Writer σ) (s : σ) (n : Nat) : (w.advance s n).sink = s := rfl

@[simp] theorem config_advance (w : Writer σ) (s : σ) (n : Nat) :
    (w.advance s n).config = w.config := rfl

@[simp] theorem stage_advance (w : Writer σ) (s : σ) (n : Nat) :
    (w.advance s n).stage = w.stage.advance n := rfl

@[simp] theorem sink_startBatch (w : Writer σ) (data : Bytes) :
    (w.startBatch data).sink = w.sink := rfl

@[simp] theorem config_startBatch (w : Writer σ) (data : Bytes) :
    (w.startBatch data).config = w.config := rfl

@[simp] theorem bytes_startBatch (w : Writer σ) (data : Bytes) :
    (w.startBatch data).stage.bytes = escape (data.take (w.batchSize data)) :=
  Stage.bytes_fill {} w.config.stageLimit data

@[simp] theorem sent_startBatch (w : Writer σ) (data : Bytes) :
    (w.startBatch data).stage.sent = 0 := rfl

/-- On an empty stage a batch is started by filling it. -/
theorem startBatch_eq_fill {w : Writer σ} (hstage : w.stage = {}) (data : Bytes) :
    w.startBatch data = w.fill data := by
  rw [startBatch, fill, hstage]

@[simp] theorem sink_clearStage (w : Writer σ) : w.clearStage.sink = w.sink := rfl

@[simp] theorem config_clearStage (w : Writer σ) : w.clearStage.config = w.config := rfl

@[simp] theorem stage_clearStage (w : Writer σ) : w.clearStage.stage = {} := rfl

@[simp] theorem config_observe [Observer σ] (w : Writer σ) (e : Event) :
    (w.observe e).config = w.config := rfl

@[simp] theorem stage_observe [Observer σ] (w : Writer σ) (e : Event) :
    (w.observe e).stage = w.stage := rfl

/-! ## Batches make progress -/

theorem batchSize_eq (w : Writer σ) (data : Bytes) :
    w.batchSize data = fit w.config.stageLimit data :=
  Stage.fitting_empty w.config.stageLimit data

/-- A batch takes some of any data, because a stage has room for a pair. -/
theorem batchSize_pos (w : Writer σ) {data : Bytes} (hdata : data ≠ []) :
    0 < w.batchSize data := by
  rw [batchSize_eq]
  exact fit_pos w.config.two_le_stageLimit hdata

theorem length_drop_batchSize_lt (w : Writer σ) {data : Bytes} (hdata : data ≠ []) :
    (data.drop (w.batchSize data)).length < data.length := by
  have := w.batchSize_pos hdata
  have := List.length_pos_iff.mpr hdata
  simp only [List.length_drop]
  omega

end Writer
end TelnetEscape
