import TelnetEscape.Proofs.Word.Escape
import TelnetEscape.Writer.Basic

/-!
# Writers with counters of 64 bits

A stage whose counter of sent bytes is a word, and a writer with such a stage and a capacity that is
a word. Sinks are not trusted: an answer may be any word. The counter stays within the stage all the
same (`Stage.toNat_sent_advance`), which is why it is part of what a stage is.

`exact` maps each of these to its exact counterpart, and every step to that of the counterpart
(`Stage.exact_advance`, `Stage.exact_fill`, `Stage.exact_progress`).
-/

namespace TelnetEscape.Word

structure Config where
  capacity : UInt64
  flushSink : Bool

namespace Config

def exact (c : Config) : TelnetEscape.Config :=
  { capacity := c.capacity.toNat, flushSink := c.flushSink }

/-- How many bytes a stage may hold. -/
def stageLimit (c : Config) : UInt64 :=
  max 2 c.capacity

theorem toNat_stageLimit (c : Config) : c.stageLimit.toNat = c.exact.stageLimit :=
  toNat_max 2 c.capacity

end Config

/-! ## Stages -/

@[ext] structure Stage where
  /-- Escaped output, from a pair boundary on. -/
  output : Slice := ⟨[], by decide⟩
  /-- How many bytes of the front the sink has taken. -/
  sent : UInt64 := 0
  sent_le : sent ≤ output.length := by decide

namespace Stage

def exact (s : Stage) : TelnetEscape.Stage :=
  { bytes := s.output.bytes, sent := s.sent.toNat }

def unsent (s : Stage) : Bytes :=
  s.output.bytes.drop s.sent.toNat

/-- How many bytes are unsent. -/
def pending (s : Stage) : UInt64 :=
  s.output.length - s.sent

/-- What the taken bytes stand for. -/
def progress (s : Stage) : Progress :=
  Word.progress (s.output.take s.sent)

/-- The difference does not go below zero, because no more is sent than there is. -/
theorem toNat_pending (s : Stage) : s.pending.toNat = s.exact.pending := by
  rw [pending, UInt64.toNat_sub_of_le _ _ s.sent_le, Slice.toNat_length]
  rfl

theorem toNat_sent_le (s : Stage) : s.sent.toNat ≤ s.output.bytes.length := by
  rw [← s.output.toNat_length]
  exact UInt64.le_iff_toNat_le.mp s.sent_le

/-- The sink may claim any number of bytes. What is counted as sent grows by no more than there
was. -/
theorem toNat_sent_advance (s : Stage) (n : UInt64) :
    (s.sent + min n s.pending).toNat =
        s.sent.toNat + min n.toNat (s.output.bytes.length - s.sent.toNat) ∧
      (s.sent + min n s.pending).toNat ≤ s.output.bytes.length := by
  have hle := s.toNat_sent_le
  have hlt := s.output.length_lt
  have hmin : (min n s.pending).toNat = min n.toNat (s.output.bytes.length - s.sent.toNat) := by
    rw [toNat_min, toNat_pending]
    rfl
  have hsum : (s.sent + min n s.pending).toNat = s.sent.toNat + (min n s.pending).toNat :=
    toNat_add_of_lt (by omega)
  omega

/-- The sink says that it took `n` bytes of what is unsent. -/
def advance (s : Stage) (n : UInt64) : Stage where
  output := s.output
  sent := s.sent + min n s.pending
  sent_le := by
    rw [UInt64.le_iff_toNat_le, Slice.toNat_length]
    exact (s.toNat_sent_advance n).2

theorem exact_advance (s : Stage) (n : UInt64) :
    (s.advance n).exact = s.exact.advance n.toNat := by
  rw [exact, advance, (s.toNat_sent_advance n).1]
  rfl

theorem unsent_eq_nil_iff (s : Stage) : s.unsent = [] ↔ s.exact.pending = 0 :=
  s.exact.unsent_eq_nil_iff

/-- Taking some of what is unsent leaves less. -/
theorem pending_advance_lt (s : Stage) {n : UInt64} (hn : n ≠ 0) (hleft : s.unsent ≠ []) :
    (s.advance n).exact.pending < s.exact.pending := by
  rw [exact_advance]
  exact s.exact.pending_advance_lt (toNat_pos hn) (mt s.unsent_eq_nil_iff.mpr hleft)

theorem exact_progress (s : Stage) : s.progress.exact = s.exact.progress :=
  Word.exact_progress _

/-- How much of `data` fits into a stage of at most `limit` bytes. -/
def fitting (s : Stage) (limit : UInt64) (data : Slice) : UInt64 :=
  (appendFitting limit s.output data).2

theorem toNat_fitting (s : Stage) (limit : UInt64) (data : Slice) :
    (s.fitting limit data).toNat = s.exact.fitting limit.toNat data.bytes :=
  congrArg Prod.snd (exact_appendFitting limit s.output data)

theorem bytes_appendFitting (s : Stage) (limit : UInt64) (data : Slice) :
    (appendFitting limit s.output data).1 = (s.exact.fill limit.toNat data.bytes).bytes :=
  congrArg Prod.fst (exact_appendFitting limit s.output data)

/-- The output with the escaped form of as much of `data` as fits. -/
def outputWith (s : Stage) (limit : UInt64) (data : Slice) : Slice where
  bytes := (appendFitting limit s.output data).1
  length_lt := by
    have hle := s.exact.length_bytes_fill_le limit.toNat data.bytes
    rw [← bytes_appendFitting] at hle
    exact Nat.lt_of_le_of_lt hle (Nat.max_lt.mpr ⟨limit.toNat_lt, s.output.length_lt⟩)

theorem bytes_outputWith (s : Stage) (limit : UInt64) (data : Slice) :
    (s.outputWith limit data).bytes = (s.exact.fill limit.toNat data.bytes).bytes :=
  s.bytes_appendFitting limit data

/-- Adds the escaped form of as much of `data` as fits. -/
def fill (s : Stage) (limit : UInt64) (data : Slice) : Stage where
  output := s.outputWith limit data
  sent := s.sent
  sent_le := by
    rw [UInt64.le_iff_toNat_le, Slice.toNat_length, bytes_outputWith,
      TelnetEscape.Stage.bytes_fill, List.length_append]
    exact Nat.le_add_right_of_le s.toNat_sent_le

theorem exact_fill (s : Stage) (limit : UInt64) (data : Slice) :
    (s.fill limit data).exact = s.exact.fill limit.toNat data.bytes := by
  rw [exact, fill, bytes_outputWith]
  rfl

theorem fill_of_no_data (s : Stage) (limit : UInt64) {data : Slice} (hdata : data.bytes = []) :
    s.fill limit data = s := by
  apply Stage.ext
  · exact Slice.ext (congrArg Prod.fst (appendFitting_of_no_data limit s.output hdata))
  · rfl

end Stage

/-! ## Writers -/

structure Writer (σ : Type) where
  sink : σ
  config : Config
  stage : Stage := {}

namespace Writer

variable {σ : Type}

def exact (w : Writer σ) : TelnetEscape.Writer σ :=
  { sink := w.sink, config := w.config.exact, stage := w.stage.exact }

/-- How much of `data` fits beside what is staged. -/
def fitting (w : Writer σ) (data : Slice) : UInt64 :=
  w.stage.fitting w.config.stageLimit data

/-- Stages as much of `data` as fits beside what is staged. -/
def fill (w : Writer σ) (data : Slice) : Writer σ :=
  { w with stage := w.stage.fill w.config.stageLimit data }

/-- Empties the stage. -/
def clearStage (w : Writer σ) : Writer σ :=
  { w with stage := {} }

/-- The sink, in its new state `s`, says that it took `n` bytes of what it was offered. -/
def advance (w : Writer σ) (s : σ) (n : UInt64) : Writer σ :=
  { w with sink := s, stage := w.stage.advance n }

/-- Acts on the sink itself. -/
def onSink {α : Type} (w : Writer σ) (act : σ → α × σ) : α × Writer σ :=
  let (a, s) := act w.sink
  (a, { w with sink := s })

/-- Reports an event. -/
def observe [Observer σ] (w : Writer σ) (e : Event) : Writer σ :=
  { w with sink := Observer.observe w.sink e }

theorem toNat_fitting (w : Writer σ) (data : Slice) :
    (w.fitting data).toNat = w.exact.fitting data.bytes := by
  rw [fitting, Stage.toNat_fitting, Config.toNat_stageLimit]
  rfl

/-- Staging takes some of any data, unless something is staged already. -/
theorem length_drop_fitting_lt (w : Writer σ) {data : Slice} (hdata : data.bytes ≠ []) :
    (data.drop (w.fitting data)).bytes.length <
      data.bytes.length + w.stage.output.bytes.length := by
  have hlength := List.length_pos_iff.mpr hdata
  rw [Slice.bytes_drop, List.length_drop]
  by_cases hstage : w.stage.output.bytes = []
  · have hroom : w.exact.config.stageLimit - w.exact.stage.bytes.length =
        w.exact.config.stageLimit := by
      rw [show w.exact.stage.bytes = [] from hstage, List.length_nil, Nat.sub_zero]
    have hfit := fit_pos w.exact.config.two_le_stageLimit hdata
    rw [toNat_fitting, TelnetEscape.Writer.fitting, TelnetEscape.Stage.fitting_eq, hroom]
    omega
  · have := List.length_pos_iff.mpr hstage
    omega

theorem fitting_le (w : Writer σ) (data : Slice) :
    (w.fitting data).toNat ≤ data.bytes.length := by
  rw [toNat_fitting, TelnetEscape.Writer.fitting, TelnetEscape.Stage.fitting_eq]
  exact fit_le_length _ _

theorem exact_fill (w : Writer σ) (data : Slice) :
    (w.fill data).exact = w.exact.fill data.bytes := by
  rw [exact, fill, Stage.exact_fill, Config.toNat_stageLimit]
  rfl

theorem exact_advance (w : Writer σ) (s : σ) (n : UInt64) :
    (w.advance s n).exact = w.exact.advance s n.toNat := by
  rw [exact, advance, Stage.exact_advance]
  rfl

theorem progress_exact (w : Writer σ) : w.exact.stage.progress = w.stage.progress.exact :=
  w.stage.exact_progress.symm

theorem exact_clearStage (w : Writer σ) : w.clearStage.exact = w.exact.clearStage := rfl

/-! ## Batches

A writer starts a batch by staging onto an empty stage. -/

section
variable {w : Writer σ} (hstage : w.stage = {}) (data : Slice)
include hstage

theorem exact_stage_of_empty : w.exact.stage = {} := by
  rw [exact, hstage]
  rfl

theorem toNat_fitting_of_empty : (w.fitting data).toNat = w.exact.batchSize data.bytes := by
  rw [toNat_fitting, TelnetEscape.Writer.fitting, exact_stage_of_empty hstage]
  rfl

theorem exact_startBatch : w.exact.startBatch data.bytes = (w.fill data).exact := by
  rw [TelnetEscape.Writer.startBatch_eq_fill (exact_stage_of_empty hstage), exact_fill]

theorem bytes_startBatch :
    (w.fill data).exact.stage.bytes = escape (data.bytes.take (w.fitting data).toNat) := by
  rw [← exact_startBatch hstage, toNat_fitting_of_empty hstage]
  exact TelnetEscape.Writer.bytes_startBatch _ _

theorem sent_startBatch : (w.fill data).exact.stage.sent = 0 := by
  rw [← exact_startBatch hstage]
  exact TelnetEscape.Writer.sent_startBatch _ _

variable {data}

theorem length_drop_fitting_lt_of_empty (hdata : data.bytes ≠ []) :
    (data.drop (w.fitting data)).bytes.length < data.bytes.length := by
  have hlt := w.length_drop_fitting_lt hdata
  rwa [hstage, List.length_nil, Nat.add_zero] at hlt

end

end Writer
end TelnetEscape.Word
