import TelnetEscape.Proofs.SendOutcome
import TelnetEscape.Proofs.Word.Writer

/-!
# Blocking sends with counters of 64 bits

A blocking send counts what it has accepted and what it has staged, beside the bytes that are sent
of a stage. Here all three are words, and so is the answer of a sink, which may be any. The send
comes to the answer, the calls and the events of the exact one (`Writer.exact_send`).

* `Writer.exact_push`: pushing out a stage;
* `Batch.drain_ok`, `Batch.drain_error`: one batch, and what it adds to the count;
* `Batch.Between`: the invariant between two batches, that what is accepted and what is left are
  all of the data (`Between.next`);
* `Batch.exact_sendAll`: all batches.
-/

namespace TelnetEscape.Word

/-- A sink that answers at once, with a word. -/
class Sink (σ : Type) extends Observer σ where
  write : σ → Bytes → Except SinkError UInt64 × σ
  flush : σ → Except SinkError Unit × σ

/-- The sink with its answers in exact numbers. -/
instance Sink.exact {σ : Type} [Sink σ] : TelnetEscape.Sink σ where
  write s offered := ((write s offered).1.map UInt64.toNat, (write s offered).2)
  flush := flush

/-! ## Answers -/

/-- A send that did not get all of its input through. -/
structure Shortfall where
  delivered : UInt64
  tornPair : Bool
  cause : SinkError

def Shortfall.exact (f : Shortfall) : TelnetEscape.Shortfall :=
  ⟨f.delivered.toNat, f.tornPair, f.cause⟩

/-- The answer of a send in exact numbers. -/
def exactAnswer : Except Shortfall UInt64 → Except TelnetEscape.Shortfall Nat
  | .ok n => .ok n.toNat
  | .error f => .error f.exact

/-! ## Pushing out a stage -/

namespace Writer

variable {σ : Type} [Sink σ]

/-- Offers what is unsent until the sink has taken all of it or a write fails. -/
def push (w : Writer σ) : Except SinkError Unit × Writer σ :=
  if w.stage.unsent = [] then (.ok (), w)
  else
    match Sink.write w.sink w.stage.unsent with
    | (.ok n, s) =>
      if n = 0 then (.error .nothingTaken, { w with sink := s }) else push (w.advance s n)
    | (.error e, s) => (.error e, { w with sink := s })
termination_by w.stage.exact.pending
decreasing_by exact w.stage.pending_advance_lt ‹_› ‹_›

theorem exact_offer (w : Writer σ) :
    TelnetEscape.Sink.write w.exact.sink w.exact.stage.unsent =
      ((Sink.write w.sink w.stage.unsent).1.map UInt64.toNat,
        (Sink.write w.sink w.stage.unsent).2) := rfl

/-- By induction on the push: each answer in words is the one in exact numbers. -/
theorem exact_push (w : Writer σ) : w.exact.push = (w.push.1, w.push.2.exact) := by
  induction w using push.induct with
  | case1 w hdone =>
    have hpending : w.exact.stage.pending = 0 := w.stage.unsent_eq_nil_iff.mp hdone
    rw [push, if_pos hdone, TelnetEscape.Writer.push, if_pos hpending]
  | case2 w hleft s hwrite | case4 w hleft e s hwrite =>
    have hpending : w.exact.stage.pending ≠ 0 := mt w.stage.unsent_eq_nil_iff.mpr hleft
    rw [push, if_neg hleft, TelnetEscape.Writer.push, if_neg hpending, exact_offer, hwrite]
    rfl
  | case3 w hleft n s hwrite hn ih =>
    have hpending : w.exact.stage.pending ≠ 0 := mt w.stage.unsent_eq_nil_iff.mpr hleft
    obtain ⟨k, hk⟩ := exists_toNat_eq_succ hn
    have hanswer : (Except.ok n : Except SinkError UInt64).map UInt64.toNat = .ok (k + 1) := by
      rw [Except.map, hk]
    rw [push, if_neg hleft, TelnetEscape.Writer.push, if_neg hpending, exact_offer, hwrite, hanswer]
    dsimp only
    rw [if_neg hn, ← hk, ← exact_advance, ih]

def flush (w : Writer σ) : Except SinkError Unit × Writer σ :=
  w.onSink Sink.flush

theorem exact_flush (w : Writer σ) : w.exact.flush = (w.flush.1, w.flush.2.exact) := rfl

end Writer

/-! ## Batches -/

/-- A send at work. -/
structure Batch (σ : Type) where
  writer : Writer σ
  /-- Input bytes that the sink has in full. -/
  accepted : UInt64 := 0
  /-- Input bytes that the staged output stands for. -/
  staged : UInt64 := 0
  /-- The batch that failed ended between the two halves of a doubled IAC. -/
  tornPair : Bool := false

namespace Batch

variable {σ : Type}

/-- Stages as much of `data` as fits. -/
def stage (b : Batch σ) (data : Slice) : Batch σ :=
  { b with writer := b.writer.fill data, staged := b.staged + b.writer.fitting data }

theorem stage_of_no_data (b : Batch σ) {data : Slice} (hdata : data.bytes = []) :
    b.stage data = b := by
  have hfitting : b.writer.fitting data = 0 := by
    rw [Writer.fitting, Stage.fitting, appendFitting_of_no_data _ _ hdata]
  rw [stage, hfitting, UInt64.add_zero, Writer.fill, Stage.fill_of_no_data _ _ hdata]

/-- The answer of a send whose calls came to `outcome`. -/
def answer (b : Batch σ) : Except SinkError Unit → Except Shortfall UInt64
  | .ok () => .ok b.accepted
  | .error e => .error ⟨b.accepted, b.tornPair, e⟩

/-- Between two batches of a send of `whole`, with `rest` still to stage: nothing is staged, and
what is accepted and what is left are together what there was. -/
structure Between (whole : Slice) (b : Batch σ) (rest : Slice) : Prop where
  stage_eq : b.writer.stage = {}
  staged_eq : b.staged = 0
  accepted_add : b.accepted.toNat + rest.bytes.length = whole.bytes.length

namespace Between

variable {whole rest : Slice} {b : Batch σ}

theorem start {w : Writer σ} (hstage : w.stage = {}) (data : Slice) :
    Between data { writer := w } data :=
  ⟨hstage, rfl, Nat.zero_add _⟩

theorem staged_stage (h : Between whole b rest) :
    (b.stage rest).staged = b.writer.fitting rest := by
  rw [stage, h.staged_eq, UInt64.zero_add]

end Between

variable [Sink σ]

/-- Hands the staged output to the sink and empties the stage, whether that works or not. -/
def drain (b : Batch σ) : Except SinkError Unit × Batch σ :=
  match b.writer.push with
  | (.ok (), w) =>
    (.ok (), {
      writer := (w.observe (.drained w.stage.sent.toNat (some b.staged.toNat))).clearStage
      accepted := b.accepted + b.staged
      tornPair := b.tornPair })
  | (.error e, w) =>
    let p := w.stage.progress
    (.error e, {
      writer :=
        (w.observe (.failed (some w.stage.sent.toNat) p.inputs.toNat p.midPair e)).clearStage
      accepted := b.accepted + p.inputs
      tornPair := p.midPair })

theorem stage_drain (b : Batch σ) : b.drain.2.writer.stage = {} := by
  rw [drain]
  split <;> rfl

/-- Staging and handing over leaves less data to stage, or less that is staged. -/
theorem left_lt (b : Batch σ) {data : Slice} (hdata : data.bytes ≠ []) :
    (data.drop (b.writer.fitting data)).bytes.length +
        (b.stage data).drain.2.writer.stage.output.bytes.length <
      data.bytes.length + b.writer.stage.output.bytes.length := by
  rw [stage_drain]
  exact b.writer.length_drop_fitting_lt hdata

/-- Stages all of `data`, handing over what is staged whenever there is more to stage. -/
def stageAll (b : Batch σ) (data : Slice) : Except SinkError Unit × Batch σ :=
  if data.bytes = [] then (.ok (), b)
  else if (data.drop (b.writer.fitting data)).bytes = [] then (.ok (), b.stage data)
  else
    let drained := (b.stage data).drain
    match drained.1 with
    | .ok () => drained.2.stageAll (data.drop (b.writer.fitting data))
    | .error e => (.error e, drained.2)
termination_by data.bytes.length + b.writer.stage.output.bytes.length
decreasing_by exact b.left_lt ‹_›

/-- Stages all of `data` and hands over all that is staged. -/
def sendAll (b : Batch σ) (data : Slice) : Except SinkError Unit × Batch σ :=
  match b.stageAll data with
  | (.ok (), b') => b'.drain
  | (.error e, b') => (.error e, b')

/-! ## One batch -/

section
variable {b b' : Batch σ} {data : Slice}

theorem drain_ok (h : b.drain = (.ok (), b')) :
    b.writer.exact.drain b.staged.toNat = (.ok (), b'.writer.exact) ∧
      b'.accepted = b.accepted + b.staged ∧ b'.staged = 0 ∧ b'.tornPair = b.tornPair := by
  rw [drain] at h
  rw [TelnetEscape.Writer.drain, b.writer.exact_push]
  generalize b.writer.push = pushed at *
  obtain ⟨answer, w⟩ := pushed
  cases answer with
  | error e => cases h
  | ok _ =>
    cases h
    exact ⟨rfl, rfl, rfl, rfl⟩

/-- A batch that fell short stands for no more than the input behind it, so counting what got
through does not wrap around if counting all of it would not. -/
theorem drain_error {e : SinkError} {piece : Bytes} (h : b.drain = (.error e, b'))
    (hbytes : b.writer.exact.stage.bytes = escape piece) (hsent : b.writer.exact.stage.sent = 0)
    (hfits : b.accepted.toNat + piece.length < 2 ^ 64) :
    ∃ delivered, b.writer.exact.drain b.staged.toNat =
        (.error ⟨delivered, b'.tornPair, e⟩, b'.writer.exact) ∧
      b'.accepted.toNat = b.accepted.toNat + delivered ∧ delivered < piece.length := by
  obtain ⟨lines, -, hdrains, -⟩ := b.writer.exact.drain_drains b.staged.toNat hsent
  rw [drain] at h
  rw [TelnetEscape.Writer.drain, b.writer.exact_push] at hdrains ⊢
  generalize b.writer.push = pushed at *
  obtain ⟨answer, w⟩ := pushed
  cases answer with
  | ok _ => cases h
  | error e =>
    cases h
    have hlt : w.stage.progress.exact.inputs < piece.length := by
      rw [hbytes] at hdrains
      rw [← w.progress_exact]
      exact hdrains.fellShort.delivered_lt
    refine ⟨w.stage.progress.exact.inputs, ?_, toNat_add_of_lt ?_, hlt⟩
    · dsimp only
      rw [w.progress_exact]
      rfl
    · exact Nat.lt_trans (Nat.add_lt_add_left hlt _) hfits

end

/-! ## All batches -/

namespace Between

variable {whole rest : Slice} {b b' : Batch σ}

/-- A batch that got through, and what is accepted after it. -/
theorem toNat_accepted (h : Between whole b rest) (hdrain : (b.stage rest).drain = (.ok (), b')) :
    b'.accepted.toNat = b.accepted.toNat + (b.writer.fitting rest).toNat := by
  obtain ⟨-, haccepted, -⟩ := drain_ok hdrain
  have hle := b.writer.fitting_le rest
  have hfits := whole.length_lt
  have hadd := h.accepted_add
  rw [haccepted, h.staged_stage]
  exact toNat_add_of_lt (show b.accepted.toNat + _ < _ by omega)

theorem next (h : Between whole b rest) (hdrain : (b.stage rest).drain = (.ok (), b')) :
    Between whole b' (rest.drop (b.writer.fitting rest)) := by
  obtain ⟨-, -, hstaged, -⟩ := drain_ok hdrain
  have hempty := (b.stage rest).stage_drain
  have hadd := h.accepted_add
  have hle := b.writer.fitting_le rest
  rw [hdrain] at hempty
  refine ⟨hempty, hstaged, ?_⟩
  rw [h.toNat_accepted hdrain, Slice.bytes_drop, List.length_drop]
  omega

/-- A batch that fell short. -/
theorem exact_drain_error {e : SinkError} (h : Between whole b rest)
    (hdrain : (b.stage rest).drain = (.error e, b')) :
    ∃ delivered, (b.stage rest).writer.exact.drain (b.stage rest).staged.toNat =
        (.error ⟨delivered, b'.tornPair, e⟩, b'.writer.exact) ∧
      b'.accepted.toNat = b.accepted.toNat + delivered ∧ delivered < rest.bytes.length := by
  have hfits := whole.length_lt
  have hadd := h.accepted_add
  have hlen := List.length_take_le' (b.writer.fitting rest).toNat rest.bytes
  have hroom : (b.stage rest).accepted.toNat +
      (rest.bytes.take (b.writer.fitting rest).toNat).length < 2 ^ 64 := by
    show b.accepted.toNat + _ < _
    omega
  obtain ⟨delivered, hexact, haccepted, hlt⟩ := drain_error hdrain
    (Writer.bytes_startBatch h.stage_eq rest) (Writer.sent_startBatch h.stage_eq rest) hroom
  exact ⟨delivered, hexact, haccepted, Nat.lt_of_lt_of_le hlt hlen⟩

/-- What is accepted after a batch, whether it got through or fell short. -/
theorem accepted_drain_le (h : Between whole b rest) :
    (b.stage rest).drain.2.accepted.toNat ≤ whole.bytes.length := by
  have hadd := h.accepted_add
  have hle := b.writer.fitting_le rest
  cases hdrain : (b.stage rest).drain with
  | mk answer b' =>
  cases answer with
  | ok _ =>
    rw [h.toNat_accepted hdrain]
    omega
  | error e =>
    obtain ⟨delivered, -, haccepted, hlt⟩ := h.exact_drain_error hdrain
    rw [haccepted]
    omega

end Between

/-- The batches of a send of `data`: where it stands after any number of them got through, and the
data that is left. -/
inductive Rounds (data : Slice) (w : Writer σ) : Batch σ → Slice → Prop
  | start : Rounds data w { writer := w.clearStage } data
  | next {b b' : Batch σ} {rest : Slice} (before : Rounds data w b rest)
      (through : (b.stage rest).drain = (.ok (), b')) :
      Rounds data w b' (rest.drop (b.writer.fitting rest))

theorem Rounds.between {data rest : Slice} {w : Writer σ} {b : Batch σ}
    (h : Rounds data w b rest) : Between data b rest := by
  induction h with
  | start => exact .start rfl data
  | next _ through ih => exact ih.next through

/-- Staging first does nothing if there is no data, so every send is a first batch and the rest. -/
theorem sendAll_eq (b : Batch σ) (data : Slice) :
    b.sendAll data =
      let drained := (b.stage data).drain
      match drained.1 with
      | .ok () =>
        if (data.drop (b.writer.fitting data)).bytes = [] then drained
        else drained.2.sendAll (data.drop (b.writer.fitting data))
      | .error _ => drained := by
  rw [sendAll, stageAll]
  by_cases hdata : data.bytes = []
  · have hrest : (data.drop (b.writer.fitting data)).bytes = [] := by
      rw [Slice.bytes_drop, hdata, List.drop_nil]
    rw [if_pos hdata, b.stage_of_no_data hdata]
    dsimp only
    rw [if_pos hrest]
    rcases b.drain with ⟨_ | _, b'⟩ <;> rfl
  rw [if_neg hdata]
  by_cases hrest : (data.drop (b.writer.fitting data)).bytes = []
  · rw [if_pos hrest]
    dsimp only
    rw [if_pos hrest]
    rcases (b.stage data).drain with ⟨_ | _, b'⟩ <;> rfl
  · rw [if_neg hrest]
    dsimp only
    rw [if_neg hrest]
    rcases (b.stage data).drain with ⟨_ | _, b'⟩
    · rfl
    · rfl

/-- By induction on the data that is left to stage. -/
theorem exact_sendAll {whole : Slice} {b : Batch σ} {rest : Slice} (h : Between whole b rest) :
    b.writer.exact.sendBatches b.accepted.toNat rest.bytes =
        (exactAnswer ((b.sendAll rest).2.answer (b.sendAll rest).1),
          (b.sendAll rest).2.writer.exact) ∧
      ((b.sendAll rest).1 = .ok () → (b.sendAll rest).2.tornPair = b.tornPair) := by
  induction hlen : rest.bytes.length using Nat.strongRecOn generalizing b rest with
  | ind len ih =>
    have hstart : b.writer.exact.startBatch rest.bytes = (b.stage rest).writer.exact :=
      Writer.exact_startBatch h.stage_eq rest
    rw [sendAll_eq, TelnetEscape.Writer.sendBatches, hstart,
      ← Writer.toNat_fitting_of_empty h.stage_eq, ← h.staged_stage]
    cases hdrain : (b.stage rest).drain with
    | mk answer b' =>
    cases answer with
    | error e =>
      obtain ⟨delivered, hexact, haccepted, -⟩ := h.exact_drain_error hdrain
      rw [hexact]
      dsimp only
      rw [← haccepted]
      refine ⟨rfl, fun hok => ?_⟩
      cases hok
    | ok _ =>
      obtain ⟨hexact, -, -, htorn⟩ := drain_ok hdrain
      rw [hexact]
      dsimp only
      rw [h.staged_stage, ← h.toNat_accepted hdrain, ← Slice.bytes_drop]
      by_cases hrest : (rest.drop (b.writer.fitting rest)).bytes = []
      · rw [if_pos hrest, if_pos hrest]
        exact ⟨rfl, fun _ => htorn⟩
      · rw [if_neg hrest, if_neg hrest]
        have hshorter : (rest.drop (b.writer.fitting rest)).bytes.length < len := by
          rw [← hlen]
          refine Writer.length_drop_fitting_lt_of_empty h.stage_eq fun hnil => hrest ?_
          rw [Slice.bytes_drop, hnil, List.drop_nil]
        have hih := ih _ hshorter (h.next hdrain) rfl
        exact ⟨hih.1, fun hok => (hih.2 hok).trans htorn⟩

end Batch

/-! ## Sends -/

namespace Writer

variable {σ : Type} [Sink σ]

/-- Escapes `data` and hands it to the sink. With `flushSink` the sink is flushed at the end, and of
two errors the first stands. -/
def send (w : Writer σ) (data : Slice) : Except Shortfall UInt64 × Writer σ :=
  let sent := ({ writer := w.clearStage } : Batch σ).sendAll data
  if sent.2.writer.config.flushSink then
    let flushed := sent.2.writer.flush
    (sent.2.answer (sent.1 >>= fun _ => flushed.1), flushed.2)
  else (sent.2.answer sent.1, sent.2.writer)

/-- What is staged before a send has no part in it. -/
theorem sendBatches_clearStage (w : TelnetEscape.Writer σ) (delivered : Nat) (data : Bytes) :
    w.clearStage.sendBatches delivered data = w.sendBatches delivered data := by
  rw [TelnetEscape.Writer.sendBatches.eq_def w.clearStage,
    TelnetEscape.Writer.sendBatches.eq_def w]
  rfl

/-- The send in words is the exact one. -/
theorem exact_send (w : Writer σ) (data : Slice) :
    w.exact.send data.bytes = (exactAnswer (w.send data).1, (w.send data).2.exact) := by
  obtain ⟨hsent, htorn⟩ := Batch.exact_sendAll (.start (w := w.clearStage) rfl data)
  rw [TelnetEscape.Writer.send, ← sendBatches_clearStage, ← exact_clearStage]
  rw [UInt64.toNat_zero] at hsent
  rw [hsent, send]
  generalize ({ writer := w.clearStage } : Batch σ).sendAll data = sent at *
  obtain ⟨outcome, b⟩ := sent
  dsimp only at htorn ⊢
  by_cases hflush : b.writer.config.flushSink = true
  · have hflush' : b.writer.exact.config.flushSink = true := hflush
    rw [if_pos hflush, if_pos hflush', TelnetEscape.Writer.endFlush, exact_flush]
    obtain ⟨flushed, w'⟩ := b.writer.flush
    cases flushed with
    | ok _ => rcases outcome with _ | _ <;> rfl
    | error e =>
      rcases outcome with _ | _
      · rfl
      · have hwhole : b.tornPair = false := htorn rfl
        show _ = (Except.error (Shortfall.exact ⟨b.accepted, b.tornPair, e⟩), w'.exact)
        rw [hwhole]
        rfl
  · have hflush' : ¬ b.writer.exact.config.flushSink = true := hflush
    rw [if_neg hflush, if_neg hflush']

end Writer
end TelnetEscape.Word
