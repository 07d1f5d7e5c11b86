import TelnetEscape.Proofs.PolledSendOutcome
import TelnetEscape.Proofs.Word.Blocking

/-!
# Polled writers with counters of 64 bits

A polled send carries its counters from one poll to the next: what is delivered, and what the staged
batch stands for. That they do not wrap around depends on what is staged, so it takes an invariant
of the pending send (`Sending.Underway`), which every poll preserves (`Underway.next`).

* `Writer.exact_pollDrain`, `Writer.exact_pollWrite`, `Writer.exact_pollFlush`,
  `Writer.exact_pollShutdown`: these are exact in any state;
* `Underway.exact_pollSend`: one poll of a send that is under way;
* `Writer.exact_sendPolled`: any number of polls of a send from its start.
-/

namespace TelnetEscape.Word

/-- A sink that may be pending and answers with a word. -/
class AsyncSink (σ : Type) extends Observer σ where
  pollWrite : σ → Bytes → Poll (Except SinkError UInt64) × σ
  pollFlush : σ → Poll (Except SinkError Unit) × σ
  pollShutdown : σ → Poll (Except SinkError Unit) × σ

/-- The answer of a polled write in exact numbers. -/
def exactPoll : Poll (Except SinkError UInt64) → Poll (Except SinkError Nat)
  | .pending => .pending
  | .ready answer => .ready (answer.map UInt64.toNat)

/-- The sink with its answers in exact numbers. -/
instance AsyncSink.exact {σ : Type} [AsyncSink σ] : TelnetEscape.AsyncSink σ where
  pollWrite s offered := (exactPoll (pollWrite s offered).1, (pollWrite s offered).2)
  pollFlush := pollFlush
  pollShutdown := pollShutdown

/-! ## Draining -/

theorem Stage.sent_lt_iff (s : Stage) : s.sent < s.output.length ↔ s.exact.pending ≠ 0 := by
  rw [Slice.lt_length_iff, ← Nat.sub_ne_zero_iff_lt]
  rfl

namespace Writer

variable {σ : Type} [AsyncSink σ]

/-- Offers what is unsent until the sink has taken all of it, is pending or fails. -/
def pollPush (w : Writer σ) : Poll (Except SinkError Unit) × Writer σ :=
  if w.stage.sent < w.stage.output.length then
    match AsyncSink.pollWrite w.sink w.stage.unsent with
    | (.pending, s) => (.pending, { w with sink := s })
    | (.ready (.ok n), s) =>
      if n = 0 then (.ready (.error .nothingTaken), { w with sink := s })
      else pollPush (w.advance s n)
    | (.ready (.error e), s) => (.ready (.error e), { w with sink := s })
  else (.ready (.ok ()), w)
termination_by w.stage.exact.pending
decreasing_by
  have hleft : w.exact.stage.pending ≠ 0 := w.stage.sent_lt_iff.mp ‹_›
  exact w.stage.pending_advance_lt ‹_› (mt w.stage.unsent_eq_nil_iff.mp hleft)

theorem exact_pollOffer (w : Writer σ) :
    TelnetEscape.AsyncSink.pollWrite w.exact.sink w.exact.stage.unsent =
      (exactPoll (AsyncSink.pollWrite w.sink w.stage.unsent).1,
        (AsyncSink.pollWrite w.sink w.stage.unsent).2) := rfl

/-- By induction on the push: each answer in words is the one in exact numbers. -/
theorem exact_pollPush (w : Writer σ) :
    w.exact.pollPush = (w.pollPush.1, w.pollPush.2.exact) := by
  induction w using pollPush.induct with
  | case1 w hleft s hwrite | case2 w hleft s hwrite | case4 w hleft e s hwrite =>
    have hpending : w.exact.stage.pending ≠ 0 := w.stage.sent_lt_iff.mp hleft
    rw [pollPush, if_pos hleft, TelnetEscape.Writer.pollPush, if_neg hpending, exact_pollOffer,
      hwrite]
    rfl
  | case3 w hleft n s hwrite hn ih =>
    have hpending : w.exact.stage.pending ≠ 0 := w.stage.sent_lt_iff.mp hleft
    obtain ⟨k, hk⟩ := exists_toNat_eq_succ hn
    have hanswer : exactPoll (.ready (.ok n)) = .ready (.ok (k + 1)) := by
      rw [exactPoll, Except.map, hk]
    rw [pollPush, if_pos hleft, TelnetEscape.Writer.pollPush, if_neg hpending, exact_pollOffer,
      hwrite, hanswer]
    dsimp only
    rw [if_neg hn, ← hk, ← exact_advance, ih]
  | case5 w hdone =>
    have hpending : w.exact.stage.pending = 0 := by
      rwa [w.stage.sent_lt_iff, Decidable.not_not] at hdone
    rw [pollPush, if_neg hdone, TelnetEscape.Writer.pollPush, if_pos hpending]

/-- Empties a stage that was sent in full, and reports it unless it was empty before. -/
def settle (w : Writer σ) : Writer σ :=
  if w.stage.output.bytes = [] then w.clearStage
  else (w.observe (.drained w.stage.output.length.toNat none)).clearStage

theorem exact_settle (w : Writer σ) : w.exact.settle = w.settle.exact := by
  rw [settle, Slice.toNat_length, TelnetEscape.Writer.settle]
  by_cases hempty : w.stage.output.bytes = []
  · rw [if_pos hempty, if_pos (show w.exact.stage.bytes = [] from hempty)]
    rfl
  · rw [if_neg hempty, if_neg (show ¬ w.exact.stage.bytes = [] from hempty)]
    rfl

/-- Pushes out the stage and empties it when all of it is sent. -/
def pollDrain (w : Writer σ) : Poll (Except SinkError Unit) × Writer σ :=
  match w.pollPush with
  | (.ready (.ok ()), w) => (.ready (.ok ()), w.settle)
  | (.ready (.error e), w) => (.ready (.error e), w)
  | (.pending, w) => (.pending, w)

theorem exact_pollDrain (w : Writer σ) :
    w.exact.pollDrain = (w.pollDrain.1, w.pollDrain.2.exact) := by
  rw [pollDrain, TelnetEscape.Writer.pollDrain, exact_pollPush]
  rcases w.pollPush with ⟨_ | _ | _, w'⟩
  · rfl
  · rfl
  · show (Poll.ready (Except.ok ()), w'.exact.settle) = (_, w'.settle.exact)
    rw [exact_settle]

theorem stage_settle (w : Writer σ) : w.settle.stage = {} := by
  unfold settle
  split <;> rfl

/-- A drain that gets to the end leaves nothing staged. -/
theorem stage_pollDrain {w w' : Writer σ} (h : w.pollDrain = (.ready (.ok ()), w')) :
    w'.stage = {} := by
  rw [pollDrain] at h
  split at h
  all_goals cases h
  exact stage_settle _

/-! ## Writes, flushes and shutdowns -/

/-- Stages as much of `data` as there is room for, pushing out the stage first if there is none. -/
def pollWrite (w : Writer σ) (data : Slice) : Poll (Except SinkError UInt64) × Writer σ :=
  if data.bytes = [] then (.ready (.ok 0), w)
  else if 0 < w.fitting data then (.ready (.ok (w.fitting data)), w.fill data)
  else
    match w.pollDrain with
    | (.ready (.ok ()), w) => (.ready (.ok (w.fitting data)), w.fill data)
    | (.ready (.error e), w) => (.ready (.error e), w)
    | (.pending, w) => (.pending, w)

theorem exact_pollWrite (w : Writer σ) (data : Slice) :
    w.exact.pollWrite data.bytes = (exactPoll (w.pollWrite data).1, (w.pollWrite data).2.exact) := by
  rw [pollWrite, TelnetEscape.Writer.pollWrite, ← toNat_fitting, ← exact_fill, exact_pollDrain]
  by_cases hdata : data.bytes = []
  · rw [if_pos hdata, if_pos hdata]
    rfl
  rw [if_neg hdata, if_neg hdata]
  have hroom_iff : 0 < w.fitting data ↔ 0 < (w.fitting data).toNat := UInt64.lt_iff_toNat_lt
  by_cases hroom : 0 < w.fitting data
  · rw [if_pos hroom, if_pos (hroom_iff.mp hroom)]
    rfl
  rw [if_neg hroom, if_neg (mt hroom_iff.mpr hroom)]
  rcases w.pollDrain with ⟨_ | _ | _, w'⟩
  · rfl
  · rfl
  · dsimp only
    rw [← toNat_fitting, ← exact_fill]
    rfl

/-- Pushes out the stage, then flushes the sink. -/
def pollFlush (w : Writer σ) : Poll (Except SinkError Unit) × Writer σ :=
  match w.pollDrain with
  | (.ready (.ok ()), w) => w.onSink AsyncSink.pollFlush
  | (answer, w) => (answer, w)

theorem exact_pollFlush (w : Writer σ) :
    w.exact.pollFlush = (w.pollFlush.1, w.pollFlush.2.exact) := by
  rw [pollFlush, TelnetEscape.Writer.pollFlush, exact_pollDrain]
  rcases w.pollDrain with ⟨_ | _ | _, w'⟩ <;> rfl

/-- Pushes out the stage, then shuts the sink down. -/
def pollShutdown (w : Writer σ) : Poll (Except SinkError Unit) × Writer σ :=
  match w.pollDrain with
  | (.ready (.ok ()), w) => w.onSink AsyncSink.pollShutdown
  | (answer, w) => (answer, w)

theorem exact_pollShutdown (w : Writer σ) :
    w.exact.pollShutdown = (w.pollShutdown.1, w.pollShutdown.2.exact) := by
  rw [pollShutdown, TelnetEscape.Writer.pollShutdown, exact_pollDrain]
  rcases w.pollDrain with ⟨_ | _ | _, w'⟩ <;> rfl

end Writer

/-! ## Sends -/

/-- What is left of a send. -/
inductive Sending
  | clearing (data : Slice)
  | pushing (delivered inputs : UInt64) (rest : Slice)
  | flushing (delivered : UInt64)

def Sending.exact : Sending → TelnetEscape.Sending
  | clearing data => .clearing data.bytes
  | pushing delivered inputs rest => .pushing delivered.toNat inputs.toNat rest.bytes
  | flushing delivered => .flushing delivered.toNat

/-- What one poll makes of a send. -/
abbrev SendTurn := Turn Sending (Except Shortfall UInt64)

def exactTurn : SendTurn → TelnetEscape.SendTurn
  | .pending left => .pending left.exact
  | .ready answer => .ready (exactAnswer answer)

/-- A turn and the writer after it, in exact numbers. -/
def exactPolled {σ : Type} (polled : SendTurn × Writer σ) :
    TelnetEscape.SendTurn × TelnetEscape.Writer σ :=
  (exactTurn polled.1, polled.2.exact)

namespace Writer

variable {σ : Type} [AsyncSink σ]

/-- A poll of the flush at the end. -/
def pollEndFlush (w : Writer σ) (delivered : UInt64) : SendTurn × Writer σ :=
  match w.onSink AsyncSink.pollFlush with
  | (.pending, w) => (.pending (.flushing delivered), w)
  | (.ready (.ok ()), w) => (.ready (.ok delivered), w)
  | (.ready (.error e), w) => (.ready (.error ⟨delivered, false, e⟩), w)

/-- All data is through. -/
def finishSend (w : Writer σ) (delivered : UInt64) : SendTurn × Writer σ :=
  if w.config.flushSink then w.pollEndFlush delivered else (.ready (.ok delivered), w)

/-- The sink failed with `e` on a batch of this send: what is left of the batch is dropped. -/
def abandonBatch (w : Writer σ) (delivered : UInt64) (e : SinkError) : SendTurn × Writer σ :=
  let p := w.stage.progress
  (.ready (.error ⟨delivered + p.inputs, p.midPair, e⟩),
    w.clearStage.observe (.failed none (delivered + p.inputs).toNat p.midPair e))

/-- Sends `data` batch by batch, after `delivered` bytes that are through. -/
def pollBatches (w : Writer σ) (delivered : UInt64) (data : Slice) : SendTurn × Writer σ :=
  if data.bytes = [] then w.finishSend delivered
  else
    match _ : (w.fill data).pollDrain with
    | (.pending, w') =>
      (.pending (.pushing delivered (w.fitting data) (data.drop (w.fitting data))), w')
    | (.ready (.error e), w') => w'.abandonBatch delivered e
    | (.ready (.ok ()), w') =>
      pollBatches w' (delivered + w.fitting data) (data.drop (w.fitting data))
termination_by data.bytes.length + w.stage.output.bytes.length
decreasing_by
  rw [stage_pollDrain ‹(w.fill data).pollDrain = _›]
  exact w.length_drop_fitting_lt ‹_›

/-- One poll of a send. -/
def pollSend (w : Writer σ) : Sending → SendTurn × Writer σ
  | .clearing data =>
    match w.pollDrain with
    | (.pending, w) => (.pending (.clearing data), w)
    | (.ready (.error e), w) => (.ready (.error ⟨0, false, e⟩), w)
    | (.ready (.ok ()), w) => w.pollBatches 0 data
  | .pushing delivered inputs rest =>
    match w.pollDrain with
    | (.pending, w) => (.pending (.pushing delivered inputs rest), w)
    | (.ready (.error e), w) => w.abandonBatch delivered e
    | (.ready (.ok ()), w) => w.pollBatches (delivered + inputs) rest
  | .flushing delivered => w.pollEndFlush delivered

theorem exact_pollEndFlush (w : Writer σ) (delivered : UInt64) :
    w.exact.pollEndFlush delivered.toNat = exactPolled (w.pollEndFlush delivered) := by
  have hflush : w.exact.onSink TelnetEscape.AsyncSink.pollFlush =
      ((w.onSink AsyncSink.pollFlush).1, (w.onSink AsyncSink.pollFlush).2.exact) := rfl
  rw [pollEndFlush, TelnetEscape.Writer.pollEndFlush, hflush]
  rcases w.onSink AsyncSink.pollFlush with ⟨_ | _ | _, w'⟩ <;> rfl

theorem exact_finishSend (w : Writer σ) (delivered : UInt64) :
    w.exact.finishSend delivered.toNat = exactPolled (w.finishSend delivered) := by
  rw [finishSend, TelnetEscape.Writer.finishSend, exact_pollEndFlush]
  by_cases hflush : w.config.flushSink = true
  · rw [if_pos hflush, if_pos (show w.exact.config.flushSink = true from hflush)]
  · rw [if_neg hflush, if_neg (show ¬ w.exact.config.flushSink = true from hflush)]
    rfl

theorem exact_abandonBatch (w : Writer σ) (delivered : UInt64) (e : SinkError)
    (hfits : delivered.toNat + w.stage.progress.inputs.toNat < 2 ^ 64) :
    w.exact.abandonBatch delivered.toNat e = exactPolled (w.abandonBatch delivered e) := by
  rw [abandonBatch, TelnetEscape.Writer.abandonBatch, progress_exact, exactPolled, exactTurn,
    exactAnswer, Shortfall.exact, toNat_add_of_lt hfits]
  rfl

/-- What the front of a batch stands for is no more than the input behind the batch. -/
theorem progress_le_of_failed {w w' : Writer σ} {e : SinkError} {piece : Bytes}
    (hdrain : w.pollDrain = (.ready (.error e), w'))
    (hbytes : w.stage.output.bytes = escape piece) :
    w'.stage.progress.inputs.toNat ≤ piece.length := by
  obtain ⟨lines, -, hdrains⟩ := w.exact.pollDrain_drains
  rw [exact_pollDrain, hdrain] at hdrains
  have hpiece : w.exact.stage.bytes = escape ((piece.drop 0).take piece.length) := by
    rw [List.drop_zero, List.take_length]
    exact hbytes
  have hle := (hdrains.reaches hpiece (Nat.zero_le _)).inputs_le
  rw [Nat.zero_add] at hle
  dsimp only at hle
  rw [progress_exact] at hle
  exact hle

/-- A poll that finds the escaped form of `piece` staged, if it is known how it goes on. -/
theorem exact_pollSend_pushing (w : Writer σ) (delivered inputs : UInt64) (rest : Slice)
    {piece : Bytes} (hbytes : w.stage.output.bytes = escape piece)
    (hinputs : inputs.toNat = piece.length) (hfits : delivered.toNat + piece.length < 2 ^ 64)
    (go_on : ∀ w' : Writer σ, w'.stage = {} → w'.exact.pollBatches (delivered + inputs).toNat
      rest.bytes = exactPolled (w'.pollBatches (delivered + inputs) rest)) :
    w.exact.pollSend (.pushing delivered.toNat inputs.toNat rest.bytes) =
      exactPolled (w.pollSend (.pushing delivered inputs rest)) := by
  rw [pollSend, TelnetEscape.Writer.pollSend, exact_pollDrain]
  cases hdrain : w.pollDrain with
  | mk answer w' =>
  rcases answer with _ | e | _
  case pending => rfl
  case ready.error =>
    have hle := progress_le_of_failed hdrain hbytes
    exact w'.exact_abandonBatch delivered e (by omega)
  case ready.ok =>
    rw [← hinputs] at hfits
    dsimp only
    rw [← toNat_add_of_lt hfits]
    exact go_on w' (stage_pollDrain hdrain)

/-- A poll that has data to stage goes on like one that finds its first batch staged. -/
theorem pollBatches_eq (w : Writer σ) (delivered : UInt64) {data : Slice}
    (hdata : data.bytes ≠ []) :
    w.pollBatches delivered data = (w.fill data).pollSend
      (.pushing delivered (w.fitting data) (data.drop (w.fitting data))) := by
  rw [pollBatches, if_neg hdata, pollSend]
  rcases (w.fill data).pollDrain with ⟨_ | _ | _, w'⟩ <;> rfl

/-- By induction on the data that is left to stage. What is delivered and what is left are together
what there was, and that fits a word. -/
theorem exact_pollBatches (w : Writer σ) (delivered : UInt64) (data : Slice)
    (hstage : w.stage = {}) (hfits : delivered.toNat + data.bytes.length < 2 ^ 64) :
    w.exact.pollBatches delivered.toNat data.bytes = exactPolled (w.pollBatches delivered data) := by
  induction hlen : data.bytes.length using Nat.strongRecOn generalizing w delivered data with
  | ind len ih =>
    by_cases hdata : data.bytes = []
    · rw [pollBatches, TelnetEscape.Writer.pollBatches, if_pos hdata, if_pos hdata]
      exact w.exact_finishSend delivered
    have hle := w.fitting_le data
    have hpiece := List.length_take_of_le hle
    have hrest : (data.drop (w.fitting data)).bytes.length =
        data.bytes.length - (w.fitting data).toNat := List.length_drop
    have hnext : (delivered + w.fitting data).toNat =
        delivered.toNat + (w.fitting data).toNat := toNat_add_of_lt (by omega)
    rw [w.pollBatches_eq delivered hdata, w.exact.pollBatches_eq delivered.toNat hdata,
      exact_startBatch hstage, ← toNat_fitting_of_empty hstage]
    refine (w.fill data).exact_pollSend_pushing delivered (w.fitting data)
      (data.drop (w.fitting data)) (bytes_startBatch hstage data) hpiece.symm (by omega)
      fun w' hw' => ?_
    exact ih _ (hlen ▸ length_drop_fitting_lt_of_empty hstage hdata) w' _ _ hw' (by omega) rfl

end Writer

/-! ## Sends over many polls -/

namespace Sending

variable {σ : Type}

/-- A send of `data` is under way: what it has staged is the escaped form of the part of the data
that it counts as staged. -/
structure Underway (data : Slice) (sending : Sending) (w : Writer σ) : Prop where
  standing : Standing data.bytes sending.exact w.exact.stage
  awaits : sending.exact.Awaits w.exact.config

namespace Underway

variable {data : Slice} {sending left : Sending} {w w' : Writer σ}

theorem start (w : Writer σ) (data : Slice) : Underway data (.clearing data) w :=
  ⟨.clearing, trivial⟩

variable [AsyncSink σ]

/-- One poll in words is the exact one. -/
theorem exact_pollSend (h : Underway data sending w) :
    w.exact.pollSend sending.exact = exactPolled (w.pollSend sending) := by
  cases sending with
  | clearing rest =>
    have hfits : (0 : UInt64).toNat + rest.bytes.length < 2 ^ 64 := by
      rw [UInt64.toNat_zero, Nat.zero_add]
      exact rest.length_lt
    rw [exact, TelnetEscape.Writer.pollSend, Writer.pollSend, Writer.exact_pollDrain]
    cases hdrain : w.pollDrain with
    | mk answer w' =>
    rcases answer with _ | _ | _
    · rfl
    · rfl
    · exact w'.exact_pollBatches 0 rest (Writer.stage_pollDrain hdrain) hfits
  | pushing delivered inputs rest =>
    obtain ⟨hle, hbytes, hrest⟩ := h.standing.of_pushing
    have hfits := data.length_lt
    have hpiece : ((data.bytes.drop delivered.toNat).take inputs.toNat).length = inputs.toNat := by
      rw [List.length_take, List.length_drop]
      omega
    have hnext : (delivered + inputs).toNat = delivered.toNat + inputs.toNat :=
      toNat_add_of_lt (by omega)
    have hleft : (delivered + inputs).toNat + rest.bytes.length < 2 ^ 64 := by
      rw [hrest, List.length_drop]
      omega
    exact w.exact_pollSend_pushing delivered inputs rest hbytes hpiece.symm (by omega)
      fun w' hw' => w'.exact_pollBatches _ rest hw' hleft
  | flushing delivered => exact w.exact_pollEndFlush delivered

/-- What a poll leaves of a pending send is under way. -/
theorem next (h : Underway data sending w) (hpoll : w.pollSend sending = (.pending left, w')) :
    Underway data left w' := by
  obtain ⟨lines, hmoves, hpolls⟩ := w.exact.pollSend_polls sending.exact h.awaits
  rw [h.exact_pollSend, hpoll] at hmoves hpolls
  have hconfig : w'.exact.config = w.exact.config := hmoves.config_eq
  refine ⟨hpolls.standing h.standing rfl, ?_⟩
  rw [hconfig]
  exact hpolls.awaits rfl

/-- By induction on the polls. -/
theorem exact_pollFrom (h : Underway data sending w) (made polls : Nat) :
    let polled := pollFrom (fun sending w => w.pollSend sending) made polls sending w
    pollFrom (fun sending (w : TelnetEscape.Writer σ) => w.pollSend sending) made polls
        sending.exact w.exact =
      ⟨polled.polls, polled.answer?.map exactAnswer, polled.state.exact⟩ := by
  induction polls generalizing sending w made with
  | zero => rfl
  | succ polls ih =>
    rw [pollFrom, pollFrom, h.exact_pollSend]
    cases hpoll : w.pollSend sending with
    | mk turn w' =>
    cases turn with
    | ready answer => rfl
    | pending left => exact ih (h.next hpoll) (made + 1)

end Underway

/-- A send of `data` by `w` that is pending after any number of polls, and the writer then. -/
inductive Pending [AsyncSink σ] (data : Slice) (w : Writer σ) : Sending → Writer σ → Prop
  | start : Pending data w (.clearing data) w
  | polled {sending left : Sending} {w' w'' : Writer σ} (before : Pending data w sending w')
      (still_pending : w'.pollSend sending = (.pending left, w'')) : Pending data w left w''

theorem Pending.underway [AsyncSink σ] {data : Slice} {sending : Sending} {w w' : Writer σ}
    (h : Pending data w sending w') : sending.Underway data w' := by
  induction h with
  | start => exact .start w data
  | polled _ still_pending ih => exact ih.next still_pending

end Sending

namespace Writer

variable {σ : Type} [AsyncSink σ]

/-- A send of `data` that is polled at most so many times: its answer, unless it was still pending
when it was given up, and the writer afterwards. -/
def sendPolled (w : Writer σ) (polls : Nat) (data : Slice) :
    Option (Except Shortfall UInt64) × Writer σ :=
  let polled := pollUpTo (fun sending w => w.pollSend sending) polls (.clearing data) w
  (polled.answer?, polled.state)

theorem exact_sendPolled (w : Writer σ) (polls : Nat) (data : Slice) :
    w.exact.sendPolled polls data.bytes =
      ((w.sendPolled polls data).1.map exactAnswer, (w.sendPolled polls data).2.exact) := by
  have hpolled := (Sending.Underway.start w data).exact_pollFrom 0 polls
  rw [TelnetEscape.Writer.sendPolled, pollUpTo]
  dsimp only at hpolled ⊢
  rw [show TelnetEscape.Sending.clearing data.bytes = (Sending.clearing data).exact from rfl,
    hpolled]
  rfl

end Writer
end TelnetEscape.Word
