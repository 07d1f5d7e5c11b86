import TelnetEscape.Proofs.Conservation
import TelnetEscape.Proofs.LongestFronts

/-!
# The contract of a polled write

A polled write asks the sink only if the stage has no room for the first byte of its data. In every
state of the writer it stages the longest front of the data that fits, beside what is staged or, when
that had to be pushed out first, on an empty stage (`PollWriteContract`). A write that is pending or
fails has staged nothing, and the sink took a front of what was staged before: to give it up, after
any number of polls, loses no byte and sends none twice (`WriteAttempt`).

`pollWrite_contract` states both, for every configuration and sink.
-/

namespace TelnetEscape

/-- The sink took `front` of what was unsent on a stage, and nothing else became of the stage. -/
structure Stage.SentFront (stage : Stage) (front : Bytes) (stage' : Stage) : Prop where
  bytes_eq : stage'.bytes = stage.bytes
  sent_eq : stage'.sent = stage.sent + front.length
  front_append_unsent : front ++ stage'.unsent = stage.unsent

namespace Stage.SentFront

variable {stage stage' stage'' : Stage} {a b : Bytes}

theorem nothing (stage : Stage) : stage.SentFront [] stage :=
  ⟨rfl, rfl, rfl⟩

theorem trans (h : stage.SentFront a stage') (h' : stage'.SentFront b stage'') :
    stage.SentFront (a ++ b) stage'' := by
  refine ⟨h'.bytes_eq.trans h.bytes_eq, ?_, ?_⟩
  · rw [h'.sent_eq, h.sent_eq, List.length_append, Nat.add_assoc]
  · rw [List.append_assoc, h'.front_append_unsent, h.front_append_unsent]

end Stage.SentFront

theorem PollDrains.sentFront {stage stage' : Stage} {lines : Journal}
    {answer : Poll (Except SinkError Unit)} (h : PollDrains stage lines answer stage')
    (unfinished : answer ≠ .ready (.ok ())) : stage.SentFront lines.taken stage' := by
  refine ⟨h.bytes_eq unfinished, ?_, h.taken_append_unsent⟩
  cases h with
  | drained => exact absurd rfl unfinished
  | stopped offers => exact Stage.sent_advance_length offers.taken_prefix

/-! ## One poll -/

/-- What one poll of a write of some data does: its calls, its answer, and what it makes of a stage
of at most `limit` bytes. -/
inductive PollWriteContract (limit : Nat) (stage : Stage) :
    Bytes → Journal → Poll (Except SinkError Nat) → Stage → Prop
  | no_data : PollWriteContract limit stage [] [] (.ready (.ok 0)) stage
  /-- The first byte fits beside what is staged, sent or not. The sink is not called. -/
  | beside {b : UInt8} {data : Bytes} {n : Nat} (room : stage.bytes.length + width b ≤ limit)
      (longest : Longest (limit - stage.bytes.length) (b :: data) n) (some_staged : 0 < n) :
      PollWriteContract limit stage (b :: data) [] (.ready (.ok n))
        { bytes := stage.bytes ++ escape ((b :: data).take n), sent := stage.sent }
  /-- It does not fit, and the sink takes all that is unsent. -/
  | anew {b : UInt8} {data : Bytes} {n : Nat} {lines : Journal}
      (full : limit < stage.bytes.length + width b)
      (drains : PollDrains stage lines (.ready (.ok ())) {}) (all_taken : lines.taken = stage.unsent)
      (longest : Longest limit (b :: data) n) (some_staged : 0 < n) :
      PollWriteContract limit stage (b :: data) lines (.ready (.ok n))
        { bytes := escape ((b :: data).take n), sent := 0 }
  /-- It does not fit, and the sink is pending. -/
  | pending {b : UInt8} {data : Bytes} {lines : Journal} {stage' : Stage}
      (full : limit < stage.bytes.length + width b) (drains : PollDrains stage lines .pending stage')
      (kept : stage.SentFront lines.taken stage') :
      PollWriteContract limit stage (b :: data) lines .pending stage'
  /-- It does not fit, and the sink fails. -/
  | failed {b : UInt8} {data : Bytes} {lines : Journal} {e : SinkError} {stage' : Stage}
      (full : limit < stage.bytes.length + width b)
      (drains : PollDrains stage lines (.ready (.error e)) stage')
      (kept : stage.SentFront lines.taken stage') :
      PollWriteContract limit stage (b :: data) lines (.ready (.error e)) stage'

section
variable {limit : Nat} {stage stage' : Stage} {data : Bytes} {lines : Journal}

/-- A stage has room for some of the data just if it has for the first byte. -/
theorem Stage.fitting_cons_pos_iff (stage : Stage) (limit : Nat) (b : UInt8) (data : Bytes) :
    0 < stage.fitting limit (b :: data) ↔ stage.bytes.length + width b ≤ limit := by
  have hwidth := width_pos b
  rw [fitting_eq, fit_cons_pos_iff]
  omega

theorem Stage.lt_of_fitting_eq_zero {b : UInt8} (h : stage.fitting limit (b :: data) = 0) :
    limit < stage.bytes.length + width b := by
  apply Nat.lt_of_not_le
  intro hroom
  have hpos := (stage.fitting_cons_pos_iff limit b data).mpr hroom
  omega

theorem PollWrites.contract {answer : Poll (Except SinkError Nat)} (hlimit : 2 ≤ limit)
    (h : PollWrites limit stage data lines answer stage') :
    PollWriteContract limit stage data lines answer stage' := by
  cases data with
  | nil =>
    cases h with
    | nothing => exact .no_data
    | staged some_data | drained some_data | pending some_data | failed some_data =>
      exact absurd rfl some_data
  | cons b data =>
    cases h with
    | nothing no_data => cases no_data
    | staged _ room =>
      have hroom := (stage.fitting_cons_pos_iff limit b data).mp room
      rw [Stage.fitting_eq] at room
      rw [Stage.fill_eq, Stage.fitting_eq]
      exact .beside hroom (fit_longest _ _) room
    | drained some_data full drains =>
      rw [Stage.fill_eq, Stage.fitting_empty]
      exact .anew (Stage.lt_of_fitting_eq_zero full) drains drains.taken_eq_unsent
        (fit_longest limit _) (fit_pos hlimit some_data)
    | pending _ full drains =>
      exact .pending (Stage.lt_of_fitting_eq_zero full) drains (drains.sentFront (by simp))
    | failed _ full drains =>
      exact .failed (Stage.lt_of_fitting_eq_zero full) drains (drains.sentFront (by simp))

end

/-! ## Any number of polls -/

/-- A write that is polled a number of times. It is given up while it is pending, or a last poll has
its answer; up to then the sink took a front of what was staged. -/
inductive WriteAttempt (limit : Nat) (stage : Stage) (data : Bytes) :
    Journal → Option (Except SinkError Nat) → Stage → Prop
  | given_up {lines : Journal} {stage' : Stage} (kept : stage.SentFront lines.taken stage') :
      WriteAttempt limit stage data lines none stage'
  | answered {before lines : Journal} {between stage' : Stage} {answer : Except SinkError Nat}
      (kept : stage.SentFront before.taken between)
      (polled : PollWriteContract limit between data lines (.ready answer) stage') :
      WriteAttempt limit stage data (before ++ lines) (some answer) stage'

theorem PollWriteContract.sentFront_of_pending {limit : Nat} {stage stage' : Stage} {data : Bytes}
    {lines : Journal} (h : PollWriteContract limit stage data lines .pending stage') :
    stage.SentFront lines.taken stage' := by
  cases h with
  | pending _ _ kept => exact kept

/-- More polls before, all of them pending. -/
theorem WriteAttempt.after {limit : Nat} {stage between stage' : Stage} {data : Bytes}
    {before lines : Journal} {answer? : Option (Except SinkError Nat)}
    (hbefore : stage.SentFront before.taken between)
    (h : WriteAttempt limit between data lines answer? stage') :
    WriteAttempt limit stage data (before ++ lines) answer? stage' := by
  cases h with
  | given_up kept =>
    apply WriteAttempt.given_up
    rw [Journal.taken_append]
    exact hbefore.trans kept
  | @answered more lines _ _ _ kept polled =>
    rw [← List.append_assoc]
    refine .answered ?_ polled
    rw [Journal.taken_append]
    exact hbefore.trans kept

namespace Writer

variable {σ : Type} [AsyncSink σ]

/-- Polls a write at most so many times. -/
def writePolled (w : Writer σ) (polls : Nat) (data : Bytes) :
    Polled (Except SinkError Nat) (Writer σ) :=
  pollUpTo (oneCall (pollWrite · data)) polls () w

theorem pollWrite_meets_contract (w : Writer σ) (data : Bytes) :
    ∃ lines, w.Moves lines (w.pollWrite data).2 ∧
      PollWriteContract w.config.stageLimit w.stage data lines (w.pollWrite data).1
        (w.pollWrite data).2.stage := by
  obtain ⟨lines, hmoves, hwrites⟩ := w.pollWrite_writes data
  exact ⟨lines, hmoves, hwrites.contract w.config.two_le_stageLimit⟩

/-- By induction on the polls that are left, from a writer that was polled `made` times. -/
theorem pollFrom_attempts (w : Writer σ) (data : Bytes) (made polls : Nat) :
    ∃ lines, w.Moves lines (pollFrom (oneCall (pollWrite · data)) made polls () w).state ∧
      WriteAttempt w.config.stageLimit w.stage data lines
        (pollFrom (oneCall (pollWrite · data)) made polls () w).answer?
        (pollFrom (oneCall (pollWrite · data)) made polls () w).state.stage := by
  induction polls generalizing w made with
  | zero => exact ⟨[], ⟨.nil _, rfl⟩, .given_up (.nothing _)⟩
  | succ polls ih =>
    obtain ⟨lines, hmoves, hcontract⟩ := w.pollWrite_meets_contract data
    rw [pollFrom, oneCall]
    generalize w.pollWrite data = polled at *
    obtain ⟨answer, w'⟩ := polled
    cases answer with
    | ready answer => exact ⟨[] ++ lines, hmoves, .answered (.nothing _) hcontract⟩
    | pending =>
      obtain ⟨more, hmore, hattempt⟩ := ih w' (made + 1)
      rw [hmoves.config_eq] at hattempt
      exact ⟨lines ++ more, hmoves.append hmore,
        hattempt.after hcontract.sentFront_of_pending⟩

end Writer

/-- **The contract of a polled write.** In any state of a writer over any sink, one poll of a write
stages the longest front of the data that fits: beside what is staged, without a call, if the first
byte fits there; else on an empty stage, after the sink took all that was unsent. If the sink does
not, its answer is that of the write, and the stage is as it was but for a front that was sent. A
write that is polled any number of times makes no more of the stage until it has its answer. -/
theorem pollWrite_contract {σ : Type} [AsyncSink σ] (w : Writer (Journaled σ)) (data : Bytes) :
    (∃ lines, w.Moves lines (w.pollWrite data).2 ∧
      (w.pollWrite data).2.sink.journal = w.sink.journal ++ lines ∧
      PollWriteContract w.config.stageLimit w.stage data lines (w.pollWrite data).1
        (w.pollWrite data).2.stage) ∧
    ∀ polls, ∃ lines, w.Moves lines (w.writePolled polls data).state ∧
      (w.writePolled polls data).state.sink.journal = w.sink.journal ++ lines ∧
      WriteAttempt w.config.stageLimit w.stage data lines (w.writePolled polls data).answer?
        (w.writePolled polls data).state.stage := by
  constructor
  · obtain ⟨lines, hmoves, hcontract⟩ := w.pollWrite_meets_contract data
    exact ⟨lines, hmoves, Journaled.journal_of_asyncCalls hmoves.calls, hcontract⟩
  · intro polls
    obtain ⟨lines, hmoves, hattempt⟩ := w.pollFrom_attempts data 0 polls
    exact ⟨lines, hmoves, Journaled.journal_of_asyncCalls hmoves.calls, hattempt⟩

/-- Sent bytes take up room until the stage is empty. With one byte of room an IAC does not fit, so
the sink is asked; it takes one byte and is pending, then it takes the other one. -/
example :
    let sink : ScriptedSink := { script := { writes := { steps := [.take (some 1), .pending] } } }
    let w := ((Writer.fresh sink { capacity := 3 }).run [.write [1, 2]]).2
    (w.writePolled 1 [255]).answer? = none ∧
    (w.writePolled 1 [255]).state.stage = { bytes := [1, 2], sent := 1 } ∧
    (w.writePolled 2 [255]).answer? = some (.ok 1) ∧
    (w.writePolled 2 [255]).state.stage = { bytes := [255, 255], sent := 0 } := by
  cbv

end TelnetEscape
