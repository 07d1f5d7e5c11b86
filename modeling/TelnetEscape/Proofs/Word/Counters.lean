import TelnetEscape.Proofs.PieceCounts
import TelnetEscape.Proofs.Word.Polled

/-!
# No counter wraps around

Lengths, counts and offsets are words of 64 bits, and a sink may answer an offer with any word. For
all data, any capacity and any sink each of them has the value that an exact integer would have.

* `AppendExact`: staging, with the room that is left after each of its rounds;
* `StageExact`: what counts as sent, whatever the sink claims;
* `SendExact`: a blocking send, with what it has accepted between any two batches (`Rounds`);
* `CallsExact`, `PolledSendExact`: single polls, and any number of polls of a send.
-/

namespace TelnetEscape.Word

/-! ## Staging -/

/-- Staging `data` into `buffer` is exact. -/
structure AppendExact (limit : UInt64) (buffer data : Slice) : Prop where
  result : ((appendFitting limit buffer data).1, (appendFitting limit buffer data).2.toNat) =
    TelnetEscape.appendFitting limit.toNat buffer.bytes data.bytes
  /-- After each round the room and what was taken from it are what there was, so no round took
  more than there was. -/
  round : ∀ (k : Nat) (f : Filling),
    (data.bytes.take k).foldlM (Filling.round data.bytes) (.initial limit buffer) = .ok f →
      f.room.toNat + TelnetEscape.escapedLength (data.bytes.take k) =
          limit.toNat - buffer.bytes.length ∧
        f.index.toNat = min k data.bytes.length

theorem appendExact (limit : UInt64) (buffer data : Slice) : AppendExact limit buffer data where
  result := exact_appendFitting limit buffer data
  round k f hrounds := by
    have hlen : (data.bytes.take k).length = min k data.bytes.length := List.length_take
    have hfits := data.length_lt
    obtain ⟨hroom, hindex⟩ := Filling.after_front hrounds (by
      rw [Filling.initial, UInt64.toNat_zero]
      omega)
    rw [Filling.initial] at hroom hindex
    rw [hroom, hindex, toNat_saturatingSub, Slice.toNat_length, hlen, UInt64.toNat_zero]
    exact ⟨rfl, Nat.zero_add _⟩

/-! ## Stages -/

/-- What a stage counts is exact, also when the sink claims to have taken `n` bytes. -/
structure StageExact (s : Stage) (n : UInt64) : Prop where
  pending : s.pending.toNat = s.output.bytes.length - s.sent.toNat
  advance : (s.advance n).sent.toNat =
    s.sent.toNat + min n.toNat (s.output.bytes.length - s.sent.toNat)
  sent_le : (s.advance n).sent.toNat ≤ s.output.bytes.length

theorem stageExact (s : Stage) (n : UInt64) : StageExact s n where
  pending := s.toNat_pending
  advance := (s.toNat_sent_advance n).1
  sent_le := (s.toNat_sent_advance n).2

/-! ## Blocking sends -/

/-- The input bytes that the answer of a send counts. -/
def counted : Except Shortfall UInt64 → UInt64
  | .ok n => n
  | .error f => f.delivered

theorem toNat_counted (answer : Except Shortfall UInt64) :
    (counted answer).toNat = (reported (exactAnswer answer)).inputs := by
  cases answer <;> rfl

/-- A blocking send of `data` is exact. -/
structure SendExact {σ : Type} [Sink σ] (w : Writer σ) (data : Slice) : Prop where
  /-- The answer, the calls and events of the sink, and the writer are the exact ones. -/
  result : w.exact.send data.bytes = (exactAnswer (w.send data).1, (w.send data).2.exact)
  counted_le : (counted (w.send data).1).toNat ≤ data.bytes.length
  /-- Between any two batches what is accepted and what is left are all of the data. -/
  accepted : ∀ b rest, Batch.Rounds data w b rest →
    b.accepted.toNat + rest.bytes.length = data.bytes.length
  /-- The next batch counts what it stands for, which is no more than what is left. -/
  staged : ∀ b rest, Batch.Rounds data w b rest →
    (b.stage rest).staged.toNat = b.writer.exact.batchSize rest.bytes ∧
      (b.stage rest).staged.toNat ≤ rest.bytes.length
  /-- After that batch, too, no more is accepted than there is data, also if it fell short. -/
  accepted_le : ∀ b rest, Batch.Rounds data w b rest →
    (b.stage rest).drain.2.accepted.toNat ≤ data.bytes.length

theorem sendExact {σ : Type} [Sink σ] (w : Writer σ) (data : Slice) : SendExact w data where
  result := w.exact_send data
  counted_le := by
    obtain ⟨lines, -, houtcome, -⟩ := w.exact.send_calls data.bytes
    rw [w.exact_send] at houtcome
    rw [toNat_counted]
    exact houtcome.inputs_reported_le
  accepted b rest h := h.between.accepted_add
  staged b rest h := by
    rw [h.between.staged_stage]
    exact ⟨Writer.toNat_fitting_of_empty h.between.stage_eq rest, b.writer.fitting_le rest⟩
  accepted_le b rest h := h.between.accepted_drain_le

/-! ## Polled writers -/

/-- One poll of a writer is exact. -/
structure CallsExact {σ : Type} [AsyncSink σ] (w : Writer σ) (data : Slice) : Prop where
  drain : w.exact.pollDrain = (w.pollDrain.1, w.pollDrain.2.exact)
  write : w.exact.pollWrite data.bytes =
    (exactPoll (w.pollWrite data).1, (w.pollWrite data).2.exact)
  flush : w.exact.pollFlush = (w.pollFlush.1, w.pollFlush.2.exact)
  shutdown : w.exact.pollShutdown = (w.pollShutdown.1, w.pollShutdown.2.exact)

theorem callsExact {σ : Type} [AsyncSink σ] (w : Writer σ) (data : Slice) : CallsExact w data where
  drain := w.exact_pollDrain
  write := w.exact_pollWrite data
  flush := w.exact_pollFlush
  shutdown := w.exact_pollShutdown

/-- A polled send of `data` is exact. -/
structure PolledSendExact {σ : Type} [AsyncSink σ] (w : Writer σ) (data : Slice) : Prop where
  /-- The answer and the writer after any number of polls are the exact ones. -/
  result : ∀ polls, w.exact.sendPolled polls data.bytes =
    ((w.sendPolled polls data).1.map exactAnswer, (w.sendPolled polls data).2.exact)
  counted_le : ∀ polls answer, (w.sendPolled polls data).1 = some answer →
    (counted answer).toNat ≤ data.bytes.length
  /-- While it is pending, what is delivered, staged and left are all of the data. -/
  inputs : ∀ sending w', Sending.Pending data w sending w' →
    sending.exact.inputs = data.bytes.length
  /-- The next poll of a pending send comes to the exact turn. -/
  poll : ∀ sending w', Sending.Pending data w sending w' →
    w'.exact.pollSend sending.exact = exactPolled (w'.pollSend sending)

theorem polledSendExact {σ : Type} [AsyncSink σ] (w : Writer σ) (data : Slice) :
    PolledSendExact w data where
  result polls := w.exact_sendPolled polls data
  counted_le polls answer hanswer := by
    obtain ⟨lines, -, houtcome⟩ := w.exact.sendPolled_calls polls data.bytes
    rw [w.exact_sendPolled, hanswer] at houtcome
    rw [toNat_counted]
    exact (houtcome (exactAnswer answer) rfl).inputs_reported_le
  inputs sending w' h := h.underway.standing.inputs_eq
  poll sending w' h := h.underway.exact_pollSend

/-! ## All counters -/

/-- **No counter wraps around.** Up to half of what a word can count, the escaped length is exact;
for all data, all staged output and any capacity so are the progress of a walk, what is staged with
its count and its room, what is pending, what counts as sent, and what a send accepts and reports.
The sink may claim to have taken any number of bytes: no more counts as sent than is staged, and no
more as accepted than there is data. -/
theorem counters_never_wrap :
    (∀ data : Slice, data.bytes.length < 2 ^ 63 →
      (escapedLength data).toNat = TelnetEscape.escapedLength data.bytes) ∧
    (∀ output : Slice, (progress output).exact = TelnetEscape.Progress.of output.bytes) ∧
    (∀ limit buffer data, AppendExact limit buffer data) ∧
    (∀ s n, StageExact s n) ∧
    (∀ {σ : Type} [Sink σ] (w : Writer σ) data, SendExact w data) ∧
    (∀ {σ : Type} [AsyncSink σ] (w : Writer σ) data, CallsExact w data) ∧
    (∀ {σ : Type} [AsyncSink σ] (w : Writer σ) data, PolledSendExact w data) :=
  ⟨toNat_escapedLength, exact_progress, appendExact, stageExact, sendExact, callsExact,
    polledSendExact⟩

/-- A sink that claims to have taken all that a word can count, whatever it was offered. -/
structure Boaster

instance : Sink Boaster where
  observe s _ := s
  write s _ := (.ok 0xffffffffffffffff, s)
  flush s := (.ok (), s)

/-- Three bytes to a sink that claims more than there can be. -/
theorem counters_never_wrap_of_boaster :
    let data : Slice := ⟨[1, 255, 2], by decide⟩
    let stage : Stage := { output := ⟨[1, 255, 255, 2], by decide⟩, sent := 1 }
    let w : Writer Boaster := { sink := {}, config := ⟨0xffffffffffffffff, true⟩ }
    data.bytes.length < 2 ^ 63 ∧ (escapedLength data).toNat = 4 ∧
      (data.bytes.take 2).foldlM (Filling.round data.bytes) (.initial 4 ⟨[], by decide⟩) =
        .ok ⟨[1, 255, 255], 1, 2, 2⟩ ∧
      (1 : UInt64).toNat + TelnetEscape.escapedLength (data.bytes.take 2) = 4 ∧
      (stage.advance 0xffffffffffffffff).sent.toNat = 4 ∧
      (counted (w.send data).1).toNat ≤ 3 := by
  intro data stage w
  obtain ⟨hescaped, -, happend, hstage, hsend, -⟩ := counters_never_wrap
  refine ⟨by decide, ?_, rfl, ?_, ?_, ?_⟩
  · rw [hescaped data (by decide)]
    rfl
  · exact ((happend 4 ⟨[], by decide⟩ data).round 2 _ rfl).1
  · rw [(hstage stage 0xffffffffffffffff).advance]
    rfl
  · exact (hsend w data).counted_le

end TelnetEscape.Word
