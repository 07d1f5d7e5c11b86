import Mathlib.Algebra.Ring.Nat
import TelnetEscape.Proofs.PolledSendOutcome
import TelnetEscape.Proofs.SendOutcome

/-!
# Counting output piece by piece

A writer counts the input bytes of each batch by itself, and never looks at all of its output at
once. The counts may be added up because a walk over output comes to the same in one go as in two,
for any bytes and not just for escaped ones (`Progress.of_append_of_whole`,
`Progress.of_append_of_half`). What matters at the seam is whether the first part ends between the
halves of a pair: then the first byte of the second part completes that pair, whatever it is, and
the count goes on behind it.

* `Progress.of_pieces`: any number of pieces that are cut on pair boundaries, and a last one;
* `SendOutcome.of_taken`, `PolledOutcome.exists_output`: what a send counts batch by batch is what
  its whole output stands for.
-/

namespace TelnetEscape

/-- By induction on the pieces: the first is whole, and what follows it is counted afresh. -/
theorem Progress.of_pieces {pieces : List Bytes}
    (hwhole : ∀ piece ∈ pieces, (of piece).midPair = false) (last : Bytes) :
    of (pieces.flatten ++ last) =
      ⟨(pieces.map fun piece => (of piece).inputs).sum + (of last).inputs, (of last).midPair⟩ := by
  induction pieces with
  | nil => simp
  | cons piece pieces ih =>
    obtain ⟨hpiece, hpieces⟩ := List.forall_mem_cons.mp hwhole
    rw [List.flatten_cons, List.append_assoc, of_append_of_whole hpiece, ih hpieces, List.map_cons,
      List.sum_cons, Nat.add_assoc]

/-! ## Sends -/

/-- The progress that the answer of a send reports. -/
def reported : Except Shortfall Nat → Progress
  | .ok n => ⟨n, false⟩
  | .error f => ⟨f.delivered, f.tornPair⟩

variable {data : Bytes} {lines : Journal} {answer : Except Shortfall Nat}

theorem SendOutcome.of_taken (h : SendOutcome data lines answer) :
    Progress.of lines.taken = reported answer := by
  cases answer with
  | ok n =>
    have hok : SendOk data lines n := h
    rw [hok.taken, Progress.of_escape, hok.count, reported]
  | error f =>
    have hfailed : SendFailed data lines f := h
    exact hfailed.reaches.of_eq

theorem SendOutcome.inputs_reported_le (h : SendOutcome data lines answer) :
    (reported answer).inputs ≤ data.length := by
  cases answer with
  | ok n =>
    have hok : SendOk data lines n := h
    exact Nat.le_of_eq hok.count
  | error f =>
    have hfailed : SendFailed data lines f := h
    exact hfailed.reaches.inputs_le

theorem PolledOutcome.inputs_reported_le {stage stage' : Stage}
    (h : PolledOutcome data stage lines answer stage') :
    (reported answer).inputs ≤ data.length := by
  cases h with
  | through | unflushed => exact Nat.le_refl _
  | held_up => exact Nat.zero_le _
  | fell_short _ _ reaches => exact reaches.inputs_le

/-- Behind what was staged before comes the output of the send, which stands for what it reports. -/
theorem PolledOutcome.exists_output {stage stage' : Stage}
    (h : PolledOutcome data stage lines answer stage') :
    ∃ output, lines.taken ++ stage'.unsent = stage.unsent ++ output ∧
      Progress.of output = reported answer := by
  have hunsent : ({} : Stage).unsent = [] := rfl
  cases h with
  | through taken | unflushed taken =>
    refine ⟨escape data, ?_, Progress.of_escape data⟩
    rw [taken, hunsent, List.append_nil]
  | held_up taken =>
    refine ⟨[], ?_, rfl⟩
    rw [taken, List.append_nil]
  | @fell_short part _ taken _ reaches =>
    refine ⟨part, ?_, reaches.of_eq⟩
    rw [taken, hunsent, List.append_nil]

/-- **Counts of output compose.** Counting any output in two parts comes to the same as counting it
at once. If the first part ends on a pair boundary, the counts add up; if it ends with half a pair,
the first byte of the second part completes that pair and counts with it for one. So the counts of
any pieces that are cut on pair boundaries add up, and what a send reports, which it counts batch by
batch, is the count of its whole output: all that the sink took, behind what was staged before. -/
theorem counts_compose :
    (∀ p q : Bytes, (Progress.of p).midPair = false →
      (Progress.of (p ++ q)).inputs = (Progress.of p).inputs + (Progress.of q).inputs ∧
        (Progress.of (p ++ q)).midPair = (Progress.of q).midPair) ∧
    (∀ (p q : Bytes) (x : UInt8) (r : Bytes), (Progress.of p).midPair = true → q = x :: r →
      (Progress.of (p ++ q)).inputs = (Progress.of p).inputs + 1 + (Progress.of r).inputs ∧
        (Progress.of (p ++ q)).midPair = (Progress.of r).midPair) ∧
    (∀ (pieces : List Bytes) (last : Bytes),
      (∀ piece ∈ pieces, (Progress.of piece).midPair = false) →
      (Progress.of (pieces.flatten ++ last)).inputs =
          (pieces.map fun piece => (Progress.of piece).inputs).sum + (Progress.of last).inputs ∧
        (Progress.of (pieces.flatten ++ last)).midPair = (Progress.of last).midPair) ∧
    (∀ {σ : Type} [Sink σ] (w : Writer (Journaled σ)) (data : Bytes),
      ∃ lines : Journal, (w.send data).2.sink.journal = w.sink.journal ++ lines ∧
        Progress.of lines.taken = reported (w.send data).1) ∧
    (∀ {σ : Type} [AsyncSink σ] (w : Writer (Journaled σ)) (polls : Nat) (data : Bytes)
      (answer : Except Shortfall Nat), (w.sendPolled polls data).1 = some answer →
      ∃ (lines : Journal) (output : Bytes),
        (w.sendPolled polls data).2.sink.journal = w.sink.journal ++ lines ∧
        lines.taken ++ (w.sendPolled polls data).2.stage.unsent = w.stage.unsent ++ output ∧
        Progress.of output = reported answer) := by
  refine ⟨?whole, ?half, ?pieces, ?blocking, ?polled⟩
  case whole =>
    intro p q hwhole
    rw [Progress.of_append_of_whole hwhole]
    exact ⟨rfl, rfl⟩
  case half =>
    intro p q x r hhalf hq
    rw [hq, Progress.of_append_of_half hhalf]
    exact ⟨rfl, rfl⟩
  case pieces =>
    intro pieces last hwhole
    rw [Progress.of_pieces hwhole]
    exact ⟨rfl, rfl⟩
  case blocking =>
    intro σ _ w data
    obtain ⟨lines, hcalls, houtcome, -⟩ := w.send_calls data
    exact ⟨lines, Journaled.journal_of_calls hcalls, houtcome.of_taken⟩
  case polled =>
    intro σ _ w polls data answer hanswer
    obtain ⟨lines, hmoves, houtcome⟩ := w.sendPolled_calls polls data
    obtain ⟨output, htaken, hcount⟩ := (houtcome answer hanswer).exists_output
    exact ⟨lines, output, Journaled.journal_of_asyncCalls hmoves.calls, htaken, hcount⟩

/-- A seam behind a pair, and one within a pair that a byte other than IAC completes. -/
theorem counts_compose_of_seams :
    ((Progress.of [7, 255, 255]).midPair = false ∧
      (Progress.of ([7, 255, 255] ++ [255, 7])).inputs = 3 ∧
        (Progress.of ([7, 255, 255] ++ [255, 7])).midPair = false) ∧
    ((Progress.of [7, 255]).midPair = true ∧
      (Progress.of ([7, 255] ++ [8, 255])).inputs = 2 ∧
        (Progress.of ([7, 255] ++ [8, 255])).midPair = true) := by
  obtain ⟨hwhole, hhalf, -⟩ := counts_compose
  have hpair : (Progress.of [7, 255, 255]).midPair = false := by decide
  have hsingle : (Progress.of [7, 255]).midPair = true := by decide
  exact ⟨⟨hpair, hwhole _ [255, 7] hpair⟩, hsingle, hhalf _ _ 8 [255] hsingle rfl⟩

end TelnetEscape
