import TelnetEscape.Proofs.Resend

/-!
# Torn pairs on the wire

A polled send that fails says whether a pair is torn. It speaks of its own output: if it fails while
it pushes out what was staged before, it says that none is, although half a pair of the earlier
output may be all that the sink took last (`held_up_send_hides_half_pair`). The other half is staged
then, and the writer goes on with it. In every other case the answer is what can be read off the
wire (`tornPair_iff`), as long as no earlier send reported a torn pair.
-/

namespace TelnetEscape

/-- A send that reported a torn pair. -/
def Outcome.tore : Outcome → Bool
  | .send _ _ (some (.error f)) => f.tornPair
  | _ => false

/-- Unless it tore a pair, the output of an operation is whole pairs. -/
theorem Outcome.segment_of_whole {outcome : Outcome} (whole : outcome.tore = false) :
    ∃ data, outcome.segment = escape data := by
  match outcome, whole with
  | .write data (.ready (.ok n)), _ => exact ⟨data.take n, rfl⟩
  | .write _ (.ready (.error _)), _ | .write _ .pending, _ => exact ⟨[], rfl⟩
  | .flush _, _ | .shutdown _, _ => exact ⟨[], rfl⟩
  | .send data stop (some (.ok _)), _ => exact ⟨data, rfl⟩
  | .send _ (.clearing _) (some (.error _)), _ | .send _ (.clearing _) none, _ => exact ⟨[], rfl⟩
  | .send data (.pushing delivered inputs _) none, _ =>
    exact ⟨data.take (delivered + inputs), rfl⟩
  | .send data (.pushing ..) (some (.error f)), whole =>
    have hwhole : f.tornPair = false := whole
    exact ⟨data.take f.delivered, by simp [segment, sendSegment, hwhole]⟩
  | .send data (.flushing _) (some (.error _)), _ | .send data (.flushing _) none, _ =>
    exact ⟨data, rfl⟩

theorem segments_of_whole {outcomes : List Outcome}
    (whole : ∀ outcome ∈ outcomes, outcome.tore = false) :
    ∃ data, outcomes.flatMap Outcome.segment = escape data := by
  induction outcomes with
  | nil => exact ⟨[], rfl⟩
  | cons outcome outcomes ih =>
    obtain ⟨hfirst, hrest⟩ := List.forall_mem_cons.mp whole
    obtain ⟨data, hdata⟩ := Outcome.segment_of_whole hfirst
    obtain ⟨more, hmore⟩ := ih hrest
    exact ⟨data ++ more, by rw [List.flatMap_cons, hdata, hmore, escape_append]⟩

/-! ## Half a pair at the end -/

/-- A front of escaped data ends within a pair just if the rest has an odd number of IACs. -/
theorem midPair_iff_of_rest {front rest data : Bytes} (h : front ++ rest = escape data) :
    (Progress.of front).midPair = true ↔ rest.count iac % 2 = 1 := by
  have hfront := (Progress.of_reaches (h ▸ List.prefix_append front rest)).count_iac
  have hall := congrArg (List.count iac) h
  rw [List.count_append, hfront, count_iac_escape] at hall
  cases hmid : (Progress.of front).midPair with
  | false =>
    rw [hmid, Bool.toNat_false] at hall
    exact iff_of_false Bool.false_ne_true (by omega)
  | true =>
    rw [hmid, Bool.toNat_true] at hall
    exact iff_of_true rfl (by omega)

/-! ## What a failed send says -/

/-- What a failed send says of a torn pair, next to what the sink took, `wire`, and what is left
staged. -/
structure TellsTorn (f : Shortfall) (wire : Bytes) (stage : Stage) : Prop where
  /-- With nothing left staged it says what can be read off the wire, and else that none is torn. -/
  torn_iff : f.tornPair = true ↔ stage.pending = 0 ∧ (Progress.of wire).midPair = true
  /-- What is left staged then tells where the wire ends. -/
  wire_iff : stage.pending ≠ 0 →
    ((Progress.of wire).midPair = true ↔ stage.progress.midPair = true)

section
variable {data earlier wire : Bytes} {stage stage' : Stage} {lines : Journal} {f : Shortfall}

/-- A send from a point at which what the sink took and what is staged are whole pairs. -/
theorem PolledOutcome.tellsTorn {limit : Nat}
    (h : PolledOutcome data stage lines (.error f) stage') (hvalid : stage'.Valid limit)
    (hwire : wire ++ stage.unsent = escape earlier) :
    TellsTorn f (wire ++ lines.taken) stage' := by
  have hnone : Stage.pending {} = 0 := rfl
  cases h with
  | unflushed taken e =>
    have hend : wire ++ lines.taken = escape (earlier ++ data) := by
      rw [taken, ← List.append_assoc, hwire, escape_append]
    refine ⟨iff_of_false Bool.false_ne_true fun hmid => ?_, fun hleft => absurd hnone hleft⟩
    rw [hend, Progress.midPair_of_escape] at hmid
    exact Bool.false_ne_true hmid.2
  | held_up taken _ e =>
    have hend : (wire ++ lines.taken) ++ stage'.unsent = escape earlier := by
      rw [List.append_assoc, taken, hwire]
    refine ⟨iff_of_false Bool.false_ne_true fun ⟨hall, hmid⟩ => ?_, fun _ => ?_⟩
    · rw [(Stage.unsent_eq_nil_iff _).mpr hall, List.append_nil] at hend
      rw [hend, Progress.midPair_of_escape] at hmid
      exact Bool.false_ne_true hmid
    · obtain ⟨staged, hstaged⟩ := hvalid.escaped
      have hstage : stage'.taken ++ stage'.unsent = escape staged := by
        rw [Stage.taken_append_unsent, hstaged]
      exact (midPair_iff_of_rest hend).trans (midPair_iff_of_rest hstage).symm
  | @fell_short part f taken _ reaches =>
    have hend : wire ++ lines.taken = escape earlier ++ part := by
      rw [taken, ← List.append_assoc, hwire]
    have hmid : (Progress.of (wire ++ lines.taken)).midPair = f.tornPair := by
      rw [hend, Progress.of_escape_append, reaches.of_eq]
    refine ⟨?_, fun hleft => absurd hnone hleft⟩
    rw [hmid]
    exact ⟨fun htorn => ⟨rfl, htorn⟩, And.right⟩

end

/-- **What a failed send says of torn pairs.** After any operations on a new writer over any sink,
none of which reported a torn pair, a send that fails reports one just if the sink took half a pair
last and nothing is left staged. With output left staged, which is then that of earlier operations,
it reports none; whether half a pair is on the wire can be read off what was taken of the stage. -/
theorem tornPair_iff {σ : Type} [AsyncSink σ] (s : σ) (config : Config)
    (operations : List Operation) (polls : Nat) (data : Bytes) (f : Shortfall)
    (whole : ∀ outcome ∈ ((Writer.fresh s config).run operations).1, outcome.tore = false)
    (failed : (((Writer.fresh s config).run operations).2.sendPolled polls data).1 =
      some (.error f)) :
    TellsTorn f
      (((Writer.fresh s config).run operations).2.sendPolled polls data).2.sink.journal.taken
      (((Writer.fresh s config).run operations).2.sendPolled polls data).2.stage := by
  obtain ⟨_, hmoves, hruns⟩ := (Writer.fresh s config).run_runs operations
  have hvalid := hruns.valid (Stage.valid_empty _)
  obtain ⟨earlier, hearlier⟩ := segments_of_whole whole
  have hwire := run_conserves s config operations
  rw [hearlier] at hwire
  generalize (Writer.fresh s config).run operations = done at *
  obtain ⟨outcomes, w⟩ := done
  obtain ⟨lines, hsend, hpolled⟩ := w.sendFrom_runs polls (.clearing data) trivial
  rw [w.sendPolled_eq_sendFrom] at failed ⊢
  rw [failed] at hpolled
  rw [Journaled.journal_of_asyncCalls hsend.calls, Journal.taken_append]
  exact hpolled.polledOutcome.tellsTorn (hpolled.valid (hmoves.config_eq ▸ hvalid)) hwire

/-- A polled writer whose sink takes what was staged first, but one byte only of what comes next. -/
def brokenOffWriter : Writer (Journaled ScriptedSink) :=
  .fresh (reactingSink [.take none, .take (some 1), .fail (.plain .brokenPipe)]) {}

/-- A send that tears a pair of its own says so. -/
theorem tornPair_iff_of_own_pair :
    (∀ outcome ∈ (brokenOffWriter.run [.write [7, 255], .flush]).1, outcome.tore = false) ∧
    ((brokenOffWriter.run [.write [7, 255], .flush]).2.sendPolled 1 [255]).1 =
      some (.error ⟨0, true, .plain .brokenPipe⟩) ∧
    TellsTorn ⟨0, true, .plain .brokenPipe⟩
      ((brokenOffWriter.run [.write [7, 255], .flush]).2.sendPolled 1 [255]).2.sink.journal.taken
      ((brokenOffWriter.run [.write [7, 255], .flush]).2.sendPolled 1 [255]).2.stage := by
  have hrun : (brokenOffWriter.run [.write [7, 255], .flush]).1 =
      [.write [7, 255] (.ready (.ok 2)), .flush (.ready (.ok ()))] := by cbv
  have hwhole : ∀ outcome ∈ (brokenOffWriter.run [.write [7, 255], .flush]).1,
      outcome.tore = false := by
    rw [hrun]
    simp [Outcome.tore]
  have hfailed : ((brokenOffWriter.run [.write [7, 255], .flush]).2.sendPolled 1 [255]).1 =
      some (.error ⟨0, true, .plain .brokenPipe⟩) := by cbv
  exact ⟨hwhole, hfailed, tornPair_iff _ _ _ 1 [255] _ hwhole hfailed⟩

/-- A polled writer with a doubled IAC staged, of which its sink takes the first half only. -/
def halfTakenWriter : Writer (Journaled ScriptedSink) :=
  ((Writer.fresh (reactingSink [.take (some 1), .fail (.described .brokenPipe "gone")]) {}).run
    [.write [255]]).2

/-- The send that finds the staged pair reports no torn pair, and the wire ends with half of it. -/
theorem held_up_send_hides_half_pair :
    (halfTakenWriter.sendPolled 1 [1]).1 =
      some (.error ⟨0, false, .described .brokenPipe "gone"⟩) ∧
    (halfTakenWriter.sendPolled 1 [1]).2.sink.journal.taken = [255] ∧
    (Progress.of [255]).midPair = true ∧
    (halfTakenWriter.sendPolled 1 [1]).2.stage = { bytes := [255, 255], sent := 1 } := by
  refine ⟨?_, ?_, ?_, ?_⟩
  · cbv
  · cbv
  · rfl
  · cbv

end TelnetEscape
