import TelnetEscape.Proofs.Conservation
import TelnetEscape.Proofs.SendReports

/-!
# What the runs of a polled writer report

A polled writer reports a stage that was sent in full, however many operations that took, and a send
that failed on a batch of its own. The report of a failure does not say how much the sink took of
the batch, and what was sent of a stage that is not through yet is in no report at all. With these
two the reports add up: `Accounts` says so of any part of a run, and is carried from the calls of
one drain to whole runs (`Runs.accounts`).

`Outcome.discarded` is what the sink took of the batch that a failed send dropped; `Discards` says
where that stands among all that the sink took in the send.
-/

namespace TelnetEscape

namespace Event

/-- The bytes of a stage that was sent in full. -/
def drained? : Event → Option Nat
  | drained bytes _ => some bytes
  | failed .. => none

end Event

namespace Journal

/-- All output that is reported as sent in full. -/
def drainedBytes (lines : Journal) : Nat :=
  (lines.events.filterMap Event.drained?).sum

/-- The reports of failed writes, in order. -/
def failures (lines : Journal) : List Event :=
  lines.events.filter Event.isFailure

@[simp] theorem drainedBytes_append (a b : Journal) :
    drainedBytes (a ++ b) = drainedBytes a + drainedBytes b := by
  simp [drainedBytes]

@[simp] theorem failures_append (a b : Journal) : failures (a ++ b) = failures a ++ failures b := by
  simp [failures]

end Journal

namespace Outcome

/-- What is reported of a send that failed on a batch of its own. No other operation reports a
failure, a send that failed on earlier output or in the flush included. -/
def failure? : Outcome → Option Event
  | .send _ (.pushing ..) (some (.error f)) => some (.failed none f.delivered f.tornPair f.cause)
  | _ => none

/-- What the sink took of the batch that was dropped. -/
def discarded : Outcome → Bytes
  | .send data (.pushing delivered ..) (some (.error f)) =>
    escape ((data.drop delivered).take (f.delivered - delivered)) ++ halfPair f.tornPair
  | _ => []

theorem failure?_unanswered (data : Bytes) (stop : Sending) :
    (send data stop none).failure? = none := by
  cases stop <;> rfl

/-- What reports no failure drops nothing. -/
theorem discarded_eq_nil {outcome : Outcome} (h : outcome.failure? = none) :
    outcome.discarded = [] := by
  unfold discarded
  split
  · cases h
  · rfl

end Outcome

/-! ## The account of a part of a run -/

/-- The reports in `lines`, the calls in which the operations `outcomes` came to their ends, of a
stage of which `before` bytes were sent before and `after` bytes are sent now. -/
structure Accounts (before : Nat) (lines : Journal) (outcomes : List Outcome) (after : Nat) :
    Prop where
  bytes_eq : lines.drainedBytes + after + (outcomes.flatMap Outcome.discarded).length =
    before + lines.taken.length
  drained_pos : ∀ bytes inputs, .drained bytes inputs ∈ lines.events → 0 < bytes
  failures_eq : lines.failures = outcomes.filterMap Outcome.failure?

namespace Accounts

variable {before between after : Nat} {lines more : Journal} {outcomes others : List Outcome}

theorem append (h : Accounts before lines outcomes between)
    (h' : Accounts between more others after) :
    Accounts before (lines ++ more) (outcomes ++ others) after := by
  refine ⟨?_, ?_, ?_⟩
  · have := h.bytes_eq
    have := h'.bytes_eq
    rw [Journal.drainedBytes_append, List.flatMap_append, List.length_append, Journal.taken_append,
      List.length_append]
    omega
  · intro bytes inputs hmem
    rw [Journal.events_append] at hmem
    rcases List.mem_append.mp hmem with hmem | hmem
    · exact h.drained_pos bytes inputs hmem
    · exact h'.drained_pos bytes inputs hmem
  · rw [Journal.failures_append, List.filterMap_append, h.failures_eq, h'.failures_eq]

/-- Calls that report nothing: what the sink took is sent of the stage. -/
theorem of_no_events (before : Nat) (h : lines.events = []) :
    Accounts before lines [] (before + lines.taken.length) := by
  refine ⟨?_, ?_, ?_⟩
  · rw [Journal.drainedBytes, h]
    exact Nat.zero_add _
  · rw [h]
    exact fun _ _ hmem => absurd hmem List.not_mem_nil
  · rw [Journal.failures, h]
    rfl

/-- Calls that report nothing and move no bytes. -/
theorem of_quiet (sent : Nat) (hevents : lines.events = []) (htaken : lines.taken = []) :
    Accounts sent lines [] sent := by
  have h := of_no_events sent hevents
  rwa [htaken, List.length_nil, Nat.add_zero] at h

/-- An operation that reports no failure changes no account. -/
theorem iff_of_no_failure {outcome : Outcome} (hfailure : outcome.failure? = none) :
    Accounts before lines [outcome] after ↔ Accounts before lines [] after := by
  have hdiscarded := Outcome.discarded_eq_nil hfailure
  constructor
  · intro h
    refine ⟨?_, h.drained_pos, ?_⟩
    · simpa [hdiscarded] using h.bytes_eq
    · simpa [hfailure] using h.failures_eq
  · intro h
    refine ⟨?_, h.drained_pos, ?_⟩
    · simpa [hdiscarded] using h.bytes_eq
    · simpa [hfailure] using h.failures_eq

end Accounts

/-! ## Drains -/

/-- A stage that was sent in full is reported with all of its bytes, unless it was empty. -/
theorem Stage.drainedEvents_accounts (s : Stage) :
    Accounts s.bytes.length s.drainedEvents [] 0 := by
  unfold drainedEvents
  by_cases hempty : s.bytes = []
  · rw [if_pos hempty, hempty]
    exact .of_quiet 0 rfl rfl
  · rw [if_neg hempty]
    refine ⟨rfl, ?_, rfl⟩
    intro bytes inputs hmem
    cases List.mem_singleton.mp hmem
    exact List.length_pos_iff.mpr hempty

section
variable {limit : Nat} {stage stage' : Stage} {lines : Journal}

/-- A stage that gets through is reported with what was sent of it earlier; of one that does not
the sent part has grown by what the sink took. -/
theorem PollDrains.accounts {answer : Poll (Except SinkError Unit)}
    (h : PollDrains stage lines answer stage') (hsent : stage.sent ≤ stage.bytes.length) :
    Accounts stage.sent lines [] stage'.sent := by
  cases h with
  | @drained lines offers =>
    have hall : stage.sent + lines.taken.length = stage.bytes.length := by
      rw [offers.taken_eq_iff.mpr rfl, Stage.length_unsent, Stage.pending]
      omega
    have hoffers := Accounts.of_no_events stage.sent offers.events_eq_nil
    rw [hall] at hoffers
    exact hoffers.append stage.drainedEvents_accounts
  | stopped offers =>
    rw [Stage.sent_advance_length offers.taken_prefix]
    exact .of_no_events stage.sent offers.events_eq_nil

/-! ## Writes, flushes and shutdowns -/

theorem PollWrites.accounts {data : Bytes} {answer : Poll (Except SinkError Nat)}
    (h : PollWrites limit stage data lines answer stage')
    (hsent : stage.sent ≤ stage.bytes.length) : Accounts stage.sent lines [] stage'.sent := by
  cases h with
  | nothing | staged => exact .of_quiet _ rfl rfl
  | drained _ _ drains | pending _ _ drains | failed _ _ drains => exact drains.accounts hsent

theorem PollEnds.accounts {call : Poll (Except SinkError Unit) → Entry}
    {answer : Poll (Except SinkError Unit)} (h : PollEnds call stage lines answer stage')
    (hevent : ∀ answer, (call answer).event? = none) (htaken : ∀ answer, (call answer).taken = [])
    (hsent : stage.sent ≤ stage.bytes.length) : Accounts stage.sent lines [] stage'.sent := by
  cases h with
  | called drains =>
    refine (drains.accounts hsent).append (.of_quiet _ ?_ ?_)
    · exact List.filterMap_eq_nil_iff.mpr (List.forall_mem_singleton.mpr (hevent answer))
    · rw [Journal.taken_cons, htaken]
      rfl
  | stopped drains => exact drains.accounts hsent

end

/-! ## Sends -/

section
variable {config : Config} {data : Bytes} {sending stop : Sending} {stage stage' : Stage}
  {lines : Journal}

/-- What the sink took of a batch that failed, read off the shortfall. -/
theorem PollDrains.discarded_eq {delivered inputs : Nat} {rest : Bytes} {e : SinkError}
    (h : PollDrains stage lines (.ready (.error e)) stage')
    (hbytes : stage.bytes = escape ((data.drop delivered).take inputs))
    (hle : delivered ≤ data.length) :
    (Outcome.send data (.pushing delivered inputs rest) (some (.error
      ⟨delivered + stage'.progress.inputs, stage'.progress.midPair, e⟩))).discarded =
        stage'.taken := by
  have hreaches := (h.reaches hbytes hle).output_eq
  rw [List.take_add, escape_append, List.append_assoc] at hreaches
  rw [List.append_cancel_left hreaches, Outcome.discarded, Nat.add_sub_cancel_left]

/-- A batch that failed: what the sink took of it is sent no longer, but dropped. -/
theorem PollDrains.abandon_accounts {limit delivered inputs : Nat} {rest : Bytes} {e : SinkError}
    {p : Progress} (h : PollDrains stage lines (.ready (.error e)) stage')
    (reached : p = stage'.progress)
    (hbytes : stage.bytes = escape ((data.drop delivered).take inputs))
    (hle : delivered ≤ data.length) (hvalid : stage.Valid limit) :
    Accounts stage.sent (lines ++ [.event (.failed none (delivered + p.inputs) p.midPair e)])
      [.send data (.pushing delivered inputs rest)
        (some (.error ⟨delivered + p.inputs, p.midPair, e⟩))] 0 := by
  subst reached
  have htaken : stage'.taken.length = stage'.sent :=
    List.length_take_of_le (h.valid hvalid).sent_le
  refine (h.accounts hvalid.sent_le).append ⟨?_, ?_, rfl⟩
  · rw [List.flatMap_singleton, h.discarded_eq hbytes hle, htaken]
    exact Nat.zero_add _
  · exact fun _ _ hmem => by cases List.mem_singleton.mp hmem

/-- One poll of a send, by induction on the parts that it goes through. -/
theorem SendPolls.accounts {turn : SendTurn}
    (h : SendPolls config sending stage lines stop turn stage') (hs : Standing data sending stage)
    (hvalid : stage.Valid config.stageLimit) :
    Accounts stage.sent lines [.send data stop turn.answer?] stage'.sent := by
  induction h with
  | clearing_pending drains | clearing_failed drains | pushing_pending drains =>
    exact (Accounts.iff_of_no_failure rfl).mpr (drains.accounts hvalid.sent_le)
  | cleared drains _ ih =>
    cases hs
    exact (drains.accounts hvalid.sent_le).append
      (ih (Standing.next _ (Nat.zero_le _)) ((Stage.valid_empty _).fill _))
  | pushed drains _ ih =>
    cases hs with
    | pushing staged_le =>
      exact (drains.accounts hvalid.sent_le).append
        (ih (Standing.next _ staged_le) ((Stage.valid_empty _).fill _))
  | pushing_failed drains reached =>
    cases hs with
    | pushing staged_le bytes_eq =>
      exact drains.abandon_accounts reached bytes_eq (by omega) hvalid
  | flushing _ answer =>
    rcases answer with _ | _ | _
    all_goals exact (Accounts.iff_of_no_failure rfl).mpr (.of_quiet _ rfl rfl)
  | done => exact (Accounts.iff_of_no_failure rfl).mpr (.of_quiet _ rfl rfl)

variable {answer? : Option (Except Shortfall Nat)}

/-- By induction on the polls. Those before the last come to no end, so they are silent. -/
theorem SendRuns.accounts (h : SendRuns config sending stage lines stop answer? stage')
    (hs : Standing data sending stage) (hvalid : stage.Valid config.stageLimit) :
    Accounts stage.sent lines [.send data stop answer?] stage'.sent := by
  induction h with
  | given_up =>
    exact (Accounts.iff_of_no_failure (Outcome.failure?_unanswered _ _)).mpr (.of_quiet _ rfl rfl)
  | answered polls => exact polls.accounts hs hvalid
  | @again _ stop _ _ _ _ _ _ _ _ polls _ ih =>
    have hsilent := Outcome.failure?_unanswered data stop
    have hpolled := (Accounts.iff_of_no_failure hsilent).mp (polls.accounts hs hvalid)
    exact hpolled.append (ih (polls.standing hs rfl) (polls.valid hvalid))

end

/-! ## Runs -/

section
variable {config : Config} {stage stage' : Stage} {lines : Journal}

theorem Performs.accounts {outcome : Outcome} (h : Performs config stage lines outcome stage')
    (hvalid : stage.Valid config.stageLimit) : Accounts stage.sent lines [outcome] stage'.sent := by
  cases h with
  | write writes => exact (Accounts.iff_of_no_failure rfl).mpr (writes.accounts hvalid.sent_le)
  | flush ends | shutdown ends =>
    refine (Accounts.iff_of_no_failure rfl).mpr (ends.accounts ?_ ?_ hvalid.sent_le)
    · exact fun _ => rfl
    · exact fun _ => rfl
  | send runs => exact runs.accounts .clearing hvalid

theorem Runs.accounts {outcomes : List Outcome} (h : Runs config stage lines outcomes stage')
    (hvalid : stage.Valid config.stageLimit) : Accounts stage.sent lines outcomes stage'.sent := by
  induction h with
  | nil => exact .of_quiet _ rfl rfl
  | cons first _ ih => exact (first.accounts hvalid).append (ih (first.valid hvalid))

end

/-! ## What a failed send drops -/

/-- A send of `data` fails with `f` on the batch of `inputs` bytes that comes after `delivered`: the
stage is emptied, of which the sink has `part`, some front of the batch but not all of it. -/
structure DropsBatch (data : Bytes) (delivered inputs : Nat) (f : Shortfall) (part : Bytes)
    (stage' : Stage) : Prop where
  delivered_le : delivered ≤ f.delivered
  front : part <+: escape ((data.drop delivered).take inputs)
  not_all : part ≠ escape ((data.drop delivered).take inputs)
  emptied : stage' = {}

/-- If the operation failed on a batch of its own, then the sink took in it what was staged before,
the batches before that one, and what is discarded. -/
def Discards (stage : Stage) (lines : Journal) (outcome : Outcome) (stage' : Stage) : Prop :=
  ∀ data delivered inputs rest f,
    outcome = .send data (.pushing delivered inputs rest) (some (.error f)) →
      DropsBatch data delivered inputs f outcome.discarded stage' ∧
      lines.taken = stage.unsent ++ (escape (data.take delivered) ++ outcome.discarded)

section
variable {config : Config} {data : Bytes} {sending stop : Sending} {stage stage' : Stage}
  {lines : Journal} {delivered inputs : Nat} {rest : Bytes} {f : Shortfall}

/-- A drain that fails stops short of the end of the stage. -/
theorem PollDrains.taken_ne_bytes {e : SinkError}
    (h : PollDrains stage lines (.ready (.error e)) stage') : stage'.taken ≠ stage.bytes := by
  intro hall
  have hsplit := h.taken_eq (by simp)
  rw [hall, ← stage.taken_append_unsent] at hsplit
  cases h with
  | stopped offers unfinished =>
    exact unfinished (offers.taken_eq_iff.mp (List.append_cancel_left hsplit).symm)

theorem SendPolls.dropsBatch {turn : SendTurn}
    (h : SendPolls config sending stage lines stop turn stage') (hs : Standing data sending stage)
    (hready : turn = .ready (.error f)) (hstop : stop = .pushing delivered inputs rest) :
    DropsBatch data delivered inputs f (Outcome.send data stop (some (.error f))).discarded
      stage' := by
  induction h with
  | clearing_pending | clearing_failed | flushing | done => cases hstop
  | pushing_pending => cases hready
  | cleared _ _ ih =>
    cases hs
    exact ih (Standing.next _ (Nat.zero_le _)) hready hstop
  | pushed _ _ ih =>
    cases hs with
    | pushing staged_le => exact ih (Standing.next _ staged_le) hready hstop
  | pushing_failed drains reached =>
    cases hs with
    | pushing staged_le bytes_eq =>
      subst reached
      cases hready
      cases hstop
      rw [drains.discarded_eq bytes_eq (by omega)]
      have hbytes := drains.bytes_eq (by simp)
      refine ⟨Nat.le_add_right _ _, ?_, ?_, rfl⟩
      · rw [← bytes_eq, ← hbytes]
        exact List.take_prefix _ _
      · rw [← bytes_eq]
        exact drains.taken_ne_bytes

variable {answer? : Option (Except Shortfall Nat)}

theorem SendRuns.dropsBatch (h : SendRuns config sending stage lines stop answer? stage')
    (hs : Standing data sending stage) (hanswer : answer? = some (.error f))
    (hstop : stop = .pushing delivered inputs rest) :
    DropsBatch data delivered inputs f (Outcome.send data stop (some (.error f))).discarded
      stage' := by
  induction h with
  | given_up => cases hanswer
  | answered polls =>
    cases hanswer
    exact polls.dropsBatch hs rfl hstop
  | again polls _ ih => exact ih (polls.standing hs rfl) hanswer hstop

/-- What a send failed on is what was through before the batch, and then what is discarded. -/
theorem sendSegment_eq (hle : delivered ≤ f.delivered) :
    sendSegment data (some (.error f)) (.pushing delivered inputs rest) =
      escape (data.take delivered) ++
        (Outcome.send data (.pushing delivered inputs rest) (some (.error f))).discarded := by
  rw [sendSegment, Outcome.discarded, ← List.append_assoc, ← escape_append, ← List.take_add,
    Nat.add_sub_cancel' hle]

theorem Performs.discards {outcome : Outcome} (h : Performs config stage lines outcome stage')
    (hsent : stage.sent ≤ stage.bytes.length) : Discards stage lines outcome stage' := by
  have hconserves := h.conserves hsent
  rintro data delivered inputs rest f rfl
  cases h with
  | send runs =>
    have hdrops := runs.dropsBatch .clearing rfl rfl
    rw [hdrops.emptied, Outcome.segment, sendSegment_eq hdrops.delivered_le] at hconserves
    exact ⟨hdrops, by simpa [Stage.unsent] using hconserves⟩

end

/-- **The reports of a run add up.** After any operations on a new writer over any sink, the output
that is reported as sent in full, what is sent of the present stage, and what the sink took of the
batches that failed sends dropped are together all that the sink took. No empty stage is reported,
and failures are reported just for the sends that failed on a batch of their own, with the counts of
their answers. What any further operation is said to have discarded the sink did take of the batch
that it dropped. -/
theorem run_reports {σ : Type} [AsyncSink σ] (s : σ) (config : Config)
    (operations : List Operation) :
    let (outcomes, w) := (Writer.fresh s config).run operations
    Accounts 0 w.sink.journal outcomes w.stage.sent ∧
      ∀ operation, ∃ lines, (w.perform operation).2.sink.journal = w.sink.journal ++ lines ∧
        Discards w.stage lines (w.perform operation).1 (w.perform operation).2.stage := by
  obtain ⟨lines, hmoves, hruns⟩ := (Writer.fresh s config).run_runs operations
  have hvalid := hruns.valid (Stage.valid_empty _)
  have hjournal := Journaled.journal_of_asyncCalls hmoves.calls
  refine ⟨?_, fun operation => ?_⟩
  · rw [hjournal]
    exact hruns.accounts (Stage.valid_empty _)
  · obtain ⟨more, hmore, hperforms⟩ :=
      ((Writer.fresh s config).run operations).2.perform_performs operation
    exact ⟨more, Journaled.journal_of_asyncCalls hmore.calls, hperforms.discards hvalid.sent_le⟩

/-- The send breaks off between the halves of a pair. The two bytes that the sink took of the batch
are in no report of a stage that got through. -/
example :
    let sink : ScriptedSink :=
      { script := { writes := { steps := [.take (some 2), .fail (.plain .brokenPipe)] } } }
    let (outcomes, w) := (Writer.fresh sink {}).run [.send [1, 255, 2] 1]
    outcomes.flatMap Outcome.discarded = [1, 255] ∧
      w.sink.journal.events = [.failed none 1 true (.plain .brokenPipe)] := by
  cbv

end TelnetEscape
