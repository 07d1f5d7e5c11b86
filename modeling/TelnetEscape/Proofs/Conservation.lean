import TelnetEscape.Proofs.StageInvariant
import TelnetEscape.Sink.Script

/-!
# Conservation of output

Whatever a caller does with a polled writer and whatever the sink answers, what the sink took from
the writer followed by what is staged and unsent is the output of the operations so far, in their
order. `Outcome.segment` says what the output of an operation is; only a send that fails on a batch
of its own takes output back, and then just what the sink did not take of the batch.

`Standing` is what carries the law through a send that is pending: what it has staged is the escaped
form of the part of its data that it counts as staged.
-/

namespace TelnetEscape

/-! ## Segments -/

/-- The output of a send of `data` that stopped in the part `stop`. -/
def sendSegment (data : Bytes) : Option (Except Shortfall Nat) → (stop : Sending) → Bytes
  | some (.ok _), _ => escape data
  | _, .clearing _ => []
  | some (.error f), .pushing .. => escape (data.take f.delivered) ++ halfPair f.tornPair
  | none, .pushing delivered inputs _ => escape (data.take (delivered + inputs))
  | _, .flushing _ => escape data

/-- The output of an operation. -/
def Outcome.segment : Outcome → Bytes
  | .write data (.ready (.ok n)) => escape (data.take n)
  | .write _ _ => []
  | .flush _ => []
  | .shutdown _ => []
  | .send data stop answer? => sendSegment data answer? stop

/-! ## Writes, flushes and shutdowns -/

namespace Stage

theorem unsent_fill {s : Stage} (hsent : s.sent ≤ s.bytes.length) (limit : Nat) (data : Bytes) :
    (s.fill limit data).unsent = s.unsent ++ escape (data.take (s.fitting limit data)) := by
  rw [unsent, bytes_fill, sent_fill, List.drop_append_of_le_length hsent]
  rfl

theorem unsent_fill_empty (limit : Nat) (data : Bytes) :
    (({} : Stage).fill limit data).unsent = escape (data.take (fit limit data)) := by
  rw [unsent_fill (Nat.le_refl _), fitting_empty]
  rfl

end Stage

section
variable {limit : Nat} {stage stage' : Stage} {data : Bytes} {lines : Journal}

theorem PollDrains.taken_eq_unsent (h : PollDrains stage lines (.ready (.ok ())) stage') :
    lines.taken = stage.unsent := by
  have hall := h.taken_append_unsent
  rw [h.eq_empty] at hall
  simpa [Stage.unsent] using hall

theorem PollWrites.conserves {answer : Poll (Except SinkError Nat)}
    (h : PollWrites limit stage data lines answer stage')
    (hsent : stage.sent ≤ stage.bytes.length) :
    lines.taken ++ stage'.unsent = stage.unsent ++ (Outcome.write data answer).segment := by
  cases h with
  | nothing no_data =>
    rw [no_data]
    simp [Outcome.segment]
  | staged => exact Stage.unsent_fill hsent limit data
  | drained _ _ drains =>
    rw [drains.taken_eq_unsent, Stage.unsent_fill_empty]
    rfl
  | pending _ _ drains | failed _ _ drains =>
    rw [drains.taken_append_unsent]
    exact (List.append_nil _).symm

variable {call : Poll (Except SinkError Unit) → Entry} {answer : Poll (Except SinkError Unit)}

theorem PollEnds.conserves (h : PollEnds call stage lines answer stage')
    (hcall : ∀ answer, (call answer).taken = []) : lines.taken ++ stage'.unsent = stage.unsent := by
  cases h with
  | called drains =>
    rw [Journal.taken_append, drains.taken_eq_unsent, Journal.taken_cons, hcall]
    simp [Stage.unsent]
  | stopped drains => exact drains.taken_append_unsent

end

/-! ## Sends -/

/-- All input bytes of a send: the delivered ones, the staged ones and the others. -/
def Sending.inputs : Sending → Nat
  | .clearing data => data.length
  | .pushing delivered inputs rest => delivered + inputs + rest.length
  | .flushing delivered => delivered

/-- How the part that a send of `data` is in goes with the stage. -/
inductive Standing (data : Bytes) : Sending → Stage → Prop
  | clearing {stage : Stage} : Standing data (.clearing data) stage
  | pushing {delivered inputs : Nat} {stage : Stage} (staged_le : delivered + inputs ≤ data.length)
      (bytes_eq : stage.bytes = escape ((data.drop delivered).take inputs)) :
      Standing data (.pushing delivered inputs (data.drop (delivered + inputs))) stage
  | flushing : Standing data (.flushing data.length) {}

namespace Standing

variable {data : Bytes}

/-- A send goes on after its first `delivered` bytes with the next batch, or with the flush. -/
theorem next (limit : Nat) {delivered : Nat} (hle : delivered ≤ data.length) :
    Standing data (.next limit delivered (data.drop delivered))
      (({} : Stage).fill limit (data.drop delivered)) := by
  rw [Sending.next]
  by_cases hrest : data.drop delivered = []
  · rw [if_pos hrest, hrest]
    have hall : data.length ≤ delivered := List.drop_eq_nil_iff.mp hrest
    rw [Nat.le_antisymm hle hall]
    exact .flushing
  · rw [if_neg hrest, List.drop_drop]
    have hfit := fit_le_length limit (data.drop delivered)
    rw [List.length_drop] at hfit
    exact .pushing (by omega) (Stage.bytes_fill_empty limit _)

/-- What is delivered, what is staged and what is left are all of the data. -/
theorem inputs_eq {sending : Sending} {stage : Stage} (h : Standing data sending stage) :
    sending.inputs = data.length := by
  cases h with
  | clearing | flushing => rfl
  | pushing staged_le =>
    rw [Sending.inputs, List.length_drop]
    omega

theorem of_pushing {delivered inputs : Nat} {rest : Bytes} {stage : Stage}
    (h : Standing data (.pushing delivered inputs rest) stage) :
    delivered + inputs ≤ data.length ∧
      stage.bytes = escape ((data.drop delivered).take inputs) ∧
      rest = data.drop (delivered + inputs) := by
  cases h with
  | pushing staged_le bytes_eq => exact ⟨staged_le, bytes_eq, rfl⟩

/-- What the next part of a send has staged comes behind what is through. -/
theorem segment_next (limit delivered : Nat) :
    sendSegment data none (.next limit delivered (data.drop delivered)) =
      escape (data.take delivered) ++ (({} : Stage).fill limit (data.drop delivered)).unsent := by
  rw [Stage.unsent_fill_empty, ← escape_append, ← List.take_add, Sending.next]
  by_cases hrest : data.drop delivered = []
  · rw [if_pos hrest, List.take_of_length_le]
    · rfl
    · have hall : data.length ≤ delivered := List.drop_eq_nil_iff.mp hrest
      omega
  · rw [if_neg hrest]
    rfl

end Standing

section
variable {config : Config} {data : Bytes} {sending stop : Sending} {stage stage' : Stage}
  {lines : Journal}

/-- A drain that fails in the middle of a batch: what the shortfall counts is reached. -/
theorem PollDrains.reaches {delivered inputs : Nat} {e : SinkError}
    (h : PollDrains stage lines (.ready (.error e)) stage')
    (hbytes : stage.bytes = escape ((data.drop delivered).take inputs))
    (hle : delivered ≤ data.length) :
    Progress.Reaches ⟨delivered + stage'.progress.inputs, stage'.progress.midPair⟩ data
      (escape (data.take delivered) ++ stage'.taken) := by
  have hfront : stage'.taken <+: escape ((data.drop delivered).take inputs) := by
    rw [← hbytes, ← h.bytes_eq (by simp)]
    exact List.take_prefix _ _
  exact (Progress.of_reaches hfront).of_take.after hle

/-- A send that fails on a batch, after the sink took `before` and the calls of the drain: what it
has of the send is what the shortfall counts. -/
theorem PollDrains.abandon_conserves {delivered inputs : Nat} {e : SinkError}
    (h : PollDrains stage lines (.ready (.error e)) stage')
    (hbytes : stage.bytes = escape ((data.drop delivered).take inputs))
    (hle : delivered ≤ data.length) {before earlier : Bytes}
    (hbefore : before ++ stage.unsent = earlier ++ escape (data.take (delivered + inputs))) :
    before ++ lines.taken = earlier ++ (escape (data.take (delivered + stage'.progress.inputs)) ++
      halfPair stage'.progress.midPair) := by
  have htaken : stage'.taken = stage.taken ++ lines.taken := h.taken_eq (by simp)
  have hstart : before = earlier ++ (escape (data.take delivered) ++ stage.taken) := by
    rw [List.take_add, escape_append, ← hbytes, ← stage.taken_append_unsent, ← List.append_assoc,
      ← List.append_assoc] at hbefore
    rw [List.append_cancel_right hbefore, List.append_assoc]
  rw [hstart, List.append_assoc, List.append_assoc, ← htaken]
  exact congrArg (earlier ++ ·) (h.reaches hbytes hle).output_eq

/-- One poll of a send, by induction on the parts that it goes through: `before` is what the sink
took up to it, and `earlier` the output of what came before the send. -/
theorem SendPolls.conserves {turn : SendTurn}
    (h : SendPolls config sending stage lines stop turn stage') (hs : Standing data sending stage)
    {before earlier : Bytes}
    (hbefore : before ++ stage.unsent = earlier ++ sendSegment data none sending) :
    before ++ (lines.taken ++ stage'.unsent) = earlier ++ sendSegment data turn.answer? stop := by
  induction h generalizing before with
  | clearing_pending drains | clearing_failed drains | pushing_pending drains =>
    rw [drains.taken_append_unsent, hbefore]
    rfl
  | @cleared _ stage _ _ _ _ _ drains _ ih =>
    cases hs
    rw [Journal.taken_append, List.append_assoc, ← List.append_assoc]
    refine ih (Standing.next _ (Nat.zero_le _)) ?_
    have hearlier : before ++ stage.unsent = earlier ++ [] := hbefore
    rw [drains.taken_eq_unsent, hearlier, List.append_nil]
    exact congrArg (earlier ++ ·) (Standing.segment_next _ 0).symm
  | pushed drains _ ih =>
    cases hs with
    | pushing staged_le =>
      rw [Journal.taken_append, List.append_assoc, ← List.append_assoc]
      refine ih (Standing.next _ staged_le) ?_
      rw [drains.taken_eq_unsent, hbefore, Standing.segment_next, List.append_assoc]
      rfl
  | pushing_failed drains reached =>
    cases hs with
    | pushing staged_le bytes_eq =>
      subst reached
      refine Eq.trans ?_ (drains.abandon_conserves bytes_eq (by omega) hbefore)
      simp [Stage.unsent, Entry.taken]
  | flushing _ answer =>
    cases hs
    rcases answer with _ | _ | _ <;> exact hbefore
  | done =>
    cases hs
    exact hbefore

theorem SendPolls.standing {turn : SendTurn} {left : Sending}
    (h : SendPolls config sending stage lines stop turn stage') (hs : Standing data sending stage)
    (hpending : turn = .pending left) : Standing data left stage' := by
  rw [← h.stop_eq hpending]
  induction h with
  | clearing_pending =>
    cases hs
    exact .clearing
  | pushing_pending drains =>
    cases hs with
    | pushing staged_le bytes_eq =>
      exact .pushing staged_le ((drains.bytes_eq (by simp)).trans bytes_eq)
  | clearing_failed | pushing_failed | done => cases hpending
  | cleared _ _ ih =>
    cases hs
    exact ih (Standing.next _ (Nat.zero_le _)) hpending
  | pushed _ _ ih =>
    cases hs with
    | pushing staged_le => exact ih (Standing.next _ staged_le) hpending
  | flushing => exact hs

variable {answer? : Option (Except Shortfall Nat)}

theorem SendRuns.conserves (h : SendRuns config sending stage lines stop answer? stage')
    (hs : Standing data sending stage) {before earlier : Bytes}
    (hbefore : before ++ stage.unsent = earlier ++ sendSegment data none sending) :
    before ++ (lines.taken ++ stage'.unsent) = earlier ++ sendSegment data answer? stop := by
  induction h generalizing before with
  | given_up => exact hbefore
  | answered polls => exact polls.conserves hs hbefore
  | @again _ stop left _ _ _ _ lines more _ polls _ ih =>
    have hpolled := polls.conserves hs hbefore
    rw [polls.stop_eq rfl, ← List.append_assoc] at hpolled
    rw [Journal.taken_append, List.append_assoc, ← List.append_assoc]
    exact ih (polls.standing hs rfl) hpolled

end

/-! ## Runs -/

section
variable {config : Config} {stage stage' : Stage} {lines : Journal}

theorem Performs.conserves {outcome : Outcome} (h : Performs config stage lines outcome stage')
    (hsent : stage.sent ≤ stage.bytes.length) :
    lines.taken ++ stage'.unsent = stage.unsent ++ outcome.segment := by
  cases h with
  | write writes => exact writes.conserves hsent
  | flush ends | shutdown ends =>
    rw [ends.conserves fun _ => rfl]
    exact (List.append_nil _).symm
  | @send data _ _ _ _ runs =>
    have hstart : [] ++ stage.unsent = stage.unsent ++ sendSegment data none (.clearing data) :=
      (List.append_nil _).symm
    exact runs.conserves .clearing hstart

theorem Runs.conserves {outcomes : List Outcome} (h : Runs config stage lines outcomes stage')
    (hvalid : stage.Valid config.stageLimit) :
    lines.taken ++ stage'.unsent = stage.unsent ++ outcomes.flatMap Outcome.segment := by
  induction h with
  | nil => simp
  | cons first _ ih =>
    rw [Journal.taken_append, List.append_assoc, ih (first.valid hvalid), ← List.append_assoc,
      first.conserves hvalid.sent_le, List.append_assoc, List.flatMap_cons]

end

/-- **Conservation of output.** After any operations on a new writer over any sink, what the sink
took and then what is staged and unsent is the output of the operations, one after the other. -/
theorem run_conserves {σ : Type} [AsyncSink σ] (s : σ) (config : Config)
    (operations : List Operation) :
    ((Writer.fresh s config).run operations).2.sink.journal.taken ++
        ((Writer.fresh s config).run operations).2.stage.unsent =
      ((Writer.fresh s config).run operations).1.flatMap Outcome.segment := by
  obtain ⟨lines, hmoves, hruns⟩ := (Writer.fresh s config).run_runs operations
  have hjournal := Journaled.journal_of_asyncCalls hmoves.calls
  rw [hjournal]
  exact hruns.conserves (Stage.valid_empty _)

/-- A send that is given up between the halves of a pair: the second half stays staged. -/
example :
    let sink : ScriptedSink := { script := { writes := { steps := [.take (some 2), .pending] } } }
    let w := ((Writer.fresh sink {}).run [.send [1, 255, 2] 1]).2
    w.sink.journal.taken = [1, 255] ∧ w.stage.unsent = [255, 2] := by
  cbv

end TelnetEscape
