import TelnetEscape.Proofs.Conservation
import TelnetEscape.Proofs.Timeline

/-!
# The order of offers

Every run of a polled writer has a timeline (`Writer.run_recounts`). Operation by operation its
lines are those of the journal, and its steps lead from what is staged and unsent to what is so
afterwards. What is staged on the way is the input that the operation accounts for, and it is
dropped just by a send that fails on output of its own, right after the write that failed (`Tells`).
Hence the calls of any run come in good order (`offers_orderly`).
-/

namespace TelnetEscape

/-! ## What an operation tells of its timeline -/

/-- The front of `data` that a send has staged when it is in this part. -/
def Sending.staged (data : Bytes) : Sending → Bytes
  | .clearing _ => []
  | .pushing delivered inputs _ => data.take (delivered + inputs)
  | .flushing _ => data

/-- The input that an operation staged. -/
def Outcome.staged : Outcome → Bytes
  | .write data (.ready (.ok n)) => data.take n
  | .send data stop _ => stop.staged data
  | _ => []

/-- The shortfall of a send that stopped at a failure on output of its own. -/
def ownShortfall? : Sending → Option (Except Shortfall Nat) → Option Shortfall
  | .pushing .., some (.error f) => some f
  | _, _ => none

def Outcome.ownShortfall? : Outcome → Option Shortfall
  | .send _ stop answer? => TelnetEscape.ownShortfall? stop answer?
  | _ => none

/-- How a timeline closes: a send that falls short on its own output drops what is staged right
after the write that failed, and nothing else drops anything. -/
inductive Closes : Option Shortfall → Timeline → Prop
  | kept {t : Timeline} (kept : .dropped ∉ t) : Closes none t
  | lost {t : Timeline} {f : Shortfall} {offered : Bytes} {answer : Poll (Except SinkError Nat)}
      {e : Event} (kept : .dropped ∉ t)
      (failure : (Entry.write offered answer).failure? = some f.cause) :
      Closes (some f) (t ++ [.line (.write offered answer), .dropped, .line (.event e)])

theorem Closes.after {t u : Timeline} {f? : Option Shortfall} (ht : .dropped ∉ t)
    (h : Closes f? u) : Closes f? (t ++ u) := by
  cases h with
  | kept hu => exact .kept fun hmem => (List.mem_append.mp hmem).elim ht hu
  | lost hu failure =>
    rw [← List.append_assoc]
    exact .lost (fun hmem => (List.mem_append.mp hmem).elim ht hu) failure

theorem Closes.not_dropped {t : Timeline} (h : Closes none t) : .dropped ∉ t := by
  cases h with
  | kept kept => exact kept

/-- What came of an operation agrees with its timeline. -/
structure Tells (t : Timeline) (outcome : Outcome) : Prop where
  staged : t.input = outcome.staged
  closes : Closes outcome.ownShortfall? t

/-! ## Nothing but calls -/

namespace Timeline

/-- The timeline of calls and events alone. -/
def ofLines (lines : Journal) : Timeline :=
  lines.map .line

@[simp] theorem lines_ofLines (lines : Journal) : (ofLines lines).lines = lines := by
  simp [ofLines, Timeline.lines, Deed.line?, List.filterMap_map, Function.comp_def]

@[simp] theorem input_ofLines (lines : Journal) : (ofLines lines).input = [] := by
  simp [ofLines, Timeline.input, Deed.input]

theorem not_dropped_ofLines (lines : Journal) : .dropped ∉ ofLines lines := by
  simp [ofLines]

theorem ofLines_append (a b : Journal) : ofLines (a ++ b) = ofLines a ++ ofLines b :=
  List.map_append

end Timeline

section
variable {limit : Nat} {stage stage' : Stage} {lines : Journal}

/-- The offers of a push are steps from the backlog that it finds, by induction on them. A push
never ends with a backlog that is cut: after a short write it goes on with the rest. -/
theorem Offers.leads {unsent left : Bytes} {cut : Bool} {answer : Poll (Except SinkError Unit)}
    (h : Offers unsent lines answer) (hleft : lines.taken ++ left = unsent)
    (hcut : cut = true → unsent ≠ []) :
    Leads limit ⟨unsent, cut⟩ (.ofLines lines) ⟨left, false⟩ := by
  induction h generalizing cut with
  | done =>
    obtain rfl : left = [] := hleft
    cases cut with
    | false => exact .nil _
    | true => exact absurd rfl (hcut rfl)
  | pending some_left | refused some_left | failed some_left =>
    obtain rfl : left = _ := hleft
    exact .single (.untaken some_left rfl)
  | @took unsent n lines answer some_left rest ih =>
    have hrest : lines.taken ++ left = unsent.drop (n + 1) := by
      have hall : unsent.take (n + 1) ++ (lines.taken ++ left) =
          unsent.take (n + 1) ++ unsent.drop (n + 1) := by
        rw [List.take_append_drop, ← List.append_assoc]
        exact hleft
      exact List.append_cancel_left hall
    -- the sink may claim more than there was, so the count alone does not tell what is left
    by_cases hall : unsent.length ≤ n + 1
    · have hnone : unsent.drop (n + 1) = [] := List.drop_eq_nil_of_le hall
      have hmore : Leads limit ⟨unsent.drop (n + 1), false⟩ (.ofLines lines) ⟨left, false⟩ :=
        ih hrest (by simp)
      rw [hnone] at hmore
      exact .cons (.took_all some_left hall) hmore
    · refine .cons (.took_part (Nat.succ_pos n) (Nat.not_le.mp hall)) (ih hrest fun _ => ?_)
      exact mt List.drop_eq_nil_iff.mp hall

theorem PollDrains.leads {answer : Poll (Except SinkError Unit)}
    (h : PollDrains stage lines answer stage') :
    Leads limit ⟨stage.unsent, false⟩ (.ofLines lines) ⟨stage'.unsent, false⟩ := by
  cases h with
  | @drained lines offers =>
    have hall : lines.taken ++ [] = stage.unsent := by
      rw [List.append_nil, offers.taken_eq_iff.mpr rfl]
    rw [Timeline.ofLines_append]
    refine (offers.leads hall (by simp)).append ?_
    unfold Stage.drainedEvents
    split
    · exact .nil _
    · exact .single (.event _)
  | stopped offers =>
    exact offers.leads (Stage.append_unsent_advance_length offers.taken_prefix) (by simp)

end

/-! ## Timelines between two stages -/

/-- A timeline of the calls `lines`, between two stages. -/
structure Times (limit : Nat) (stage : Stage) (lines : Journal) (stage' : Stage)
    (t : Timeline) : Prop where
  lines_eq : t.lines = lines
  leads : Leads limit ⟨stage.unsent, false⟩ t ⟨stage'.unsent, false⟩

section
variable {config : Config} {limit : Nat} {stage stage' stage'' : Stage} {lines more : Journal}
  {t u : Timeline}

namespace Times

theorem nil (limit : Nat) (stage : Stage) : Times limit stage [] stage [] :=
  ⟨rfl, .nil _⟩

theorem append (h : Times limit stage lines stage' t) (h' : Times limit stage' more stage'' u) :
    Times limit stage (lines ++ more) stage'' (t ++ u) :=
  ⟨by rw [Timeline.lines_append, h.lines_eq, h'.lines_eq], h.leads.append h'.leads⟩

/-- Staging a front of `data` makes no call. -/
theorem fill (hvalid : stage.Valid limit) (data : Bytes) :
    Times limit stage [] (stage.fill limit data)
      [.staged (data.take (stage.fitting limit data))] := by
  have hunsent := Stage.unsent_fill hvalid.sent_le limit data
  have hlength := (hvalid.fill data).length_le
  refine ⟨rfl, ?_⟩
  rw [hunsent]
  refine .single (.stage ?_)
  rw [← hunsent, Stage.length_unsent, Stage.pending]
  omega

end Times

theorem PollDrains.times {answer : Poll (Except SinkError Unit)}
    (h : PollDrains stage lines answer stage') :
    Times limit stage lines stage' (.ofLines lines) :=
  ⟨Timeline.lines_ofLines lines, h.leads⟩

/-- A drain and then the next batch. -/
def Timeline.refill (limit : Nat) (lines : Journal) (data : Bytes) : Timeline :=
  ofLines lines ++ [.staged (data.take (fit limit data))]

theorem Timeline.input_refill (limit : Nat) (lines : Journal) (data : Bytes) :
    (refill limit lines data).input = data.take (fit limit data) := by
  rw [refill, input_append, input_ofLines]
  exact List.append_nil _

theorem Timeline.not_dropped_refill (limit : Nat) (lines : Journal) (data : Bytes) :
    .dropped ∉ refill limit lines data := by
  simp [refill, not_dropped_ofLines]

theorem PollDrains.times_refill (h : PollDrains stage lines (.ready (.ok ())) {}) (data : Bytes) :
    Times limit stage lines (({} : Stage).fill limit data) (.refill limit lines data) := by
  have hboth := h.times.append (.fill (Stage.valid_empty limit) data)
  rwa [List.append_nil, Stage.fitting_empty] at hboth

/-! ## Writes, flushes and shutdowns -/

theorem Tells.of_calls {outcome : Outcome} (staged : outcome.staged = [])
    (own : outcome.ownShortfall? = none) (lines : Journal) : Tells (.ofLines lines) outcome := by
  refine ⟨by rw [staged, Timeline.input_ofLines], ?_⟩
  rw [own]
  exact .kept (Timeline.not_dropped_ofLines lines)

theorem PollWrites.times {data : Bytes} {answer : Poll (Except SinkError Nat)}
    (h : PollWrites limit stage data lines answer stage') (hvalid : stage.Valid limit) :
    ∃ t, Times limit stage lines stage' t ∧ Tells t (.write data answer) := by
  cases h with
  | nothing => exact ⟨[], .nil limit stage, rfl, .kept List.not_mem_nil⟩
  | staged =>
    refine ⟨_, .fill hvalid data, ?_, .kept (by simp)⟩
    exact List.append_nil _
  | drained _ _ drains =>
    exact ⟨_, drains.times_refill data, Timeline.input_refill limit lines data,
      .kept (Timeline.not_dropped_refill limit lines data)⟩
  | pending _ _ drains | failed _ _ drains => exact ⟨_, drains.times, .of_calls rfl rfl lines⟩

theorem PollEnds.times {call : Poll (Except SinkError Unit) → Entry}
    {answer : Poll (Except SinkError Unit)} (h : PollEnds call stage lines answer stage')
    (hcall : ∀ answer, Deed.Does limit {} (.line (call answer)) {}) :
    Times limit stage lines stage' (.ofLines lines) := by
  cases h with
  | @called lines drains answer =>
    have hend : Times limit {} [call answer] {} (.ofLines [call answer]) :=
      ⟨rfl, .single (hcall answer)⟩
    have hboth := drains.times.append hend
    rwa [← Timeline.ofLines_append] at hboth
  | stopped drains => exact drains.times

/-! ## Sends -/

/-- A drain that fails, after which what is staged is dropped and the failure reported. -/
theorem PollDrains.times_lost {e : SinkError}
    (h : PollDrains stage lines (.ready (.error e)) stage') (event : Event) :
    ∃ t, Times limit stage (lines ++ [.event event]) {} t ∧ t.input = [] ∧
      ∀ f : Shortfall, f.cause = e → Closes (some f) t := by
  obtain ⟨front, offered, answer, rfl, hfailure⟩ := h.endsInFailure
  have hdrop : Leads limit ⟨stage'.unsent, false⟩ [.dropped, .line (.event event)] {} :=
    .cons .drop (.single (.event event))
  have hleads := h.leads.append hdrop
  rw [Timeline.ofLines_append, List.append_assoc] at hleads
  refine ⟨_, ⟨?_, hleads⟩, ?_, ?_⟩
  · rw [Timeline.lines_append, Timeline.lines_ofLines, List.append_assoc]
    rfl
  · rw [Timeline.input_append, Timeline.input_ofLines]
    rfl
  · intro f hcause
    exact .lost (Timeline.not_dropped_ofLines front) (hcause ▸ hfailure)

variable {data : Bytes} {sending stop : Sending} {answer? : Option (Except Shortfall Nat)}

/-- After `delivered` bytes the next batch is staged, which is empty when there is no data left. -/
theorem Sending.staged_next (limit delivered : Nat) :
    (Sending.next limit delivered (data.drop delivered)).staged data =
      data.take delivered ++ (data.drop delivered).take (fit limit (data.drop delivered)) := by
  rw [← List.take_add, Sending.next]
  by_cases hrest : data.drop delivered = []
  · have hall : data.length ≤ delivered := List.drop_eq_nil_iff.mp hrest
    rw [if_pos hrest, List.take_of_length_le (by omega)]
    rfl
  · rw [if_neg hrest]
    rfl

theorem ownShortfall?_none (sending : Sending) : ownShortfall? sending none = none := by
  cases sending <;> rfl

/-- A timeline of a send of `data`, from one part of it to another. -/
structure SendTimes (limit : Nat) (data : Bytes) (sending : Sending) (stage : Stage)
    (lines : Journal) (stop : Sending) (answer? : Option (Except Shortfall Nat)) (stage' : Stage)
    (t : Timeline) : Prop where
  times : Times limit stage lines stage' t
  staged : sending.staged data ++ t.input = stop.staged data
  closes : Closes (ownShortfall? stop answer?) t

/-- A send that stays in its part by calls alone. -/
theorem Times.stays (h : Times limit stage lines stage' (.ofLines lines))
    (own : ownShortfall? sending answer? = none) :
    SendTimes limit data sending stage lines sending answer? stage' (.ofLines lines) := by
  refine ⟨h, ?_, ?_⟩
  · rw [Timeline.input_ofLines, List.append_nil]
  · rw [own]
    exact .kept (Timeline.not_dropped_ofLines lines)

/-- A send that goes on with its next part after `delivered` bytes of its data. -/
theorem SendTimes.after {delivered : Nat} (drains : PollDrains stage lines (.ready (.ok ())) {})
    (hstaged : sending.staged data = data.take delivered)
    (h : SendTimes limit data (.next limit delivered (data.drop delivered))
      (({} : Stage).fill limit (data.drop delivered)) more stop answer? stage' t) :
    SendTimes limit data sending stage (lines ++ more) stop answer? stage'
      (.refill limit lines (data.drop delivered) ++ t) := by
  refine ⟨(drains.times_refill _).append h.times, ?_, h.closes.after ?_⟩
  · rw [Timeline.input_append, Timeline.input_refill, ← List.append_assoc, hstaged,
      ← Sending.staged_next, h.staged]
  · exact Timeline.not_dropped_refill _ _ _

/-- By induction on the parts that a poll goes through. -/
theorem SendPolls.times {turn : SendTurn}
    (h : SendPolls config sending stage lines stop turn stage') (hs : Standing data sending stage) :
    ∃ t, SendTimes config.stageLimit data sending stage lines stop turn.answer? stage' t := by
  induction h with
  | clearing_pending drains | clearing_failed drains | pushing_pending drains =>
    exact ⟨_, drains.times.stays rfl⟩
  | cleared drains _ ih =>
    cases hs
    obtain ⟨t, ht⟩ := ih (Standing.next _ (Nat.zero_le _))
    exact ⟨_, SendTimes.after drains rfl ht⟩
  | pushed drains _ ih =>
    cases hs with
    | pushing staged_le =>
      obtain ⟨t, ht⟩ := ih (Standing.next _ staged_le)
      exact ⟨_, SendTimes.after drains rfl ht⟩
  | pushing_failed drains =>
    obtain ⟨t, ht, hinput, hlost⟩ := drains.times_lost _
    exact ⟨t, ht, by rw [hinput, List.append_nil], hlost _ rfl⟩
  | flushing _ answer =>
    cases hs
    have hown : ownShortfall? (.flushing data.length) (flushTurn data.length answer).answer? =
        none := by
      rcases answer with _ | _ | _ <;> rfl
    exact ⟨_, Times.stays ⟨rfl, .single (.flush answer)⟩ hown⟩
  | done => exact ⟨_, Times.stays (.nil _ _) rfl⟩

theorem SendRuns.times (h : SendRuns config sending stage lines stop answer? stage')
    (hs : Standing data sending stage) :
    ∃ t, SendTimes config.stageLimit data sending stage lines stop answer? stage' t := by
  induction h with
  | given_up => exact ⟨_, Times.stays (.nil _ _) (ownShortfall?_none _)⟩
  | answered polls => exact polls.times hs
  | @again _ stop _ _ _ _ _ _ _ _ polls _ ih =>
    obtain ⟨t, ht⟩ := polls.times hs
    obtain ⟨u, hu⟩ := ih (polls.standing hs rfl)
    -- a poll that leaves the send pending drops nothing
    have hkept : Closes (ownShortfall? stop none) t := ht.closes
    rw [ownShortfall?_none] at hkept
    refine ⟨t ++ u, ht.times.append hu.times, ?_, hu.closes.after hkept.not_dropped⟩
    rw [Timeline.input_append, ← List.append_assoc, ht.staged, polls.stop_eq rfl, hu.staged]

/-! ## Runs -/

theorem Performs.times {outcome : Outcome} (h : Performs config stage lines outcome stage')
    (hvalid : stage.Valid config.stageLimit) :
    ∃ t, Times config.stageLimit stage lines stage' t ∧ Tells t outcome := by
  cases h with
  | write writes => exact writes.times hvalid
  | flush ends => exact ⟨_, ends.times .flush, .of_calls rfl rfl lines⟩
  | shutdown ends => exact ⟨_, ends.times .shutdown, .of_calls rfl rfl lines⟩
  | send runs =>
    obtain ⟨t, ht⟩ := runs.times .clearing
    exact ⟨t, ht.times, ht.staged, ht.closes⟩

end

/-- The timelines of operations on a writer, one for each: its lines are what the operation adds to
the journal, it leads from what the writer had staged and unsent to what it has afterwards, and it
agrees with what came of the operation. -/
inductive Recounts {σ : Type} [AsyncSink σ] (limit : Nat) :
    Writer (Journaled σ) → List Operation → List Timeline → Prop
  | nil (w : Writer (Journaled σ)) : Recounts limit w [] []
  | cons {w : Writer (Journaled σ)} {operation : Operation} {operations : List Operation}
      {t : Timeline} {ts : List Timeline}
      (journal_eq : (w.perform operation).2.sink.journal = w.sink.journal ++ t.lines)
      (leads : Leads limit ⟨w.stage.unsent, false⟩ t ⟨(w.perform operation).2.stage.unsent, false⟩)
      (tells : Tells t (w.perform operation).1)
      (rest : Recounts limit (w.perform operation).2 operations ts) :
      Recounts limit w (operation :: operations) (t :: ts)

section
variable {σ : Type} [AsyncSink σ] {w : Writer (Journaled σ)} {operations : List Operation}

theorem Recounts.leads {limit : Nat} {ts : List Timeline} (h : Recounts limit w operations ts) :
    Leads limit ⟨w.stage.unsent, false⟩ ts.flatten ⟨(w.run operations).2.stage.unsent, false⟩ := by
  induction h with
  | nil => exact .nil _
  | cons _ leads _ _ ih => exact leads.append ih

theorem Writer.run_recounts (w : Writer (Journaled σ)) (operations : List Operation)
    (hvalid : w.stage.Valid w.config.stageLimit) :
    ∃ ts, Recounts w.config.stageLimit w operations ts := by
  induction operations generalizing w with
  | nil => exact ⟨[], .nil w⟩
  | cons operation operations ih =>
    obtain ⟨lines, hmoves, hperforms⟩ := w.perform_performs operation
    obtain ⟨t, ht, htells⟩ := hperforms.times hvalid
    have hvalid' := hperforms.valid hvalid
    rw [← hmoves.config_eq] at hvalid'
    obtain ⟨ts, hrest⟩ := ih (w.perform operation).2 hvalid'
    rw [hmoves.config_eq] at hrest
    refine ⟨t :: ts, .cons ?_ ht.leads htells hrest⟩
    rw [ht.lines_eq]
    exact Journaled.journal_of_asyncCalls hmoves.calls

end

/-- **The order of offers.** Any run of a new writer over any sink has a timeline on which all calls
come in good order: every offer completes the escaped form of the input staged so far, what was not
taken is offered again, the rest of a short write at once, and the sink is flushed or shut down only
when it has all of it. -/
theorem offers_orderly {σ : Type} [AsyncSink σ] (s : σ) (config : Config)
    (operations : List Operation) :
    ∃ ts, Recounts config.stageLimit (Writer.fresh s config) operations ts ∧
      Orderly config.stageLimit ts.flatten := by
  obtain ⟨ts, hrecounts⟩ := (Writer.fresh s config).run_recounts operations (Stage.valid_empty _)
  exact ⟨ts, hrecounts, hrecounts.leads.orderly⟩

/-- Half a pair is taken, then the sink is pending: the other half leads the next offer, and what
was staged in between comes behind it. -/
example :
    let sink : ScriptedSink := { script := { writes := { steps := [.take (some 1), .pending] } } }
    let w := ((Writer.fresh sink {}).run [.write [255], .flush, .write [7], .flush]).2
    w.sink.journal = [.write [255, 255] (.ready (.ok 1)), .write [255] .pending,
      .write [255, 7] (.ready (.ok 2)), .event (.drained 3 none), .flush (.ready (.ok ()))] := by
  cbv

end TelnetEscape
