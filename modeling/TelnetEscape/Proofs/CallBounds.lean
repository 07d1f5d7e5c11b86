import TelnetEscape.Proofs.Batches

/-!
# How many calls a send makes

A write that is answered hands over a byte at least, or it fails and is the last one. So a send
makes no more of them than it has bytes to hand over, whatever the sink answers. Its loop reports
every batch that it stages, and each batch takes some of the data, so there are no more reports than
bytes of data, but for one.

`Journal.Within` draws calls and reports on an allowance, and `Sending.allowance` is what a send has
left of it.

* `Sends.within`: what a blocking send draws, batch by batch;
* `SendPolls.within`, `Writer.sendFrom_within`: what one poll of a send draws, and any number;
* `calls_bounded`: the bounds of both.
-/

namespace TelnetEscape

/-! ## Allowances -/

/-- So many answered writes, reports and answered flushes there may be. -/
structure Allowance where
  writes : Nat := 0
  reports : Nat := 0
  flushes : Nat := 0

/-- From one allowance `lines` leave at least another. -/
structure Journal.Within (lines : Journal) (before after : Allowance) : Prop where
  writes : lines.answered.writes + after.writes ≤ before.writes
  reports : lines.events.length + after.reports ≤ before.reports
  flushes : lines.answered.flushes + after.flushes ≤ before.flushes

namespace Journal.Within

variable {lines more : Journal} {a b c : Allowance}

theorem nil (a : Allowance) : Within [] a a :=
  ⟨Nat.le_of_eq (Nat.zero_add _), Nat.le_of_eq (Nat.zero_add _), Nat.le_of_eq (Nat.zero_add _)⟩

theorem append (h : lines.Within a b) (h' : more.Within b c) : (lines ++ more).Within a c := by
  obtain ⟨hwrites, hreports, hflushes⟩ := h
  obtain ⟨hwrites', hreports', hflushes'⟩ := h'
  refine ⟨?_, ?_, ?_⟩
  · rw [answered_append, Journal.writes, List.countP_append]
    rw [Journal.writes] at hwrites hwrites'
    omega
  · rw [events_append, List.length_append]
    omega
  · rw [answered_append, flushes_append]
    omega

theorem of_reports_le {n : Nat} (h : lines.Within a b) (hle : a.reports ≤ n) :
    lines.Within { a with reports := n } b :=
  ⟨h.writes, h.reports.trans hle, h.flushes⟩

/-- The rest of an allowance may be given up. -/
theorem spent (h : lines.Within a b) : lines.Within a {} :=
  ⟨Nat.le_of_add_right_le h.writes, Nat.le_of_add_right_le h.reports,
    Nat.le_of_add_right_le h.flushes⟩

theorem no_writes {writes reports flushes : Nat} (h : lines.Within a ⟨writes, reports, flushes⟩) :
    lines.Within a ⟨0, reports, flushes⟩ :=
  ⟨Nat.le_of_add_right_le h.writes, h.reports, h.flushes⟩

theorem event (e : Event) (a : Allowance) :
    Within [.event e] { a with reports := a.reports + 1 } a :=
  ⟨Nat.le_of_eq (Nat.zero_add _), Nat.le_of_eq (Nat.add_comm 1 _), Nat.le_of_eq (Nat.zero_add _)⟩

end Journal.Within

/-! ## Pushing out a stage -/

theorem Journal.writes_answered_cons (offered : Bytes) (answer : Except SinkError Nat)
    (lines : Journal) :
    (answered (.write offered (.ready answer) :: lines)).writes = lines.answered.writes + 1 := by
  rw [answered_cons_of_pos rfl, Journal.writes, List.countP_cons_of_pos rfl, Journal.writes]

namespace Offers

variable {unsent : Bytes} {lines : Journal} {answer : Poll (Except SinkError Unit)}

/-- An answered write leaves less to offer, or it fails and is the last. -/
theorem writes_le (h : Offers unsent lines answer) : lines.answered.writes ≤ unsent.length := by
  induction h with
  | done | pending => exact Nat.zero_le _
  | refused some_left | failed some_left => exact List.length_pos_iff.mpr some_left
  | @took unsent n lines answer some_left _ ih =>
    have hlength := List.length_pos_iff.mpr some_left
    rw [List.length_drop] at ih
    rw [Journal.writes_answered_cons]
    omega

/-- Until a call is pending none has failed, so each has taken a byte. -/
theorem writes_le_taken (h : Offers unsent lines .pending) :
    lines.answered.writes ≤ lines.taken.length := by
  generalize hpending : Poll.pending = polled at h
  induction h with
  | done | refused | failed => cases hpending
  | pending => exact Nat.zero_le _
  | @took unsent n lines answer some_left _ ih =>
    have hlength := List.length_pos_iff.mpr some_left
    have hrest := ih hpending
    rw [Journal.writes_answered_cons, Journal.taken_cons, List.length_append, Entry.taken,
      List.length_take]
    omega

theorem flushes_eq_zero (h : Offers unsent lines answer) : lines.answered.flushes = 0 := by
  apply List.countP_eq_zero.mpr
  intro e he
  have hmem := h.forall_mem (P := fun e => e.isFlush = false) (fun _ _ _ => rfl) e
    (List.mem_of_mem_filter he)
  rw [hmem]
  exact Bool.false_ne_true

theorem within (h : Offers unsent lines answer) (a : Allowance) :
    lines.Within { a with writes := a.writes + unsent.length } a := by
  have hwrites := h.writes_le
  refine ⟨?_, ?_, ?_⟩
  · dsimp only
    omega
  · rw [h.events_eq_nil]
    exact Nat.le_of_eq (Nat.zero_add _)
  · rw [h.flushes_eq_zero]
    exact Nat.le_of_eq (Nat.zero_add _)

end Offers

theorem Drains.within {bytes : Bytes} {inputs : Nat} {lines : Journal}
    {answer : Except Shortfall Unit} (h : Drains bytes inputs lines answer) (a : Allowance) :
    lines.Within { a with writes := a.writes + bytes.length, reports := a.reports + 1 } a := by
  cases h with
  | sent offers | short offers =>
    exact (offers.within { a with reports := a.reports + 1 }).append (.event _ a)

namespace PollDrains

variable {stage stage' : Stage} {lines : Journal}

theorem within_of_ok (h : PollDrains stage lines (.ready (.ok ())) stage') (a : Allowance) :
    lines.Within { a with writes := a.writes + stage.pending, reports := a.reports + 1 } a := by
  cases h with
  | stopped _ unfinished => exact absurd rfl unfinished
  | drained offers =>
    rw [← stage.length_unsent]
    apply (offers.within { a with reports := a.reports + 1 }).append
    unfold Stage.drainedEvents
    split
    · exact (Journal.Within.nil a).of_reports_le (Nat.le_succ _)
    · exact .event _ a

theorem within_of_error {e : SinkError} (h : PollDrains stage lines (.ready (.error e)) stage')
    (a : Allowance) : lines.Within { a with writes := a.writes + stage.pending } a := by
  cases h with
  | stopped offers =>
    rw [← stage.length_unsent]
    exact offers.within a

theorem within_of_pending (h : PollDrains stage lines .pending stage') (a : Allowance) :
    lines.Within { a with writes := a.writes + stage.pending }
      { a with writes := a.writes + stage'.pending } := by
  have hunsent := congrArg List.length h.taken_append_unsent
  rw [List.length_append, Stage.length_unsent, Stage.length_unsent] at hunsent
  cases h with
  | stopped offers =>
    have hwrites := offers.writes_le_taken
    have hwithin := offers.within a
    exact ⟨by dsimp only; omega, hwithin.reports, hwithin.flushes⟩

end PollDrains

/-! ## Blocking sends -/

theorem Finishes.within {config : Config} {batches answer : Except Shortfall Nat}
    {lines : Journal} (h : Finishes config batches lines answer) :
    lines.Within { flushes := 1 } {} := by
  cases h with
  | unflushed => exact (Journal.Within.nil _).spent
  | flushed | flush_failed => exact ⟨Nat.le_refl _, Nat.le_refl _, Nat.le_refl _⟩

theorem escapedLength_drop_add (k : Nat) (data : Bytes) :
    escapedLength (data.drop k) + (escape (data.take k)).length = escapedLength data := by
  rw [length_escape, Nat.add_comm, ← escapedLength_append, List.take_append_drop]

/-- One round of a blocking send: a batch is handed over and reported, and the rest is left. -/
theorem Drains.within_of_take {data : Bytes} {k inputs : Nat} {lines : Journal}
    {answer : Except Shortfall Unit} (h : Drains (escape (data.take k)) inputs lines answer)
    (reports : Nat) :
    lines.Within ⟨escapedLength data, reports + 1, 1⟩
      ⟨escapedLength (data.drop k), reports, 1⟩ := by
  have hwithin := h.within ⟨escapedLength (data.drop k), reports, 1⟩
  dsimp only at hwithin
  rwa [escapedLength_drop_add] at hwithin

/-- By induction on the batches: each takes some of the data, so what is left of it allows for the
others. -/
theorem Sends.within {limit : Nat} {data : Bytes} {lines : Journal} {answer : Except Shortfall Nat}
    (h : Sends limit data lines answer) (hlimit : 2 ≤ limit) :
    lines.Within ⟨escapedLength data, max 1 data.length, 1⟩ { flushes := 1 } := by
  induction h with
  | last _ drains | short drains =>
    exact (drains.within_of_take 0).no_writes.of_reports_le (Nat.le_max_left _ _)
  | @more data batch lines answer some_left drains _ ih =>
    have hdata : data ≠ [] := fun h => some_left (by rw [h, List.drop_nil])
    have hfit := fit_pos hlimit hdata
    have hleft := List.length_pos_iff.mpr some_left
    refine ((drains.within_of_take _).append ih).of_reports_le ?_
    dsimp only
    rw [List.length_drop] at hleft ⊢
    omega

/-! ## Polled sends -/

/-- What a send may still draw that has `stage` to push out. Each byte of data may be a batch, with
a report of its own, and what is staged is reported before them. -/
def Sending.allowance (stage : Stage) : Sending → Allowance
  | .clearing data => ⟨escapedLength data + stage.pending, data.length + 1, 1⟩
  | .pushing _ _ rest => ⟨escapedLength rest + stage.pending, rest.length + 1, 1⟩
  | .flushing _ => { flushes := 1 }

/-- What may still be drawn after a poll. -/
def Sending.allowanceAfter (stage : Stage) : SendTurn → Allowance
  | .pending left => left.allowance stage
  | .ready _ => {}

section
variable {config : Config} {sending stop : Sending} {stage stage' : Stage} {lines : Journal}
  {turn : SendTurn}

/-- The part after a batch has staged some of the data that is left, and draws no more than all of
it allows for. -/
theorem Journal.Within.of_next {delivered limit : Nat} {rest : Bytes} {after : Allowance}
    (hlimit : 2 ≤ limit)
    (h : lines.Within
      ((Sending.next limit delivered rest).allowance (({} : Stage).fill limit rest)) after) :
    lines.Within ⟨escapedLength rest, rest.length, 1⟩ after := by
  obtain ⟨hwrites, hreports, hflushes⟩ := h
  by_cases hrest : rest = []
  · rw [Sending.next, if_pos hrest] at hwrites hreports hflushes
    exact ⟨hwrites.trans (Nat.zero_le _), hreports.trans (Nat.zero_le _), hflushes⟩
  · have hpending : (({} : Stage).fill limit rest).pending =
        (escape (rest.take (fit limit rest))).length := by
      rw [← Stage.length_unsent, Stage.unsent_fill_empty]
    have hsplit := escapedLength_drop_add (fit limit rest) rest
    have hfit := fit_pos hlimit hrest
    have hlength := List.length_pos_iff.mpr hrest
    rw [Sending.next, if_neg hrest, Sending.allowance] at hwrites hreports hflushes
    rw [hpending, hsplit] at hwrites
    rw [List.length_drop] at hreports
    exact ⟨hwrites, by dsimp only at hreports ⊢; omega, hflushes⟩

/-- By induction on the parts that the poll goes through. -/
theorem SendPolls.within (h : SendPolls config sending stage lines stop turn stage') :
    lines.Within (sending.allowance stage) (Sending.allowanceAfter stage' turn) := by
  induction h with
  | @clearing_pending data _ _ _ drains =>
    exact drains.within_of_pending ⟨escapedLength data, data.length + 1, 1⟩
  | @pushing_pending _ _ rest _ _ _ drains =>
    exact drains.within_of_pending ⟨escapedLength rest, rest.length + 1, 1⟩
  | @clearing_failed data _ _ _ _ drains =>
    exact (drains.within_of_error ⟨escapedLength data, data.length + 1, 1⟩).spent
  | @pushing_failed _ _ rest _ _ _ _ _ drains =>
    have hdrain := drains.within_of_error ⟨escapedLength rest, rest.length + 1, 1⟩
    exact (hdrain.append (.event _ ⟨escapedLength rest, rest.length, 1⟩)).spent
  | @cleared data _ _ _ _ _ _ drains _ ih =>
    have hdrain := drains.within_of_ok ⟨escapedLength data, data.length, 1⟩
    exact hdrain.append (ih.of_next config.two_le_stageLimit)
  | @pushed _ _ rest _ _ _ _ _ _ drains _ ih =>
    have hdrain := drains.within_of_ok ⟨escapedLength rest, rest.length, 1⟩
    exact hdrain.append (ih.of_next config.two_le_stageLimit)
  | flushing _ answer =>
    match answer with
    | .pending | .ready (.ok ()) | .ready (.error _) =>
      exact ⟨Nat.le_refl _, Nat.le_refl _, Nat.le_refl _⟩
  | done => exact (Journal.Within.nil _).spent

end

namespace Writer

variable {σ : Type} [AsyncSink σ]

/-- By induction on the polls: each draws on what the one before has left, and is pending only if a
call is. -/
theorem sendFrom_within (polls : Nat) (sending : Sending) (w : Writer σ)
    (hawaits : sending.Awaits w.config) :
    ∃ lines, w.Moves lines (sendFrom polls sending w).2.2 ∧
      lines.Within (sending.allowance w.stage) {} ∧
      ((sendFrom polls sending w).2.1 = none → polls ≤ lines.countP Entry.isPending) := by
  induction polls generalizing sending w with
  | zero => exact ⟨[], ⟨.nil _, rfl⟩, (Journal.Within.nil _).spent, fun _ => Nat.le_refl 0⟩
  | succ polls ih =>
    obtain ⟨lines, hmoves, hpolls⟩ := w.pollSend_polls sending hawaits
    rw [sendFrom]
    generalize w.pollSend sending = polled at *
    obtain ⟨turn, w'⟩ := polled
    cases turn with
    | ready answer =>
      exact ⟨lines, hmoves, hpolls.within, fun hnone => absurd hnone (Option.some_ne_none answer)⟩
    | pending left =>
      have hleft : left.Awaits w'.config := by
        rw [hmoves.config_eq]
        exact hpolls.awaits rfl
      obtain ⟨more, hmore, hwithin, hpending⟩ := ih left w' hleft
      refine ⟨lines ++ more, hmoves.append hmore, hpolls.within.append hwithin, ?_⟩
      intro hnone
      have hlines := hpolls.countP_isPending_pos rfl
      have hrest := hpending hnone
      rw [List.countP_append]
      omega

end Writer

/-! ## The bounds -/

/-- The calls of a blocking send of `data`. -/
structure SendBounds (data : Bytes) (lines : Journal) : Prop where
  writes_le : lines.writes ≤ escapedLength data
  flushes_le : lines.flushes ≤ 1
  /-- Every round of the loop reports its batch. -/
  reports_le : lines.events.length ≤ max 1 data.length

/-- The calls of a send of `data` that is polled so many times, with `pending` bytes staged before
it. -/
structure SendPolledBounds (pending : Nat) (data : Bytes) (polls : Nat)
    (answer? : Option (Except Shortfall Nat)) (lines : Journal) : Prop where
  writes_le : lines.answered.writes ≤ pending + escapedLength data
  flushes_le : lines.answered.flushes ≤ 1
  /-- Every round of the loop reports its batch, after a first report of what was staged before. -/
  reports_le : lines.events.length ≤ data.length + 1
  /-- The send has its answer as soon as it is polled more often than a call is pending. -/
  polls_le : answer? = none → polls ≤ lines.countP Entry.isPending

/-- A blocking sink answers all of its calls. -/
theorem Sink.countP_answered {σ : Type} [Sink σ] {s s' : σ} {lines : Journal}
    (h : Calls Sink.Step s lines s') {p : Entry → Bool} (hevent : ∀ e, p (.event e) = false) :
    lines.answered.countP p = lines.countP p := by
  rw [Journal.answered, List.countP_filter]
  apply List.countP_congr
  intro line hmem
  rcases Sink.isAnswered_or_event h line hmem with hanswered | ⟨e, rfl⟩
  · rw [hanswered, Bool.and_true]
  · rw [hevent, Bool.false_and]

/-- Whatever a sink answers, and however many bytes it says it took: a blocking send ends, after at
most one flush and no more writes than its data has bytes in escaped form. A polled send, which may
find some bytes staged, makes no more answered writes than there are bytes in all, and is pending no
more often than the sink is. In each round of their loops a batch takes some of the data. -/
theorem calls_bounded {σ τ : Type} [Sink σ] [AsyncSink τ] (w : Writer (Journaled σ))
    (v : Writer (Journaled τ)) (polls : Nat) (data : Bytes) :
    (∃ lines, (w.send data).2.sink.journal = w.sink.journal ++ lines ∧ SendBounds data lines) ∧
    (∃ lines, (v.sendPolled polls data).2.sink.journal = v.sink.journal ++ lines ∧
      SendPolledBounds v.pending data polls (v.sendPolled polls data).1 lines) ∧
    ∀ rest, rest ≠ [] → 0 < w.batchSize rest ∧ 0 < v.batchSize rest := by
  refine ⟨?_, ?_, ?_⟩
  · obtain ⟨lines, flushes, batches, hcalls, hsends, hfinishes⟩ := w.send_sends data
    have hwithin := (hsends.within w.config.two_le_stageLimit).append hfinishes.within
    refine ⟨lines ++ flushes, Journaled.journal_of_calls hcalls, ?_, ?_, ?_⟩
    · rw [Journal.writes, ← Sink.countP_answered hcalls fun _ => rfl]
      exact hwithin.writes
    · rw [Journal.flushes, ← Sink.countP_answered hcalls fun _ => rfl]
      exact hwithin.flushes
    · exact hwithin.reports
  · obtain ⟨lines, hmoves, hwithin, hpolls⟩ := v.sendFrom_within polls (.clearing data) trivial
    rw [Writer.sendPolled_eq_sendFrom]
    refine ⟨lines, Journaled.journal_of_asyncCalls hmoves.calls, ?_, ?_, ?_, hpolls⟩
    · rw [Nat.add_comm]
      exact hwithin.writes
    · exact hwithin.flushes
    · exact hwithin.reports
  · intro rest hrest
    exact ⟨w.batchSize_pos hrest, v.batchSize_pos hrest⟩

end TelnetEscape
