import TelnetEscape.Proofs.Conservation

/-!
# The outcome of a polled send

A send that is polled until it has its answer stopped in one of its parts, and the answer tells
what became of the data and of the output that was staged before it (`PolledOutcome`). Only a send
that could not push out the earlier output keeps anything staged, and then just what is left of it.

* `Settled`: the part in which a send got its answer, the answer, and what is left staged;
* `SendPolls.settled`: this is what a poll comes to, by induction on the parts it goes through;
* `Writer.sendPolled_calls`: hence the outcome of a send over any sink, after any number of polls.
-/

namespace TelnetEscape

/-- A send of `data` that is polled at most so many times: its answer, unless it was still pending
when it was given up, and the writer afterwards. -/
def Writer.sendPolled {σ : Type} [AsyncSink σ] (w : Writer σ) (polls : Nat) (data : Bytes) :
    Option (Except Shortfall Nat) × Writer σ :=
  let polled := pollUpTo (fun sending w => w.pollSend sending) polls (.clearing data) w
  (polled.answer?, polled.state)

theorem Writer.sendPolled_eq_sendFrom {σ : Type} [AsyncSink σ] (w : Writer σ) (polls : Nat)
    (data : Bytes) : w.sendPolled polls data = (sendFrom polls (.clearing data) w).2 := by
  obtain ⟨hanswer, hstate⟩ := w.pollUpTo_eq_sendFrom polls (.clearing data)
  exact Prod.ext hanswer hstate

/-! ## Where the answer comes from -/

/-- A send of `data` got its answer in a part of it, and leaves a stage. -/
inductive Settled (data : Bytes) : Sending → Except Shortfall Nat → Stage → Prop
  | held_up {stage : Stage} (e : SinkError) :
      Settled data (.clearing data) (.error ⟨0, false, e⟩) stage
  | fell_short {delivered inputs : Nat} {rest part : Bytes} {f : Shortfall}
      (reaches : Progress.Reaches ⟨f.delivered, f.tornPair⟩ data part) :
      Settled data (.pushing delivered inputs rest) (.error f) {}
  | through : Settled data (.flushing data.length) (.ok data.length) {}
  | unflushed (e : SinkError) :
      Settled data (.flushing data.length) (.error ⟨data.length, false, e⟩) {}

/-- A send that does not get beyond its writes fails by one of them. -/
def Journal.WriteFailed (lines : Journal) : Prop :=
  ∃ line ∈ lines, line.isWrite = true ∧ line.failure? ≠ none

theorem Journal.WriteFailed.after {lines : Journal} (h : lines.WriteFailed) (before : Journal) :
    (before ++ lines).WriteFailed := by
  obtain ⟨line, hmem, hline⟩ := h
  exact ⟨line, List.mem_append_right before hmem, hline⟩

theorem Journal.WriteFailed.before {lines : Journal} (h : lines.WriteFailed) (more : Journal) :
    (lines ++ more).WriteFailed := by
  obtain ⟨line, hmem, hline⟩ := h
  exact ⟨line, List.mem_append_left more hmem, hline⟩

theorem Journal.EndsInFailure.writeFailed {lines : Journal} {e : SinkError}
    (h : lines.EndsInFailure e) : lines.WriteFailed := by
  obtain ⟨front, offered, answer, rfl, hfailure⟩ := h
  refine ⟨.write offered answer, List.mem_append_right front (List.mem_singleton_self _), rfl, ?_⟩
  rw [hfailure]
  exact Option.some_ne_none e

/-- The part of a send is the flush at its end. -/
def Sending.isFlushing : Sending → Bool
  | .flushing _ => true
  | _ => false

section
variable {config : Config} {data : Bytes} {sending stop : Sending} {stage stage' : Stage}
  {lines : Journal} {answer : Except Shortfall Nat}

theorem SendPolls.settled {turn : SendTurn}
    (h : SendPolls config sending stage lines stop turn stage') (hs : Standing data sending stage)
    (hready : turn = .ready answer) : Settled data stop answer stage' := by
  induction h with
  | clearing_pending | pushing_pending => cases hready
  | clearing_failed =>
    cases hs
    cases hready
    exact .held_up _
  | pushing_failed drains reached =>
    cases hs with
    | pushing staged_le bytes_eq =>
      subst reached
      cases hready
      exact .fell_short (drains.reaches bytes_eq (by omega))
  | cleared _ _ ih =>
    cases hs
    exact ih (Standing.next _ (Nat.zero_le _)) hready
  | pushed _ _ ih =>
    cases hs with
    | pushing staged_le => exact ih (Standing.next _ staged_le) hready
  | flushing _ flushed =>
    cases hs
    match flushed, hready with
    | .ready (.ok ()), hready =>
      cases hready
      exact .through
    | .ready (.error e), hready =>
      cases hready
      exact .unflushed e
  | done =>
    cases hs
    cases hready
    exact .through

theorem SendPolls.writeFailed {turn : SendTurn}
    (h : SendPolls config sending stage lines stop turn stage') (hready : turn = .ready answer)
    (hstop : stop.isFlushing = false) : lines.WriteFailed := by
  induction h with
  | clearing_pending | pushing_pending => cases hready
  | clearing_failed drains => exact drains.endsInFailure.writeFailed
  | pushing_failed drains => exact drains.endsInFailure.writeFailed.before _
  | cleared _ _ ih | pushed _ _ ih => exact (ih hready hstop).after _
  | flushing | done => cases hstop

variable {answer? : Option (Except Shortfall Nat)}

theorem SendRuns.settled (h : SendRuns config sending stage lines stop answer? stage')
    (hs : Standing data sending stage) (hanswer : answer? = some answer) :
    Settled data stop answer stage' := by
  induction h with
  | given_up => cases hanswer
  | answered polls =>
    cases hanswer
    exact polls.settled hs rfl
  | again polls _ ih => exact ih (polls.standing hs rfl) hanswer

theorem SendRuns.writeFailed (h : SendRuns config sending stage lines stop answer? stage')
    (hanswer : answer? = some answer) (hstop : stop.isFlushing = false) : lines.WriteFailed := by
  induction h with
  | given_up => cases hanswer
  | answered polls => exact polls.writeFailed rfl hstop
  | again _ _ ih => exact (ih hanswer hstop).after _

end

/-! ## Flushes of a polled send -/

section
variable {config : Config} {sending stop : Sending} {stage stage' : Stage} {lines : Journal}

theorem PollDrains.isFlush_eq_false {answer : Poll (Except SinkError Unit)}
    (h : PollDrains stage lines answer stage') : ∀ e ∈ lines, e.isFlush = false :=
  h.forall_mem (fun _ _ _ => rfl) fun _ => rfl

/-- A poll that stops before the flush makes none. -/
theorem SendPolls.isFlush_eq_false {turn : SendTurn}
    (h : SendPolls config sending stage lines stop turn stage') (hstop : stop.isFlushing = false) :
    ∀ e ∈ lines, e.isFlush = false := by
  induction h with
  | clearing_pending drains | clearing_failed drains | pushing_pending drains =>
    exact drains.isFlush_eq_false
  | pushing_failed drains =>
    exact List.forall_mem_append.mpr ⟨drains.isFlush_eq_false, List.forall_mem_singleton.mpr rfl⟩
  | cleared drains _ ih | pushed drains _ ih =>
    exact List.forall_mem_append.mpr ⟨drains.isFlush_eq_false, ih hstop⟩
  | flushing | done => cases hstop

theorem SendPolls.isFlushing {turn : SendTurn}
    (h : SendPolls config sending stage lines stop turn stage')
    (hsending : sending.isFlushing = true) : stop.isFlushing = true := by
  cases h with
  | flushing | done => rfl
  | _ => cases hsending

theorem SendRuns.isFlushing {answer? : Option (Except Shortfall Nat)}
    (h : SendRuns config sending stage lines stop answer? stage')
    (hsending : sending.isFlushing = true) : stop.isFlushing = true := by
  induction h with
  | given_up => exact hsending
  | answered polls => exact polls.isFlushing hsending
  | again polls _ ih =>
    refine ih ?_
    rw [← polls.stop_eq rfl]
    exact polls.isFlushing hsending

/-- A send that never comes to its flush makes none. -/
theorem SendRuns.isFlush_eq_false {answer? : Option (Except Shortfall Nat)}
    (h : SendRuns config sending stage lines stop answer? stage')
    (hstop : stop.isFlushing = false) :
    ∀ e ∈ lines, e.isFlush = false := by
  induction h with
  | given_up => simp
  | answered polls => exact polls.isFlush_eq_false hstop
  | @again _ stop left stop' _ _ _ _ _ _ polls rest ih =>
    have hleft : left.isFlushing = false := by
      refine Bool.eq_false_iff.mpr fun hleft => ?_
      rw [rest.isFlushing hleft] at hstop
      cases hstop
    intro e he
    refine (List.mem_append.mp he).elim (polls.isFlush_eq_false ?_ e) (ih hstop e)
    rwa [polls.stop_eq rfl]

end

/-! ## The outcome -/

/-- What a send of `data` that found `stage` and left `stage'` did by its calls, told by the
answer. -/
inductive PolledOutcome (data : Bytes) (stage : Stage) (lines : Journal) :
    Except Shortfall Nat → Stage → Prop
  | through (taken : lines.taken = stage.unsent ++ escape data) :
      PolledOutcome data stage lines (.ok data.length) {}
  | unflushed (taken : lines.taken = stage.unsent ++ escape data) (e : SinkError) :
      PolledOutcome data stage lines (.error ⟨data.length, false, e⟩) {}
  | held_up {stage' : Stage} (taken : lines.taken ++ stage'.unsent = stage.unsent)
      (write_failed : lines.WriteFailed) (e : SinkError) :
      PolledOutcome data stage lines (.error ⟨0, false, e⟩) stage'
  | fell_short {part : Bytes} {f : Shortfall} (taken : lines.taken = stage.unsent ++ part)
      (write_failed : lines.WriteFailed)
      (reaches : Progress.Reaches ⟨f.delivered, f.tornPair⟩ data part) :
      PolledOutcome data stage lines (.error f) {}

theorem SendRuns.polledOutcome {config : Config} {data : Bytes} {stop : Sending}
    {stage stage' : Stage} {lines : Journal} {answer : Except Shortfall Nat}
    (h : SendRuns config (.clearing data) stage lines stop (some answer) stage') :
    PolledOutcome data stage lines answer stage' := by
  have hstart : [] ++ stage.unsent = stage.unsent ++ sendSegment data none (.clearing data) :=
    (List.append_nil _).symm
  have hconserves := h.conserves .clearing hstart
  have hsettled := h.settled .clearing rfl
  have hfailed := h.writeFailed rfl
  rw [List.nil_append] at hconserves
  cases hsettled with
  | held_up e => exact .held_up (hconserves.trans (List.append_nil _)) (hfailed rfl) e
  | fell_short reaches =>
    refine .fell_short ?_ (hfailed rfl) reaches
    rw [reaches.output_eq]
    exact (List.append_nil _).symm.trans hconserves
  | through => exact .through ((List.append_nil _).symm.trans hconserves)
  | unflushed e => exact .unflushed ((List.append_nil _).symm.trans hconserves) e

/-- The calls of a polled send and, once it has its answer, its outcome. -/
theorem Writer.sendPolled_calls {σ : Type} [AsyncSink σ] (w : Writer σ) (polls : Nat)
    (data : Bytes) :
    ∃ lines, w.Moves lines (w.sendPolled polls data).2 ∧
      ∀ answer, (w.sendPolled polls data).1 = some answer →
        PolledOutcome data w.stage lines answer (w.sendPolled polls data).2.stage := by
  obtain ⟨lines, hmoves, hruns⟩ := w.sendFrom_runs polls (.clearing data) trivial
  rw [sendPolled_eq_sendFrom]
  refine ⟨lines, hmoves, fun answer hanswer => ?_⟩
  rw [hanswer] at hruns
  exact hruns.polledOutcome

end TelnetEscape
