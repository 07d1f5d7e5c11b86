import TelnetEscape.Proofs.Completion
import TelnetEscape.Proofs.Resend

/-!
# Blocking and polled sends agree

The same data over the same sink, at once or over any pending polls: both kinds of writers come to
the same answer by the same calls, and leave nothing staged. They differ in one thing. After a
failed write a blocking writer still flushes the sink, if that is configured, and a polled writer
does not.

* `Writer.sendPolled_answered`: a polled send has its answer once the delays are used up;
* `Alike.sends`: two writers alike, a blocking and a polled one, send alike.
-/

namespace TelnetEscape

/-! ## Polled sends get their answers -/

theorem Offers.countP_isPending_pos {unsent : Bytes} {lines : Journal}
    (h : Offers unsent lines .pending) : 0 < lines.countP Entry.isPending := by
  generalize hpending : Poll.pending = polled at h
  induction h with
  | done | refused | failed => cases hpending
  | pending => exact Nat.one_pos
  | took _ _ ih =>
    have := ih hpending
    rw [List.countP_cons]
    omega

section
variable {config : Config} {sending stop left : Sending} {stage stage' : Stage} {lines : Journal}

theorem PollDrains.countP_isPending_pos (h : PollDrains stage lines .pending stage') :
    0 < lines.countP Entry.isPending := by
  cases h with
  | stopped offers => exact offers.countP_isPending_pos

/-- A poll is pending only if a call is. -/
theorem SendPolls.countP_isPending_pos {turn : SendTurn}
    (h : SendPolls config sending stage lines stop turn stage') (hpending : turn = .pending left) :
    0 < lines.countP Entry.isPending := by
  induction h with
  | clearing_failed | pushing_failed | done => cases hpending
  | clearing_pending drains | pushing_pending drains => exact drains.countP_isPending_pos
  | cleared _ _ ih | pushed _ _ ih =>
    have := ih hpending
    rw [List.countP_append]
    omega
  | flushing _ answer =>
    match answer, hpending with
    | .pending, _ => exact Nat.one_pos

end

namespace Writer

variable {σ : Type} [Sink σ]

theorem delays_of_moves {w w' : Writer (Journaled (Delayed σ))} {lines : Journal}
    (h : w.Moves lines w') :
    w'.sink.sink.delays.length + lines.countP Entry.isPending ≤ w.sink.sink.delays.length :=
  Delayed.calls_delays (Journaled.sink_calls Journaled.sink_asyncStep h.calls)

/-- By induction on the polls: each pending one uses up a delay. -/
theorem sendFrom_answered (polls : Nat) (sending : Sending) (w : Writer (Journaled (Delayed σ)))
    (hawaits : sending.Awaits w.config) (hpolls : w.sink.sink.delays.length < polls) :
    ∃ answer, (sendFrom polls sending w).2.1 = some answer := by
  induction polls generalizing sending w with
  | zero => omega
  | succ polls ih =>
    obtain ⟨lines, hmoves, hsend⟩ := w.pollSend_polls sending hawaits
    have hdelays := delays_of_moves hmoves
    rw [sendFrom]
    generalize w.pollSend sending = polled at *
    obtain ⟨turn, w'⟩ := polled
    cases turn with
    | ready answer => exact ⟨answer, rfl⟩
    | pending left =>
      have hleft : left.Awaits w'.config := by
        rw [hmoves.config_eq]
        exact hsend.awaits rfl
      have hused : 0 < lines.countP Entry.isPending := hsend.countP_isPending_pos rfl
      exact ih left w' hleft (by dsimp only at hdelays; omega)

theorem sendPolled_answered {polls : Nat} (w : Writer (Journaled (Delayed σ))) (data : Bytes)
    (hpolls : w.sink.sink.delays.length < polls) :
    ∃ answer, (w.sendPolled polls data).1 = some answer := by
  rw [sendPolled_eq_sendFrom]
  exact sendFrom_answered polls (.clearing data) w trivial hpolls

end Writer

/-! ## The calls of both -/

/-- The calls of a blocking send and those of a polled one that found nothing staged. -/
structure SameCalls (config : Config) (blocking polled : Journal) : Prop where
  /-- The sink is offered the same and answers the same, but for the calls that were pending. -/
  writes_eq : polled.answered.filter Entry.isWrite = blocking.answered.filter Entry.isWrite
  /-- If no write fails, the flushes are the same too, and come where they come. -/
  calls_eq : ¬ blocking.WriteFailed → polled.answered = blocking.answered
  /-- If a write fails, only the blocking send flushes the sink, once and in the end, if that is
  configured. -/
  flush_after_failure : blocking.WriteFailed →
    (∀ e ∈ polled, e.isFlush = false) ∧ blocking.FlushedAtEnd config

/-- Both sends have the sink take the same. -/
theorem SameCalls.taken_eq {config : Config} {blocking polled : Journal}
    (h : SameCalls config blocking polled) : polled.taken = blocking.taken := by
  have hwrites (lines : Journal) :
      Journal.taken (lines.answered.filter Entry.isWrite) = lines.taken := by
    rw [Journal.taken_filter, Journal.taken_answered]
    intro e he
    cases e with
    | write => cases he
    | flush | shutdown | event => rfl
  rw [← hwrites polled, h.writes_eq, hwrites]

theorem Sends.writeFailed {limit : Nat} {data : Bytes} {lines : Journal}
    {batches : Except Shortfall Nat} (h : Sends limit data lines batches) {f : Shortfall}
    (hshort : batches = .error f) : lines.WriteFailed := by
  induction h generalizing f with
  | last => cases hshort
  | short drains =>
    cases drains with
    | short offers => exact (offers.endsInFailure rfl).writeFailed.before _
  | @more _ _ _ answer _ _ _ ih =>
    cases answer with
    | ok n => cases hshort
    | error f' => exact (ih rfl).after _

theorem SendOk.not_writeFailed {data : Bytes} {lines : Journal} {n : Nat}
    (h : SendOk data lines n) : ¬ lines.WriteFailed := by
  rintro ⟨line, hmem, -, hfails⟩
  exact hfails (Journal.entry_failure?_eq_none h.no_failure hmem)

theorem Journal.answered_flushes {config : Config} {batches answer : Except Shortfall Nat}
    {flushes : Journal} (h : Finishes config batches flushes answer) :
    flushes.answered = flushes := by
  cases h <;> rfl

theorem Finishes.endsWith_ok {config : Config} {n : Nat} {flushes : Journal}
    {answer : Except Shortfall Nat} (h : Finishes config (.ok n) flushes answer) :
    endsWith config 0 flushes answer (.ok n) := by
  show Completes config (.flushing (0 + n)) {} flushes answer
  rw [Nat.zero_add]
  cases h with
  | unflushed off => exact .done off
  | flushed on => exact .flushed on
  | flush_failed on e => exact .unflushed on e

theorem Finishes.endsWith_error {config : Config} {f : Shortfall} {flushes : Journal}
    {answer : Except Shortfall Nat} (h : Finishes config (.error f) flushes answer) :
    endsWith config 0 [] answer (.error f) := by
  have hf : { f with delivered := 0 + f.delivered } = f := by rw [Nat.zero_add]
  refine ⟨rfl, ?_⟩
  rw [hf]
  cases h <;> rfl

/-- The calls of a blocking send are those of a polled one, and `late` flushes, which it makes only
after a failed write. -/
theorem Writer.send_completes {σ : Type} [Sink σ] (w : Writer σ) (data : Bytes) :
    ∃ lines calls late : Journal, Calls Sink.Step w.sink lines (w.send data).2.sink ∧
      Completes w.config (.next w.config.stageLimit 0 data)
        (({} : Stage).fill w.config.stageLimit data) calls (w.send data).1 ∧
      lines.answered = calls ++ late ∧ (∀ e ∈ late, e.isFlush = true) ∧
      (¬ lines.WriteFailed → late = []) ∧ SendOutcome data lines (w.send data).1 ∧
      lines.FlushedAtEnd w.config := by
  obtain ⟨lines, flushes, batches, hcalls, hsends, hfinishes⟩ := w.send_sends data
  have hanswered : (lines ++ flushes).answered = lines.answered ++ flushes := by
    rw [Journal.answered_append, Journal.answered_flushes hfinishes]
  have houtcome := hfinishes.sendOutcome hsends.sent hsends.isFlush_eq_false
  have hflushed := hfinishes.flushedAtEnd hsends.isFlush_eq_false
  cases batches with
  | ok n =>
    refine ⟨lines ++ flushes, lines.answered ++ flushes, [], hcalls,
      hsends.completes hfinishes.endsWith_ok, ?_, ?_, fun _ => rfl, houtcome, hflushed⟩
    · rw [hanswered, List.append_nil]
    · simp
  | error f =>
    have hfailed : (lines ++ flushes).WriteFailed := (hsends.writeFailed rfl).before flushes
    refine ⟨lines ++ flushes, lines.answered ++ [], flushes, hcalls,
      hsends.completes hfinishes.endsWith_error, ?_, hfinishes.isFlush, ?_, houtcome, hflushed⟩
    · rw [hanswered, List.append_nil]
    · exact fun hworked => absurd hfailed hworked

/-- The answer of a polled send that found nothing staged, and its calls. -/
theorem SendRuns.completes_of_empty {config : Config} {data : Bytes} {stop : Sending}
    {stage' : Stage} {lines : Journal} {answer : Except Shortfall Nat}
    (h : SendRuns config (.clearing data) {} lines stop (some answer) stage') :
    Completes config (.next config.stageLimit 0 data) (({} : Stage).fill config.stageLimit data)
      lines.answered answer := by
  have hcompletes := h.completes rfl
  generalize lines.answered = calls at hcompletes
  cases hcompletes with
  | held_up offers =>
    cases offers with
    | refused some_left | failed some_left | took some_left => exact absurd rfl some_left
  | cleared offers go_on =>
    cases offers with
    | done => exact go_on
    | took some_left => exact absurd rfl some_left

/-- A polled send that found nothing staged leaves nothing staged. -/
theorem SendRuns.stage_eq_of_empty {config : Config} {data : Bytes} {stop : Sending}
    {stage' : Stage} {lines : Journal} {answer : Except Shortfall Nat}
    (h : SendRuns config (.clearing data) {} lines stop (some answer) stage') : stage' = {} := by
  have hvalid : stage'.Valid config.stageLimit := h.valid (Stage.valid_empty _)
  cases h.polledOutcome with
  | through | unflushed | fell_short => rfl
  | held_up taken =>
    have hnone : stage'.unsent = [] := (List.append_eq_nil_iff.mp taken).2
    exact hvalid.empty_of_sent ((Stage.unsent_eq_nil_iff _).mp hnone)

/-- A send whose writes failed did not come to its flush. -/
theorem SendOutcome.isFlushing_eq_false {data : Bytes} {lines : Journal}
    {answer : Except Shortfall Nat} {stop : Sending} {stage' : Stage}
    (h : SendOutcome data lines answer) (hfailed : lines.WriteFailed)
    (hsettled : Settled data stop answer stage') : stop.isFlushing = false := by
  cases hsettled with
  | held_up | fell_short => rfl
  | through =>
    have hok : SendOk data lines data.length := h
    exact absurd hfailed hok.not_writeFailed
  | unflushed e =>
    have hshort : SendFailed data lines ⟨data.length, false, e⟩ := h
    exact absurd (hshort.all_delivered_iff.mp rfl) (hfailed.not_flushFailed e)

/-! ## Writers that are alike -/

section
variable {σ : Type} [Sink σ]

/-- A blocking writer and a polled one with nothing staged, configured alike, over the same sink. -/
structure Alike (w : Writer (Journaled σ)) (w' : Writer (Journaled (Delayed σ))) : Prop where
  sink_eq : w'.sink.sink.sink = w.sink.sink
  config_eq : w'.config = w.config
  stage_eq : w'.stage = {}

/-- Sends from `w` and `w'` come to the same: what they answer, the lines that they add to the
journals, and the writers they leave. -/
structure Agreement (w : Writer (Journaled σ)) (w' : Writer (Journaled (Delayed σ)))
    (sent : Except Shortfall Nat × Writer (Journaled σ))
    (polled : Option (Except Shortfall Nat) × Writer (Journaled (Delayed σ)))
    (lines lines' : Journal) : Prop where
  answer_eq : polled.1 = some sent.1
  calls : sent.2.sink.journal = w.sink.journal ++ lines
  polled_calls : polled.2.sink.journal = w'.sink.journal ++ lines'
  same_calls : SameCalls w.config lines lines'
  nothing_staged : sent.2.stage = {} ∧ polled.2.stage = {}
  /-- Writers that sent all of their data are alike again. -/
  alike : ∀ n, sent.1 = .ok n → Alike sent.2 polled.2
  delays_le : polled.2.sink.sink.delays.length ≤ w'.sink.sink.delays.length

theorem Alike.sends {w : Writer (Journaled σ)} {w' : Writer (Journaled (Delayed σ))}
    (h : Alike w w') (deaf : Observer.Deaf σ) {polls : Nat}
    (hpolls : w'.sink.sink.delays.length < polls) (data : Bytes) :
    ∃ lines lines', Agreement w w' (w.send data) (w'.sendPolled polls data) lines lines' := by
  obtain ⟨lines, calls, late, hcalls, hcompletes, hanswered, hlate, hworked, houtcome, hflushed⟩ :=
    w.send_completes data
  obtain ⟨lines', hmoves, hruns⟩ := w'.sendFrom_runs polls (.clearing data) trivial
  obtain ⟨answer, hanswer⟩ := w'.sendPolled_answered data hpolls
  obtain ⟨hconfig, hstage⟩ := w.send_leaves data
  have hjournal := Journaled.journal_of_calls hcalls
  have hjournal' := Journaled.journal_of_asyncCalls hmoves.calls
  have hinner := Sink.calls_answered deaf (Journaled.sink_calls Journaled.sink_step hcalls)
  have hinner' := Journaled.sink_calls Journaled.sink_asyncStep hmoves.calls
  have hdelays := Delayed.calls_delays hinner'
  have hinner' := Delayed.calls_answered deaf hinner'
  rw [Writer.sendPolled_eq_sendFrom] at hanswer ⊢
  rw [hanswer, h.config_eq, h.stage_eq] at hruns
  rw [h.sink_eq] at hinner'
  rw [hanswered] at hinner
  obtain ⟨s, hfirst, hsecond⟩ := hinner.of_append
  obtain ⟨heq, rfl, hsink⟩ := hruns.completes_of_empty.unique hinner' hcompletes hfirst
  refine ⟨lines, lines', hanswer, hjournal, hjournal', ⟨?_, ?_, ?_⟩,
    ⟨hstage, hruns.stage_eq_of_empty⟩, ?_, by omega⟩
  · rw [heq, hanswered, List.filter_append]
    have hnone : late.filter Entry.isWrite = [] := by
      refine List.filter_eq_nil_iff.mpr fun e he => ?_
      have := hlate e he
      cases e <;> simp_all [Entry.isFlush, Entry.isWrite]
    rw [hnone, List.append_nil]
  · intro hnot
    rw [heq, hanswered, hworked hnot, List.append_nil]
  · intro hfailed
    have hstop := houtcome.isFlushing_eq_false hfailed (hruns.settled .clearing rfl)
    exact ⟨hruns.isFlush_eq_false hstop, hflushed⟩
  · intro n hn
    have hok : SendOk data lines n := by
      rw [hn] at houtcome
      exact houtcome
    rw [hworked hok.not_writeFailed] at hsecond
    cases hsecond
    exact ⟨hsink, hmoves.config_eq.trans (h.config_eq.trans hconfig.symm), hruns.stage_eq_of_empty⟩

end

/-- **Blocking and polled sends agree.** New writers over the same sink, one of them kept waiting
any number of times: once the polled send has been polled so often, it has the answer of the
blocking one. They make the same calls, and leave nothing staged. Of the sink it is only assumed
that it does not react to the events that it is told of. -/
theorem sendPolled_agrees {σ : Type} [Sink σ] (deaf : Observer.Deaf σ) (s : σ) (config : Config)
    (delays : List Bool) (data : Bytes) (more : Nat) :
    let sent := (Writer.fresh s config).send data
    let polled := (Writer.fresh (⟨s, delays⟩ : Delayed σ) config).sendPolled
      (delays.length + 1 + more) data
    polled.1 = some sent.1 ∧
      SameCalls config sent.2.sink.journal polled.2.sink.journal ∧
      sent.2.stage = {} ∧ polled.2.stage = {} := by
  intro sent polled
  have halike : Alike (Writer.fresh s config) (Writer.fresh (⟨s, delays⟩ : Delayed σ) config) :=
    ⟨rfl, rfl, rfl⟩
  have hpolls : delays.length < delays.length + 1 + more := by omega
  obtain ⟨lines, lines', h⟩ := halike.sends deaf hpolls data
  have hcalls : sent.2.sink.journal = lines := h.calls
  have hcalls' : polled.2.sink.journal = lines' := h.polled_calls
  refine ⟨h.answer_eq, ?_, h.nothing_staged⟩
  rw [hcalls, hcalls']
  exact h.same_calls

/-- Two calls, each kept waiting once, of which the second fails. -/
theorem sendPolled_agrees_of_delays :
    Observer.Deaf (Nonblocking ScriptedSink) ∧
    let sent := interruptedWriter.send [1, 255, 2]
    let polled := (Writer.fresh (⟨interruptedWriter.sink.sink, [true, false, true, false]⟩ :
      Delayed _) interruptedWriter.config).sendPolled 5 [1, 255, 2]
    sent.1 = .error ⟨2, false, .plain .interrupted⟩ ∧
      polled.1 = some sent.1 ∧
      SameCalls interruptedWriter.config sent.2.sink.journal polled.2.sink.journal ∧
      sent.2.stage = {} ∧ polled.2.stage = {} := by
  have deaf : Observer.Deaf (Nonblocking ScriptedSink) := fun _ _ => rfl
  refine ⟨deaf, by cbv, ?_⟩
  exact sendPolled_agrees deaf interruptedWriter.sink.sink interruptedWriter.config
    [true, false, true, false] [1, 255, 2] 0

end TelnetEscape
