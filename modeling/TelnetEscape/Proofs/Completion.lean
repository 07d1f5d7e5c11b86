import TelnetEscape.Proofs.Conservation
import TelnetEscape.Proofs.Delays
import TelnetEscape.Proofs.Sends

/-!
# The answered calls of a send

Without the calls that were pending and without events, a send of either kind makes the same calls:
`Completes` says which, from any part of a send on. What is polled several times comes to one run
through the parts (`SendRuns.completes`), and so does what a blocking writer does, but for its flush
after a failed write (`Sends.completes`). The answers of a sink leave no choice: over one sink there
is one such run (`Completes.unique`).
-/

namespace TelnetEscape

/-- A send that is in some part and finds `stage`: its calls from there on, all answered, and its
answer. -/
inductive Completes (config : Config) :
    Sending → Stage → Journal → Except Shortfall Nat → Prop
  | held_up {data : Bytes} {stage : Stage} {lines : Journal} {e : SinkError}
      (offers : Offers stage.unsent lines (.ready (.error e))) :
      Completes config (.clearing data) stage lines (.error ⟨0, false, e⟩)
  | cleared {data : Bytes} {stage : Stage} {lines more : Journal} {answer : Except Shortfall Nat}
      (offers : Offers stage.unsent lines (.ready (.ok ())))
      (go_on : Completes config (.next config.stageLimit 0 data)
        (({} : Stage).fill config.stageLimit data) more answer) :
      Completes config (.clearing data) stage (lines ++ more) answer
  | fell_short {delivered inputs : Nat} {rest : Bytes} {stage : Stage} {lines : Journal}
      {e : SinkError} {p : Progress} (offers : Offers stage.unsent lines (.ready (.error e)))
      (reached : p = (stage.advance lines.taken.length).progress) :
      Completes config (.pushing delivered inputs rest) stage lines
        (.error ⟨delivered + p.inputs, p.midPair, e⟩)
  | pushed {delivered inputs : Nat} {rest : Bytes} {stage : Stage} {lines more : Journal}
      {answer : Except Shortfall Nat} (offers : Offers stage.unsent lines (.ready (.ok ())))
      (go_on : Completes config (.next config.stageLimit (delivered + inputs) rest)
        (({} : Stage).fill config.stageLimit rest) more answer) :
      Completes config (.pushing delivered inputs rest) stage (lines ++ more) answer
  | flushed {delivered : Nat} {stage : Stage} (on : config.flushSink = true) :
      Completes config (.flushing delivered) stage [.flush (.ready (.ok ()))] (.ok delivered)
  | unflushed {delivered : Nat} {stage : Stage} (on : config.flushSink = true) (e : SinkError) :
      Completes config (.flushing delivered) stage [.flush (.ready (.error e))]
        (.error ⟨delivered, false, e⟩)
  | done {delivered : Nat} {stage : Stage} (off : config.flushSink = false) :
      Completes config (.flushing delivered) stage [] (.ok delivered)

/-! ## Offers without the pending ones -/

namespace Offers

variable {unsent : Bytes} {lines more : Journal}

theorem answered_eq {answer : Except SinkError Unit} (h : Offers unsent lines (.ready answer)) :
    lines.answered = lines := by
  generalize hready : Poll.ready answer = polled at h
  induction h with
  | done | refused | failed => rfl
  | pending => cases hready
  | took _ _ ih => rw [Journal.answered_cons_of_pos rfl, ih hready]

/-- An offer that was pending is made again, and the answered offers are those of one push. -/
theorem resume {answer : Poll (Except SinkError Unit)} (h : Offers unsent lines .pending)
    (h' : Offers (unsent.drop lines.taken.length) more answer) :
    Offers unsent (lines.answered ++ more) answer := by
  generalize hpending : Poll.pending = polled at h
  induction h with
  | done | refused | failed => cases hpending
  | pending => exact h'
  | @took unsent n lines _ some_left rest ih =>
    rw [Journal.answered_cons_of_pos rfl]
    refine .took some_left (ih ?_ hpending)
    have hlen : (unsent.take (n + 1) ++ lines.taken).length =
        min (n + 1) unsent.length + lines.taken.length := by
      rw [List.length_append, List.length_take]
    have htaken : Journal.taken (.write unsent (.ready (.ok (n + 1))) :: lines) =
        unsent.take (n + 1) ++ lines.taken := Journal.taken_cons _ _
    rw [htaken, hlen] at h'
    rw [List.drop_drop]
    by_cases hle : n + 1 ≤ unsent.length
    · rwa [Nat.min_eq_left hle] at h'
    · -- all of it was taken, so nothing is left either way
      rw [List.drop_eq_nil_of_le (by omega)]
      rwa [List.drop_eq_nil_of_le (by omega)] at h'

end Offers

/-! ## One run for each sink -/

section
variable {σ : Type} [Sink σ] {s s' s'' : σ}

theorem Sink.step_write_unique {offered : Bytes} {answer answer' : Except SinkError Nat}
    (h : Sink.Step s (.write offered (.ready answer)) s')
    (h' : Sink.Step s (.write offered (.ready answer')) s'') : answer = answer' ∧ s' = s'' := by
  have hwrite : Sink.write s offered = (answer, s') := h
  have hwrite' : Sink.write s offered = (answer', s'') := h'
  exact Prod.mk.inj (hwrite.symm.trans hwrite')

theorem Sink.step_flush_unique {answer answer' : Except SinkError Unit}
    (h : Sink.Step s (.flush (.ready answer)) s')
    (h' : Sink.Step s (.flush (.ready answer')) s'') : answer = answer' ∧ s' = s'' := by
  have hflush : Sink.flush s = (answer, s') := h
  have hflush' : Sink.flush s = (answer', s'') := h'
  exact Prod.mk.inj (hflush.symm.trans hflush')

/-- Over one sink there is one way to push something out: its answers tell a refusal, a failure and
a short write apart. -/
theorem Offers.unique {unsent : Bytes} {lines lines' : Journal}
    {answer answer' : Except SinkError Unit}
    (h : Offers unsent lines (.ready answer)) (hcalls : Calls Sink.Step s lines s')
    (h' : Offers unsent lines' (.ready answer')) (hcalls' : Calls Sink.Step s lines' s'') :
    lines = lines' ∧ answer = answer' ∧ s' = s'' := by
  generalize hready : Poll.ready answer = polled at h
  induction h generalizing s lines' with
  | pending => cases hready
  | done =>
    cases hready
    cases hcalls
    cases h' with
    | done =>
      cases hcalls'
      exact ⟨rfl, rfl, rfl⟩
    | refused some_left | failed some_left | took some_left => exact absurd rfl some_left
  | refused some_left =>
    cases hready
    have hstep := hcalls.step_of_single
    cases h' with
    | done => exact absurd rfl some_left
    | refused =>
      obtain ⟨-, rfl⟩ := Sink.step_write_unique hstep hcalls'.step_of_single
      exact ⟨rfl, rfl, rfl⟩
    | failed _ e => cases (Sink.step_write_unique hstep hcalls'.step_of_single).1
    | took =>
      cases hcalls' with
      | cons first _ => cases (Sink.step_write_unique hstep first).1
  | failed some_left e =>
    cases hready
    have hstep := hcalls.step_of_single
    cases h' with
    | done => exact absurd rfl some_left
    | refused => cases (Sink.step_write_unique hstep hcalls'.step_of_single).1
    | failed _ e' =>
      obtain ⟨he, rfl⟩ := Sink.step_write_unique hstep hcalls'.step_of_single
      cases he
      exact ⟨rfl, rfl, rfl⟩
    | took =>
      cases hcalls' with
      | cons first _ => cases (Sink.step_write_unique hstep first).1
  | took some_left _ ih =>
    cases hcalls with
    | cons hstep hrest =>
      cases h' with
      | done => exact absurd rfl some_left
      | refused => cases (Sink.step_write_unique hstep hcalls'.step_of_single).1
      | failed _ e => cases (Sink.step_write_unique hstep hcalls'.step_of_single).1
      | took _ rest' =>
        cases hcalls' with
        | cons hstep' hrest' =>
          obtain ⟨hn, rfl⟩ := Sink.step_write_unique hstep hstep'
          cases hn
          obtain ⟨rfl, hanswer, hs⟩ := ih hrest rest' hrest' hready
          exact ⟨rfl, hanswer, hs⟩

variable {config : Config}

theorem Completes.unique {sending : Sending} {stage : Stage} {lines lines' : Journal}
    {answer answer' : Except Shortfall Nat} (h : Completes config sending stage lines answer)
    (hcalls : Calls Sink.Step s lines s') (h' : Completes config sending stage lines' answer')
    (hcalls' : Calls Sink.Step s lines' s'') : lines = lines' ∧ answer = answer' ∧ s' = s'' := by
  induction h generalizing s lines' with
  | held_up offers =>
    cases h' with
    | held_up offers' =>
      obtain ⟨rfl, he, rfl⟩ := offers.unique hcalls offers' hcalls'
      cases he
      exact ⟨rfl, rfl, rfl⟩
    | cleared offers' =>
      obtain ⟨_, hcalls', -⟩ := hcalls'.of_append
      cases (offers.unique hcalls offers' hcalls').2.1
  | cleared offers _ ih =>
    obtain ⟨_, hcalls, hmore⟩ := hcalls.of_append
    cases h' with
    | held_up offers' => cases (offers.unique hcalls offers' hcalls').2.1
    | cleared offers' go_on' =>
      obtain ⟨_, hcalls', hmore'⟩ := hcalls'.of_append
      obtain ⟨rfl, -, rfl⟩ := offers.unique hcalls offers' hcalls'
      obtain ⟨rfl, hanswer, hs⟩ := ih hmore go_on' hmore'
      exact ⟨rfl, hanswer, hs⟩
  | fell_short offers reached =>
    cases h' with
    | fell_short offers' reached' =>
      obtain ⟨rfl, he, rfl⟩ := offers.unique hcalls offers' hcalls'
      cases he
      subst reached reached'
      exact ⟨rfl, rfl, rfl⟩
    | pushed offers' =>
      obtain ⟨_, hcalls', -⟩ := hcalls'.of_append
      cases (offers.unique hcalls offers' hcalls').2.1
  | pushed offers _ ih =>
    obtain ⟨_, hcalls, hmore⟩ := hcalls.of_append
    cases h' with
    | fell_short offers' => cases (offers.unique hcalls offers' hcalls').2.1
    | pushed offers' go_on' =>
      obtain ⟨_, hcalls', hmore'⟩ := hcalls'.of_append
      obtain ⟨rfl, -, rfl⟩ := offers.unique hcalls offers' hcalls'
      obtain ⟨rfl, hanswer, hs⟩ := ih hmore go_on' hmore'
      exact ⟨rfl, hanswer, hs⟩
  | flushed on =>
    have hstep := hcalls.step_of_single
    cases h' with
    | flushed =>
      obtain ⟨-, rfl⟩ := Sink.step_flush_unique hstep hcalls'.step_of_single
      exact ⟨rfl, rfl, rfl⟩
    | unflushed => cases (Sink.step_flush_unique hstep hcalls'.step_of_single).1
    | done off =>
      rw [on] at off
      cases off
  | unflushed on e =>
    have hstep := hcalls.step_of_single
    cases h' with
    | flushed => cases (Sink.step_flush_unique hstep hcalls'.step_of_single).1
    | unflushed _ e' =>
      obtain ⟨he, rfl⟩ := Sink.step_flush_unique hstep hcalls'.step_of_single
      cases he
      exact ⟨rfl, rfl, rfl⟩
    | done off =>
      rw [on] at off
      cases off
  | done off =>
    cases hcalls
    cases h' with
    | flushed on | unflushed on =>
      rw [on] at off
      cases off
    | done =>
      cases hcalls'
      exact ⟨rfl, rfl, rfl⟩

end

/-! ## Polled sends -/

/-- What is left to do after a turn of a send: nothing once it is answered, else the part that it
stopped in. -/
def Turn.GoesOn (config : Config) (stage : Stage) (calls : Journal)
    (answer : Except Shortfall Nat) : SendTurn → Prop
  | .pending left => Completes config left stage calls answer
  | .ready answered => calls = [] ∧ answered = answer

section
variable {config : Config} {sending stop : Sending} {stage stage' : Stage} {lines : Journal}

/-- The progress of a batch that was offered in two goes. -/
theorem Stage.progress_advance_advance (s : Stage) (a b : Journal) :
    ((s.advance a.taken.length).advance b.taken.length).progress =
      (s.advance (a.answered ++ b).taken.length).progress := by
  rw [Stage.advance_advance, Journal.taken_append, Journal.taken_answered, List.length_append]

theorem Stage.answered_drainedEvents (s : Stage) : s.drainedEvents.answered = [] := by
  unfold drainedEvents
  split <;> rfl

theorem PollDrains.offers_answered (h : PollDrains stage lines (.ready (.ok ())) stage') :
    Offers stage.unsent lines.answered (.ready (.ok ())) := by
  cases h with
  | drained offers =>
    rw [Journal.answered_append, Stage.answered_drainedEvents, List.append_nil, offers.answered_eq]
    exact offers
  | stopped _ unfinished => exact absurd rfl unfinished

/-- One poll comes before what is left to do, by induction on the parts it goes through. -/
theorem SendPolls.completes {turn : SendTurn}
    (h : SendPolls config sending stage lines stop turn stage') {calls : Journal}
    {answer : Except Shortfall Nat} (hrest : turn.GoesOn config stage' calls answer) :
    Completes config sending stage (lines.answered ++ calls) answer := by
  induction h with
  | clearing_pending drains =>
    cases drains with
    | stopped offers =>
      have hleft : Completes config (.clearing _) _ calls answer := hrest
      cases hleft with
      | held_up offers' =>
        rw [Stage.unsent_advance] at offers'
        exact .held_up (offers.resume offers')
      | cleared offers' go_on =>
        rw [Stage.unsent_advance] at offers'
        rw [← List.append_assoc]
        exact .cleared (offers.resume offers') go_on
  | clearing_failed drains =>
    obtain ⟨rfl, rfl⟩ := hrest
    cases drains with
    | stopped offers =>
      rw [offers.answered_eq, List.append_nil]
      exact .held_up offers
  | cleared drains _ ih =>
    rw [Journal.answered_append, List.append_assoc]
    exact .cleared drains.offers_answered (ih hrest)
  | pushing_pending drains =>
    cases drains with
    | stopped offers =>
      have hleft : Completes config (.pushing _ _ _) _ calls answer := hrest
      cases hleft with
      | fell_short offers' reached =>
        rw [Stage.unsent_advance] at offers'
        rw [Stage.progress_advance_advance] at reached
        exact .fell_short (offers.resume offers') reached
      | pushed offers' go_on =>
        rw [Stage.unsent_advance] at offers'
        rw [← List.append_assoc]
        exact .pushed (offers.resume offers') go_on
  | pushing_failed drains reached =>
    obtain ⟨rfl, rfl⟩ := hrest
    cases drains with
    | stopped offers =>
      rw [Journal.answered_append, offers.answered_eq, Journal.answered_event, List.append_nil,
        List.append_nil]
      exact .fell_short offers reached
  | pushed drains _ ih =>
    rw [Journal.answered_append, List.append_assoc]
    exact .pushed drains.offers_answered (ih hrest)
  | flushing on flushed =>
    match flushed, hrest with
    | .pending, hleft => exact hleft
    | .ready (.ok ()), ⟨hcalls, hanswer⟩ =>
      rw [hcalls, ← hanswer]
      exact .flushed on
    | .ready (.error e), ⟨hcalls, hanswer⟩ =>
      rw [hcalls, ← hanswer]
      exact .unflushed on e
  | done off =>
    obtain ⟨rfl, rfl⟩ := hrest
    exact .done off

theorem SendRuns.completes {answer? : Option (Except Shortfall Nat)} {answer : Except Shortfall Nat}
    (h : SendRuns config sending stage lines stop answer? stage')
    (hanswer : answer? = some answer) :
    Completes config sending stage lines.answered answer := by
  induction h with
  | given_up => cases hanswer
  | answered polls =>
    cases hanswer
    have hall : Completes config _ _ (_ ++ []) answer := polls.completes ⟨rfl, rfl⟩
    rwa [List.append_nil] at hall
  | again polls _ ih =>
    rw [Journal.answered_append]
    exact polls.completes (ih hanswer)

end

/-! ## Blocking sends -/

/-- How a send goes on whose batches came to an answer, after `delivered` bytes before them: all is
through and the flush follows, or it ends. -/
def endsWith (config : Config) (delivered : Nat) (flushes : Journal)
    (answer : Except Shortfall Nat) : Except Shortfall Nat → Prop
  | .ok n => Completes config (.flushing (delivered + n)) {} flushes answer
  | .error f => flushes = [] ∧ answer = .error { f with delivered := delivered + f.delivered }

theorem Drains.offers_answered {bytes : Bytes} {inputs : Nat} {lines : Journal}
    (h : Drains bytes inputs lines (.ok ())) : Offers bytes lines.answered (.ready (.ok ())) := by
  cases h with
  | sent offers =>
    rw [Journal.answered_append, Journal.answered_event, List.append_nil, offers.answered_eq]
    exact offers

section
variable {config : Config} {data : Bytes} {calls : Journal} {answer : Except Shortfall Nat}
  {delivered : Nat}

/-- A batch that is taken in full comes before the rest of the data; without data there is none. -/
theorem Completes.after_batch {more : Journal}
    (offers : Offers (escape (data.take (fit config.stageLimit data))) calls (.ready (.ok ())))
    (go_on : Completes config
      (.next config.stageLimit (delivered + fit config.stageLimit data)
        (data.drop (fit config.stageLimit data)))
      (({} : Stage).fill config.stageLimit (data.drop (fit config.stageLimit data))) more answer) :
    Completes config (.next config.stageLimit delivered data)
      (({} : Stage).fill config.stageLimit data) (calls ++ more) answer := by
  by_cases hdata : data = []
  · subst hdata
    have hnone : calls = [] := by
      cases offers with
      | done => rfl
      | took some_left => exact absurd rfl some_left
    rw [hnone]
    exact go_on
  · rw [Sending.next, if_neg hdata]
    rw [← Stage.unsent_fill_empty] at offers
    exact .pushed offers go_on

/-- A batch that is not taken in full ends the send. -/
theorem Completes.of_short_batch {e : SinkError} {p : Progress}
    (offers : Offers (escape (data.take (fit config.stageLimit data))) calls (.ready (.error e)))
    (reached : p = Progress.of calls.taken) :
    Completes config (.next config.stageLimit delivered data)
      (({} : Stage).fill config.stageLimit data) calls
      (.error ⟨delivered + p.inputs, p.midPair, e⟩) := by
  have hdata : data ≠ [] := by
    rintro rfl
    cases offers with
    | refused some_left | failed some_left | took some_left => exact some_left rfl
  rw [Sending.next, if_neg hdata]
  rw [← Stage.unsent_fill_empty] at offers
  refine .fell_short offers ?_
  rw [reached, Stage.progress, Stage.taken_advance_length offers.taken_prefix]
  rfl

theorem endsWith_countFrom {flushes : Journal} {k : Nat} {batches : Except Shortfall Nat}
    (h : endsWith config delivered flushes answer (countFrom k batches)) :
    endsWith config (delivered + k) flushes answer batches := by
  cases batches with
  | ok n =>
    have hflush : Completes config (.flushing (delivered + (k + n))) {} flushes answer := h
    rwa [← Nat.add_assoc] at hflush
  | error f =>
    obtain ⟨hnone, hanswer⟩ := h
    refine ⟨hnone, ?_⟩
    rw [hanswer]
    simp [Nat.add_assoc]

/-- The batches of a blocking send, by induction on them. -/
theorem Sends.completes {lines flushes : Journal} {batches : Except Shortfall Nat}
    (h : Sends config.stageLimit data lines batches)
    (hend : endsWith config delivered flushes answer batches) :
    Completes config (.next config.stageLimit delivered data)
      (({} : Stage).fill config.stageLimit data) (lines.answered ++ flushes) answer := by
  induction h generalizing delivered with
  | last all_fit drains =>
    refine .after_batch drains.offers_answered ?_
    rw [all_fit]
    exact hend
  | short drains =>
    obtain ⟨rfl, rfl⟩ := hend
    rw [List.append_nil]
    cases drains with
    | short offers reached =>
      rw [Journal.answered_append, Journal.answered_event, List.append_nil, offers.answered_eq]
      exact .of_short_batch offers reached
  | more _ drains _ ih =>
    rw [Journal.answered_append, List.append_assoc]
    exact .after_batch drains.offers_answered (ih (endsWith_countFrom hend))

end

end TelnetEscape
