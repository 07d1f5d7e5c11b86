import Mathlib.Logic.Relation
import TelnetEscape.Proofs.StageInvariant

/-!
# The stage at every step of an operation

Between two operations the stage of a polled writer is valid. An operation gets there in steps, and
looks at the stage after each of them: it adds input, counts what the sink took of an offer, empties
a stage that was sent in full, or drops the rest of one. `Writer.Step` is one such step, with any
sink behind it.

* `Step.inBounds`: no step takes the stage out of its bounds, not even a sink that says it took more
  than it was offered;
* `Writer.run_reaches`: all that a run does is steps, those of sends that are given up included;
* `stage_inBounds`: hence the stage is within its bounds at every step of every run, and empty at
  the end of an operation if all of it was sent.
-/

namespace TelnetEscape

namespace Writer

variable {σ : Type} [AsyncSink σ]

/-- One step of an operation. -/
inductive Step : Writer σ → Writer σ → Prop
  | fill (w : Writer σ) (data : Bytes) : Step w (w.fill data)
  /-- The sink is offered what is unsent, and says that it took `n` bytes. -/
  | took {w : Writer σ} {n : Nat} {s : σ} (some_left : w.stage.pending ≠ 0)
      (offer : AsyncSink.pollWrite w.sink w.stage.unsent = (.ready (.ok n), s)) :
      Step w (w.advance s n)
  /-- A call on the sink that takes nothing, whatever it does to the sink. -/
  | call (w : Writer σ) (s : σ) : Step w { w with sink := s }
  | settle {w : Writer σ} (all_sent : w.stage.pending = 0) : Step w w.settle
  | abandon (w : Writer σ) (delivered : Nat) (e : SinkError) :
      Step w (w.abandonBatch delivered e).2

/-- Any number of steps. -/
abbrev Reaches : Writer σ → Writer σ → Prop :=
  Relation.ReflTransGen Step

variable {w w' : Writer σ}

theorem config_settle (w : Writer σ) : w.settle.config = w.config := by
  unfold settle
  split <;> rfl

theorem Step.config_eq (h : Step w w') : w'.config = w.config := by
  cases h with
  | fill | took | call | abandon => rfl
  | settle => exact w.config_settle

/-- No step takes the stage out of its bounds. -/
theorem Step.inBounds (h : Step w w') {limit : Nat} (hlimit : w.config.stageLimit = limit)
    (hbounds : w.stage.InBounds limit) : w'.stage.InBounds limit := by
  have hempty := (Stage.valid_empty limit).inBounds
  subst hlimit
  cases h with
  | fill data => exact hbounds.fill data
  | took => exact hbounds.advance _
  | call => exact hbounds
  | settle =>
    rw [stage_settle]
    exact hempty
  | abandon => exact hempty

/-- By induction on the steps, which also leave the limit as it is. -/
theorem Reaches.inBounds (h : w.Reaches w') (hbounds : w.stage.InBounds w.config.stageLimit) :
    w'.stage.InBounds w.config.stageLimit := by
  have hkept : w'.config = w.config ∧ w'.stage.InBounds w.config.stageLimit := by
    induction h with
    | refl => exact ⟨rfl, hbounds⟩
    | tail _ step ih =>
      obtain ⟨hconfig, hinBounds⟩ := ih
      exact ⟨step.config_eq.trans hconfig, step.inBounds (by rw [hconfig]) hinBounds⟩
  exact hkept.2

/-! ## Operations are made of steps -/

/-- A push that gets to the end leaves nothing unsent, so that the stage may be settled. -/
theorem pollPush_reaches (w : Writer σ) :
    w.Reaches w.pollPush.2 ∧
      (w.pollPush.1 = .ready (.ok ()) → w.pollPush.2.stage.pending = 0) := by
  induction w using pollPush.induct with
  | case1 w hdone =>
    rw [pollPush, if_pos hdone]
    exact ⟨.refl, fun _ => hdone⟩
  | case2 w hleft s hwrite | case3 w hleft s hwrite | case5 w hleft e s hwrite =>
    rw [pollPush, if_neg hleft, hwrite]
    exact ⟨.single (.call w s), fun hok => by cases hok⟩
  | case4 w hleft n s hwrite ih =>
    rw [pollPush, if_neg hleft, hwrite]
    obtain ⟨hreaches, hnone⟩ := ih
    exact ⟨.head (.took hleft hwrite) hreaches, hnone⟩

theorem pollDrain_reaches (w : Writer σ) : w.Reaches w.pollDrain.2 := by
  obtain ⟨hreaches, hnone⟩ := w.pollPush_reaches
  rw [pollDrain]
  generalize w.pollPush = pushed at *
  obtain ⟨answer, w'⟩ := pushed
  rcases answer with _ | _ | _
  · exact hreaches
  · exact hreaches
  · exact hreaches.tail (.settle (hnone rfl))

theorem stage_pollDrain (w : Writer σ) (hok : w.pollDrain.1 = .ready (.ok ())) :
    w.pollDrain.2.stage = {} := by
  obtain ⟨lines, -, hdrains⟩ := w.pollDrain_drains
  rw [hok] at hdrains
  exact hdrains.eq_empty

theorem pollWrite_reaches (w : Writer σ) (data : Bytes) : w.Reaches (w.pollWrite data).2 := by
  rw [pollWrite]
  by_cases hdata : data = []
  · rw [if_pos hdata]
  rw [if_neg hdata]
  by_cases hroom : 0 < w.fitting data
  · rw [if_pos hroom]
    exact .single (.fill w data)
  rw [if_neg hroom]
  have hreaches := w.pollDrain_reaches
  generalize w.pollDrain = drained at *
  obtain ⟨answer, w'⟩ := drained
  rcases answer with _ | _ | _
  · exact hreaches
  · exact hreaches
  · exact hreaches.tail (.fill w' data)

/-- Draining before a call on the sink that takes nothing. -/
theorem drainedCall_reaches (w : Writer σ) (act : σ → Poll (Except SinkError Unit) × σ)
    {result : Poll (Except SinkError Unit) × Writer σ}
    (hresult : result = match w.pollDrain with
      | (.ready (.ok ()), w') => w'.onSink act
      | (answer, w') => (answer, w')) :
    w.Reaches result.2 := by
  have hreaches := w.pollDrain_reaches
  rw [hresult]
  generalize w.pollDrain = drained at *
  obtain ⟨answer, w'⟩ := drained
  rcases answer with _ | _ | _
  · exact hreaches
  · exact hreaches
  · exact hreaches.tail (.call w' (act w'.sink).2)

theorem pollFlush_reaches (w : Writer σ) : w.Reaches w.pollFlush.2 :=
  w.drainedCall_reaches AsyncSink.pollFlush rfl

theorem pollShutdown_reaches (w : Writer σ) : w.Reaches w.pollShutdown.2 :=
  w.drainedCall_reaches AsyncSink.pollShutdown rfl

/-! ## Sends -/

theorem pollEndFlush_reaches (w : Writer σ) (delivered : Nat) :
    w.Reaches (w.pollEndFlush delivered).2 := by
  rw [pollEndFlush, onSink]
  rcases AsyncSink.pollFlush w.sink with ⟨_ | _ | _, s⟩
  all_goals exact .single (.call w s)

theorem finishSend_reaches (w : Writer σ) (delivered : Nat) :
    w.Reaches (w.finishSend delivered).2 := by
  rw [finishSend]
  split
  · exact w.pollEndFlush_reaches delivered
  · exact .refl

/-- By induction on the data that is left to stage. -/
theorem pollBatches_reaches (w : Writer σ) (delivered : Nat) (data : Bytes)
    (hstage : w.stage = {}) : w.Reaches (w.pollBatches delivered data).2 := by
  induction hlen : data.length using Nat.strongRecOn generalizing w delivered data with
  | ind len ih =>
    rw [pollBatches]
    by_cases hdata : data = []
    · rw [if_pos hdata]
      exact w.finishSend_reaches delivered
    rw [if_neg hdata]
    have hreaches := (w.startBatch data).pollDrain_reaches
    have hempty := (w.startBatch data).stage_pollDrain
    have hstart : w.Reaches (w.startBatch data) := by
      rw [startBatch_eq_fill hstage]
      exact .single (.fill w data)
    generalize (w.startBatch data).pollDrain = drained at *
    obtain ⟨answer, w'⟩ := drained
    rcases answer with _ | e | _
    · exact hstart.trans hreaches
    · exact hstart.trans (hreaches.tail (.abandon w' delivered e))
    · have hlt := hlen ▸ w.length_drop_batchSize_lt hdata
      exact hstart.trans (hreaches.trans (ih _ hlt w' _ _ (hempty rfl) rfl))

theorem pollSend_reaches (w : Writer σ) (sending : Sending) :
    w.Reaches (w.pollSend sending).2 := by
  have hreaches := w.pollDrain_reaches
  have hempty := w.stage_pollDrain
  cases sending with
  | clearing data =>
    rw [pollSend]
    generalize w.pollDrain = drained at *
    obtain ⟨answer, w'⟩ := drained
    rcases answer with _ | _ | _
    · exact hreaches
    · exact hreaches
    · exact hreaches.trans (w'.pollBatches_reaches _ _ (hempty rfl))
  | pushing delivered inputs rest =>
    rw [pollSend]
    generalize w.pollDrain = drained at *
    obtain ⟨answer, w'⟩ := drained
    rcases answer with _ | e | _
    · exact hreaches
    · exact hreaches.tail (.abandon w' delivered e)
    · exact hreaches.trans (w'.pollBatches_reaches _ _ (hempty rfl))
  | flushing delivered => exact w.pollEndFlush_reaches delivered

theorem sendFrom_reaches (polls : Nat) (sending : Sending) (w : Writer σ) :
    w.Reaches (sendFrom polls sending w).2.2 := by
  induction polls generalizing sending w with
  | zero => exact .refl
  | succ polls ih =>
    have hreaches := w.pollSend_reaches sending
    rw [sendFrom]
    generalize w.pollSend sending = polled at *
    obtain ⟨left | answer, w'⟩ := polled
    · exact hreaches.trans (ih left w')
    · exact hreaches

/-! ## Runs -/

theorem perform_reaches (w : Writer σ) (operation : Operation) :
    w.Reaches (w.perform operation).2 := by
  cases operation with
  | write data => exact w.pollWrite_reaches data
  | flush => exact w.pollFlush_reaches
  | shutdown => exact w.pollShutdown_reaches
  | send data polls => exact sendFrom_reaches polls (.clearing data) w

theorem run_reaches (w : Writer σ) (operations : List Operation) :
    w.Reaches (w.run operations).2 := by
  induction operations generalizing w with
  | nil => exact .refl
  | cons operation operations ih => exact (w.perform_reaches operation).trans (ih _)

end Writer

/-- **The stage stays within its bounds.** At every step of a new writer over any sink, no more
counts as sent than there is, there is no more than the capacity or two bytes, and what there is are
whole pairs. Any operations, among them sends that are given up after any number of polls, come to
such steps, and leave the stage empty if all of it was sent. -/
theorem stage_inBounds {σ : Type} [AsyncSink σ] (s : σ) (config : Config) :
    let new : Writer σ := { sink := s, config }
    (∀ w, new.Reaches w → w.stage.InBounds (max 2 config.capacity)) ∧
      ∀ operations, new.Reaches (new.run operations).2 ∧
        ((new.run operations).2.stage.sent = (new.run operations).2.stage.bytes.length →
          (new.run operations).2.stage = {}) := by
  intro new
  refine ⟨fun w hreaches => hreaches.inBounds (Stage.valid_empty _).inBounds,
    fun operations => ⟨new.run_reaches operations, fun hsent => ?_⟩⟩
  obtain ⟨lines, -, hruns⟩ := new.run_runs operations
  have hvalid := hruns.valid (Stage.valid_empty _)
  refine hvalid.empty_of_sent ?_
  rw [Stage.pending, hsent, Nat.sub_self]

end TelnetEscape
