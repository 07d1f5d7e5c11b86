import TelnetEscape.Proofs.Offers

/-!
# What polled writes, flushes and shutdowns do

A polled writer lets go of its stage only after all of it was pushed out. `PollDrains`, `PollWrites`
and `PollEnds` say what an operation makes of the stage, by which calls and with which answer, for
any answers of the sink; `pollDrain_drains`, `pollWrite_writes`, `pollFlush_ends` and
`pollShutdown_ends` say that this is what the writers do.

`PollDrains.taken_append_unsent`: no byte of the stage is lost on the way, whatever the answer.
-/

namespace TelnetEscape

/-! ## Draining -/

/-- What is reported of a stage that was sent in full. -/
def Stage.drainedEvents (s : Stage) : Journal :=
  if s.bytes = [] then [] else [.event (.drained s.bytes.length none)]

/-- Pushing out a stage, which is emptied if that gets to the end. -/
inductive PollDrains (stage : Stage) : Journal → Poll (Except SinkError Unit) → Stage → Prop
  | drained {lines : Journal} (offers : Offers stage.unsent lines (.ready (.ok ()))) :
      PollDrains stage (lines ++ stage.drainedEvents) (.ready (.ok ())) {}
  | stopped {lines : Journal} {answer : Poll (Except SinkError Unit)}
      (offers : Offers stage.unsent lines answer) (unfinished : answer ≠ .ready (.ok ())) :
      PollDrains stage lines answer (stage.advance lines.taken.length)

theorem Stage.taken_drainedEvents (s : Stage) : s.drainedEvents.taken = [] := by
  unfold drainedEvents
  split <;> rfl

namespace PollDrains

variable {stage stage' : Stage} {lines : Journal} {answer : Poll (Except SinkError Unit)}

/-- What holds of every event and of every write that offers something holds of all lines. -/
theorem forall_mem {P : Entry → Prop} (h : PollDrains stage lines answer stage')
    (hwrite : ∀ offered answer, offered ≠ [] → P (.write offered answer))
    (hevent : ∀ e, P (.event e)) : ∀ line ∈ lines, P line := by
  cases h with
  | drained offers =>
    refine List.forall_mem_append.mpr ⟨offers.forall_mem hwrite, ?_⟩
    unfold Stage.drainedEvents
    split
    · exact List.forall_mem_nil _
    · exact List.forall_mem_singleton.mpr (hevent _)
  | stopped offers => exact offers.forall_mem hwrite

/-- What the sink took and what is still staged is what was staged before. -/
theorem taken_append_unsent (h : PollDrains stage lines answer stage') :
    lines.taken ++ stage'.unsent = stage.unsent := by
  cases h with
  | drained offers =>
    rw [Journal.taken_append, Stage.taken_drainedEvents, offers.taken_eq_iff.mpr rfl]
    simp [Stage.unsent]
  | stopped offers => exact Stage.append_unsent_advance_length offers.taken_prefix

theorem eq_empty (h : PollDrains stage lines (.ready (.ok ())) stage') : stage' = {} := by
  cases h with
  | drained => rfl
  | stopped _ unfinished => exact absurd rfl unfinished

/-- A drain that does not get to the end leaves the stage as it is, but for what was sent of it. -/
theorem bytes_eq (h : PollDrains stage lines answer stage')
    (unfinished : answer ≠ .ready (.ok ())) : stage'.bytes = stage.bytes := by
  cases h with
  | drained => exact absurd rfl unfinished
  | stopped => rfl

theorem taken_eq (h : PollDrains stage lines answer stage')
    (unfinished : answer ≠ .ready (.ok ())) : stage'.taken = stage.taken ++ lines.taken := by
  cases h with
  | drained => exact absurd rfl unfinished
  | stopped offers => exact Stage.taken_advance_length offers.taken_prefix

theorem endsInFailure {e : SinkError} (h : PollDrains stage lines (.ready (.error e)) stage') :
    lines.EndsInFailure e := by
  cases h with
  | stopped offers => exact offers.endsInFailure rfl

end PollDrains

/-! ## The operations -/

/-- Staging the front of `data`, after draining the stage if there is no room on it. -/
inductive PollWrites (limit : Nat) (stage : Stage) (data : Bytes) :
    Journal → Poll (Except SinkError Nat) → Stage → Prop
  | nothing (no_data : data = []) : PollWrites limit stage data [] (.ready (.ok 0)) stage
  | staged (some_data : data ≠ []) (room : 0 < stage.fitting limit data) :
      PollWrites limit stage data [] (.ready (.ok (stage.fitting limit data)))
        (stage.fill limit data)
  | drained {lines : Journal} (some_data : data ≠ []) (full : stage.fitting limit data = 0)
      (drains : PollDrains stage lines (.ready (.ok ())) {}) :
      PollWrites limit stage data lines (.ready (.ok (fit limit data)))
        (({} : Stage).fill limit data)
  | pending {lines : Journal} {stage' : Stage} (some_data : data ≠ [])
      (full : stage.fitting limit data = 0) (drains : PollDrains stage lines .pending stage') :
      PollWrites limit stage data lines .pending stage'
  | failed {lines : Journal} {e : SinkError} {stage' : Stage} (some_data : data ≠ [])
      (full : stage.fitting limit data = 0)
      (drains : PollDrains stage lines (.ready (.error e)) stage') :
      PollWrites limit stage data lines (.ready (.error e)) stage'

/-- Draining the stage before a call on the sink that moves no bytes. -/
inductive PollEnds (call : Poll (Except SinkError Unit) → Entry) (stage : Stage) :
    Journal → Poll (Except SinkError Unit) → Stage → Prop
  | called {lines : Journal} (drains : PollDrains stage lines (.ready (.ok ())) {})
      (answer : Poll (Except SinkError Unit)) :
      PollEnds call stage (lines ++ [call answer]) answer {}
  | stopped {lines : Journal} {answer : Poll (Except SinkError Unit)} {stage' : Stage}
      (drains : PollDrains stage lines answer stage') (unfinished : answer ≠ .ready (.ok ())) :
      PollEnds call stage lines answer stage'

/-! ## What the writers do -/

namespace Writer

variable {σ : Type} [AsyncSink σ]

/-- The calls `lines` on the sink of `w` lead to `w'`, which is configured alike. -/
structure Moves (w : Writer σ) (lines : Journal) (w' : Writer σ) : Prop where
  calls : Calls AsyncSink.Step w.sink lines w'.sink
  config_eq : w'.config = w.config

theorem Moves.append {w w' w'' : Writer σ} {lines more : Journal} (h : w.Moves lines w')
    (h' : w'.Moves more w'') : w.Moves (lines ++ more) w'' :=
  ⟨h.calls.append h'.calls, h'.config_eq.trans h.config_eq⟩

theorem settle_moves (w : Writer σ) : w.Moves w.stage.drainedEvents w.settle := by
  unfold settle Stage.drainedEvents
  split
  · exact ⟨.nil _, rfl⟩
  · exact ⟨.asyncObserve _ _, rfl⟩

theorem stage_settle (w : Writer σ) : w.settle.stage = {} := by
  unfold settle
  split <;> rfl

theorem pollDrain_drains (w : Writer σ) :
    ∃ lines, w.Moves lines w.pollDrain.2 ∧
      PollDrains w.stage lines w.pollDrain.1 w.pollDrain.2.stage := by
  obtain ⟨lines, hcalls, hoffers, hw⟩ := w.pollPush_offers
  have hmoves : w.Moves lines w.pollPush.2 := ⟨hcalls, by rw [hw]; rfl⟩
  have hstage : w.pollPush.2.stage = w.stage.advance lines.taken.length := by rw [hw]; rfl
  rw [pollDrain]
  generalize w.pollPush = pushed at *
  obtain ⟨answer, w'⟩ := pushed
  dsimp only at hmoves hstage hoffers
  match answer with
  | .ready (.ok ()) =>
    have hevents : w'.stage.drainedEvents = w.stage.drainedEvents := by rw [hstage]; rfl
    refine ⟨lines ++ w.stage.drainedEvents, ?_, ?_⟩
    · exact hmoves.append (hevents ▸ w'.settle_moves)
    · show PollDrains _ _ _ w'.settle.stage
      rw [stage_settle]
      exact .drained hoffers
  | .ready (.error e) =>
    refine ⟨lines, hmoves, ?_⟩
    show PollDrains _ _ _ w'.stage
    rw [hstage]
    exact .stopped hoffers (by simp)
  | .pending =>
    refine ⟨lines, hmoves, ?_⟩
    show PollDrains _ _ _ w'.stage
    rw [hstage]
    exact .stopped hoffers (by simp)

theorem pollWrite_writes (w : Writer σ) (data : Bytes) :
    ∃ lines, w.Moves lines (w.pollWrite data).2 ∧
      PollWrites w.config.stageLimit w.stage data lines (w.pollWrite data).1
        (w.pollWrite data).2.stage := by
  rw [pollWrite]
  by_cases hdata : data = []
  · rw [if_pos hdata]
    exact ⟨[], ⟨.nil _, rfl⟩, .nothing hdata⟩
  rw [if_neg hdata]
  by_cases hroom : 0 < w.fitting data
  · rw [if_pos hroom]
    exact ⟨[], ⟨.nil _, rfl⟩, .staged hdata hroom⟩
  rw [if_neg hroom]
  have hfull : w.stage.fitting w.config.stageLimit data = 0 := Nat.eq_zero_of_not_pos hroom
  obtain ⟨lines, hmoves, hdrains⟩ := w.pollDrain_drains
  generalize w.pollDrain = drained at *
  obtain ⟨answer, w'⟩ := drained
  match answer with
  | .ready (.ok ()) =>
    have hstage : w'.stage = {} := hdrains.eq_empty
    have hconfig : w'.config = w.config := hmoves.config_eq
    refine ⟨lines, ⟨hmoves.calls, hmoves.config_eq⟩, ?_⟩
    dsimp only [fitting, fill] at hdrains ⊢
    rw [hstage] at hdrains ⊢
    rw [hconfig, Stage.fitting_empty]
    exact .drained hdata hfull hdrains
  | .ready (.error e) => exact ⟨lines, hmoves, .failed hdata hfull hdrains⟩
  | .pending => exact ⟨lines, hmoves, .pending hdata hfull hdrains⟩

/-- Draining before a call `act` on the sink, which is the one that `call` writes down. -/
theorem drainedCall_ends (w : Writer σ) (call : Poll (Except SinkError Unit) → Entry)
    (act : σ → Poll (Except SinkError Unit) × σ)
    (hact : ∀ s, AsyncSink.Step s (call (act s).1) (act s).2)
    {result : Poll (Except SinkError Unit) × Writer σ}
    (hresult : result = match w.pollDrain with
      | (.ready (.ok ()), w') => w'.onSink act
      | (answer, w') => (answer, w')) :
    ∃ lines, w.Moves lines result.2 ∧ PollEnds call w.stage lines result.1 result.2.stage := by
  obtain ⟨lines, hmoves, hdrains⟩ := w.pollDrain_drains
  rw [hresult]
  generalize w.pollDrain = drained at *
  obtain ⟨answer, w'⟩ := drained
  rcases answer with _ | e | _
  case pending => exact ⟨lines, hmoves, .stopped hdrains (by simp)⟩
  case ready.error => exact ⟨lines, hmoves, .stopped hdrains (by simp)⟩
  case ready.ok =>
    have hstage : w'.stage = {} := hdrains.eq_empty
    refine ⟨lines ++ [call (act w'.sink).1], hmoves.append ⟨.single (hact _), rfl⟩, ?_⟩
    show PollEnds call w.stage _ _ w'.stage
    rw [hstage] at hdrains ⊢
    exact .called hdrains _

theorem pollFlush_ends (w : Writer σ) :
    ∃ lines, w.Moves lines w.pollFlush.2 ∧
      PollEnds .flush w.stage lines w.pollFlush.1 w.pollFlush.2.stage :=
  w.drainedCall_ends .flush AsyncSink.pollFlush (fun _ => rfl) rfl

theorem pollShutdown_ends (w : Writer σ) :
    ∃ lines, w.Moves lines w.pollShutdown.2 ∧
      PollEnds .shutdown w.stage lines w.pollShutdown.1 w.pollShutdown.2.stage :=
  w.drainedCall_ends .shutdown AsyncSink.pollShutdown (fun _ => rfl) rfl

end Writer
end TelnetEscape
