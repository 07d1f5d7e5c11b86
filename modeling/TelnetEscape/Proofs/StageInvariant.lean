import TelnetEscape.Proofs.Runs

/-!
# The stage of a polled writer

Between any two polls the stage of a polled writer is within its limit, holds whole pairs, counts no
more as sent than there is, and is empty if all of it was sent. `Stage.Valid` says so. It is kept by
every operation, whatever the sink answers, and hence by every run (`Runs.valid`). In the middle of
an operation all but the last of this holds, which is `Stage.InBounds`.
-/

namespace TelnetEscape

structure Stage.Valid (limit : Nat) (s : Stage) : Prop where
  sent_le : s.sent ≤ s.bytes.length
  length_le : s.bytes.length ≤ limit
  escaped : ∃ data, s.bytes = escape data
  empty_of_sent : s.pending = 0 → s = {}

/-- What holds of a stage also in the middle of an operation, when all of it may be sent and it is
not emptied yet. -/
structure Stage.InBounds (limit : Nat) (s : Stage) : Prop where
  sent_le : s.sent ≤ s.bytes.length
  length_le : s.bytes.length ≤ limit
  escaped : ∃ data, s.bytes = escape data

namespace Stage

theorem valid_empty (limit : Nat) : ({} : Stage).Valid limit :=
  ⟨Nat.le_refl _, Nat.zero_le _, ⟨[], rfl⟩, fun _ => rfl⟩

theorem Valid.inBounds {limit : Nat} {s : Stage} (h : s.Valid limit) : s.InBounds limit :=
  ⟨h.sent_le, h.length_le, h.escaped⟩

namespace InBounds

variable {limit : Nat} {s : Stage}

theorem fill (h : s.InBounds limit) (data : Bytes) : (s.fill limit data).InBounds limit := by
  refine ⟨?_, ?_, ?_⟩
  · have := h.sent_le
    rw [bytes_fill, sent_fill, List.length_append]
    omega
  · have := s.length_bytes_fill_le limit data
    have := h.length_le
    omega
  · obtain ⟨before, hbefore⟩ := h.escaped
    exact ⟨before ++ data.take (s.fitting limit data), by rw [bytes_fill, hbefore, escape_append]⟩

/-- A count that is too large is cut down to what there was to take. -/
theorem advance (h : s.InBounds limit) (n : Nat) : (s.advance n).InBounds limit := by
  refine ⟨?_, h.length_le, h.escaped⟩
  have := h.sent_le
  have hsent : (s.advance n).sent = s.sent + min n (s.bytes.length - s.sent) := rfl
  rw [hsent, bytes_advance]
  omega

end InBounds

namespace Valid

variable {limit : Nat} {s : Stage}

theorem fill (h : s.Valid limit) (data : Bytes) : (s.fill limit data).Valid limit := by
  have hsent := h.sent_le
  have hbounds := h.inBounds.fill data
  refine ⟨hbounds.sent_le, hbounds.length_le, hbounds.escaped, ?_⟩
  intro hnone
  rw [pending, bytes_fill, sent_fill, List.length_append] at hnone
  have hs : s = {} := h.empty_of_sent (by rw [pending]; omega)
  have hnothing : escape (data.take (s.fitting limit data)) = [] :=
    List.length_eq_zero_iff.mp (by omega)
  subst hs
  rw [fill_eq, hnothing]
  rfl

/-- The sink took a part of what is unsent, but not all of it. -/
theorem advance (h : s.Valid limit) {front : Bytes} (hfront : front <+: s.unsent)
    (hne : front ≠ s.unsent) : (s.advance front.length).Valid limit := by
  have hlt : front.length < s.pending := by
    have hle := hfront.length_le
    rw [length_unsent] at hle
    refine Nat.lt_of_le_of_ne hle fun heq => hne (hfront.eq_of_length ?_)
    rw [length_unsent, heq]
  have hbounds := h.inBounds.advance front.length
  refine ⟨hbounds.sent_le, hbounds.length_le, hbounds.escaped, ?_⟩
  intro hnone
  rw [pending_advance] at hnone
  omega

end Valid
end Stage

/-! ## Every operation keeps the stage valid -/

section
variable {config : Config} {limit : Nat} {stage stage' : Stage} {lines : Journal}

theorem PollDrains.valid {answer : Poll (Except SinkError Unit)}
    (h : PollDrains stage lines answer stage') (hvalid : stage.Valid limit) :
    stage'.Valid limit := by
  cases h with
  | drained => exact Stage.valid_empty limit
  | stopped offers unfinished =>
    exact hvalid.advance offers.taken_prefix (mt offers.taken_eq_iff.mp unfinished)

theorem PollWrites.valid {data : Bytes} {answer : Poll (Except SinkError Nat)}
    (h : PollWrites limit stage data lines answer stage') (hvalid : stage.Valid limit) :
    stage'.Valid limit := by
  cases h with
  | nothing => exact hvalid
  | staged => exact hvalid.fill data
  | drained => exact (Stage.valid_empty limit).fill data
  | pending _ _ drains | failed _ _ drains => exact drains.valid hvalid

theorem PollEnds.valid {call : Poll (Except SinkError Unit) → Entry}
    {answer : Poll (Except SinkError Unit)} (h : PollEnds call stage lines answer stage')
    (hvalid : stage.Valid limit) : stage'.Valid limit := by
  cases h with
  | called => exact Stage.valid_empty limit
  | stopped drains => exact drains.valid hvalid

variable {sending stop : Sending}

/-- By induction on the parts that the poll goes through. -/
theorem SendPolls.valid {turn : SendTurn}
    (h : SendPolls config sending stage lines stop turn stage')
    (hvalid : stage.Valid config.stageLimit) : stage'.Valid config.stageLimit := by
  induction h with
  | clearing_pending drains | clearing_failed drains | pushing_pending drains =>
    exact drains.valid hvalid
  | pushing_failed => exact Stage.valid_empty _
  | cleared _ _ ih | pushed _ _ ih => exact ih ((Stage.valid_empty _).fill _)
  | flushing | done => exact hvalid

theorem SendRuns.valid {answer? : Option (Except Shortfall Nat)}
    (h : SendRuns config sending stage lines stop answer? stage')
    (hvalid : stage.Valid config.stageLimit) : stage'.Valid config.stageLimit := by
  induction h with
  | given_up => exact hvalid
  | answered polls => exact polls.valid hvalid
  | again polls _ ih => exact ih (polls.valid hvalid)

theorem Performs.valid {outcome : Outcome} (h : Performs config stage lines outcome stage')
    (hvalid : stage.Valid config.stageLimit) : stage'.Valid config.stageLimit := by
  cases h with
  | write writes => exact writes.valid hvalid
  | flush ends | shutdown ends => exact ends.valid hvalid
  | send runs => exact runs.valid hvalid

theorem Runs.valid {outcomes : List Outcome} (h : Runs config stage lines outcomes stage')
    (hvalid : stage.Valid config.stageLimit) : stage'.Valid config.stageLimit := by
  induction h with
  | nil => exact hvalid
  | cons first _ ih => exact ih (first.valid hvalid)

end
end TelnetEscape
