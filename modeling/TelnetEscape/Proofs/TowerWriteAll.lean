import Mathlib.Data.List.Flatten
import Mathlib.Data.List.Permutation
import Mathlib.Logic.Function.Iterate
import TelnetEscape.Proofs.WriteAll
import TelnetEscape.Sink.Nonblocking
import TelnetEscape.Sink.Script
import TelnetEscape.Tower

/-!
# Writing everything through a tower of writers

Each writer of a tower escapes once more what the one above it writes. What the writer above takes
for written arrives below in escaped form, and a write that fails brings nothing below, unless it
tears a pair. Then the writer below reports an error although bytes went through; a writer above it
that has got earlier batches through answers with a short write, and whoever writes everything goes
on from there and sends the same input again behind the half pair, as with `tornTower`.

`Relays` compares what goes into some layers with what comes out at the bottom. Nothing is ever lost
on the way, and nothing is sent twice just if no layer tears a pair.
-/

namespace TelnetEscape

/-! ## Escaping parts of a byte string -/

theorem escape_sublist {a b : Bytes} (h : a.Sublist b) : (escape a).Sublist (escape b) := by
  rw [escape_eq_flatMap, escape_eq_flatMap]
  exact h.flatMap escapeByte

/-- What is missing in a byte string is missing in its escaped form. -/
theorem eq_of_sublist_of_escape_eq {a b : Bytes} (h : a.Sublist b) (heq : escape a = escape b) :
    a = b := by
  have hlen := congrArg List.length heq
  rw [length_escape, length_escape, escapedLength, escapedLength] at hlen
  have := h.length_le
  have := h.count_le iac
  exact h.eq_of_length (by omega)

theorem iterate_escape_sublist (n : Nat) {a b : Bytes} (h : a.Sublist b) :
    (escape^[n] a).Sublist (escape^[n] b) := by
  induction n generalizing a b with
  | zero => exact h
  | succ n ih => exact ih (escape_sublist h)

theorem eq_of_sublist_of_iterate_escape_eq (n : Nat) {a b : Bytes} (h : a.Sublist b)
    (heq : escape^[n] a = escape^[n] b) : a = b := by
  induction n generalizing a b with
  | zero => exact heq
  | succ n ih => exact eq_of_sublist_of_escape_eq h (ih (escape_sublist h) heq)

/-! ## Layers -/

/-- The calls `lower` below `n` writers bring on at least what the calls `upper` on the topmost one
took, escaped `n` times; and just that if, and only if, no pair was torn on the way. -/
structure Relays (n : Nat) (upper lower : Journal) : Prop where
  covers : (escape^[n] upper.taken).Sublist lower.taken
  exact_iff : lower.torn = false ↔ upper.torn = false ∧ lower.taken = escape^[n] upper.taken

namespace Relays

variable {n : Nat} {upper lower : Journal}

theorem rfl_zero (lines : Journal) : Relays 0 lines lines :=
  ⟨List.Sublist.refl _, by simp⟩

/-- Calls that take nothing, passed on as they are. -/
theorem of_taken_nil {lines : Journal} (h : lines.taken = []) : Relays 1 lines lines := by
  refine ⟨?_, ?_⟩
  · rw [h]
    exact List.nil_sublist _
  · rw [h]
    exact ⟨fun hwhole => ⟨hwhole, rfl⟩, fun hwhole => hwhole.1⟩

/-- One layer above `n` others. -/
theorem above {bottom : Journal} (h : Relays 1 upper lower) (h' : Relays n lower bottom) :
    Relays (n + 1) upper bottom := by
  have hcovers : (escape^[n + 1] upper.taken).Sublist (escape^[n] lower.taken) :=
    iterate_escape_sublist n h.covers
  refine ⟨hcovers.trans h'.covers, ?_⟩
  rw [h'.exact_iff, h.exact_iff, and_assoc]
  refine and_congr_right fun _ => ⟨?_, ?_⟩
  · rintro ⟨hlower, hbottom⟩
    rw [hbottom, hlower]
    rfl
  · intro hbottom
    -- the lower layer lies between the two ends, which are equal
    have hends : escape^[n] (escape^[1] upper.taken) = escape^[n] lower.taken :=
      hcovers.antisymm (hbottom ▸ h'.covers)
    have hlower := eq_of_sublist_of_iterate_escape_eq n h.covers hends
    exact ⟨hlower.symm, by rw [hbottom, ← hlower]; rfl⟩

/-- One layer, one call after the other. -/
theorem append {upper' lower' : Journal} (h : Relays 1 upper lower) (h' : Relays 1 upper' lower') :
    Relays 1 (upper ++ upper') (lower ++ lower') := by
  have hcovers : (escape upper.taken).Sublist lower.taken := h.covers
  have hcovers' : (escape upper'.taken).Sublist lower'.taken := h'.covers
  have hexact : lower.torn = false ↔ upper.torn = false ∧ lower.taken = escape upper.taken :=
    h.exact_iff
  have hexact' : lower'.torn = false ↔ upper'.torn = false ∧ lower'.taken = escape upper'.taken :=
    h'.exact_iff
  refine ⟨?_, ?_⟩
  · simpa using hcovers.append hcovers'
  · have hboth : lower.taken ++ lower'.taken = escape upper.taken ++ escape upper'.taken ↔
        lower.taken = escape upper.taken ∧ lower'.taken = escape upper'.taken := by
      refine ⟨fun heq => ?_, fun heq => by rw [heq.1, heq.2]⟩
      have hlen := congrArg List.length heq
      rw [List.length_append, List.length_append] at hlen
      have := hcovers.length_le
      have := hcovers'.length_le
      exact ⟨(hcovers.eq_of_length (by omega)).symm, (hcovers'.eq_of_length (by omega)).symm⟩
    simp only [Journal.torn_append, Bool.or_eq_false_iff, hexact, hexact', Function.iterate_one,
      Journal.taken_append, escape_append, hboth]
    tauto

end Relays

theorem WriteOutcome.relays {offered : Bytes} {answer : Except SinkError Nat} {lower : Journal}
    (h : WriteOutcome offered lower answer) : Relays 1 [.write offered (.ready answer)] lower := by
  cases h with
  | @took n _ _ taken whole =>
    have htaken : Journal.taken [.write offered (.ready (.ok n))] = offered.take n :=
      List.append_nil _
    refine ⟨?_, ?_⟩
    · rw [htaken, taken]
      exact List.Sublist.refl _
    · rw [htaken]
      exact iff_of_true whole ⟨rfl, taken⟩
  | nothing taken whole =>
    refine ⟨List.nil_sublist _, ?_⟩
    exact iff_of_true whole ⟨rfl, taken⟩
  | @tore e a _ taken torn =>
    refine ⟨List.nil_sublist _, ?_⟩
    refine iff_of_false (by rw [torn]; decide) ?_
    rintro ⟨_, hnothing⟩
    rw [taken] at hnothing
    simp [Journal.taken, Entry.taken] at hnothing

theorem Writer.step_relays {σ : Type} [Sink σ] {w w' : Writer σ} {e : Entry}
    (h : Sink.Step w e w') :
    ∃ lower, Calls Sink.Step w.sink lower w'.sink ∧ Relays 1 [e] lower := by
  match e, h with
  | .write offered (.ready answer), h =>
    obtain ⟨lower, hcalls, houtcome⟩ := Writer.calls_of_write h
    exact ⟨lower, hcalls, houtcome.relays⟩
  | .flush (.ready answer), h => exact ⟨_, .single (Writer.step_of_not_write h rfl), .of_taken_nil rfl⟩
  | .event ev, h => exact ⟨_, .single (Writer.step_of_not_write h rfl), .of_taken_nil rfl⟩

theorem Writer.calls_relay {σ : Type} [Sink σ] {w w' : Writer σ} {upper : Journal}
    (h : Calls Sink.Step w upper w') :
    ∃ lower, Calls Sink.Step w.sink lower w'.sink ∧ Relays 1 upper lower := by
  induction h with
  | nil w => exact ⟨[], .nil _, .of_taken_nil rfl⟩
  | cons first _ ih =>
    obtain ⟨lower, hcalls, hrelays⟩ := Writer.step_relays first
    obtain ⟨lower', hcalls', hrelays'⟩ := ih
    exact ⟨lower ++ lower', hcalls.append hcalls', hrelays.append hrelays'⟩

/-! ## Towers -/

/-- What calls on the topmost writer bring to the bottom of a tower, by induction on its height. -/
theorem Tower.calls_relay {σ : Type} [Sink σ] {n : Nat} {t t' : Tower (Journaled σ) n}
    {upper : Journal} (h : Calls Sink.Step t upper t') :
    ∃ lines : Journal, t'.bottom.journal = t.bottom.journal ++ lines ∧ Relays n upper lines := by
  induction n generalizing upper with
  | zero =>
    have hcalls : Calls (@Sink.Step (Journaled σ) _) t upper t' := h
    exact ⟨upper, Journaled.journal_of_calls hcalls, .rfl_zero upper⟩
  | succ n ih =>
    obtain ⟨lower, hlower, hrelays⟩ := @Writer.calls_relay (Tower (Journaled σ) n) _ t t' upper h
    obtain ⟨lines, hjournal, hrelays'⟩ := ih hlower
    exact ⟨lines, hjournal, hrelays.above hrelays'⟩

/-- **Writing everything through a tower.** When it succeeds, the sink at the bottom took at least
the data escaped by each writer in turn; and just that if, and only if, no writer reported a torn
pair. -/
theorem tower_writeAll_exact_iff {σ : Type} [Sink σ] {n : Nat} (calls : Nat)
    (t : Tower (Journaled σ) n) (data : Bytes)
    (h : (Sink.writeAll calls t data).1 = some (.ok ())) :
    ∃ lines : Journal,
      (Sink.writeAll calls t data).2.bottom.journal = t.bottom.journal ++ lines ∧
      (escape^[n] data).Sublist lines.taken ∧
      (lines.taken = escape^[n] data ↔ lines.torn = false) := by
  obtain ⟨upper, hcalls, hwrites⟩ := Sink.writeAll_writesAll calls t data
  obtain ⟨lines, hjournal, hrelays⟩ := Tower.calls_relay hcalls
  have hwhole : upper.torn = false := hwrites.torn_eq_false
  have hcovers := hrelays.covers
  have hexact := hrelays.exact_iff
  rw [hwrites.taken_eq h] at hcovers hexact
  refine ⟨lines, hjournal, hcovers, ?_, ?_⟩
  · intro heq
    exact hexact.mpr ⟨hwhole, heq⟩
  · intro hlines
    exact (hexact.mp hlines).2

/-- A sink that answers three writes as it is told and then takes all it is offered. -/
def threeAnswers (first second third : Reaction) : Journaled (Nonblocking ScriptedSink) :=
  { sink := { sink := { script := { writes := { steps := [first, second, third] } } } } }

/-- Two writers over a sink that takes half of an escaped pair of pairs and is then interrupted. -/
def interruptedTower : Tower (Journaled (Nonblocking ScriptedSink)) 2 :=
  Tower.build (threeAnswers (.take none) (.take (some 2)) (.fail (.plain .interrupted)))
    [{ capacity := 2 }, { capacity := 4 }]

/-- The interruption falls between two pairs, so nothing is torn and each byte arrives once. -/
theorem tower_writeAll_exact_of_interruption :
    (Sink.writeAll 9 interruptedTower [1, 255, 2]).1 = some (.ok ()) ∧
    ∃ lines : Journal,
      (Sink.writeAll 9 interruptedTower [1, 255, 2]).2.bottom.journal =
        interruptedTower.bottom.journal ++ lines ∧
      (escape^[2] [1, 255, 2]).Sublist lines.taken ∧
      (lines.taken = escape^[2] [1, 255, 2] ↔ lines.torn = false) := by
  have hok : (Sink.writeAll 9 interruptedTower [1, 255, 2]).1 = some (.ok ()) := by cbv
  exact ⟨hok, tower_writeAll_exact_iff 9 interruptedTower [1, 255, 2] hok⟩

/-- Two writers over a sink that fails once, between the halves of a pair. -/
def tornTower : Tower (Journaled (Nonblocking ScriptedSink)) 2 :=
  Tower.build
    (threeAnswers (.take none) (.take (some 1)) (.fail (.described .brokenPipe "gone")))
    [{ capacity := 2 }, {}]

/-- The half pair stays, and the whole pair is sent again behind it. -/
theorem tower_resends_after_torn_pair :
    (Sink.writeAll 9 tornTower [1, 255]).1 = some (.ok ()) ∧
    (Sink.writeAll 9 tornTower [1, 255]).2.bottom.journal.taken = [1, 255, 255, 255, 255, 255] ∧
    escape^[2] [1, 255] ≠ [1, 255, 255, 255, 255, 255] := by
  refine ⟨?_, ?_, ?_⟩
  · cbv
  · cbv
  · decide

end TelnetEscape
