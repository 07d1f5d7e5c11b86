import Mathlib.Algebra.Ring.Nat
import TelnetEscape.Proofs.Batches

/-!
# What a blocking send reports

A send reports every batch that the sink took in full, and a batch that it did not, each with the
output that was taken of it and the input that this stands for. A flush is not reported. So the
reports of one send add up: their output is all that the sink took, and their input is the count of
the answer.

* `Sends.told`: which batches are reported, and what is said of the one that fell short;
* `Sends.sum_bytes`, `Sends.sum_inputs`: the sums, by induction on the batches;
* `send_reports`: the reports of a send next to its other calls and its answer.
-/

namespace TelnetEscape

namespace Event

/-- The bytes of output that an event gives. -/
def bytes? : Event → Option Nat
  | drained bytes _ => some bytes
  | failed bytes _ _ _ => bytes

/-- The bytes of input that an event gives. -/
def inputs? : Event → Option Nat
  | drained _ inputs => inputs
  | failed _ inputs _ _ => some inputs

/-- The event tells of a write that failed. -/
def isFailure : Event → Bool
  | drained .. => false
  | failed .. => true

/-- A batch was sent in full. -/
def ofBatch (segment : Bytes) : Event :=
  .drained (escape segment).length (some segment.length)

end Event

namespace Journal

/-- All output that the events give. -/
def reportedBytes (lines : Journal) : Nat :=
  (lines.events.filterMap Event.bytes?).sum

/-- All input that the events give. -/
def reportedInputs (lines : Journal) : Nat :=
  (lines.events.filterMap Event.inputs?).sum

@[simp] theorem reportedBytes_append (a b : Journal) :
    reportedBytes (a ++ b) = reportedBytes a + reportedBytes b := by
  simp [reportedBytes]

@[simp] theorem reportedInputs_append (a b : Journal) :
    reportedInputs (a ++ b) = reportedInputs a + reportedInputs b := by
  simp [reportedInputs]

end Journal

/-! ## One batch -/

section
variable {bytes : Bytes} {inputs : Nat} {lines : Journal}

theorem Drains.events_of_ok (h : Drains bytes inputs lines (.ok ())) :
    lines.events = [.drained bytes.length (some inputs)] := by
  cases h with
  | sent offers =>
    rw [Journal.events_append, offers.events_eq_nil]
    rfl

theorem Drains.events_of_error {f : Shortfall} (h : Drains bytes inputs lines (.error f)) :
    lines.events = [.failed (some lines.taken.length) f.delivered f.tornPair f.cause] := by
  cases h with
  | short offers =>
    rw [Journal.events_append, offers.events_eq_nil, Journal.taken_append]
    simp [Journal.events, Entry.event?, Entry.taken]

theorem Drains.reportedBytes_eq {answer : Except Shortfall Unit}
    (h : Drains bytes inputs lines answer) : lines.reportedBytes = lines.taken.length := by
  cases answer with
  | ok _ =>
    rw [Journal.reportedBytes, h.events_of_ok]
    cases h with
    | sent offers =>
      rw [Journal.taken_append, offers.taken_eq_iff.mpr rfl]
      simp [Event.bytes?, Entry.taken]
  | error f =>
    rw [Journal.reportedBytes, h.events_of_error]
    rfl

end

/-! ## All batches -/

/-- The batches in which segments are sent. Without any there is one that is empty. -/
def batchesOf (segments : List Bytes) : List Bytes :=
  if segments = [] then [[]] else segments

/-- The events of a send in batches, told by what the batches came to. -/
inductive Told (batches : List Bytes) (events : List Event) : Except Shortfall Nat → Prop
  | through {n : Nat} (events_eq : events = batches.map Event.ofBatch) : Told batches events (.ok n)
  | short {f : Shortfall} (before after : List Bytes) (batch : Bytes) (bytes inputs : Nat)
      (batches_eq : batches = before ++ batch :: after)
      (events_eq : events = before.map Event.ofBatch ++
        [.failed (some bytes) inputs f.tornPair f.cause]) :
      Told batches events (.error f)

/-- A first batch that got through comes before the others. -/
theorem Told.after {batches : List Bytes} {events : List Event} {answer : Except Shortfall Nat}
    (h : Told batches events answer) (batch : Bytes) (k : Nat) :
    Told (batch :: batches) (.ofBatch batch :: events) (countFrom k answer) := by
  cases h with
  | through events_eq => exact .through (by rw [events_eq, List.map_cons])
  | short before after failed bytes inputs batches_eq events_eq =>
    refine .short (batch :: before) after failed bytes inputs ?_ ?_
    · rw [batches_eq, List.cons_append]
    · rw [events_eq, List.map_cons, List.cons_append]

section
variable {limit : Nat} {data : Bytes} {segments : List Bytes} {lines : Journal}
  {answer : Except Shortfall Nat}

/-- The event of a batch that got through gives the batch. -/
theorem Drains.events_of_batch
    (h : Drains (escape (data.take (fit limit data))) (fit limit data) lines (.ok ())) :
    lines.events = [.ofBatch (data.take (fit limit data))] := by
  rw [h.events_of_ok, Event.ofBatch, List.length_take_of_le (fit_le_length limit data)]

/-- By induction on the batches that were started. -/
theorem Sends.told (h : Sends limit data lines answer) (hcuts : Cuts limit data segments) :
    Told (batchesOf segments) lines.events answer := by
  induction h generalizing segments with
  | @last data lines all_fit drains =>
    rw [drains.events_of_batch]
    apply Told.through
    by_cases hdata : data = []
    · subst hdata
      rw [hcuts.eq_nil]
      rfl
    · obtain ⟨others, rfl, hothers⟩ := hcuts.of_ne_nil hdata
      rw [all_fit] at hothers
      rw [hothers.eq_nil]
      rfl
  | @short data lines f drains =>
    have hdata : data ≠ [] := by
      rintro rfl
      cases drains with
      | short offers => cases offers.of_nil.2
    obtain ⟨others, rfl, -⟩ := hcuts.of_ne_nil hdata
    exact .short [] others _ _ _ rfl drains.events_of_error
  | @more data batch lines answer some_left drains _ ih =>
    have hdata : data ≠ [] := fun hnone => some_left (by rw [hnone, List.drop_nil])
    obtain ⟨others, rfl, hothers⟩ := hcuts.of_ne_nil hdata
    have hsome : others ≠ [] := by
      rintro rfl
      exact some_left hothers.flatten_eq.symm
    have htold := ih hothers
    rw [batchesOf, if_neg hsome] at htold
    rw [Journal.events_append, drains.events_of_batch]
    exact htold.after _ _

theorem Sends.reportedBytes_eq (h : Sends limit data lines answer) :
    lines.reportedBytes = lines.taken.length := by
  induction h with
  | last _ drains | short drains => exact drains.reportedBytes_eq
  | more _ drains _ ih =>
    rw [Journal.reportedBytes_append, drains.reportedBytes_eq, ih, Journal.taken_append,
      List.length_append]

theorem counted_countFrom (k : Nat) (answer : Except Shortfall Nat) :
    counted (countFrom k answer) = k + counted answer := by
  cases answer <;> rfl

theorem Sends.reportedInputs_eq (h : Sends limit data lines answer) :
    lines.reportedInputs = counted answer := by
  induction h with
  | last _ drains =>
    rw [Journal.reportedInputs, drains.events_of_ok]
    rfl
  | short drains =>
    rw [Journal.reportedInputs, drains.events_of_error]
    rfl
  | more _ drains _ ih =>
    rw [Journal.reportedInputs_append, ih, counted_countFrom, Journal.reportedInputs,
      drains.events_of_ok]
    rfl

end

/-! ## The reports of a send -/

/-- The events of a send of `data` with the calls `lines`, next to these and the answer. -/
structure Reported (limit : Nat) (data : Bytes) (lines : Journal)
    (answer : Except Shortfall Nat) : Prop where
  /-- The batches that were sent come first, in order, and then the failure of the next one, if
  there is any. -/
  in_order : ∃ segments sent failures, Cuts limit data segments ∧ sent <+: batchesOf segments ∧
    lines.events = sent.map Event.ofBatch ++ failures ∧
    (∀ e ∈ failures, e.isFailure = true) ∧ failures.length ≤ 1
  /-- Just a failed write is reported as a failure; a failed flush is not. -/
  failure_iff : (∃ e ∈ lines.events, e.isFailure = true) ↔ lines.WriteFailed
  /-- The failure is that of the answer. -/
  failure_eq : ∀ bytes inputs torn cause, .failed bytes inputs torn cause ∈ lines.events →
    ∃ f, answer = .error f ∧ torn = f.tornPair ∧ cause = f.cause
  /-- Every event gives both numbers. -/
  numbered : ∀ e ∈ lines.events, e.bytes?.isSome = true ∧ e.inputs?.isSome = true
  bytes_eq : lines.reportedBytes = lines.taken.length
  inputs_eq : lines.reportedInputs = counted answer
  /-- If no write fails, every batch is reported once, in order. -/
  each_batch : ¬ lines.WriteFailed → ∃ segments, Cuts limit data segments ∧
    lines.events = (batchesOf segments).map Event.ofBatch
  /-- A send of nothing has one batch of nothing. -/
  no_data : data = [] → lines.events = [.drained 0 (some 0)]

theorem not_isFailure_of_mem_map {batches : List Bytes} {e : Event}
    (h : e ∈ batches.map Event.ofBatch) : e.isFailure = false := by
  obtain ⟨batch, -, rfl⟩ := List.mem_map.mp h
  rfl

theorem Told.numbered {batches : List Bytes} {events : List Event} {answer : Except Shortfall Nat}
    (h : Told batches events answer) :
    ∀ e ∈ events, e.bytes?.isSome = true ∧ e.inputs?.isSome = true := by
  have hsent (sent : List Bytes) :
      ∀ e ∈ sent.map Event.ofBatch, e.bytes?.isSome = true ∧ e.inputs?.isSome = true := by
    rw [List.forall_mem_map]
    exact fun _ _ => ⟨rfl, rfl⟩
  cases h with
  | through events_eq =>
    rw [events_eq]
    exact hsent batches
  | short before _ _ _ _ _ events_eq =>
    rw [events_eq]
    exact List.forall_mem_append.mpr ⟨hsent before, List.forall_mem_singleton.mpr ⟨rfl, rfl⟩⟩

section
variable {config : Config} {data : Bytes} {lines flushes : Journal}
  {batches answer : Except Shortfall Nat}

theorem Finishes.counted_eq (h : Finishes config batches flushes answer) :
    counted answer = counted batches := by
  cases h with
  | unflushed | flushed => rfl
  | flush_failed => cases batches <;> rfl

theorem Finishes.eq_of_error {f : Shortfall} (h : Finishes config (.error f) flushes answer) :
    answer = .error f := by
  cases h <;> rfl

theorem Finishes.events_eq (h : Finishes config batches flushes answer) (lines : Journal) :
    (lines ++ flushes).events = lines.events :=
  events_append_flushes h.isFlush

/-- The sums of the batches are those of the send, since a flush adds to neither side. -/
theorem Sends.reported_sums (h : Sends config.stageLimit data lines batches)
    (hfinishes : Finishes config batches flushes answer) :
    (lines ++ flushes).reportedBytes = (lines ++ flushes).taken.length ∧
    (lines ++ flushes).reportedInputs = counted answer := by
  constructor
  · rw [Journal.reportedBytes, hfinishes.events_eq, taken_append_flushes hfinishes.isFlush]
    exact h.reportedBytes_eq
  · rw [Journal.reportedInputs, hfinishes.events_eq, hfinishes.counted_eq]
    exact h.reportedInputs_eq

theorem GotThrough.not_writeFailed (h : GotThrough data lines)
    (hfinishes : Finishes config batches flushes answer) : ¬ (lines ++ flushes).WriteFailed := by
  rintro ⟨line, hmem, hwrite, hfails⟩
  rcases List.mem_append.mp hmem with hmem | hmem
  · exact hfails (Journal.entry_failure?_eq_none h.no_failure hmem)
  · rw [hfinishes.isWrite_eq_false line hmem] at hwrite
    cases hwrite

/-- All batches got through, and the flush came to anything. -/
theorem Sends.reported_of_ok {n : Nat} (h : Sends config.stageLimit data lines (.ok n))
    (hfinishes : Finishes config (.ok n) flushes answer) :
    Reported config.stageLimit data (lines ++ flushes) answer := by
  obtain ⟨segments, hcuts⟩ := Cuts.exists_of_two_le config.two_le_stageLimit data
  obtain ⟨-, hthrough⟩ : Sent data lines (.ok n) := h.sent
  obtain ⟨hbytes, hinputs⟩ := h.reported_sums hfinishes
  have hworked := hthrough.not_writeFailed hfinishes
  have htold := h.told hcuts
  rw [← hfinishes.events_eq lines] at htold
  have hnumbered := htold.numbered
  cases htold with
  | through events_eq =>
    have hnone : ∀ e ∈ (lines ++ flushes).events, e.isFailure = false := by
      rw [events_eq]
      exact fun _ => not_isFailure_of_mem_map
    refine ⟨?_, ?_, ?_, hnumbered, hbytes, hinputs, ?_, ?_⟩
    · refine ⟨segments, batchesOf segments, [], hcuts, List.prefix_refl _, ?_,
        List.forall_mem_nil _, Nat.zero_le 1⟩
      rw [events_eq, List.append_nil]
    · refine iff_of_false ?_ hworked
      rintro ⟨e, hmem, hfailure⟩
      rw [hnone e hmem] at hfailure
      cases hfailure
    · intro bytes inputs torn cause hmem
      cases hnone _ hmem
    · exact fun _ => ⟨segments, hcuts, events_eq⟩
    · rintro rfl
      rw [events_eq, hcuts.eq_nil]
      rfl

/-- A batch fell short, so the answer is what the batches came to. -/
theorem Sends.reported_of_error {f : Shortfall}
    (h : Sends config.stageLimit data lines (.error f))
    (hfinishes : Finishes config (.error f) flushes answer) :
    Reported config.stageLimit data (lines ++ flushes) answer := by
  obtain ⟨segments, hcuts⟩ := Cuts.exists_of_two_le config.two_le_stageLimit data
  have hshort : FellShort data lines f := h.sent
  obtain ⟨hbytes, hinputs⟩ := h.reported_sums hfinishes
  have hfailed : (lines ++ flushes).WriteFailed := (h.writeFailed rfl).before flushes
  have htold := h.told hcuts
  rw [← hfinishes.events_eq lines] at htold
  have hnumbered := htold.numbered
  cases htold with
  | short before after batch bytes inputs batches_eq events_eq =>
    refine ⟨?_, ?_, ?_, hnumbered, hbytes, hinputs, ?_, ?_⟩
    · refine ⟨segments, before, _, hcuts, ?_, events_eq, List.forall_mem_singleton.mpr rfl,
        Nat.le_refl 1⟩
      rw [batches_eq]
      exact List.prefix_append before _
    · refine iff_of_true ⟨.failed (some bytes) inputs f.tornPair f.cause, ?_, rfl⟩ hfailed
      rw [events_eq]
      exact List.mem_append_right _ (List.mem_singleton_self _)
    · intro bytes' inputs' torn cause hmem
      rw [events_eq] at hmem
      rcases List.mem_append.mp hmem with hsent | hlast
      · cases not_isFailure_of_mem_map hsent
      · cases List.mem_singleton.mp hlast
        exact ⟨f, hfinishes.eq_of_error, rfl, rfl⟩
    · exact fun hworked => absurd hfailed hworked
    · rintro rfl
      exact absurd hshort.delivered_lt (Nat.not_lt_zero _)

end

/-- **The reports of a send add up.** For any configuration, data and sink, the events of a send are
those of the batches that were sent, in order, and one of a failure just if a write failed, which
tells of a torn pair as the answer does. The output that they give is all that the sink took, and
the input is the count of the answer. -/
theorem send_reports {σ : Type} [Sink σ] (w : Writer (Journaled σ)) (data : Bytes) :
    ∃ lines : Journal, (w.send data).2.sink.journal = w.sink.journal ++ lines ∧
      Reported w.config.stageLimit data lines (w.send data).1 := by
  obtain ⟨lines, flushes, batches, hcalls, hsends, hfinishes⟩ := w.send_sends data
  refine ⟨lines ++ flushes, Journaled.journal_of_calls hcalls, ?_⟩
  cases batches with
  | ok n => exact hsends.reported_of_ok hfinishes
  | error f => exact hsends.reported_of_error hfinishes

/-- The second batch breaks off in the middle of its pair. Of it one byte of output was taken, which
stands for no input. -/
example :
    let sink : ScriptedSink := { script :=
      { writes := { steps := [.take none, .take (some 1), .fail (.plain .brokenPipe)] } } }
    let w := Writer.fresh (⟨sink⟩ : Nonblocking ScriptedSink) { capacity := 2 }
    (w.send [1, 2, 255]).2.sink.journal.events =
      [.drained 2 (some 2), .failed (some 1) 0 true (.plain .brokenPipe)] := by
  cbv

end TelnetEscape
