import TelnetEscape.Proofs.Sends

/-!
# The outcome of a blocking send

The answer of a send tells exactly what the sink took and what went wrong first (`SendOutcome`).
This holds for every configuration, all data and every sink: the sink may take any part of an offer,
claim to have taken more than there was, refuse an offer or fail, and its flush may work or not.
Nothing is assumed of what the writer had staged before.
-/

namespace TelnetEscape

/-- With `flushSink` the sink is flushed once and called no more; without it, it is not flushed. -/
structure Journal.FlushedAtEnd (config : Config) (lines : Journal) : Prop where
  flushes_eq : lines.flushes = if config.flushSink then 1 else 0
  flush_last : lines.Pairwise fun e _ => e.isFlush = false

/-- The calls of a send that got all of its data through, `n` input bytes by its count. -/
structure SendOk (data : Bytes) (lines : Journal) (n : Nat) : Prop where
  count : n = data.length
  taken : lines.taken = escape data
  no_failure : lines.failure? = none
  whole : lines.torn = false

/-- The calls of a send that reports the shortfall `f`. -/
structure SendFailed (data : Bytes) (lines : Journal) (f : Shortfall) : Prop where
  /-- The sink has the escaped form of the first `f.delivered` bytes of the data, and one IAC more
  just if `f.tornPair`; then the next byte of the data is an IAC. -/
  reaches : Progress.Reaches ⟨f.delivered, f.tornPair⟩ data lines.taken
  /-- The error is that of the first call that failed. -/
  failure : lines.failure? = some f.cause
  /-- All data is through just if nothing failed but the flush. -/
  all_delivered_iff : f.delivered = data.length ↔
    ∃ before : Journal, before.failure? = none ∧
      lines = before ++ [.flush (.ready (.error f.cause))]
  /-- The events tell of a torn pair just if there is one. -/
  torn : lines.torn = f.tornPair

/-- What the answer of a send says about its calls. -/
def SendOutcome (data : Bytes) (lines : Journal) : Except Shortfall Nat → Prop
  | .ok n => SendOk data lines n
  | .error f => SendFailed data lines f

/-! ## The flush comes last -/

theorem Journal.flushes_eq_zero {lines : Journal} (h : ∀ e ∈ lines, e.isFlush = false) :
    lines.flushes = 0 :=
  List.countP_eq_zero.mpr fun e he => by simp [h e he]

theorem Finishes.flushedAtEnd {config : Config} {batches answer : Except Shortfall Nat}
    {lines flushes : Journal} (hlines : ∀ e ∈ lines, e.isFlush = false)
    (h : Finishes config batches flushes answer) : (lines ++ flushes).FlushedAtEnd config := by
  refine ⟨?_, List.pairwise_append.mpr ⟨?_, ?_, ?_⟩⟩
  · rw [Journal.flushes_append, Journal.flushes_eq_zero hlines, Nat.zero_add, ← h.length_eq]
    exact List.countP_eq_length.mpr h.isFlush
  · exact List.pairwise_of_forall_mem_list fun e he _ _ => hlines e he
  · cases h <;> simp
  · intro e he _ _
    exact hlines e he

theorem Finishes.isWrite_eq_false {config : Config} {batches answer : Except Shortfall Nat}
    {flushes : Journal} (h : Finishes config batches flushes answer) :
    ∀ e ∈ flushes, e.isWrite = false := by
  cases h <;> simp [Entry.isWrite]

/-! ## The batches and the flush together -/

variable {data : Bytes} {lines : Journal}

/-- A failed call other than a flush is not after calls that worked and a failed flush. -/
theorem not_flush_failure_of_failure {e : SinkError} (hfails : lines.failure? = some e)
    (hlines : ∀ e ∈ lines, e.isFlush = false) {flushes : Journal} {cause : SinkError} :
    ¬ ∃ before : Journal, before.failure? = none ∧
      lines ++ flushes = before ++ [.flush (.ready (.error cause))] := by
  rintro ⟨before, hbefore, heq⟩
  obtain ⟨failed, hmem, hfailed⟩ := List.exists_of_findSome?_eq_some hfails
  have hmem' : failed ∈ before ++ [.flush (.ready (.error cause))] :=
    heq ▸ List.mem_append_left flushes hmem
  rcases List.mem_append.mp hmem' with h | h
  · rw [Journal.entry_failure?_eq_none hbefore h] at hfailed
    cases hfailed
  · have := hlines failed hmem
    rw [List.mem_singleton.mp h] at this
    cases this

section
variable {flushes : Journal} (hflushes : ∀ e ∈ flushes, e.isFlush = true)
include hflushes

theorem taken_append_flushes : (lines ++ flushes).taken = lines.taken := by
  have htaken : flushes.taken = [] := List.flatMap_eq_nil_iff.mpr fun e he => by
    have := hflushes e he
    cases e <;> simp_all [Entry.isFlush, Entry.taken]
  rw [Journal.taken_append, htaken, List.append_nil]

theorem events_append_flushes : (lines ++ flushes).events = lines.events := by
  have hevents : flushes.events = [] := List.filterMap_eq_nil_iff.mpr fun e he => by
    have := hflushes e he
    cases e <;> simp_all [Entry.isFlush, Entry.event?]
  rw [Journal.events_append, hevents, List.append_nil]

theorem torn_append_flushes : (lines ++ flushes).torn = lines.torn := by
  rw [Journal.torn, events_append_flushes hflushes, Journal.torn]

/-- A send whose batches fell short fails as they did, however the flush went. -/
theorem FellShort.sendFailed {f : Shortfall} (hshort : FellShort data lines f)
    (hlines : ∀ e ∈ lines, e.isFlush = false) : SendFailed data (lines ++ flushes) f := by
  refine ⟨?_, ?_, ?_, ?_⟩
  · rw [taken_append_flushes hflushes]
    exact hshort.reaches
  · rw [Journal.failure?_append, hshort.failure, Option.some_or]
  · constructor
    · intro hall
      exact absurd hall (Nat.ne_of_lt hshort.delivered_lt)
    · intro hflush
      exact absurd hflush (not_flush_failure_of_failure hshort.failure hlines)
  · rw [torn_append_flushes hflushes, hshort.torn]

/-- A send whose batches got through succeeds if the flush worked or was not made. -/
theorem GotThrough.sendOk (hthrough : GotThrough data lines) (hworked : flushes.failure? = none) :
    SendOk data (lines ++ flushes) data.length := by
  refine ⟨rfl, ?_, ?_, ?_⟩
  · rw [taken_append_flushes hflushes, hthrough.taken]
  · rw [Journal.failure?_append, hthrough.no_failure, hworked, Option.or_none]
  · rw [torn_append_flushes hflushes, hthrough.whole]

/-- A send whose batches got through fails after all data if the flush failed. -/
theorem GotThrough.sendFailed (hthrough : GotThrough data lines) {e : SinkError}
    (hfailed : flushes = [.flush (.ready (.error e))]) :
    SendFailed data (lines ++ flushes) ⟨data.length, false, e⟩ := by
  refine ⟨?_, ?_, ?_, ?_⟩
  · rw [taken_append_flushes hflushes, hthrough.taken]
    exact Progress.reaches_escape data
  · rw [Journal.failure?_append, hthrough.no_failure, hfailed]
    rfl
  · exact iff_of_true rfl ⟨lines, hthrough.no_failure, by rw [hfailed]⟩
  · rw [torn_append_flushes hflushes, hthrough.whole]

end

theorem Finishes.sendOutcome {config : Config} {batches answer : Except Shortfall Nat}
    {flushes : Journal} (h : Finishes config batches flushes answer)
    (hsent : Sent data lines batches) (hlines : ∀ e ∈ lines, e.isFlush = false) :
    SendOutcome data (lines ++ flushes) answer := by
  have hflushes := h.isFlush
  cases batches with
  | ok n =>
    obtain ⟨rfl, hthrough⟩ := hsent
    cases h with
    | unflushed | flushed => exact hthrough.sendOk hflushes rfl
    | flush_failed _ e => exact hthrough.sendFailed hflushes rfl
  | error f =>
    have hshort : FellShort data lines f := hsent
    cases h with
    | unflushed | flushed | flush_failed => exact hshort.sendFailed hflushes hlines

/-- The outcome of a send over any sink. -/
theorem Writer.send_calls {σ : Type} [Sink σ] (w : Writer σ) (data : Bytes) :
    ∃ lines, Calls Sink.Step w.sink lines (w.send data).2.sink ∧
      SendOutcome data lines (w.send data).1 ∧
      lines.StopsAtFailure ∧ lines.FlushedAtEnd w.config := by
  obtain ⟨lines, flushes, batches, hcalls, hsends, hfinishes⟩ := w.send_sends data
  refine ⟨lines ++ flushes, hcalls, ?_, ?_, ?_⟩
  · exact hfinishes.sendOutcome hsends.sent hsends.isFlush_eq_false
  · exact hsends.stopsAtFailure.append_of_no_write hfinishes.isWrite_eq_false
  · exact hfinishes.flushedAtEnd hsends.isFlush_eq_false

/-- **The outcome of a send.** A success means that the sink took all of the escaped data and that
no call failed. A shortfall counts the input bytes that the sink has in full, tells if one half of a
pair came after them, and brings the first error of the call; it counts all input just if the flush
was all that failed. No write follows a failed call, and the flush, if configured, is made once,
last, and after a failure too. -/
theorem send_outcome {σ : Type} [Sink σ] (w : Writer (Journaled σ)) (data : Bytes) :
    ∃ lines : Journal, (w.send data).2.sink.journal = w.sink.journal ++ lines ∧
      SendOutcome data lines (w.send data).1 ∧
      lines.StopsAtFailure ∧ lines.FlushedAtEnd w.config := by
  obtain ⟨lines, hcalls, hrest⟩ := w.send_calls data
  exact ⟨lines, Journaled.journal_of_calls hcalls, hrest⟩

end TelnetEscape
