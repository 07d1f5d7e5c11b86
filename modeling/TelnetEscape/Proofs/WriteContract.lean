import TelnetEscape.Proofs.WriteAll
import TelnetEscape.Sink.Nonblocking
import TelnetEscape.Sink.Script

/-!
# The contract of one write

A plain write can answer with a count or with an error, not with both, and its callers may try again
after an interruption. A send that fell short has both to tell. `WriteContract` says what its caller
still learns from the answer of the write: a count is exactly what the sink has, an error means that
the sink has nothing or is left with half a pair, and the error is the first one of the call, unless
trying again after it would send half a pair twice.

It holds for every configuration, all data and every sink, and in whatever state the writer was
before (`write_contract`).
-/

namespace TelnetEscape

/-- What the error of a write of `data` tells of its calls. -/
inductive WriteError (data : Bytes) (lines : Journal) : SinkError → Prop
  /-- The sink took nothing, and the error is that of the first call that failed. -/
  | nothing {e : SinkError} (failure : lines.failure? = some e) (taken : lines.taken = []) :
      WriteError data lines e
  /-- The sink is left with half of the pair of an IAC. The error is still that of the first call
  that failed, because callers do not try again after it. -/
  | torn {e : SinkError} {a : Nat} (failure : lines.failure? = some e)
      (final : e.kind ≠ .interrupted) (iac_at : data[a]? = some iac)
      (taken : lines.taken = escape (data.take a) ++ [iac]) : WriteError data lines e
  /-- The same after an interruption: the error is one of kind `other` around the shortfall. -/
  | torn_by_interruption {cause : SinkError} {a : Nat} (failure : lines.failure? = some cause)
      (kind_eq : cause.kind = .interrupted) (iac_at : data[a]? = some iac)
      (taken : lines.taken = escape (data.take a) ++ [iac]) :
      WriteError data lines (.shortfall a true cause)

/-- What the answer of a write of `data` tells of its calls. -/
def WriteContract (data : Bytes) (lines : Journal) : Except SinkError Nat → Prop
  | .ok n => n ≤ data.length ∧ (data ≠ [] → 0 < n) ∧ lines.taken = escape (data.take n)
  | .error e => WriteError data lines e ∧ (e.kind = .interrupted → lines.taken = [])

variable {data : Bytes} {lines : Journal}

theorem WriteError.taken_of_interrupted {e : SinkError} (h : WriteError data lines e)
    (hkind : e.kind = .interrupted) : lines.taken = [] := by
  cases h with
  | nothing _ taken => exact taken
  | torn _ final => exact absurd hkind final
  | torn_by_interruption => cases hkind

/-- The error, if there is one, is what the shortfall makes of the first error of the send. -/
theorem SendFailed.writeError {f : Shortfall} {e : SinkError} (h : SendFailed data lines f)
    (he : f.toWriteAnswer = .error e) : WriteError data lines e := by
  have htaken := h.reaches.output_eq
  have hanswers := f.answersWrite_toWriteAnswer
  rw [he] at hanswers
  cases hanswers with
  | nothing none_delivered whole =>
    apply WriteError.nothing h.failure
    rw [htaken, none_delivered, whole]
    rfl
  | torn torn final =>
    rw [torn, halfPair_true] at htaken
    exact .torn h.failure final (h.reaches.iac_at torn) htaken
  | wrapped torn kind_eq =>
    rw [torn, halfPair_true] at htaken
    exact .torn_by_interruption h.failure kind_eq (h.reaches.iac_at torn) htaken

theorem SendOutcome.writeContract {answer : Except Shortfall Nat}
    (h : SendOutcome data lines answer) : WriteContract data lines (writeAnswer answer) := by
  have houtcome := h.writeOutcome
  cases hanswer : writeAnswer answer with
  | ok n =>
    rw [hanswer] at houtcome
    cases houtcome with
    | took n_le some_taken taken => exact ⟨n_le, some_taken, taken⟩
  | error e =>
    cases answer with
    | ok n => cases hanswer
    | error f =>
      have hfailed : SendFailed data lines f := h
      have he := hfailed.writeError hanswer
      exact ⟨he, he.taken_of_interrupted⟩

/-- **The contract of one write.** A count of `n` means that the sink took the escaped form of the
first `n` bytes, some of any data that there is. An error means that it took nothing, or the escaped
form of a front and half of the pair that comes next; nothing, if the error is an interruption. The
error is that of the first call that failed, or, where an interruption tore a pair, one of kind
`other` around the shortfall that counts the front. -/
theorem write_contract {σ : Type} [Sink σ] (w : Writer (Journaled σ)) (data : Bytes) :
    ∃ lines : Journal, (w.write data).2.sink.journal = w.sink.journal ++ lines ∧
      WriteContract data lines (w.write data).1 := by
  obtain ⟨lines, hcalls, houtcome, -, -⟩ := w.send_calls data
  rw [Writer.write_eq]
  exact ⟨lines, Journaled.journal_of_calls hcalls, houtcome.writeContract⟩

/-- A first batch gets through and an interruption tears the pair of the second: callers that try
again after interruptions must not take it for one. -/
example :
    let w : Writer (Journaled (Nonblocking ScriptedSink)) :=
      { sink := { sink := { sink := { script :=
          { writes := { steps := [.take none, .take (some 1), .fail (.plain .interrupted)] } } } } }
        config := { capacity := 2 } }
    (w.write [7, 8, 255]).1 = .error (.shortfall 2 true (.plain .interrupted)) ∧
    (w.write [7, 8, 255]).2.sink.journal.taken = [7, 8, 255] := by
  cbv

end TelnetEscape
