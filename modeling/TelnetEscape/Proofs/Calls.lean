import TelnetEscape.Sink.Journal

/-!
# Calls on a sink

`Calls step s lines s'` says that the calls and events of `lines`, made in this order on a sink in
state `s`, get the answers that are written there and leave the sink in state `s'`. It tells what a
writer does to any sink, one that is itself a writer included, in the words of a journal; a sink
that keeps a journal has then recorded just these lines (`journal_of_calls`,
`journal_of_asyncCalls`).
-/

namespace TelnetEscape

/-- From `s`, the calls and events of a journal lead one after the other to a last state. -/
inductive Calls {σ : Type} (step : σ → Entry → σ → Prop) : σ → Journal → σ → Prop
  | nil (s : σ) : Calls step s [] s
  | cons {s s' s'' : σ} {e : Entry} {lines : Journal} (first : step s e s')
      (rest : Calls step s' lines s'') : Calls step s (e :: lines) s''

/-- A call on a sink with the answer that it gets, or an event that it is told of. -/
def Sink.Step {σ : Type} [Sink σ] (s : σ) : Entry → σ → Prop
  | .write offered (.ready answer), s' => Sink.write s offered = (answer, s')
  | .flush (.ready answer), s' => Sink.flush s = (answer, s')
  | .event e, s' => Observer.observe s e = s'
  | _, _ => False

/-- The same for a polled sink. -/
def AsyncSink.Step {σ : Type} [AsyncSink σ] (s : σ) : Entry → σ → Prop
  | .write offered answer, s' => AsyncSink.pollWrite s offered = (answer, s')
  | .flush answer, s' => AsyncSink.pollFlush s = (answer, s')
  | .shutdown answer, s' => AsyncSink.pollShutdown s = (answer, s')
  | .event e, s' => Observer.observe s e = s'

namespace Calls

variable {σ : Type} {step : σ → Entry → σ → Prop} {s s' s'' : σ} {lines more : Journal}

theorem single {e : Entry} (h : step s e s') : Calls step s [e] s' :=
  .cons h (.nil s')

theorem step_of_single {e : Entry} (h : Calls step s [e] s') : step s e s' := by
  cases h with
  | cons first rest =>
    cases rest
    exact first

theorem append (h : Calls step s lines s') (h' : Calls step s' more s'') :
    Calls step s (lines ++ more) s'' := by
  induction h with
  | nil => exact h'
  | cons first _ ih => exact .cons first (ih h')

theorem of_append (h : Calls step s (lines ++ more) s'') :
    ∃ s', Calls step s lines s' ∧ Calls step s' more s'' := by
  induction lines generalizing s with
  | nil => exact ⟨s, .nil s, h⟩
  | cons e lines ih =>
    cases h with
    | cons first rest =>
      obtain ⟨s', hlines, hmore⟩ := ih rest
      exact ⟨s', .cons first hlines, hmore⟩

theorem observe [Sink σ] (s : σ) (e : Event) :
    Calls Sink.Step s [.event e] (Observer.observe s e) :=
  single rfl

theorem asyncObserve [AsyncSink σ] (s : σ) (e : Event) :
    Calls AsyncSink.Step s [.event e] (Observer.observe s e) :=
  single rfl

end Calls

/-! ## Journals record the calls -/

variable {σ : Type} {j j' : Journaled σ} {lines : Journal}

theorem Journaled.journal_of_step [Sink σ] {e : Entry} (h : Sink.Step j e j') :
    j'.journal = j.journal ++ [e] := by
  match e, h with
  | .write offered (.ready answer), h =>
    simp only [Sink.Step, write_eq, Prod.mk.injEq] at h
    obtain ⟨rfl, rfl⟩ := h
    rw [journal_record]
  | .flush (.ready answer), h =>
    simp only [Sink.Step, flush_eq, Prod.mk.injEq] at h
    obtain ⟨rfl, rfl⟩ := h
    rw [journal_record]
  | .event e, h =>
    simp only [Sink.Step, observe_eq] at h
    rw [← h, journal_record]

theorem Journaled.journal_of_asyncStep [AsyncSink σ] {e : Entry} (h : AsyncSink.Step j e j') :
    j'.journal = j.journal ++ [e] := by
  cases e with
  | write offered answer =>
    simp only [AsyncSink.Step, pollWrite_eq, Prod.mk.injEq] at h
    obtain ⟨rfl, rfl⟩ := h
    rw [journal_record]
  | flush answer =>
    simp only [AsyncSink.Step, pollFlush_eq, Prod.mk.injEq] at h
    obtain ⟨rfl, rfl⟩ := h
    rw [journal_record]
  | shutdown answer =>
    simp only [AsyncSink.Step, pollShutdown_eq, Prod.mk.injEq] at h
    obtain ⟨rfl, rfl⟩ := h
    rw [journal_record]
  | event e =>
    simp only [AsyncSink.Step, observe_eq] at h
    rw [← h, journal_record]

/-- If every step of a journaled sink writes down its line, then calls write down theirs. -/
theorem Journaled.journal_of_recorded {step : Journaled σ → Entry → Journaled σ → Prop}
    (hstep : ∀ {j j' : Journaled σ} {e : Entry}, step j e j' → j'.journal = j.journal ++ [e])
    (h : Calls step j lines j') : j'.journal = j.journal ++ lines := by
  induction h with
  | nil => rw [List.append_nil]
  | cons first _ ih => rw [ih, hstep first, List.append_assoc, List.singleton_append]

theorem Journaled.journal_of_calls [Sink σ] (h : Calls Sink.Step j lines j') :
    j'.journal = j.journal ++ lines :=
  journal_of_recorded journal_of_step h

theorem Journaled.journal_of_asyncCalls [AsyncSink σ] (h : Calls AsyncSink.Step j lines j') :
    j'.journal = j.journal ++ lines :=
  journal_of_recorded journal_of_asyncStep h

/-! ## Journals in parts -/

namespace Journal

@[simp] theorem events_append (a b : Journal) : events (a ++ b) = events a ++ events b :=
  List.filterMap_append

@[simp] theorem flushes_append (a b : Journal) : flushes (a ++ b) = flushes a + flushes b :=
  List.countP_append

end Journal
end TelnetEscape
