import TelnetEscape.Proofs.Offers

/-!
# Sinks that keep their callers waiting

A blocking sink can be polled: some polls are pending, and the others get its answers. `Delayed` is
such a sink with any finite number of pending polls, anywhere between the answered ones. What its
callers see, without the pending polls, is what they would see of the sink itself
(`Delayed.calls_answered`). That holds of a sink that takes no notice of events, which differ with
the kind of writer.
-/

namespace TelnetEscape

/-! ## Answered calls -/

/-- A write or a flush that was answered. -/
def Entry.isAnswered (e : Entry) : Bool :=
  (e.isWrite || e.isFlush) && !e.isPending

/-- The writes and flushes that were answered, without the calls that were pending. -/
def Journal.answered (lines : Journal) : Journal :=
  lines.filter Entry.isAnswered

namespace Journal

@[simp] theorem answered_nil : answered [] = [] := rfl

@[simp] theorem answered_append (a b : Journal) : answered (a ++ b) = answered a ++ answered b :=
  List.filter_append ..

@[simp] theorem answered_event (e : Event) : answered [.event e] = [] := rfl

theorem answered_cons_of_pos {e : Entry} (h : e.isAnswered = true) (lines : Journal) :
    answered (e :: lines) = e :: answered lines :=
  List.filter_cons_of_pos h

theorem answered_cons_of_neg {e : Entry} (h : e.isAnswered = false) (lines : Journal) :
    answered (e :: lines) = answered lines :=
  List.filter_cons_of_neg (by simp [h])

/-- Lines that take no bytes may be left out. -/
theorem taken_filter {p : Entry → Bool} (h : ∀ e, p e = false → e.taken = []) (lines : Journal) :
    Journal.taken (lines.filter p) = lines.taken := by
  induction lines with
  | nil => rfl
  | cons e lines ih =>
    cases he : p e with
    | true => rw [List.filter_cons_of_pos he, taken_cons, taken_cons, ih]
    | false =>
      rw [List.filter_cons_of_neg (by simp [he]), taken_cons, h e he, ih, List.nil_append]

/-- Only answered calls take bytes. -/
theorem taken_answered (lines : Journal) : lines.answered.taken = lines.taken := by
  refine taken_filter (fun e he => ?_) lines
  match e, he with
  | .write _ .pending, _ | .flush _, _ | .shutdown _, _ | .event _, _ => rfl

end Journal

/-- The sink takes no notice of events. -/
def Observer.Deaf (σ : Type) [Observer σ] : Prop :=
  ∀ (s : σ) (e : Event), Observer.observe s e = s

/-- A blocking sink that takes no notice of events is left as it is by what is not answered. -/
theorem Sink.calls_answered {σ : Type} [Sink σ] (deaf : Observer.Deaf σ) {s s' : σ}
    {lines : Journal} (h : Calls Sink.Step s lines s') : Calls Sink.Step s lines.answered s' := by
  induction h with
  | nil => exact .nil _
  | @cons s s' s'' e lines first _ ih =>
    match e, first with
    | .write offered (.ready answer), first =>
      rw [Journal.answered_cons_of_pos rfl]
      exact .cons first ih
    | .flush (.ready answer), first =>
      rw [Journal.answered_cons_of_pos rfl]
      exact .cons first ih
    | .event e, first =>
      have hobserve : s' = Observer.observe s e := Eq.symm first
      rw [deaf] at hobserve
      rw [Journal.answered_cons_of_neg rfl, ← hobserve]
      exact ih

/-! ## Delayed sinks -/

/-- A blocking sink that is polled. Each poll uses up one of the delays and is pending if that is
`true`; when there are none left, every poll is answered. -/
structure Delayed (σ : Type) where
  sink : σ
  delays : List Bool := []

namespace Delayed

variable {σ α : Type}

/-- One poll of a call. -/
def poll (d : Delayed σ) (call : σ → α × σ) : Poll α × Delayed σ :=
  if d.delays.head? = some true then (.pending, { d with delays := d.delays.tail })
  else (.ready (call d.sink).1, { sink := (call d.sink).2, delays := d.delays.tail })

instance [Sink σ] : AsyncSink (Delayed σ) where
  observe d e := { d with sink := Observer.observe d.sink e }
  pollWrite d offered := d.poll (Sink.write · offered)
  pollFlush d := d.poll Sink.flush
  pollShutdown d := (.ready (.ok ()), d)

theorem poll_pending {d d' : Delayed σ} {call : σ → α × σ} (h : d.poll call = (.pending, d')) :
    d'.sink = d.sink ∧ d'.delays.length + 1 = d.delays.length := by
  rw [poll] at h
  split at h
  · rename_i hhead
    obtain ⟨delays, hdelays⟩ := List.head?_eq_some_iff.mp hhead
    obtain ⟨-, rfl⟩ := Prod.mk.inj h
    exact ⟨rfl, by rw [hdelays]; rfl⟩
  · cases h

theorem poll_ready {d d' : Delayed σ} {call : σ → α × σ} {answer : α}
    (h : d.poll call = (.ready answer, d')) :
    call d.sink = (answer, d'.sink) ∧ d'.delays.length ≤ d.delays.length := by
  rw [poll] at h
  split at h
  · cases h
  · obtain ⟨hanswer, rfl⟩ := Prod.mk.inj h
    refine ⟨Prod.ext (Poll.ready.inj hanswer) rfl, ?_⟩
    rw [List.length_tail]
    omega

variable [Sink σ]

/-- One call, seen by the sink inside: if it is pending, nothing happens. -/
theorem step_answered (deaf : Observer.Deaf σ) {d d' : Delayed σ} {e : Entry}
    (h : AsyncSink.Step d e d') : Calls Sink.Step d.sink (Journal.answered [e]) d'.sink := by
  cases e with
  | write offered answer =>
    have hpoll : d.poll (Sink.write · offered) = (answer, d') := h
    cases answer with
    | pending =>
      rw [← (poll_pending hpoll).1]
      exact .nil _
    | ready answer => exact .single (poll_ready hpoll).1
  | flush answer =>
    have hpoll : d.poll Sink.flush = (answer, d') := h
    cases answer with
    | pending =>
      rw [← (poll_pending hpoll).1]
      exact .nil _
    | ready answer => exact .single (poll_ready hpoll).1
  | shutdown answer =>
    obtain ⟨-, rfl⟩ := Prod.mk.inj h
    exact .nil _
  | event ev =>
    have hobserve : d' = { d with sink := Observer.observe d.sink ev } := h.symm
    rw [hobserve, deaf]
    exact .nil _

theorem calls_answered (deaf : Observer.Deaf σ) {d d' : Delayed σ} {lines : Journal}
    (h : Calls AsyncSink.Step d lines d') : Calls Sink.Step d.sink lines.answered d'.sink := by
  induction h with
  | nil => exact .nil _
  | @cons _ _ _ e lines first _ ih =>
    have happend := Journal.answered_append [e] lines
    rw [List.singleton_append] at happend
    rw [happend]
    exact (step_answered deaf first).append ih

/-- Every pending call uses up a delay. -/
theorem step_delays {d d' : Delayed σ} {e : Entry} (h : AsyncSink.Step d e d') :
    d'.delays.length + [e].countP Entry.isPending ≤ d.delays.length := by
  cases e with
  | write offered answer =>
    have hpoll : d.poll (Sink.write · offered) = (answer, d') := h
    cases answer with
    | pending => exact Nat.le_of_eq (poll_pending hpoll).2
    | ready answer => exact (poll_ready hpoll).2
  | flush answer =>
    have hpoll : d.poll Sink.flush = (answer, d') := h
    cases answer with
    | pending => exact Nat.le_of_eq (poll_pending hpoll).2
    | ready answer => exact (poll_ready hpoll).2
  | shutdown answer =>
    obtain ⟨rfl, rfl⟩ := Prod.mk.inj h
    exact Nat.le_refl _
  | event ev =>
    have hobserve : d' = { d with sink := Observer.observe d.sink ev } := h.symm
    rw [hobserve]
    exact Nat.le_refl _

theorem calls_delays {d d' : Delayed σ} {lines : Journal} (h : Calls AsyncSink.Step d lines d') :
    d'.delays.length + lines.countP Entry.isPending ≤ d.delays.length := by
  induction h with
  | nil => exact Nat.le_refl _
  | @cons _ _ _ e lines first _ ih =>
    have hfirst := step_delays first
    have happend : (e :: lines).countP Entry.isPending =
        [e].countP Entry.isPending + lines.countP Entry.isPending :=
      @List.countP_append _ _ [e] lines
    omega

end Delayed

/-! ## Sinks without their journals -/

/-- The calls on a sink that keeps a journal are calls on the sink inside. -/
theorem Journaled.sink_calls {σ : Type} {outer : Journaled σ → Entry → Journaled σ → Prop}
    {inner : σ → Entry → σ → Prop}
    (hstep : ∀ {j j' : Journaled σ} {e : Entry}, outer j e j' → inner j.sink e j'.sink)
    {j j' : Journaled σ} {lines : Journal} (h : Calls outer j lines j') :
    Calls inner j.sink lines j'.sink := by
  induction h with
  | nil => exact .nil _
  | cons first _ ih => exact .cons (hstep first) ih

theorem Journaled.sink_step {σ : Type} [Sink σ] {j j' : Journaled σ} {e : Entry}
    (h : Sink.Step j e j') : Sink.Step j.sink e j'.sink := by
  match e, h with
  | .write offered (.ready answer), h =>
    obtain ⟨hanswer, rfl⟩ := Prod.mk.inj h
    exact Prod.ext hanswer rfl
  | .flush (.ready answer), h =>
    obtain ⟨hanswer, rfl⟩ := Prod.mk.inj h
    exact Prod.ext hanswer rfl
  | .event e, h =>
    obtain rfl : Observer.observe j e = j' := h
    rfl

theorem Journaled.sink_asyncStep {σ : Type} [AsyncSink σ] {j j' : Journaled σ} {e : Entry}
    (h : AsyncSink.Step j e j') : AsyncSink.Step j.sink e j'.sink := by
  cases e with
  | write offered answer =>
    obtain ⟨hanswer, rfl⟩ := Prod.mk.inj h
    exact Prod.ext hanswer rfl
  | flush answer =>
    obtain ⟨hanswer, rfl⟩ := Prod.mk.inj h
    exact Prod.ext hanswer rfl
  | shutdown answer =>
    obtain ⟨hanswer, rfl⟩ := Prod.mk.inj h
    exact Prod.ext hanswer rfl
  | event e =>
    obtain rfl : Observer.observe j e = j' := h
    rfl

end TelnetEscape
