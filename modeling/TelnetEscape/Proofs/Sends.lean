import TelnetEscape.Proofs.Front
import TelnetEscape.Proofs.Offers

/-!
# What a blocking send does

A send cuts its data into batches, pushes out one after the other, reports each, and may flush the
sink at the end. `Drains`, `Sends` and `Finishes` say which lines these three parts leave in a
journal for any answers of the sink, and what comes of them.

* `send_sends`: this is what a send does to any sink;
* `Sends.sent`: a send whose writes all work brings the sink all of the escaped data; one whose
  writes fail brings it a front that stands for less than all of the data, and the shortfall tells
  which.
-/

namespace TelnetEscape

/-- The event tells of a torn pair. -/
def Event.isTorn : Event → Bool
  | .failed _ _ tornPair _ => tornPair
  | .drained .. => false

/-- Some event tells of a torn pair. -/
def Journal.torn (lines : Journal) : Bool :=
  lines.events.any Event.isTorn

@[simp] theorem Journal.torn_append (a b : Journal) : torn (a ++ b) = (torn a || torn b) := by
  simp [torn]

/-! ## One batch -/

/-- Handing a batch to the sink: the offers and the event at their end. -/
inductive Drains (bytes : Bytes) (inputs : Nat) : Journal → Except Shortfall Unit → Prop
  | sent {lines : Journal} (offers : Offers bytes lines (.ready (.ok ()))) :
      Drains bytes inputs (lines ++ [.event (.drained bytes.length (some inputs))]) (.ok ())
  | short {lines : Journal} {e : SinkError} {p : Progress}
      (offers : Offers bytes lines (.ready (.error e))) (reached : p = Progress.of lines.taken) :
      Drains bytes inputs
        (lines ++ [.event (.failed (some lines.taken.length) p.inputs p.midPair e)])
        (.error ⟨p.inputs, p.midPair, e⟩)

/-- What the sink has of `data`, and what the journal says, when all writes worked. -/
structure GotThrough (data : Bytes) (lines : Journal) : Prop where
  taken : lines.taken = escape data
  no_failure : lines.failure? = none
  whole : lines.torn = false

/-- What the sink has of `data`, and what the journal says, when a write failed. -/
structure FellShort (data : Bytes) (lines : Journal) (f : Shortfall) : Prop where
  reaches : Progress.Reaches ⟨f.delivered, f.tornPair⟩ data lines.taken
  delivered_lt : f.delivered < data.length
  failure : lines.failure? = some f.cause
  torn : lines.torn = f.tornPair

namespace Drains

variable {bytes data : Bytes} {inputs : Nat} {lines : Journal}

/-- What holds of every event and of every write that offers something holds of all lines. -/
theorem forall_mem {P : Entry → Prop} {answer : Except Shortfall Unit}
    (h : Drains bytes inputs lines answer)
    (hwrite : ∀ offered answer, offered ≠ [] → P (.write offered answer))
    (hevent : ∀ e, P (.event e)) : ∀ line ∈ lines, P line := by
  cases h with
  | sent offers | short offers =>
    exact List.forall_mem_append.mpr
      ⟨offers.forall_mem hwrite, List.forall_mem_singleton.mpr (hevent _)⟩

theorem stopsAtFailure {answer : Except Shortfall Unit} (h : Drains bytes inputs lines answer) :
    lines.StopsAtFailure := by
  cases h with
  | sent offers | short offers =>
    refine offers.stopsAtFailure.append_of_no_write fun e he => ?_
    rw [List.mem_singleton.mp he]
    rfl

theorem gotThrough (h : Drains (escape data) inputs lines (.ok ())) : GotThrough data lines := by
  cases h with
  | sent offers =>
    refine ⟨?_, ?_, ?_⟩
    · rw [Journal.taken_append, offers.taken_eq_iff.mpr rfl]
      exact List.append_nil _
    · rw [Journal.failure?_append, offers.failure?_eq]
      rfl
    · rw [Journal.torn_append, Journal.torn, offers.events_eq_nil]
      rfl

theorem fellShort {f : Shortfall} (h : Drains (escape data) inputs lines (.error f)) :
    FellShort data lines f := by
  cases h with
  | @short lines e p offers reached =>
    subst reached
    have hne : lines.taken ≠ escape data := fun heq => by
      simpa using offers.taken_eq_iff.mp heq
    refine ⟨?_, Progress.of_inputs_lt offers.taken_prefix hne, ?_, ?_⟩
    · rw [Journal.taken_append]
      simpa [Entry.taken] using Progress.of_reaches offers.taken_prefix
    · rw [Journal.failure?_append, offers.failure?_eq]
      rfl
    · rw [Journal.torn_append, Journal.torn, offers.events_eq_nil]
      simp [Journal.torn, Journal.events, Entry.event?, Event.isTorn]

end Drains

/-! ## All batches -/

/-- The answer of a send that counts `before` more input bytes. -/
def countFrom (before : Nat) : Except Shortfall Nat → Except Shortfall Nat
  | .ok n => .ok (before + n)
  | .error f => .error { f with delivered := before + f.delivered }

theorem countFrom_countFrom (a b : Nat) (answer : Except Shortfall Nat) :
    countFrom a (countFrom b answer) = countFrom (a + b) answer := by
  cases answer <;> simp [countFrom, Nat.add_assoc]

theorem countFrom_zero (answer : Except Shortfall Nat) : countFrom 0 answer = answer := by
  cases answer <;> simp [countFrom]

/-- Sending `data` in batches of at most `limit` bytes. Only the first batch may be empty. -/
inductive Sends (limit : Nat) : Bytes → Journal → Except Shortfall Nat → Prop
  | last {data : Bytes} {lines : Journal} (all_fit : data.drop (fit limit data) = [])
      (drains : Drains (escape (data.take (fit limit data))) (fit limit data) lines (.ok ())) :
      Sends limit data lines (.ok (fit limit data))
  | short {data : Bytes} {lines : Journal} {f : Shortfall}
      (drains : Drains (escape (data.take (fit limit data))) (fit limit data) lines (.error f)) :
      Sends limit data lines (.error f)
  | more {data : Bytes} {batch lines : Journal} {answer : Except Shortfall Nat}
      (some_left : data.drop (fit limit data) ≠ [])
      (drains : Drains (escape (data.take (fit limit data))) (fit limit data) batch (.ok ()))
      (rest : Sends limit (data.drop (fit limit data)) lines answer) :
      Sends limit data (batch ++ lines) (countFrom (fit limit data) answer)

namespace Sends

variable {limit : Nat} {data : Bytes} {lines : Journal} {answer : Except Shortfall Nat}

theorem forall_mem {P : Entry → Prop} (h : Sends limit data lines answer)
    (hwrite : ∀ offered answer, offered ≠ [] → P (.write offered answer))
    (hevent : ∀ e, P (.event e)) : ∀ line ∈ lines, P line := by
  induction h with
  | last _ drains | short drains => exact drains.forall_mem hwrite hevent
  | more _ drains _ ih => exact List.forall_mem_append.mpr ⟨drains.forall_mem hwrite hevent, ih⟩

theorem isFlush_eq_false (h : Sends limit data lines answer) : ∀ e ∈ lines, e.isFlush = false :=
  h.forall_mem (fun _ _ _ => rfl) fun _ => rfl

theorem stopsAtFailure (h : Sends limit data lines answer) : lines.StopsAtFailure := by
  induction h with
  | last _ drains | short drains => exact drains.stopsAtFailure
  | more _ drains _ ih => exact ih.append_of_none drains.gotThrough.no_failure

end Sends

/-- What comes of sending `data`, told by the answer. -/
def Sent (data : Bytes) (lines : Journal) : Except Shortfall Nat → Prop
  | .ok n => n = data.length ∧ GotThrough data lines
  | .error f => FellShort data lines f

/-- A first part that got through, and then the rest. -/
theorem Sent.after {data : Bytes} {k : Nat} (hk : k ≤ data.length) {first lines : Journal}
    {answer : Except Shortfall Nat} (hfirst : GotThrough (data.take k) first)
    (h : Sent (data.drop k) lines answer) : Sent data (first ++ lines) (countFrom k answer) := by
  have htaken : (first ++ lines).taken = escape (data.take k) ++ lines.taken := by
    rw [Journal.taken_append, hfirst.taken]
  have hfailure : (first ++ lines).failure? = lines.failure? := by
    rw [Journal.failure?_append, hfirst.no_failure, Option.none_or]
  have htorn : (first ++ lines).torn = lines.torn := by
    rw [Journal.torn_append, hfirst.whole, Bool.false_or]
  cases answer with
  | ok n =>
    obtain ⟨hn, hrest⟩ := h
    refine ⟨?_, ?_, ?_, ?_⟩
    · rw [hn, List.length_drop]
      omega
    · rw [htaken, hrest.taken, ← escape_append, List.take_append_drop]
    · rw [hfailure, hrest.no_failure]
    · rw [htorn, hrest.whole]
  | error f =>
    refine ⟨?_, ?_, ?_, ?_⟩
    · rw [htaken]
      exact h.reaches.after hk
    · have := h.delivered_lt
      rw [List.length_drop] at this
      show k + f.delivered < data.length
      omega
    · rw [hfailure, h.failure]
    · rw [htorn, h.torn]

theorem Sends.sent {limit : Nat} {data : Bytes} {lines : Journal} {answer : Except Shortfall Nat}
    (h : Sends limit data lines answer) : Sent data lines answer := by
  induction h with
  | @last data lines all_fit drains =>
    have hlen : data.length ≤ fit limit data := List.drop_eq_nil_iff.mp all_fit
    rw [List.take_of_length_le hlen] at drains
    exact ⟨Nat.le_antisymm (fit_le_length limit data) hlen, drains.gotThrough⟩
  | @short data lines f drains =>
    have hf := drains.fellShort
    refine ⟨hf.reaches.of_take, ?_, hf.failure, hf.torn⟩
    exact Nat.lt_of_lt_of_le hf.delivered_lt (List.length_take_le' _ _)
  | @more data batch lines answer _ drains _ ih =>
    exact ih.after (fit_le_length limit data) drains.gotThrough

/-! ## The flush at the end -/

/-- Flushing the sink at the end of a send whose batches came to `answer`, if that is configured. -/
inductive Finishes (config : Config) (answer : Except Shortfall Nat) :
    Journal → Except Shortfall Nat → Prop
  | unflushed (off : config.flushSink = false) : Finishes config answer [] answer
  | flushed (on : config.flushSink = true) :
      Finishes config answer [.flush (.ready (.ok ()))] answer
  | flush_failed (on : config.flushSink = true) (e : SinkError) :
      Finishes config answer [.flush (.ready (.error e))]
        (answer.bind fun n => .error ⟨n, false, e⟩)

namespace Finishes

variable {config : Config} {batches answer : Except Shortfall Nat} {lines : Journal}

theorem isFlush (h : Finishes config batches lines answer) : ∀ e ∈ lines, e.isFlush = true := by
  cases h <;> simp [Entry.isFlush]

theorem length_eq (h : Finishes config batches lines answer) :
    lines.length = if config.flushSink then 1 else 0 := by
  cases h <;> simp [*]

end Finishes

/-! ## What the writer does -/

namespace Writer

variable {σ : Type} [Sink σ]

theorem drain_drains (w : Writer σ) (inputs : Nat) (hsent : w.stage.sent = 0) :
    ∃ lines, Calls Sink.Step w.sink lines (w.drain inputs).2.sink ∧
      Drains w.stage.bytes inputs lines (w.drain inputs).1 ∧
      (w.drain inputs).2.config = w.config := by
  obtain ⟨lines, hcalls, hoffers, hw⟩ := w.push_offers
  have hunsent : w.stage.unsent = w.stage.bytes := by rw [Stage.unsent, hsent, List.drop_zero]
  have htaken : w.stage.taken = [] := by rw [Stage.taken, hsent, List.take_zero]
  have hfront : lines.taken <+: w.stage.unsent := hoffers.taken_prefix
  have hsent' : w.push.2.stage.sent = lines.taken.length := by
    rw [hw, afterOffers, stage_advance, Stage.sent_advance_length hfront, hsent, Nat.zero_add]
  have htaken' : w.push.2.stage.taken = lines.taken := by
    rw [hw, afterOffers, stage_advance, Stage.taken_advance_length hfront, htaken, List.nil_append]
  have hconfig : w.push.2.config = w.config := by rw [hw]; rfl
  rw [hunsent] at hoffers
  rw [drain]
  generalize w.push = pushed at *
  obtain ⟨answer, w'⟩ := pushed
  cases answer with
  | ok _ =>
    have hall := hoffers.taken_eq_iff.mpr rfl
    refine ⟨_, hcalls.append (.observe _ _), ?_, hconfig⟩
    rw [hsent', hall]
    exact .sent hoffers
  | error e =>
    refine ⟨_, hcalls.append (.observe _ _), ?_, hconfig⟩
    rw [hsent']
    exact .short hoffers (by rw [Stage.progress, htaken'])

theorem sendBatches_sends (w : Writer σ) (before : Nat) (data : Bytes) :
    ∃ lines answer, Calls Sink.Step w.sink lines (w.sendBatches before data).2.sink ∧
      Sends w.config.stageLimit data lines answer ∧
      (w.sendBatches before data).1 = countFrom before answer ∧
      (w.sendBatches before data).2.config = w.config := by
  induction w, before, data using sendBatches.induct with
  | case1 w before data f w' hdrain =>
    obtain ⟨lines, hcalls, hdrains, hconfig⟩ :=
      (w.startBatch data).drain_drains (w.batchSize data) rfl
    rw [hdrain] at hcalls hdrains hconfig
    rw [bytes_startBatch, batchSize_eq] at hdrains
    rw [sendBatches, hdrain]
    exact ⟨lines, .error f, hcalls, .short hdrains, rfl, hconfig⟩
  | case2 w before data w' hdrain hall =>
    obtain ⟨lines, hcalls, hdrains, hconfig⟩ :=
      (w.startBatch data).drain_drains (w.batchSize data) rfl
    rw [hdrain] at hcalls hdrains hconfig
    rw [bytes_startBatch, batchSize_eq] at hdrains
    rw [sendBatches, hdrain]
    dsimp only
    rw [if_pos hall]
    rw [batchSize_eq] at hall ⊢
    exact ⟨lines, .ok _, hcalls, .last hall hdrains, rfl, hconfig⟩
  | case3 w before data w' hdrain hleft ih =>
    obtain ⟨batch, hcalls, hdrains, hconfig⟩ :=
      (w.startBatch data).drain_drains (w.batchSize data) rfl
    rw [hdrain] at hcalls hdrains hconfig
    rw [bytes_startBatch, batchSize_eq] at hdrains
    obtain ⟨lines, answer, hrest, hsends, hanswer, hconfig'⟩ := ih
    rw [show w'.config = w.config from hconfig] at hsends hconfig'
    rw [sendBatches, hdrain]
    dsimp only
    rw [if_neg hleft]
    rw [batchSize_eq] at hleft hrest hsends hanswer hconfig' ⊢
    refine ⟨batch ++ lines, _, hcalls.append hrest, .more hleft hdrains hsends, ?_, hconfig'⟩
    rw [hanswer, countFrom_countFrom]

theorem endFlush_finishes (w : Writer σ) (answer : Except Shortfall Nat)
    (on : w.config.flushSink = true) :
    ∃ flushes, Calls Sink.Step w.sink flushes (w.endFlush answer).2.sink ∧
      Finishes w.config answer flushes (w.endFlush answer).1 := by
  rw [endFlush, flush, onSink]
  cases hflush : Sink.flush w.sink with
  | mk result s =>
    have hcalls : Calls Sink.Step w.sink [.flush (.ready result)] s := .single hflush
    cases result with
    | ok _ => exact ⟨_, hcalls, .flushed on⟩
    | error e => exact ⟨_, hcalls, .flush_failed on e⟩

/-- A send hands over its data in batches and then flushes the sink if that is configured. -/
theorem send_sends (w : Writer σ) (data : Bytes) :
    ∃ lines flushes batches, Calls Sink.Step w.sink (lines ++ flushes) (w.send data).2.sink ∧
      Sends w.config.stageLimit data lines batches ∧
      Finishes w.config batches flushes (w.send data).1 := by
  obtain ⟨lines, batches, hcalls, hsends, hanswer, hconfig⟩ := w.sendBatches_sends 0 data
  rw [countFrom_zero] at hanswer
  rw [send]
  generalize w.sendBatches 0 data = sent at *
  obtain ⟨answer, w'⟩ := sent
  subst hanswer
  dsimp only at hconfig hcalls ⊢
  rw [hconfig]
  by_cases hflush : w.config.flushSink = true
  · obtain ⟨flushes, hflushes, hfinishes⟩ := w'.endFlush_finishes answer (hconfig ▸ hflush)
    rw [hconfig] at hfinishes
    rw [if_pos hflush]
    exact ⟨lines, flushes, answer, hcalls.append hflushes, hsends, hfinishes⟩
  · rw [if_neg hflush]
    refine ⟨lines, [], answer, ?_, hsends, .unflushed (by simpa using hflush)⟩
    rwa [List.append_nil]

/-! ## What a send leaves -/

theorem stage_drain (w : Writer σ) (inputs : Nat) : (w.drain inputs).2.stage = {} := by
  unfold drain
  split <;> rfl

theorem stage_sendBatches (w : Writer σ) (delivered : Nat) (data : Bytes) :
    (w.sendBatches delivered data).2.stage = {} := by
  induction w, delivered, data using sendBatches.induct with
  | case1 w delivered data f w' hdrain =>
    have hstage := (w.startBatch data).stage_drain (w.batchSize data)
    rw [hdrain] at hstage
    rw [sendBatches, hdrain]
    exact hstage
  | case2 w delivered data w' hdrain hall =>
    have hstage := (w.startBatch data).stage_drain (w.batchSize data)
    rw [hdrain] at hstage
    rw [sendBatches, hdrain]
    dsimp only
    rw [if_pos hall]
    exact hstage
  | case3 w delivered data w' hdrain hleft ih =>
    rw [sendBatches, hdrain]
    dsimp only
    rw [if_neg hleft]
    exact ih

theorem endFlush_keeps (w : Writer σ) (answer : Except Shortfall Nat) :
    (w.endFlush answer).2.config = w.config ∧ (w.endFlush answer).2.stage = w.stage := by
  rw [endFlush, flush, onSink]
  rcases Sink.flush w.sink with ⟨_ | _, s⟩ <;> exact ⟨rfl, rfl⟩

/-- A blocking send keeps the configuration and leaves nothing staged. -/
theorem send_leaves (w : Writer σ) (data : Bytes) :
    (w.send data).2.config = w.config ∧ (w.send data).2.stage = {} := by
  obtain ⟨_, _, _, _, _, hconfig⟩ := w.sendBatches_sends 0 data
  have hstage := w.stage_sendBatches 0 data
  rw [send]
  generalize w.sendBatches 0 data = sent at *
  obtain ⟨answer, w'⟩ := sent
  obtain ⟨hconfig', hstage'⟩ := w'.endFlush_keeps answer
  dsimp only at hconfig hstage ⊢
  split
  · exact ⟨hconfig'.trans hconfig, hstage'.trans hstage⟩
  · exact ⟨hconfig, hstage⟩

end Writer
end TelnetEscape
