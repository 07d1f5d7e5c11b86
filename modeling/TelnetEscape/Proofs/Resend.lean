import Mathlib.Data.List.Permutation
import TelnetEscape.Proofs.PolledSendOutcome
import TelnetEscape.Proofs.SendOutcome
import TelnetEscape.Sink.Nonblocking

/-!
# Sending on after a failure

A caller whose send falls short may send again what is left of its data, from the count that the
shortfall brings. `Resends` is any number of such tries, by either way of sending; nothing is
assumed of what made them fail. As long as no pair is torn, the sink has each byte once when all is
through, in order, and behind it nothing but what was staged before the first try
(`Resends.taken_eq`). After a torn pair there is no such way on, and no other: half a pair leaves
the sink with an odd number of IACs, and whatever is escaped adds an even one.
-/

namespace TelnetEscape

/-! ## Half a pair cannot be made good -/

theorem count_iac_escape (data : Bytes) : (escape data).count iac = 2 * data.count iac := by
  induction data with
  | nil => rfl
  | cons b data ih =>
    rw [escape_cons, List.count_append, ih]
    by_cases h : b = iac
    · have hb : (escapeByte b).count iac = 2 := by
        rw [escapeByte, if_pos h]
        rfl
      rw [hb, h, List.count_cons_self]
      omega
    · have hb : (escapeByte b).count iac = 0 := by
        rw [escapeByte, if_neg h, List.count_cons_of_ne h]
        rfl
      rw [hb, List.count_cons_of_ne h]
      omega

theorem Progress.Reaches.count_iac {p : Progress} {data output : Bytes}
    (h : p.Reaches data output) :
    output.count iac = 2 * (data.take p.inputs).count iac + p.midPair.toNat := by
  rw [h.output_eq, List.count_append, count_iac_escape]
  cases p.midPair <;> rfl

theorem Progress.Reaches.append_escape_ne {p : Progress} {data output : Bytes}
    (h : p.Reaches data output) (hmid : p.midPair = true) (more : Bytes) :
    output ++ escape more ≠ escape data := by
  intro heq
  have hcount := congrArg (List.count iac) heq
  rw [List.count_append, h.count_iac, hmid, count_iac_escape, count_iac_escape] at hcount
  simp only [Bool.toNat_true] at hcount
  omega

/-! ## Tries -/

/-- A way of sending: the writer before, the data, the answer and the writer afterwards. -/
abbrev Way (σ : Type) :=
  Writer (Journaled σ) → Bytes → Except Shortfall Nat → Writer (Journaled σ) → Prop

/-- Sending at once. -/
def blockingWay (σ : Type) [Sink σ] : Way σ :=
  fun w data answer w' => w.send data = (answer, w')

/-- Polling a send until it has its answer. -/
def polledWay (σ : Type) [AsyncSink σ] : Way σ :=
  fun w data answer w' => ∃ polls, w.sendPolled polls data = (some answer, w')

/-- The last of the calls is a flush that failed, and no call failed before it. -/
def Journal.FlushFailed (lines : Journal) (e : SinkError) : Prop :=
  ∃ before : Journal, before.failure? = none ∧ lines = before ++ [.flush (.ready (.error e))]

theorem Journal.WriteFailed.not_flushFailed {lines : Journal} (h : lines.WriteFailed)
    (e : SinkError) : ¬ lines.FlushFailed e := by
  rintro ⟨before, hbefore, rfl⟩
  obtain ⟨line, hmem, hwrite, hfails⟩ := h
  rcases List.mem_append.mp hmem with hmem | hmem
  · exact hfails (Journal.entry_failure?_eq_none hbefore hmem)
  · rw [List.mem_singleton.mp hmem] at hwrite
    cases hwrite

/-- Sending `data` and, after each shortfall that tore no pair, what is left of it, up to a try that
succeeds or in which nothing failed but the flush at the end. -/
inductive Resends {σ : Type} (way : Way σ) :
    Writer (Journaled σ) → Bytes → Writer (Journaled σ) → Prop
  | through {w w' : Writer (Journaled σ)} {data : Bytes} {n : Nat}
      (sent : way w data (.ok n) w') : Resends way w data w'
  | unflushed {w w' : Writer (Journaled σ)} {data : Bytes} {f : Shortfall} {lines : Journal}
      (sent : way w data (.error f) w') (calls : w'.sink.journal = w.sink.journal ++ lines)
      (flush_failed : lines.FlushFailed f.cause) : Resends way w data w'
  | again {w w' w'' : Writer (Journaled σ)} {data : Bytes} {f : Shortfall}
      (sent : way w data (.error f) w') (whole : f.tornPair = false)
      (rest : Resends way w' (data.drop f.delivered) w'') : Resends way w data w''

/-- What one try does by its calls, told by the answer. The sink is owed the bytes `owed` from
before the try, and `owing` after it. -/
inductive Tried (data owed owing : Bytes) (lines : Journal) : Except Shortfall Nat → Prop
  | through {n : Nat} (taken : lines.taken = owed ++ escape data) :
      Tried data owed owing lines (.ok n)
  | unflushed {f : Shortfall} (whole : f.tornPair = false) (all : f.delivered = data.length)
      (nothing_owing : owing = []) (taken : lines.taken = owed ++ escape data) :
      Tried data owed owing lines (.error f)
  | short {f : Shortfall} (whole : f.tornPair = false) (le : f.delivered ≤ data.length)
      (taken : lines.taken ++ owing = owed ++ escape (data.take f.delivered))
      (not_flush : ¬ lines.FlushFailed f.cause) : Tried data owed owing lines (.error f)
  | torn {f : Shortfall} {part : Bytes} (torn : f.tornPair = true)
      (taken : lines.taken = owed ++ part)
      (reaches : Progress.Reaches ⟨f.delivered, f.tornPair⟩ data part)
      (not_flush : ¬ lines.FlushFailed f.cause) : Tried data owed owing lines (.error f)

/-- Every try of a way leaves its calls in the journal and does what the answer tells. -/
def Way.Tells {σ : Type} (way : Way σ) (owed : Writer (Journaled σ) → Bytes) : Prop :=
  ∀ w data answer w', way w data answer w' →
    ∃ lines, w'.sink.journal = w.sink.journal ++ lines ∧ Tried data (owed w) (owed w') lines answer

theorem SendFailed.tried {data : Bytes} {lines : Journal} {f : Shortfall}
    (h : SendFailed data lines f) : Tried data [] [] lines (.error f) := by
  have hflush : f.delivered = data.length ↔ lines.FlushFailed f.cause := h.all_delivered_iff
  cases htorn : f.tornPair with
  | true =>
    have hlt : f.delivered < data.length := h.reaches.lt_of_midPair htorn
    exact .torn htorn rfl h.reaches (mt hflush.mpr (Nat.ne_of_lt hlt))
  | false =>
    by_cases hall : f.delivered = data.length
    · exact .unflushed htorn hall rfl (h.reaches.output_eq_escape hall)
    · have htaken := h.reaches.output_eq
      rw [htorn] at htaken
      exact .short htorn h.reaches.inputs_le ((List.append_nil _).trans (htaken.trans
        (List.append_nil _))) (mt hflush.mpr hall)

theorem blockingWay_tells {σ : Type} [Sink σ] : (blockingWay σ).Tells fun _ => [] := by
  intro w data answer w' hsent
  have hsent : w.send data = (answer, w') := hsent
  obtain ⟨lines, hcalls, houtcome, -, -⟩ := w.send_calls data
  rw [hsent] at hcalls houtcome
  refine ⟨lines, Journaled.journal_of_calls hcalls, ?_⟩
  cases answer with
  | ok n =>
    have hok : SendOk data lines n := houtcome
    exact .through hok.taken
  | error f =>
    have hfailed : SendFailed data lines f := houtcome
    exact hfailed.tried

theorem PolledOutcome.tried {data : Bytes} {stage stage' : Stage} {lines : Journal}
    {answer : Except Shortfall Nat} (h : PolledOutcome data stage lines answer stage') :
    Tried data stage.unsent stage'.unsent lines answer := by
  cases h with
  | through taken => exact .through taken
  | unflushed taken e => exact .unflushed rfl rfl rfl taken
  | held_up taken write_failed e =>
    refine .short rfl (Nat.zero_le _) ?_ (write_failed.not_flushFailed e)
    exact taken.trans (List.append_nil _).symm
  | @fell_short part f taken write_failed reaches =>
    cases htorn : f.tornPair with
    | true => exact .torn htorn taken reaches (write_failed.not_flushFailed f.cause)
    | false =>
      refine .short htorn reaches.inputs_le ?_ (write_failed.not_flushFailed f.cause)
      have houtput := reaches.output_eq
      rw [htorn] at houtput
      rw [taken, houtput, halfPair_false, List.append_nil]
      exact List.append_nil _

theorem polledWay_tells {σ : Type} [AsyncSink σ] : (polledWay σ).Tells fun w => w.stage.unsent := by
  intro w data answer w' hsent
  obtain ⟨polls, hsent⟩ := hsent
  obtain ⟨lines, hmoves, houtcome⟩ := w.sendPolled_calls polls data
  rw [hsent] at hmoves houtcome
  exact ⟨lines, Journaled.journal_of_asyncCalls hmoves.calls, (houtcome answer rfl).tried⟩

/-! ## Any number of tries -/

section
variable {σ : Type} {way : Way σ} {owed : Writer (Journaled σ) → Bytes}
  {w w' : Writer (Journaled σ)} {data : Bytes}

/-- Over all tries the sink takes what it was owed and then the escaped data, by induction on the
tries: what one of them still owes comes first in the next. -/
theorem Resends.taken_eq (h : Resends way w data w') (htells : way.Tells owed) :
    ∃ lines, w'.sink.journal = w.sink.journal ++ lines ∧
      lines.taken = owed w ++ escape data := by
  induction h with
  | @through w w' data n sent =>
    obtain ⟨lines, hjournal, htried⟩ := htells w data _ w' sent
    cases htried with
    | through taken => exact ⟨lines, hjournal, taken⟩
  | @unflushed w w' data f last sent calls flush_failed =>
    obtain ⟨lines, hjournal, htried⟩ := htells w data _ w' sent
    obtain rfl : last = lines := List.append_cancel_left (calls.symm.trans hjournal)
    cases htried with
    | unflushed _ _ _ taken => exact ⟨last, hjournal, taken⟩
    | short _ _ _ not_flush | torn _ _ _ not_flush => exact absurd flush_failed not_flush
  | @again w w' w'' data f sent whole _ ih =>
    obtain ⟨lines, hjournal, htried⟩ := htells w data _ w' sent
    obtain ⟨more, hmore, hrest⟩ := ih
    have hstep : lines.taken ++ owed w' = owed w ++ escape (data.take f.delivered) := by
      cases htried with
      | unflushed _ all nothing_owing taken =>
        rw [taken, nothing_owing, all, List.take_length, List.append_nil]
      | short _ _ taken => exact taken
      | torn htorn =>
        rw [whole] at htorn
        cases htorn
    refine ⟨lines ++ more, by rw [hmore, hjournal, List.append_assoc], ?_⟩
    calc (lines ++ more).taken = (lines.taken ++ owed w') ++ escape (data.drop f.delivered) := by
          rw [Journal.taken_append, hrest, List.append_assoc]
      _ = owed w ++ escape (data.take f.delivered ++ data.drop f.delivered) := by
          rw [hstep, List.append_assoc, escape_append]
      _ = owed w ++ escape data := by rw [List.take_append_drop]

/-- The answers of a way of sending tell whether and where to go on. -/
structure ExactResume (way : Way σ) (owed : Writer (Journaled σ) → Bytes) : Prop where
  /-- Going on after every shortfall that tore no pair brings the sink what it was owed and the
  escaped data, each once and in order. -/
  once : ∀ {w w' data}, Resends way w data w' →
    ∃ lines, w'.sink.journal = w.sink.journal ++ lines ∧ lines.taken = owed w ++ escape data
  /-- Such a shortfall counts just the input that the sink has, or is owed from the stage. -/
  resume_point : ∀ {w w' data f}, way w data (.error f) w' → f.tornPair = false →
    f.delivered ≤ data.length ∧ ∃ lines, w'.sink.journal = w.sink.journal ++ lines ∧
      lines.taken ++ owed w' = owed w ++ escape (data.take f.delivered)
  /-- After a torn pair no escaped bytes make good what the sink has of the data. -/
  beyond_repair : ∀ {w w' data f}, way w data (.error f) w' → f.tornPair = true →
    ∃ lines part, w'.sink.journal = w.sink.journal ++ lines ∧ lines.taken = owed w ++ part ∧
      ∀ more, part ++ escape more ≠ escape data

theorem Way.Tells.exactResume (htells : way.Tells owed) : ExactResume way owed := by
  refine ⟨fun h => h.taken_eq htells, ?_, ?_⟩
  · intro w w' data f hsent hwhole
    obtain ⟨lines, hjournal, htried⟩ := htells w data _ w' hsent
    cases htried with
    | unflushed _ all nothing_owing taken =>
      refine ⟨Nat.le_of_eq all, lines, hjournal, ?_⟩
      rw [taken, nothing_owing, all, List.take_length, List.append_nil]
    | short _ le taken => exact ⟨le, lines, hjournal, taken⟩
    | torn htorn =>
      rw [hwhole] at htorn
      cases htorn
  · intro w w' data f hsent htorn
    obtain ⟨lines, hjournal, htried⟩ := htells w data _ w' hsent
    cases htried with
    | unflushed whole | short whole =>
      rw [htorn] at whole
      cases whole
    | torn _ taken reaches =>
      exact ⟨lines, _, hjournal, taken, reaches.append_escape_ne htorn⟩

end

/-- **Where to go on after a failure.** Blocking or polled, over any sink and from any state of the
writer: sending on from the count of each shortfall that tore no pair brings the sink the escaped
data exactly once, after what a polled writer had staged before; a torn pair cannot be made good by
any further send. -/
theorem resends_exact {σ τ : Type} [Sink σ] [AsyncSink τ] :
    ExactResume (blockingWay σ) (fun _ => []) ∧
      ExactResume (polledWay τ) (fun w => w.stage.unsent) :=
  ⟨blockingWay_tells.exactResume, polledWay_tells.exactResume⟩

/-- A sink whose next writes get these reactions, and all others are taken. -/
def reactingSink (steps : List Reaction) : ScriptedSink :=
  { script := { writes := { steps } } }

/-- A writer that is interrupted behind a pair, when its second byte of input is through. -/
def interruptedWriter : Writer (Journaled (Nonblocking ScriptedSink)) :=
  .fresh ⟨reactingSink [.take (some 3), .fail (.plain .interrupted)]⟩ { capacity := 4 }

/-- A polled writer with a byte staged, which the sink refuses at first and then keeps waiting. -/
def hesitantWriter : Writer (Journaled ScriptedSink) :=
  { sink := { sink := reactingSink [.fail (.plain .timedOut), .pending, .take none,
      .take (some 3), .fail (.plain .timedOut)] }
    config := { capacity := 4 }
    stage := { bytes := [7] } }

/-- What two tries make of the first writer and three of the second. -/
def twoTries : Writer (Journaled (Nonblocking ScriptedSink)) :=
  ((interruptedWriter.send [1, 255, 2]).2.send [2]).2

def threeTries : Writer (Journaled ScriptedSink) :=
  (((hesitantWriter.sendPolled 1 [1, 255, 2]).2.sendPolled 2 [1, 255, 2]).2.sendPolled 1 [2]).2

theorem twoTries_resends : Resends (blockingWay _) interruptedWriter [1, 255, 2] twoTries := by
  have hfirst : interruptedWriter.send [1, 255, 2] =
      (.error ⟨2, false, .plain .interrupted⟩, (interruptedWriter.send [1, 255, 2]).2) := by cbv
  have hsecond : (interruptedWriter.send [1, 255, 2]).2.send [2] = (.ok 1, twoTries) := by cbv
  exact .again hfirst rfl (.through hsecond)

theorem threeTries_resends : Resends (polledWay _) hesitantWriter [1, 255, 2] threeTries := by
  have hfirst : hesitantWriter.sendPolled 1 [1, 255, 2] =
      (some (.error ⟨0, false, .plain .timedOut⟩),
        (hesitantWriter.sendPolled 1 [1, 255, 2]).2) := by cbv
  have hsecond : (hesitantWriter.sendPolled 1 [1, 255, 2]).2.sendPolled 2 [1, 255, 2] =
      (some (.error ⟨2, false, .plain .timedOut⟩),
        ((hesitantWriter.sendPolled 1 [1, 255, 2]).2.sendPolled 2 [1, 255, 2]).2) := by cbv
  have hthird : ((hesitantWriter.sendPolled 1 [1, 255, 2]).2.sendPolled 2
      [1, 255, 2]).2.sendPolled 1 [2] = (some (.ok 1), threeTries) := by cbv
  exact .again ⟨1, hfirst⟩ rfl (.again ⟨2, hsecond⟩ rfl (.through ⟨1, hthird⟩))

/-- All of the data arrives, over one failure of the first writer and two of the second. -/
theorem resends_exact_of_failures :
    (∃ lines, twoTries.sink.journal = interruptedWriter.sink.journal ++ lines ∧
      lines.taken = [] ++ escape [1, 255, 2]) ∧
    (∃ lines, threeTries.sink.journal = hesitantWriter.sink.journal ++ lines ∧
      lines.taken = hesitantWriter.stage.unsent ++ escape [1, 255, 2]) := by
  have hexact := @resends_exact (Nonblocking ScriptedSink) ScriptedSink _ _
  exact ⟨hexact.1.once twoTries_resends, hexact.2.once threeTries_resends⟩

end TelnetEscape
