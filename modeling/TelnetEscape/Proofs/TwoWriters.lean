import TelnetEscape.Proofs.WriteAll
import TelnetEscape.Sink.Nonblocking
import TelnetEscape.Sink.Script

/-!
# A send through two writers

The sink of a blocking writer may be a blocking writer. What the upper one offers, the lower one
escapes again and pushes on, and it answers with a count, or with an error after which nothing or
the front of the offer went through. The upper one makes no offer after an error, so its count is
never more than what the sink at the bottom holds: that has at least the counted input escaped
twice, and a front of all input escaped twice (`send_through_writer`). After a success it has all
of it.

`Between` is this pair of bounds. It is shown of one push (`Offers.through`), of a batch and of all
batches, in the way that they are put together.

With three writers the bounds fail: the one in the middle answers an error from below with a short
write if it got an earlier batch through, and then the topmost one goes on.
-/

namespace TelnetEscape

/-- `bytes` begins with `low` and is itself a front of `high`. -/
structure Between (low high bytes : Bytes) : Prop where
  covers : low <+: bytes
  within : bytes <+: high

namespace Between

variable {low high bytes : Bytes}

theorem refl (bytes : Bytes) : Between bytes bytes bytes :=
  ⟨List.prefix_refl _, List.prefix_refl _⟩

theorem append_left (front : Bytes) (h : Between low high bytes) :
    Between (front ++ low) (front ++ high) (front ++ bytes) :=
  ⟨(List.prefix_append_right_inj front).mpr h.covers,
    (List.prefix_append_right_inj front).mpr h.within⟩

theorem widen {low' high' : Bytes} (h : Between low high bytes) (hlow : low' <+: low)
    (hhigh : high <+: high') : Between low' high' bytes :=
  ⟨hlow.trans h.covers, h.within.trans hhigh⟩

/-- Between equal bounds there is no choice. -/
theorem eq_of_eq (h : Between low high bytes) (heq : low = high) : bytes = high := by
  subst heq
  exact h.within.eq_of_length_le h.covers.length_le

end Between

/-! ## One write -/

/-- Whatever the answer, the bytes below are between those that it counts and all that were
offered. -/
theorem WriteOutcome.between {offered : Bytes} {answer : Except SinkError Nat} {lower : Journal}
    (h : WriteOutcome offered lower answer) :
    Between (escape (Entry.write offered (.ready answer)).taken) (escape offered) lower.taken := by
  cases h with
  | @took n _ _ taken =>
    rw [taken]
    exact ⟨List.prefix_refl _, escape_take_mono n offered⟩
  | nothing taken =>
    rw [taken]
    exact ⟨List.nil_prefix, List.nil_prefix⟩
  | tore iac_at taken =>
    exact ⟨List.nil_prefix, (Progress.reaches_torn iac_at taken).prefix_escape⟩

/-! ## One batch -/

variable {σ : Type} [Sink σ]

/-- The calls `upper` on a writer, for which `output` is at hand, bring its sink between what they
took and all of `output`, both escaped once more. -/
def Through (w : Writer σ) (output : Bytes) (upper : Journal) (w' : Writer σ) : Prop :=
  ∃ lower, Calls Sink.Step w.sink lower w'.sink ∧
    Between (escape upper.taken) (escape output) lower.taken

section
variable {w w' : Writer σ} {upper : Journal}

theorem calls_of_not_write (h : Calls Sink.Step w upper w')
    (hwrites : ∀ e ∈ upper, e.isWrite = false) : Calls Sink.Step w.sink upper w'.sink := by
  induction h with
  | nil => exact .nil _
  | cons first _ ih =>
    obtain ⟨hfirst, hrest⟩ := List.forall_mem_cons.mp hwrites
    exact .cons (Writer.step_of_not_write first hfirst) (ih hrest)

/-- Pushing out a stage, by induction on the offers: a short write is answered below with just what
it counts, so only the last offer can leave more there than its count says. -/
theorem Offers.through {unsent : Bytes} {answer : Poll (Except SinkError Unit)}
    (h : Offers unsent upper answer) (hcalls : Calls Sink.Step w upper w') :
    Through w unsent upper w' := by
  induction h generalizing w with
  | done =>
    cases hcalls
    exact ⟨[], .nil _, .refl _⟩
  | pending =>
    cases hcalls.step_of_single
  | refused | failed =>
    obtain ⟨lower, hlower, houtcome⟩ := Writer.calls_of_write hcalls.step_of_single
    refine ⟨lower, hlower, ?_⟩
    simpa using houtcome.between
  | @took unsent n lines answer _ _ ih =>
    cases hcalls with
    | cons first rest =>
      obtain ⟨lower, hlower, houtcome⟩ := Writer.calls_of_write first
      obtain ⟨lower', hlower', hbetween⟩ := ih rest
      refine ⟨lower ++ lower', hlower.append hlower', ?_⟩
      cases houtcome with
      | took _ _ taken =>
        have hall := hbetween.append_left (escape (unsent.take (n + 1)))
        rw [← escape_append, ← escape_append, List.take_append_drop] at hall
        rw [Journal.taken_append, taken]
        exact hall

theorem Drains.through {bytes : Bytes} {inputs : Nat} {answer : Except Shortfall Unit}
    (h : Drains bytes inputs upper answer) (hcalls : Calls Sink.Step w upper w') :
    Through w bytes upper w' := by
  cases h with
  | sent offers | short offers =>
    obtain ⟨w₁, hoffers, hevent⟩ := hcalls.of_append
    obtain ⟨lower, hlower, hbetween⟩ := offers.through hoffers
    have hlower' := Writer.step_of_not_write hevent.step_of_single rfl
    refine ⟨lower ++ _, hlower.append (.single hlower'), ?_⟩
    simpa [Entry.taken] using hbetween

/-! ## All batches -/

theorem Sends.through {limit : Nat} {data : Bytes} {answer : Except Shortfall Nat}
    (h : Sends limit data upper answer) (hcalls : Calls Sink.Step w upper w') :
    Through w (escape data) upper w' := by
  induction h generalizing w with
  | last _ drains | short drains =>
    obtain ⟨lower, hlower, hbetween⟩ := drains.through hcalls
    exact ⟨lower, hlower,
      hbetween.widen (List.prefix_refl _) (escape_mono (escape_take_mono _ _))⟩
  | @more data batch lines answer _ drains _ ih =>
    obtain ⟨w₁, hbatch, hlines⟩ := hcalls.of_append
    obtain ⟨lower, hlower, hfirst⟩ := drains.through hbatch
    obtain ⟨lower', hlower', hrest⟩ := ih hlines
    refine ⟨lower ++ lower', hlower.append hlower', ?_⟩
    -- a batch that got through leaves no choice of what is below
    have htaken := drains.gotThrough.taken
    have hexact := hfirst.eq_of_eq (by rw [htaken])
    have hall := hrest.append_left (escape (escape (data.take (fit limit data))))
    rw [← escape_append, ← escape_append, ← escape_append, List.take_append_drop, ← hexact,
      ← htaken, ← Journal.taken_append, ← Journal.taken_append] at hall
    exact hall

end

/-! ## The send -/

/-- What the answer of a send says of the sink below two writers, which took `bottom`. -/
def SentThrough (data bottom : Bytes) : Except Shortfall Nat → Prop
  | .ok n => n = data.length ∧ bottom = escape (escape data)
  | .error f => f.delivered ≤ data.length ∧
      Between (escape (escape (data.take f.delivered))) (escape (escape data)) bottom

theorem SendOutcome.sentThrough {data bottom : Bytes} {upper : Journal}
    {answer : Except Shortfall Nat} (h : SendOutcome data upper answer)
    (hbetween : Between (escape upper.taken) (escape (escape data)) bottom) :
    SentThrough data bottom answer := by
  cases answer with
  | ok n =>
    have hok : SendOk data upper n := h
    exact ⟨hok.count, hbetween.eq_of_eq (by rw [hok.taken])⟩
  | error f =>
    have hfailed : SendFailed data upper f := h
    refine ⟨hfailed.reaches.inputs_le, hbetween.widen (escape_mono ?_) (List.prefix_refl _)⟩
    rw [hfailed.reaches.output_eq]
    exact List.prefix_append _ _

/-- **A send through two writers.** On success the sink at the bottom took all data escaped twice.
On failure it took a front of that, and at least what the counted input comes to: the count of the
upper writer never says more than is there. -/
theorem send_through_writer (w : Writer (Writer (Journaled σ))) (data : Bytes) :
    ∃ lines : Journal, (w.send data).2.sink.sink.journal = w.sink.sink.journal ++ lines ∧
      SentThrough data lines.taken (w.send data).1 := by
  obtain ⟨upper, flushes, batches, hcalls, hsends, hfinishes⟩ := w.send_sends data
  have houtcome := hfinishes.sendOutcome hsends.sent hsends.isFlush_eq_false
  obtain ⟨w₁, hupper, hflushes⟩ := hcalls.of_append
  obtain ⟨lower, hlower, hbetween⟩ := hsends.through hupper
  have hlower' := calls_of_not_write hflushes hfinishes.isWrite_eq_false
  refine ⟨lower ++ flushes, Journaled.journal_of_calls (hlower.append hlower'), ?_⟩
  refine houtcome.sentThrough ?_
  rw [taken_append_flushes hfinishes.isFlush, taken_append_flushes hfinishes.isFlush]
  exact hbetween

/-- The lower writer tears a pair: the upper one counts no input, and the sink has some of it. -/
example :
    let sink : Nonblocking ScriptedSink :=
      ⟨{ script := { writes := { steps := [.take (some 4), .fail (.plain .brokenPipe)] } } }⟩
    let lower : Writer (Journaled (Nonblocking ScriptedSink)) := { sink := { sink } }
    let sent := ({ sink := lower } : Writer (Writer _)).send [1, 255, 2]
    sent.1 = .error ⟨0, false, .plain .brokenPipe⟩ ∧
      sent.2.sink.sink.journal.taken = [1, 255, 255, 255] := by
  cbv

end TelnetEscape
