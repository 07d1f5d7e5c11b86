import Mathlib.Algebra.Ring.Nat
import TelnetEscape.Proofs.Agreement

/-!
# Sinks with limited room

A sink takes so many bytes and no more: each write takes as many of its offer as the sink likes, at
least one while there is room, and fails when there is none. A caller sends its data in pieces until
a send fails. `answersWithin` says what the sends answer. It knows only the pieces, the room and the
error: how the writer is configured, what parts of its offers the sink takes and how long it keeps a
polled writer waiting make no difference, and where the data is cut into pieces makes none to what
the sink takes.

* `Limits.send`, `Limits.sendPolled`: one blocking or polled send;
* `SendsWithin.sendEach`: the pieces one after the other, by either way of sending;
* `cutOff_answersWithin`: what the answers tell of the escaped data as a whole.
-/

namespace TelnetEscape

/-! ## Answers -/

/-- The answer of a send of `data` to a sink that has `room` and fails with `e` when it has none. -/
def answerWithin (room : Nat) (e : SinkError) (data : Bytes) : Except Shortfall Nat :=
  if escapedLength data ≤ room then .ok data.length
  else
    let p := Progress.of ((escape data).take room)
    .error ⟨p.inputs, p.midPair, e⟩

/-- The answers of sends of pieces, up to the first that fails. -/
def answersWithin (room : Nat) (e : SinkError) : List Bytes → List (Except Shortfall Nat)
  | [] => []
  | piece :: pieces =>
    answerWithin room e piece ::
      if escapedLength piece ≤ room then answersWithin (room - escapedLength piece) e pieces else []

/-- What the answers of sends of `pieces`, up to the first that fails, tell of the data as a whole,
of which a sink took `taken`. The sink fails with `e` after `limit` bytes. -/
structure CutOff (limit : Nat) (e : SinkError) (pieces : List Bytes)
    (answers : List (Except Shortfall Nat)) (taken : Bytes) : Prop where
  taken_eq : taken = (escape pieces.flatten).take limit
  all_sent_iff :
    answers = pieces.map (fun piece => .ok piece.length) ↔ escapedLength pieces.flatten ≤ limit
  /-- The send that fails is the first that there is not room enough for. -/
  first_over : limit < escapedLength pieces.flatten →
    ∃ before piece after f, pieces = before ++ piece :: after ∧
      answers = before.map (fun piece => .ok piece.length) ++ [.error f] ∧
      escapedLength before.flatten ≤ limit ∧ limit < escapedLength (before ++ [piece]).flatten ∧
      f.tornPair = (Progress.of taken).midPair ∧ f.cause = e
  counted_eq : (answers.map counted).sum = (Progress.of taken).inputs

section
variable {limit : Nat} {e : SinkError} {piece : Bytes} {pieces : List Bytes}

theorem cutOff_nil (limit : Nat) (e : SinkError) : CutOff limit e [] [] [] := by
  refine ⟨List.take_nil.symm, ?_, ?_, rfl⟩
  · exact iff_of_true rfl (Nat.zero_le _)
  · intro hover
    exact absurd hover (Nat.not_lt_zero _)

/-- The first piece is sent, and what is left of the room is for the others. -/
theorem CutOff.cons {answers : List (Except Shortfall Nat)} {taken : Bytes}
    (h : CutOff (limit - escapedLength piece) e pieces answers taken)
    (hfits : escapedLength piece ≤ limit) :
    CutOff limit e (piece :: pieces) (.ok piece.length :: answers) (escape piece ++ taken) := by
  have hlength : escapedLength (piece :: pieces).flatten =
      escapedLength piece + escapedLength pieces.flatten := by
    rw [List.flatten_cons, escapedLength_append]
  have hprogress := Progress.of_escape_append piece taken
  refine ⟨?_, ?_, ?_, ?_⟩
  · have hpiece : (escape piece).take limit = escape piece :=
      List.take_of_length_le (by rw [length_escape]; exact hfits)
    rw [List.flatten_cons, escape_append, List.take_append, hpiece, length_escape, h.taken_eq]
  · rw [List.map_cons, hlength]
    have hrest := h.all_sent_iff
    constructor
    · intro hall
      have := hrest.mp (List.cons.inj hall).2
      omega
    · intro hall
      rw [hrest.mpr (by omega)]
  · intro hover
    obtain ⟨before, cut, after, f, rfl, hanswers, hbefore, hcut, htorn, hcause⟩ :=
      h.first_over (by omega)
    refine ⟨piece :: before, cut, after, f, rfl, by rw [hanswers]; rfl, ?_, ?_, ?_, hcause⟩
    · rw [List.flatten_cons, escapedLength_append]
      omega
    · rw [List.cons_append, List.flatten_cons, escapedLength_append]
      omega
    · rw [htorn, hprogress]
  · rw [hprogress, List.map_cons, List.sum_cons, h.counted_eq]
    rfl

/-- There is not room enough for the first piece. -/
theorem cutOff_of_over (pieces : List Bytes) (hover : limit < escapedLength piece) :
    CutOff limit e (piece :: pieces) [answerWithin limit e piece] ((escape piece).take limit) := by
  have hlength : escapedLength (piece :: pieces).flatten =
      escapedLength piece + escapedLength pieces.flatten := by
    rw [List.flatten_cons, escapedLength_append]
  have hanswer : answerWithin limit e piece =
      .error ⟨(Progress.of ((escape piece).take limit)).inputs,
        (Progress.of ((escape piece).take limit)).midPair, e⟩ := by
    rw [answerWithin, if_neg (by omega)]
  rw [hanswer]
  refine ⟨?_, ?_, ?_, ?_⟩
  · rw [List.flatten_cons, escape_append, List.take_append_of_le_length]
    rw [length_escape]
    omega
  · refine iff_of_false ?_ (by omega)
    intro hall
    cases (List.cons.inj hall).1
  · intro _
    refine ⟨[], piece, pieces, _, rfl, rfl, Nat.zero_le _, ?_, rfl, rfl⟩
    rw [List.nil_append, List.flatten_singleton]
    exact hover
  · rfl

end

/-- By induction on the pieces: the first fits and leaves less room for the others, or it does not
and is the last. -/
theorem cutOff_answersWithin (limit : Nat) (e : SinkError) (pieces : List Bytes) :
    CutOff limit e pieces (answersWithin limit e pieces)
      ((escape pieces.flatten).take limit) := by
  induction pieces generalizing limit with
  | nil =>
    rw [List.flatten_nil, escape_nil, List.take_nil]
    exact cutOff_nil limit e
  | cons piece pieces ih =>
    by_cases hfits : escapedLength piece ≤ limit
    · have hcut := (ih (limit - escapedLength piece)).cons hfits
      rw [hcut.taken_eq] at hcut
      rw [answersWithin, answerWithin, if_pos hfits, if_pos hfits]
      exact hcut
    · have hcut := @cutOff_of_over limit e piece pieces (Nat.lt_of_not_le hfits)
      rw [hcut.taken_eq] at hcut
      rw [answersWithin, if_neg hfits]
      exact hcut

/-! ## Sinks -/

/-- A sink with room for a number of bytes, which fails with `e` when there is none. -/
structure Limits {σ : Type} [Sink σ] (room : σ → Nat) (e : SinkError) : Prop where
  takes : ∀ s offered, offered ≠ [] → 0 < room s →
    ∃ n s', Sink.write s offered = (.ok (n + 1), s') ∧ n + 1 ≤ offered.length ∧
      room s' + (n + 1) = room s
  fails : ∀ s offered, offered ≠ [] → room s = 0 →
    ∃ s', Sink.write s offered = (.error e, s') ∧ room s' = 0
  flushes : ∀ s, ∃ s', Sink.flush s = (.ok (), s') ∧ room s' = room s
  deaf : Observer.Deaf σ

/-- An offer, if this is one, has something in it. -/
def Entry.OffersSome : Entry → Prop
  | .write offered _ => offered ≠ []
  | _ => True

namespace Limits

section
variable {σ : Type} [Sink σ] {room : σ → Nat} {e : SinkError} (h : Limits room e)
include h

/-- A call takes what room it takes, and fails only if there is none. -/
theorem step {s s' : σ} {line : Entry} (hstep : Sink.Step s line s') (hsome : line.OffersSome) :
    line.taken.length + room s' = room s ∧
      ∀ failure, line.failure? = some failure → failure = e ∧ room s = 0 ∧ line.isWrite = true := by
  match line, hstep with
  | .write offered (.ready answer), hstep =>
    have hwrite : Sink.write s offered = (answer, s') := hstep
    rcases Nat.eq_zero_or_pos (room s) with hnone | hsome_left
    · obtain ⟨s₁, hfails, hroom⟩ := h.fails s offered hsome hnone
      obtain ⟨rfl, rfl⟩ := Prod.mk.inj (hfails.symm.trans hwrite)
      refine ⟨by rw [hnone, hroom]; rfl, fun failure hfailure => ?_⟩
      exact ⟨(Option.some.inj hfailure).symm, hnone, rfl⟩
    · obtain ⟨n, s₁, htakes, hn, hroom⟩ := h.takes s offered hsome hsome_left
      obtain ⟨rfl, rfl⟩ := Prod.mk.inj (htakes.symm.trans hwrite)
      have htaken : (offered.take (n + 1)).length = n + 1 := List.length_take_of_le hn
      refine ⟨?_, fun failure hfailure => by cases hfailure⟩
      show (offered.take (n + 1)).length + room _ = room s
      omega
  | .flush (.ready answer), hstep =>
    have hflush : Sink.flush s = (answer, s') := hstep
    obtain ⟨s₁, hok, hroom⟩ := h.flushes s
    obtain ⟨rfl, rfl⟩ := Prod.mk.inj (hok.symm.trans hflush)
    refine ⟨?_, fun failure hfailure => by cases hfailure⟩
    show 0 + room _ = room s
    omega
  | .event ev, hstep =>
    have hobserve : Observer.observe s ev = s' := hstep
    rw [h.deaf] at hobserve
    refine ⟨?_, fun failure hfailure => by cases hfailure⟩
    rw [hobserve]
    exact Nat.zero_add _

/-- Calls take what room they take; if one failed, there is none left. -/
theorem calls {s s' : σ} {lines : Journal} (hcalls : Calls Sink.Step s lines s')
    (hsome : ∀ line ∈ lines, line.OffersSome) :
    lines.taken.length + room s' = room s ∧
      ∀ failure, lines.failure? = some failure → failure = e ∧ room s' = 0 := by
  induction hcalls with
  | nil s => exact ⟨Nat.zero_add _, fun failure hfailure => by cases hfailure⟩
  | @cons s s' s'' line lines first _ ih =>
    obtain ⟨hfirst, hrest⟩ := List.forall_mem_cons.mp hsome
    obtain ⟨hroom, hfails⟩ := h.step first hfirst
    obtain ⟨hroom', hfails'⟩ := ih hrest
    refine ⟨?_, fun failure hfailure => ?_⟩
    · rw [Journal.taken_cons, List.length_append]
      omega
    · rw [Journal.failure?, List.findSome?_cons] at hfailure
      cases hline : line.failure? with
      | some first_failure =>
        rw [hline] at hfailure
        obtain rfl := Option.some.inj hfailure
        obtain ⟨hcause, hnone, -⟩ := hfails _ hline
        exact ⟨hcause, by omega⟩
      | none =>
        rw [hline] at hfailure
        exact hfails' failure hfailure

/-- What the outcome of a send comes to when there is only so much room. -/
theorem of_outcome {s s' : σ} {data : Bytes} {lines : Journal} {answer : Except Shortfall Nat}
    (hcalls : Calls Sink.Step s lines s') (hsome : ∀ line ∈ lines, line.OffersSome)
    (houtcome : SendOutcome data lines answer) :
    answer = answerWithin (room s) e data ∧ lines.taken = (escape data).take (room s) ∧
      (escapedLength data ≤ room s → room s' = room s - escapedLength data) := by
  obtain ⟨hroom, hfails⟩ := h.calls hcalls hsome
  cases answer with
  | ok n =>
    have hok : SendOk data lines n := houtcome
    have hlength := length_escape data
    rw [hok.taken, hlength] at hroom
    refine ⟨?_, ?_, ?_⟩
    · rw [answerWithin, if_pos (by omega), hok.count]
    · rw [hok.taken, List.take_of_length_le (by omega)]
    · omega
  | error f =>
    have hfailed : SendFailed data lines f := houtcome
    obtain ⟨hcause, hnone⟩ := hfails f.cause hfailed.failure
    have hfront := hfailed.reaches.prefix_escape
    have hlength : lines.taken.length = room s := by omega
    have htaken : lines.taken = (escape data).take (room s) := by
      rw [← hlength]
      exact List.prefix_iff_eq_take.mp hfront
    have hprogress : Progress.of lines.taken = ⟨f.delivered, f.tornPair⟩ := hfailed.reaches.of_eq
    have hover : room s < escapedLength data := by
      have hle := hfront.length_le
      rw [hlength, length_escape] at hle
      refine Nat.lt_of_le_of_ne hle fun heq => ?_
      -- with all of the data through, the flush must have failed
      have hall : lines.taken = escape data := by
        rw [htaken, heq, ← length_escape, List.take_length]
      rw [hall, Progress.of_escape] at hprogress
      obtain ⟨before, -, hlines⟩ :=
        hfailed.all_delivered_iff.mp (congrArg Progress.inputs hprogress).symm
      rw [hlines] at hcalls
      obtain ⟨s₁, -, hflush⟩ := hcalls.of_append
      obtain ⟨-, hfailure⟩ := h.step hflush.step_of_single trivial
      cases (hfailure f.cause rfl).2.2
    refine ⟨?_, htaken, by omega⟩
    rw [answerWithin, if_neg (by omega), ← htaken, hprogress, ← hcause]

end
end Limits

/-! ## Pieces -/

/-- Sends of pieces, one after the other, up to the first that does not succeed. -/
def sendEach {ω : Type} (send : ω → Bytes → Option (Except Shortfall Nat) × ω) :
    ω → List Bytes → List (Option (Except Shortfall Nat)) × ω
  | w, [] => ([], w)
  | w, piece :: pieces =>
    match send w piece with
    | (some (.ok n), w') =>
      let (answers, w'') := sendEach send w' pieces
      (some (.ok n) :: answers, w'')
    | (answer, w') => ([answer], w')

/-- A way of sending that from a `ready` state takes so much `room`, and adds what it takes to
`taken`. -/
structure SendsWithin {ω : Type} (send : ω → Bytes → Option (Except Shortfall Nat) × ω)
    (ready : ω → Prop) (room : ω → Nat) (taken : ω → Bytes) (e : SinkError) : Prop where
  answer_eq : ∀ w data, ready w → (send w data).1 = some (answerWithin (room w) e data)
  taken_eq : ∀ w data, ready w →
    taken (send w data).2 = taken w ++ (escape data).take (room w)
  /-- A send that succeeds leaves a ready state and the rest of the room. -/
  after : ∀ w data, ready w → escapedLength data ≤ room w →
    ready (send w data).2 ∧ room (send w data).2 = room w - escapedLength data

theorem SendsWithin.sendEach {ω : Type} {send : ω → Bytes → Option (Except Shortfall Nat) × ω}
    {ready : ω → Prop} {room : ω → Nat} {taken : ω → Bytes} {e : SinkError}
    (h : SendsWithin send ready room taken e) (pieces : List Bytes) (w : ω) (hready : ready w) :
    (sendEach send w pieces).1 = (answersWithin (room w) e pieces).map some ∧
      taken (sendEach send w pieces).2 = taken w ++ (escape pieces.flatten).take (room w) := by
  induction pieces generalizing w with
  | nil => exact ⟨rfl, by simp [TelnetEscape.sendEach]⟩
  | cons piece pieces ih =>
    have hanswer := h.answer_eq w piece hready
    have htaken := h.taken_eq w piece hready
    have hafter := h.after w piece hready
    rw [TelnetEscape.sendEach, answersWithin, List.flatten_cons, escape_append, List.take_append,
      length_escape]
    generalize send w piece = sent at *
    obtain ⟨answer, w'⟩ := sent
    dsimp only at hanswer htaken hafter
    subst hanswer
    by_cases hfits : escapedLength piece ≤ room w
    · obtain ⟨hready', hroom⟩ := hafter hfits
      obtain ⟨hanswers, hrest⟩ := ih w' hready'
      rw [answerWithin, if_pos hfits, if_pos hfits]
      refine ⟨?_, ?_⟩
      · rw [List.map_cons, ← hroom, ← hanswers]
      · rw [← hroom, ← List.append_assoc, ← htaken]
        exact hrest
    · have hnothing : room w - escapedLength piece = 0 := by omega
      rw [answerWithin, if_neg hfits, if_neg hfits, hnothing, List.take_zero, List.append_nil]
      exact ⟨rfl, htaken⟩

/-! ## Writers -/

/-- A blocking send always has its answer. -/
def Writer.sendAtOnce {σ : Type} [Sink σ] (w : Writer σ) (data : Bytes) :
    Option (Except Shortfall Nat) × Writer σ :=
  (some (w.send data).1, (w.send data).2)

namespace Limits

section
variable {σ : Type} [Sink σ] {room : σ → Nat} {e : SinkError} (h : Limits room e)
include h

/-- One blocking send. -/
theorem send (w : Writer (Journaled σ)) (data : Bytes) :
    ∃ lines, (w.send data).2.sink.journal = w.sink.journal ++ lines ∧
      (w.send data).1 = answerWithin (room w.sink.sink) e data ∧
      lines.taken = (escape data).take (room w.sink.sink) ∧
      (escapedLength data ≤ room w.sink.sink →
        room (w.send data).2.sink.sink = room w.sink.sink - escapedLength data) := by
  obtain ⟨lines, flushes, batches, hcalls, hsends, hfinishes⟩ := w.send_sends data
  have houtcome := hfinishes.sendOutcome hsends.sent hsends.isFlush_eq_false
  have hsome : ∀ line ∈ lines ++ flushes, line.OffersSome := by
    refine List.forall_mem_append.mpr
      ⟨hsends.forall_mem (fun _ _ some_left => some_left) fun _ => trivial, fun line hline => ?_⟩
    have hflush := hfinishes.isFlush line hline
    cases line with
    | write => cases hflush
    | flush | shutdown | event => trivial
  have hinner := Journaled.sink_calls Journaled.sink_step hcalls
  exact ⟨lines ++ flushes, Journaled.journal_of_calls hcalls, h.of_outcome hinner hsome houtcome⟩

/-- One polled send, which goes as a blocking one over the same sink. -/
theorem sendPolled {polls : Nat} (w : Writer (Journaled (Delayed σ))) (data : Bytes)
    (hstage : w.stage = {}) (hpolls : w.sink.sink.delays.length < polls) :
    ∃ lines, (w.sendPolled polls data).2.sink.journal = w.sink.journal ++ lines ∧
      (w.sendPolled polls data).1 = some (answerWithin (room w.sink.sink.sink) e data) ∧
      lines.taken = (escape data).take (room w.sink.sink.sink) ∧
      (w.sendPolled polls data).2.stage = {} ∧
      (w.sendPolled polls data).2.sink.sink.delays.length < polls ∧
      (escapedLength data ≤ room w.sink.sink.sink →
        room (w.sendPolled polls data).2.sink.sink.sink =
          room w.sink.sink.sink - escapedLength data) := by
  have halike : Alike (Writer.fresh w.sink.sink.sink w.config) w := ⟨rfl, rfl, hstage⟩
  obtain ⟨lines, hjournal, hanswer, htaken, hroom⟩ :=
    h.send (Writer.fresh w.sink.sink.sink w.config) data
  obtain ⟨blocking, polled, hagree⟩ := halike.sends h.deaf hpolls data
  obtain rfl : blocking = lines := List.append_cancel_left (hagree.calls.symm.trans hjournal)
  refine ⟨polled, hagree.polled_calls, hagree.answer_eq.trans (congrArg some hanswer),
    hagree.same_calls.taken_eq.trans htaken, hagree.nothing_staged.2,
    Nat.lt_of_le_of_lt hagree.delays_le hpolls, fun hfits => ?_⟩
  have hok : ((Writer.fresh w.sink.sink.sink w.config).send data).1 = .ok data.length := by
    rw [hanswer]
    exact if_pos hfits
  rw [(hagree.alike _ hok).sink_eq]
  exact hroom hfits

theorem sendAtOnce_within :
    SendsWithin Writer.sendAtOnce (fun _ => True) (fun w : Writer (Journaled σ) => room w.sink.sink)
      (fun w => w.sink.journal.taken) e := by
  refine ⟨fun w data _ => ?_, fun w data _ => ?_, fun w data _ hfits => ?_⟩
  · obtain ⟨lines, -, hanswer, -, -⟩ := h.send w data
    exact congrArg some hanswer
  · obtain ⟨lines, hjournal, -, htaken, -⟩ := h.send w data
    show (w.send data).2.sink.journal.taken = _
    rw [hjournal, Journal.taken_append, htaken]
  · obtain ⟨lines, -, -, -, hroom⟩ := h.send w data
    exact ⟨trivial, hroom hfits⟩

theorem sendPolled_within (polls : Nat) :
    SendsWithin (fun w data => w.sendPolled polls data)
      (fun w : Writer (Journaled (Delayed σ)) =>
        w.stage = {} ∧ w.sink.sink.delays.length < polls)
      (fun w => room w.sink.sink.sink) (fun w => w.sink.journal.taken) e := by
  refine ⟨fun w data hready => ?_, fun w data hready => ?_, fun w data hready hfits => ?_⟩
  · obtain ⟨lines, -, hanswer, -⟩ := h.sendPolled w data hready.1 hready.2
    exact hanswer
  · obtain ⟨lines, hjournal, -, htaken, -⟩ := h.sendPolled w data hready.1 hready.2
    rw [hjournal, Journal.taken_append, htaken]
  · obtain ⟨lines, -, -, -, hstage, hdelays, hroom⟩ := h.sendPolled w data hready.1 hready.2
    exact ⟨⟨hstage, hdelays⟩, hroom hfits⟩

end
end Limits

/-- **Only the room of the sink counts.** New writers over a sink with limited room, sending pieces
of data until a send fails, give the answers that the pieces and the room tell, whatever their
configuration, the parts that the sink takes of its offers and the delays of a polled one. The sink
takes as much of the escaped data as there is room for. Every polled send has its answer. -/
theorem sendEach_cutOff {σ : Type} [Sink σ] {room : σ → Nat} {e : SinkError} (h : Limits room e)
    (s : σ) (config : Config) (delays : List Bool) (more : Nat) (pieces : List Bytes) :
    let answers := answersWithin (room s) e pieces
    let sent := sendEach Writer.sendAtOnce (Writer.fresh s config) pieces
    let polled := sendEach (fun w data => w.sendPolled (delays.length + 1 + more) data)
      (Writer.fresh (⟨s, delays⟩ : Delayed σ) config) pieces
    CutOff (room s) e pieces answers sent.2.sink.journal.taken ∧
      CutOff (room s) e pieces answers polled.2.sink.journal.taken ∧
      sent.1 = answers.map some ∧ polled.1 = answers.map some := by
  intro answers sent polled
  have hpolls : delays.length < delays.length + 1 + more := by omega
  obtain ⟨hanswers, htaken⟩ := h.sendAtOnce_within.sendEach pieces (Writer.fresh s config) trivial
  obtain ⟨hanswers', htaken'⟩ := (h.sendPolled_within (delays.length + 1 + more)).sendEach pieces
    (Writer.fresh (⟨s, delays⟩ : Delayed σ) config) ⟨rfl, hpolls⟩
  have hcut := cutOff_answersWithin (room s) e pieces
  have hsent : sent.2.sink.journal.taken = (escape pieces.flatten).take (room s) := htaken
  have hpolled : polled.2.sink.journal.taken = (escape pieces.flatten).take (room s) := htaken'
  rw [hsent, hpolled]
  exact ⟨hcut, hcut, hanswers, hanswers'⟩

/-- A sink with room for `left` bytes. Of each offer it takes at most its next portion and one byte
more. -/
structure Portioned where
  left : Nat
  portions : List Nat := []

instance : Sink Portioned where
  observe s _ := s
  write s offered :=
    if s.left = 0 then (.error (.plain .brokenPipe), s)
    else
      let n := min offered.length (min s.left (s.portions.headD 0 + 1))
      (.ok n, { left := s.left - n, portions := s.portions.tail })
  flush s := (.ok (), s)

theorem Portioned.limits : Limits Portioned.left (.plain .brokenPipe) := by
  refine ⟨fun s offered hsome hleft => ?_, fun s offered _ hleft => ?_, fun s => ⟨s, rfl, rfl⟩,
    fun _ _ => rfl⟩
  · have hoffered := List.length_pos_iff.mpr hsome
    obtain ⟨n, hn⟩ : ∃ n, min offered.length (min s.left (s.portions.headD 0 + 1)) = n + 1 :=
      ⟨_, (Nat.succ_pred_eq_of_pos (by omega)).symm⟩
    refine ⟨n, { left := s.left - (n + 1), portions := s.portions.tail }, ?_, by omega, ?_⟩
    · show (if s.left = 0 then _ else _) = _
      rw [if_neg (by omega), hn]
    · show s.left - (n + 1) + (n + 1) = s.left
      omega
  · refine ⟨s, ?_, hleft⟩
    show (if s.left = 0 then _ else _) = _
    rw [if_pos hleft]

/-- The room ends within a pair of the third piece. -/
theorem sendEach_cutOff_of_portions :
    Limits Portioned.left (.plain .brokenPipe) ∧
    let pieces : List Bytes := [[1], [], [255, 2, 255], [3]]
    let answers := answersWithin 5 (.plain .brokenPipe) pieces
    let config : Config := { capacity := 2, flushSink := true }
    let sink : Portioned := { left := 5, portions := [0, 5, 1] }
    let sent := sendEach Writer.sendAtOnce (Writer.fresh sink config) pieces
    let polled := sendEach (fun w data => w.sendPolled 4 data)
      (Writer.fresh (⟨sink, [true, false, true]⟩ : Delayed Portioned) config) pieces
    answers = [.ok 1, .ok 0, .error ⟨2, true, .plain .brokenPipe⟩] ∧
      CutOff 5 (.plain .brokenPipe) pieces answers sent.2.sink.journal.taken ∧
      CutOff 5 (.plain .brokenPipe) pieces answers polled.2.sink.journal.taken ∧
      sent.1 = answers.map some ∧ polled.1 = answers.map some := by
  refine ⟨Portioned.limits, by cbv, ?_⟩
  exact sendEach_cutOff Portioned.limits { left := 5, portions := [0, 5, 1] }
    { capacity := 2, flushSink := true } [true, false, true] 0 [[1], [], [255, 2, 255], [3]]

end TelnetEscape
