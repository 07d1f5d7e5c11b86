import Mathlib.Logic.Function.Iterate
import TelnetEscape.Proofs.Conservation
import TelnetEscape.Tower

/-!
# Conservation of output in towers

Polled writers may stand on one another. Each holds back what it has staged, and what one of them
holds back its own number of writers below it escape again, so a half pair of one writer may be
staged in the next. Even so nothing is lost: what the sink at the bottom took and then what the
writers hold back, the lowest first, is the input that the topmost one took, escaped once by each of
them.

A flush or a shutdown comes to the sink only when no writer holds back anything. `Writer.Passes`
says what calls on one writer bring to the sink below it, and `Tower.calls_pass` takes it down a
tower, by induction on the height. `Tower.poll_ending` follows one flush or shutdown down, to the
writer that cannot push out its stage or to the sink.
-/

namespace TelnetEscape

/-! ## Requests -/

/-- The calls that bring the output so far to an end. -/
inductive Ending
  | flush
  | shutdown
deriving DecidableEq, Repr

namespace Ending

variable {σ : Type} [AsyncSink σ]

def poll : Ending → σ → Poll (Except SinkError Unit) × σ
  | .flush => AsyncSink.pollFlush
  | .shutdown => AsyncSink.pollShutdown

/-- The line of a journal for such a call. -/
def line : Ending → Poll (Except SinkError Unit) → Entry
  | .flush => .flush
  | .shutdown => .shutdown

theorem step (ending : Ending) (s : σ) :
    AsyncSink.Step s (ending.line (ending.poll s).1) (ending.poll s).2 := by
  cases ending <;> rfl

theorem poll_of_step {ending : Ending} {s s' : σ} {answer : Poll (Except SinkError Unit)}
    (h : AsyncSink.Step s (ending.line answer) s') : ending.poll s = (answer, s') := by
  cases ending <;> exact h

@[simp] theorem taken_line (ending : Ending) (answer : Poll (Except SinkError Unit)) :
    (ending.line answer).taken = [] := by
  cases ending <;> rfl

end Ending

/-- A flush or a shutdown. -/
def Entry.isEnding (e : Entry) : Bool :=
  e.isFlush || e.isShutdown

/-- Neither a flush nor a shutdown is among the calls. -/
def Journal.Open (lines : Journal) : Prop :=
  ∀ e ∈ lines, e.isEnding = false

theorem Journal.Open.append {a b : Journal} (ha : a.Open) (hb : b.Open) : Journal.Open (a ++ b) :=
  List.forall_mem_append.mpr ⟨ha, hb⟩

/-- One poll of a sink by its caller. -/
inductive Request
  | write (data : Bytes)
  | finish (ending : Ending)
deriving DecidableEq, Repr

namespace AsyncSink

variable {σ : Type} [AsyncSink σ]

/-- The request with its answer, as a line of a journal, and the state that it leaves. -/
def ask (s : σ) : Request → Entry × σ
  | .write data => (.write data (pollWrite s data).1, (pollWrite s data).2)
  | .finish ending => (ending.line (ending.poll s).1, (ending.poll s).2)

/-- One request after the other, whatever their answers. -/
def askAll (s : σ) : List Request → Journal × σ
  | [] => ([], s)
  | request :: requests =>
    let (line, s') := ask s request
    let (lines, s'') := askAll s' requests
    (line :: lines, s'')

theorem ask_step (s : σ) (request : Request) : Step s (ask s request).1 (ask s request).2 := by
  cases request with
  | write data => rfl
  | finish ending => exact ending.step s

theorem askAll_calls (s : σ) (requests : List Request) :
    Calls Step s (askAll s requests).1 (askAll s requests).2 := by
  induction requests generalizing s with
  | nil => exact .nil s
  | cons request requests ih => exact .cons (ask_step s request) (ih _)

end AsyncSink

/-! ## One writer -/

theorem PollDrains.open {stage stage' : Stage} {lines : Journal}
    {answer : Poll (Except SinkError Unit)} (h : PollDrains stage lines answer stage') :
    lines.Open :=
  h.forall_mem (fun _ _ _ => rfl) fun _ => rfl

theorem PollWrites.open {limit : Nat} {stage stage' : Stage} {data : Bytes} {lines : Journal}
    {answer : Poll (Except SinkError Nat)} (h : PollWrites limit stage data lines answer stage') :
    lines.Open := by
  cases h with
  | nothing | staged => exact List.forall_mem_nil _
  | drained _ _ drains | pending _ _ drains | failed _ _ drains => exact drains.open

/-- What calls `upper` on a writer bring to its sink, and what they make of its stage. -/
structure PassesOn (limit : Nat) (stage : Stage) (upper lower : Journal) (stage' : Stage) :
    Prop where
  conserves : lower.taken ++ stage'.unsent = stage.unsent ++ escape upper.taken
  valid : stage'.Valid limit
  open_of_open : upper.Open → lower.Open

section
variable {limit : Nat} {stage stage' : Stage} {lines : Journal}

theorem PollDrains.passesOn {answer : Poll (Except SinkError Unit)}
    (h : PollDrains stage lines answer stage') (hvalid : stage.Valid limit) :
    PassesOn limit stage [] lines stage' := by
  refine ⟨?_, h.valid hvalid, fun _ => h.open⟩
  rw [h.taken_append_unsent]
  exact (List.append_nil _).symm

theorem PollWrites.passesOn {data : Bytes} {answer : Poll (Except SinkError Nat)}
    (h : PollWrites limit stage data lines answer stage') (hvalid : stage.Valid limit) :
    PassesOn limit stage [.write data answer] lines stage' := by
  refine ⟨?_, h.valid hvalid, fun _ => h.open⟩
  rw [h.conserves hvalid.sent_le, Journal.taken_cons, Journal.taken_nil, List.append_nil]
  rcases answer with _ | _ | _ <;> rfl

theorem PollEnds.passesOn {ending : Ending} {answer : Poll (Except SinkError Unit)}
    (h : PollEnds ending.line stage lines answer stage') (hvalid : stage.Valid limit) :
    PassesOn limit stage [ending.line answer] lines stage' := by
  refine ⟨?_, h.valid hvalid, fun hopen => ?_⟩
  · rw [h.conserves ending.taken_line, Journal.taken_cons, ending.taken_line]
    exact (List.append_nil _).symm
  · have hclosed := hopen _ (List.mem_singleton_self _)
    cases ending <;> cases hclosed

end

theorem PassesOn.append {limit : Nat} {stage stage' stage'' : Stage}
    {upper upper' lower lower' : Journal} (h : PassesOn limit stage upper lower stage')
    (h' : PassesOn limit stage' upper' lower' stage'') :
    PassesOn limit stage (upper ++ upper') (lower ++ lower') stage'' := by
  refine ⟨?_, h'.valid, fun hopen => ?_⟩
  · rw [Journal.taken_append, List.append_assoc, h'.conserves, ← List.append_assoc, h.conserves,
      List.append_assoc, ← escape_append, Journal.taken_append]
  · obtain ⟨hfirst, hrest⟩ := List.forall_mem_append.mp hopen
    exact (h.open_of_open hfirst).append (h'.open_of_open hrest)

namespace Writer

variable {σ : Type} [AsyncSink σ]

theorem poll_ending (ending : Ending) (w : Writer σ) :
    ending.poll w = match w.pollDrain with
      | (.ready (.ok ()), w') => w'.onSink ending.poll
      | (answer, w') => (answer, w') := by
  cases ending <;> rfl

theorem poll_ending_ends (ending : Ending) (w : Writer σ) :
    ∃ lines, w.Moves lines (ending.poll w).2 ∧
      PollEnds ending.line w.stage lines (ending.poll w).1 (ending.poll w).2.stage :=
  w.drainedCall_ends ending.line ending.poll ending.step (w.poll_ending ending)

theorem ending_passesOn {ending : Ending} {answer : Poll (Except SinkError Unit)}
    {w w' : Writer σ} (h : ending.poll w = (answer, w'))
    (hvalid : w.stage.Valid w.config.stageLimit) :
    ∃ lower, w.Moves lower w' ∧
      PassesOn w.config.stageLimit w.stage [ending.line answer] lower w'.stage := by
  obtain ⟨lower, hmoves, hends⟩ := w.poll_ending_ends ending
  rw [h] at hmoves hends
  exact ⟨lower, hmoves, hends.passesOn hvalid⟩

theorem step_passesOn {w w' : Writer σ} {e : Entry} (h : AsyncSink.Step w e w')
    (hvalid : w.stage.Valid w.config.stageLimit) :
    ∃ lower, w.Moves lower w' ∧ PassesOn w.config.stageLimit w.stage [e] lower w'.stage := by
  cases e with
  | write data answer =>
    obtain ⟨lower, hmoves, hwrites⟩ := w.pollWrite_writes data
    have hpoll : w.pollWrite data = (answer, w') := h
    rw [hpoll] at hmoves hwrites
    exact ⟨lower, hmoves, hwrites.passesOn hvalid⟩
  | flush answer =>
    have hpoll : Ending.flush.poll w = (answer, w') := h
    exact ending_passesOn hpoll hvalid
  | shutdown answer =>
    have hpoll : Ending.shutdown.poll w = (answer, w') := h
    exact ending_passesOn hpoll hvalid
  | event ev =>
    obtain rfl : w.observe ev = w' := h
    refine ⟨[.event ev], ⟨.asyncObserve _ _, rfl⟩, (List.append_nil _).symm, hvalid, ?_⟩
    exact fun hopen => hopen

theorem calls_passOn {w w' : Writer σ} {upper : Journal} (h : Calls AsyncSink.Step w upper w')
    (hvalid : w.stage.Valid w.config.stageLimit) :
    ∃ lower, w.Moves lower w' ∧ PassesOn w.config.stageLimit w.stage upper lower w'.stage := by
  induction h with
  | nil w => exact ⟨[], ⟨.nil _, rfl⟩, (List.append_nil _).symm, hvalid, fun hopen => hopen⟩
  | cons first _ ih =>
    obtain ⟨lower, hmoves, hpasses⟩ := step_passesOn first hvalid
    have hvalid' := hpasses.valid
    rw [← hmoves.config_eq] at hvalid'
    obtain ⟨lower', hmoves', hpasses'⟩ := ih hvalid'
    rw [hmoves.config_eq] at hpasses'
    exact ⟨lower ++ lower', hmoves.append hmoves', hpasses.append hpasses'⟩

end Writer

/-! ## Towers -/

@[simp] theorem iterate_escape_nil (n : Nat) : escape^[n] [] = [] :=
  Function.iterate_fixed rfl n

theorem iterate_escape_append (n : Nat) (a b : Bytes) :
    escape^[n] (a ++ b) = escape^[n] a ++ escape^[n] b := by
  induction n generalizing a b with
  | zero => rfl
  | succ n ih =>
    rw [Function.iterate_succ_apply, escape_append, ih]
    rfl

namespace Tower

section
variable {σ : Type}

/-- What the writers hold back, the lowest first, each part escaped by the writers below it. -/
def staged : {n : Nat} → Tower σ n → Bytes
  | 0, _ => []
  | n + 1, (w : Writer (Tower σ n)) => w.sink.staged ++ escape^[n] w.stage.unsent

/-- Every writer has a valid stage. -/
def Valid : {n : Nat} → Tower σ n → Prop
  | 0, _ => True
  | _ + 1, (w : Writer (Tower σ _)) => w.stage.Valid w.config.stageLimit ∧ w.sink.Valid

theorem valid_build (s : σ) (configs : List Config) : (build s configs).Valid := by
  induction configs with
  | nil => exact trivial
  | cons config configs ih => exact ⟨Stage.valid_empty _, ih⟩

theorem staged_build (s : σ) (configs : List Config) : (build s configs).staged = [] := by
  induction configs with
  | nil => rfl
  | cons config configs ih =>
    show (build s configs).staged ++ escape^[configs.length] [] = []
    rw [ih, iterate_escape_nil, List.append_nil]

@[simp] theorem bottom_build (s : σ) (configs : List Config) : (build s configs).bottom = s := by
  induction configs with
  | nil => rfl
  | cons config configs ih => exact ih

@[simp] theorem bottom_mapBottom (f : σ → σ) {n : Nat} (t : Tower σ n) :
    (t.mapBottom f).bottom = f t.bottom := by
  induction n with
  | zero => rfl
  | succ n ih => exact ih t.sink

@[simp] theorem pending_mapBottom (f : σ → σ) {n : Nat} (t : Tower σ n) :
    (t.mapBottom f).pending = t.pending := by
  induction n with
  | zero => rfl
  | succ n ih => exact congrArg (t.stage.pending :: ·) (ih t.sink)

theorem staged_eq_nil {n : Nat} {t : Tower σ n} (h : ∀ p ∈ t.pending, p = 0) : t.staged = [] := by
  induction n with
  | zero => rfl
  | succ n ih =>
    obtain ⟨htop, hbelow⟩ := List.forall_mem_cons.mp h
    have hunsent : t.stage.unsent = [] := (Stage.unsent_eq_nil_iff _).mpr htop
    show t.sink.staged ++ escape^[n] t.stage.unsent = []
    rw [ih hbelow, hunsent, iterate_escape_nil, List.append_nil]

end

section
variable {σ : Type} [AsyncSink σ] {n : Nat}

/-- What calls `upper` on the topmost writer bring to the bottom of a tower. -/
structure Passes (t : Tower σ n) (upper lines : Journal) (t' : Tower σ n) : Prop where
  calls : Calls AsyncSink.Step t.bottom lines t'.bottom
  conserves : lines.taken ++ t'.staged = t.staged ++ escape^[n] upper.taken
  valid : t'.Valid
  open_of_open : upper.Open → lines.Open

theorem Passes.append {t t' t'' : Tower σ n} {upper upper' lines lines' : Journal}
    (h : Passes t upper lines t') (h' : Passes t' upper' lines' t'') :
    Passes t (upper ++ upper') (lines ++ lines') t'' := by
  refine ⟨h.calls.append h'.calls, ?_, h'.valid, fun hopen => ?_⟩
  · rw [Journal.taken_append, List.append_assoc, h'.conserves, ← List.append_assoc, h.conserves,
      List.append_assoc, ← iterate_escape_append, Journal.taken_append]
  · obtain ⟨hfirst, hrest⟩ := List.forall_mem_append.mp hopen
    exact (h.open_of_open hfirst).append (h'.open_of_open hrest)

/-- One writer on top of a tower. -/
theorem Passes.below {w w' : Writer (Tower σ n)} {upper lower lines : Journal}
    (h : Passes w.sink lower lines w'.sink) (hconfig : w'.config = w.config)
    (htop : PassesOn w.config.stageLimit w.stage upper lower w'.stage) :
    @Passes σ _ (n + 1) w upper lines w' := by
  refine ⟨h.calls, ?_, ⟨hconfig ▸ htop.valid, h.valid⟩, ?_⟩
  · show lines.taken ++ (w'.sink.staged ++ escape^[n] w'.stage.unsent) =
      (w.sink.staged ++ escape^[n] w.stage.unsent) ++ escape^[n] (escape upper.taken)
    rw [← List.append_assoc, h.conserves, List.append_assoc, ← iterate_escape_append,
      htop.conserves, iterate_escape_append, List.append_assoc]
  · exact fun hopen => h.open_of_open (htop.open_of_open hopen)

/-- By induction on the height: what comes through the topmost writer is called on the tower that
it stands on. -/
theorem calls_pass {t t' : Tower σ n} {upper : Journal} (h : Calls AsyncSink.Step t upper t')
    (hvalid : t.Valid) : ∃ lines, Passes t upper lines t' := by
  induction n generalizing upper with
  | zero => exact ⟨upper, h, List.append_nil _, trivial, fun hopen => hopen⟩
  | succ n ih =>
    obtain ⟨lower, hmoves, htop⟩ := @Writer.calls_passOn (Tower σ n) _ t t' upper h hvalid.1
    obtain ⟨lines, hrest⟩ := ih hmoves.calls hvalid.2
    exact ⟨lines, hrest.below hmoves.config_eq htop⟩

/-! ## Flushes and shutdowns of towers -/

/-- How a flush or a shutdown of a tower goes. Only calls that are neither come to the bottom before
the sink there gets its own, and it does so when nothing is staged in any writer. -/
inductive Ends (ending : Ending) (t : Tower σ n) : Poll (Except SinkError Unit) × Tower σ n → Prop
  | stopped {lines : Journal} {answer : Poll (Except SinkError Unit)} {t' : Tower σ n}
      (passes : Passes t [] lines t') (unfinished : answer ≠ .ready (.ok ())) :
      Ends ending t (answer, t')
  | reached {lines : Journal} {t' : Tower σ n} (passes : Passes t [] lines t')
      (nothing_staged : ∀ p ∈ t'.pending, p = 0) :
      Ends ending t
        ((ending.poll t'.bottom).1, t'.mapBottom fun s => (ending.poll s).2)

/-- A flush or a shutdown of a writer that has pushed out its stage goes as that of the tower below
goes. -/
theorem Ends.below {ending : Ending} {answer : Poll (Except SinkError Unit)}
    {w w' : Writer (Tower σ n)} {lower lines : Journal} {t : Tower σ n}
    (h : Ends ending t (answer, w'.sink)) (hpasses : Passes w.sink lower lines t)
    (hconfig : w'.config = w.config) (hstage : w'.stage = {})
    (htop : PassesOn w.config.stageLimit w.stage [] lower {}) :
    @Ends σ _ (n + 1) ending w (answer, w') := by
  generalize hpolled : (answer, w'.sink) = polled at h
  cases h with
  | stopped passes unfinished =>
    obtain ⟨rfl, rfl⟩ := Prod.mk.inj hpolled
    have hboth := hpasses.append passes
    rw [List.append_nil] at hboth
    exact .stopped (hboth.below hconfig (hstage ▸ htop)) unfinished
  | @reached _ t' passes nothing_staged =>
    obtain ⟨hanswer, hsink⟩ := Prod.mk.inj hpolled
    have hboth := hpasses.append passes
    rw [List.append_nil] at hboth
    -- the tower in which the sink gets the call
    have hmid : @Passes σ _ (n + 1) w [] _ { w' with sink := t' } :=
      hboth.below hconfig (hstage ▸ htop)
    have hpending : w'.stage.pending = 0 := by rw [hstage]; rfl
    have hw : w' = { w' with sink := t'.mapBottom fun s => (ending.poll s).2 } := by rw [← hsink]
    rw [hanswer, hw]
    exact .reached hmid (List.forall_mem_cons.mpr ⟨hpending, nothing_staged⟩)

/-- By induction on the height, with the cases of the writer on top: its stage is pushed out before
the call on the tower below, or it is not and the call is not made. -/
theorem poll_ending (ending : Ending) (t : Tower σ n) (hvalid : t.Valid) :
    Ends ending t (ending.poll t) := by
  induction n with
  | zero => exact .reached ⟨.nil _, rfl, trivial, fun hopen => hopen⟩ (List.forall_mem_nil _)
  | succ n ih =>
    obtain ⟨hstage, hbelow⟩ := hvalid
    obtain ⟨lower, hmoves, hends⟩ := @Writer.poll_ending_ends (Tower σ n) _ ending t
    show @Ends σ _ (n + 1) ending t (@Ending.poll (Writer (Tower σ n)) _ ending t)
    generalize @Ending.poll (Writer (Tower σ n)) _ ending t = polled at *
    obtain ⟨answer, w'⟩ := polled
    obtain ⟨hcalls, hconfig⟩ := hmoves
    generalize hafter : w'.stage = stage' at hends
    cases hends with
    | stopped drains unfinished =>
      obtain ⟨lines, hpasses⟩ := calls_pass hcalls hbelow
      exact .stopped (hpasses.below hconfig (hafter ▸ drains.passesOn hstage)) unfinished
    | called drains =>
      obtain ⟨t', hlower, hcall⟩ := hcalls.of_append
      obtain ⟨lines, hpasses⟩ := calls_pass hlower hbelow
      have hpoll : ending.poll t' = (answer, w'.sink) := Ending.poll_of_step hcall.step_of_single
      have hends := ih t' hpasses.valid
      rw [hpoll] at hends
      exact hends.below hpasses hconfig hafter (drains.passesOn hstage)

/-! ## Towers over sinks with journals -/

/-- Nothing is staged in any writer, and the sink at the bottom has taken just `output`. -/
structure AllThrough (output : Bytes) (t : Tower (Journaled σ) n) : Prop where
  pending_eq : ∀ p ∈ t.pending, p = 0
  taken_eq : t.bottom.journal.taken = output

/-- How a flush or a shutdown goes of a tower whose output so far is `output`: what it answers, and
the tower that it leaves. -/
inductive Settles (output : Bytes) (ending : Ending) (t : Tower (Journaled σ) n) :
    Poll (Except SinkError Unit) × Tower (Journaled σ) n → Prop
  /-- Some writer cannot push out its stage, and the sink is not called. -/
  | held_up {lines : Journal} {answer : Poll (Except SinkError Unit)} {t' : Tower (Journaled σ) n}
      (journal : t'.bottom.journal = t.bottom.journal ++ lines) (not_called : lines.Open)
      (unfinished : answer ≠ .ready (.ok ())) : Settles output ending t (answer, t')
  /-- The sink of the tower `t'` is called, and its answer is the answer of the tower. -/
  | called {lines : Journal} {t' : Tower (Journaled σ) n}
      (journal : t'.bottom.journal = t.bottom.journal ++ lines) (not_before : lines.Open)
      (before : t'.AllThrough output)
      (after : (t'.mapBottom fun s => (ending.poll s).2).AllThrough output) :
      Settles output ending t
        ((ending.poll t'.bottom).1, t'.mapBottom fun s => (ending.poll s).2)

/-- A flush or a shutdown takes no bytes. -/
theorem AllThrough.poll {output : Bytes} {t : Tower (Journaled σ) n} (h : t.AllThrough output)
    (ending : Ending) : (t.mapBottom fun s => (ending.poll s).2).AllThrough output := by
  have hstep := Journaled.journal_of_asyncStep (ending.step t.bottom)
  refine ⟨?_, ?_⟩
  · rw [pending_mapBottom]
    exact h.pending_eq
  · rw [bottom_mapBottom, hstep, Journal.taken_append, Journal.taken_cons, ending.taken_line,
      h.taken_eq]
    exact List.append_nil _

theorem Ends.settles {output : Bytes} {ending : Ending} {t : Tower (Journaled σ) n}
    {polled : Poll (Except SinkError Unit) × Tower (Journaled σ) n} (h : Ends ending t polled)
    (houtput : t.bottom.journal.taken ++ t.staged = output) : t.Settles output ending polled := by
  cases h with
  | stopped passes unfinished =>
    have hjournal := Journaled.journal_of_asyncCalls passes.calls
    exact .held_up hjournal (passes.open_of_open (List.forall_mem_nil _)) unfinished
  | @reached lines t' passes nothing_staged =>
    have hjournal := Journaled.journal_of_asyncCalls passes.calls
    have htaken : t'.bottom.journal.taken = output := by
      have hall := passes.conserves
      rw [staged_eq_nil nothing_staged, Journal.taken_nil, iterate_escape_nil, List.append_nil,
        List.append_nil] at hall
      rw [hjournal, Journal.taken_append, hall, houtput]
    have hbefore : t'.AllThrough output := ⟨nothing_staged, htaken⟩
    exact .called hjournal (passes.open_of_open (List.forall_mem_nil _)) hbefore
      (hbefore.poll ending)

end
end Tower

/-- **Conservation of output in towers.** After any requests to a tower of new writers over any
sink, what the sink took and then what the writers hold back is the input taken by the topmost one,
escaped by each writer. A write never flushes the sink or shuts it down; a flush or a shutdown does
only when nothing is held back, and it does if it is answered with success. -/
theorem tower_conserves {σ : Type} [AsyncSink σ] (s : σ) (configs : List Config)
    (requests : List Request) :
    let asked := AsyncSink.askAll (Tower.build ({ sink := s } : Journaled σ) configs) requests
    let output := escape^[configs.length] asked.1.taken
    asked.2.bottom.journal.taken ++ asked.2.staged = output ∧
      (∀ data, ∃ lines, lines.Open ∧
        (AsyncSink.pollWrite asked.2 data).2.bottom.journal = asked.2.bottom.journal ++ lines) ∧
      ∀ ending : Ending, asked.2.Settles output ending (ending.poll asked.2) := by
  intro asked output
  have hcalls := AsyncSink.askAll_calls (Tower.build ({ sink := s } : Journaled σ) configs) requests
  obtain ⟨lines, hpasses⟩ := Tower.calls_pass hcalls (Tower.valid_build _ configs)
  have houtput : asked.2.bottom.journal.taken ++ asked.2.staged = output := by
    have hjournal := Journaled.journal_of_asyncCalls hpasses.calls
    have hconserves := hpasses.conserves
    rw [Tower.bottom_build] at hjournal
    rw [Tower.staged_build] at hconserves
    rw [hjournal]
    exact hconserves
  refine ⟨houtput, fun data => ?_, fun ending => ?_⟩
  · have hwrite := AsyncSink.ask_step asked.2 (.write data)
    obtain ⟨more, hmore⟩ := Tower.calls_pass (.single hwrite) hpasses.valid
    have hopen : more.Open := hmore.open_of_open (List.forall_mem_singleton.mpr rfl)
    exact ⟨more, hopen, Journaled.journal_of_asyncCalls hmore.calls⟩
  · exact (Tower.poll_ending ending asked.2 hpasses.valid).settles houtput

/-- The lower writer holds back the second half of a pair of the upper one. -/
example :
    let sink : ScriptedSink := { script := { writes := { steps := [.take (some 3), .pending] } } }
    let asked := AsyncSink.askAll (Tower.build ({ sink } : Journaled ScriptedSink) [{}, {}])
      [.write [1, 255], .finish .flush]
    asked.2.bottom.journal.taken = [1, 255, 255] ∧ asked.2.staged = [255, 255] ∧
      asked.2.pending = [0, 2] := by
  cbv

end TelnetEscape
