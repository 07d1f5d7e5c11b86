import TelnetEscape.Escape.Basic
import TelnetEscape.Sink.Journal

/-!
# Timelines

The journal of a sink shows the calls of a polled writer, but not when it stages input or drops what
it has staged. A `Timeline` puts these moments in between the lines. `Timeline.account` then keeps,
at every point, the bytes that the sink took and the input that was staged since the start or since
the last drop.

What a writer may do next depends on what it has to offer (`Backlog`): all of it, at every offer;
after a short write the rest of it at once; and no flush or shutdown before there is nothing left.
`Deed.Does` is one such step and `Leads` any number of them. `Leads.orderly` says what this comes to
for the sink, in terms of the timeline alone.
-/

namespace TelnetEscape

/-- What a polled writer does, one thing at a time. -/
inductive Deed
  /-- A call on the sink, with its answer, or an event. -/
  | line (entry : Entry)
  /-- The escaped form of some input is staged. -/
  | staged (input : Bytes)
  /-- What is staged is dropped. -/
  | dropped

/-- What a polled writer does, in order. -/
abbrev Timeline := List Deed

/-- What came to the sink, and what was to come to it. -/
structure Account where
  /-- The bytes that the sink took. -/
  stream : Bytes := []
  /-- The input that was staged. -/
  input : Bytes := []

/-- After a drop the account is a new one. -/
def Account.enter (a : Account) : Deed → Account
  | .line e => { a with stream := a.stream ++ e.taken }
  | .staged input => { a with input := a.input ++ input }
  | .dropped => {}

namespace Deed

def line? : Deed → Option Entry
  | line e => some e
  | _ => none

/-- The input that is staged. -/
def input : Deed → Bytes
  | staged input => input
  | _ => []

end Deed

namespace Timeline

/-- The calls and events. -/
def lines (t : Timeline) : Journal :=
  t.filterMap Deed.line?

/-- All input that was staged, dropped or not. -/
def input (t : Timeline) : Bytes :=
  t.flatMap Deed.input

/-- The account since the start or the last drop. -/
def account (t : Timeline) : Account :=
  t.foldl Account.enter {}

@[simp] theorem lines_append (t u : Timeline) : lines (t ++ u) = lines t ++ lines u :=
  List.filterMap_append

@[simp] theorem input_append (t u : Timeline) : input (t ++ u) = input t ++ input u :=
  List.flatMap_append

end Timeline

/-! ## One step -/

/-- What a polled writer has to offer. -/
structure Backlog where
  unsent : Bytes := []
  /-- The sink took only a part of the last offer, and the rest comes next. -/
  cut : Bool := false

/-- One step of a writer that stages at most `limit` bytes. Only a short write ties it to what comes
next: an offer that was not taken may be made again later, behind other steps. -/
inductive Deed.Does (limit : Nat) : Backlog → Deed → Backlog → Prop
  | untaken {unsent : Bytes} {cut : Bool} {answer : Poll (Except SinkError Nat)}
      (some_left : unsent ≠ []) (taken : (Entry.write unsent answer).taken = []) :
      Does limit ⟨unsent, cut⟩ (.line (.write unsent answer)) ⟨unsent, false⟩
  | took_part {unsent : Bytes} {cut : Bool} {n : Nat} (some_taken : 0 < n)
      (some_left : n < unsent.length) :
      Does limit ⟨unsent, cut⟩ (.line (.write unsent (.ready (.ok n)))) ⟨unsent.drop n, true⟩
  | took_all {unsent : Bytes} {cut : Bool} {n : Nat} (some_left : unsent ≠ [])
      (all_taken : unsent.length ≤ n) :
      Does limit ⟨unsent, cut⟩ (.line (.write unsent (.ready (.ok n)))) {}
  | flush (answer : Poll (Except SinkError Unit)) : Does limit {} (.line (.flush answer)) {}
  | shutdown (answer : Poll (Except SinkError Unit)) : Does limit {} (.line (.shutdown answer)) {}
  | event {unsent : Bytes} (e : Event) :
      Does limit ⟨unsent, false⟩ (.line (.event e)) ⟨unsent, false⟩
  | stage {unsent input : Bytes} (fits : (unsent ++ escape input).length ≤ limit) :
      Does limit ⟨unsent, false⟩ (.staged input) ⟨unsent ++ escape input, false⟩
  | drop {unsent : Bytes} : Does limit ⟨unsent, false⟩ .dropped {}

/-- The account of a timeline and the backlog at its end make up the escaped input. -/
def Account.Covers (a : Account) (b : Backlog) : Prop :=
  a.stream ++ b.unsent = escape a.input

namespace Deed.Does

variable {limit : Nat} {b b' : Backlog} {d : Deed}

theorem covers (h : d.Does limit b b') {a : Account} (ha : a.Covers b) : (a.enter d).Covers b' := by
  cases h with
  | untaken _ taken =>
    have hstream : a.stream ++ _ = escape a.input := ha
    show a.stream ++ _ ++ _ = _
    rw [taken, List.append_nil]
    exact hstream
  | @took_part unsent cut n =>
    show a.stream ++ unsent.take n ++ unsent.drop n = _
    rw [List.append_assoc, List.take_append_drop]
    exact ha
  | @took_all unsent cut n _ all_taken =>
    show a.stream ++ unsent.take n ++ [] = _
    rw [List.take_of_length_le all_taken, List.append_nil]
    exact ha
  | flush | shutdown | event =>
    show a.stream ++ [] ++ _ = _
    rw [List.append_nil]
    exact ha
  | @stage unsent input =>
    have hstream : a.stream ++ unsent = escape a.input := ha
    show a.stream ++ (unsent ++ escape input) = escape (a.input ++ input)
    rw [← List.append_assoc, hstream, escape_append]
  | drop => rfl

theorem length_le (h : d.Does limit b b') (hb : b.unsent.length ≤ limit) :
    b'.unsent.length ≤ limit := by
  cases h with
  | untaken | event => exact hb
  | @took_part unsent _ n =>
    rw [List.length_drop]
    exact Nat.le_trans (Nat.sub_le _ _) hb
  | took_all | flush | shutdown | drop => exact Nat.zero_le _
  | stage fits => exact fits

/-- An offer is all of the backlog. -/
theorem offer {o : Bytes} {answer : Poll (Except SinkError Nat)}
    (h : Does limit b (.line (.write o answer)) b') : o = b.unsent ∧ o ≠ [] := by
  cases h with
  | untaken some_left | took_all some_left => exact ⟨rfl, some_left⟩
  | took_part _ some_left =>
    exact ⟨rfl, List.length_pos_iff.mp (Nat.zero_lt_of_lt some_left)⟩

/-- Of a short write the sink has a part. -/
theorem taken_ne_nil {o : Bytes} {n : Nat} (some_taken : 0 < n) (some_left : n < o.length) :
    (Entry.write o (.ready (.ok n))).taken ≠ [] := by
  refine List.ne_nil_of_length_pos ?_
  rw [Entry.taken, List.length_take]
  omega

/-- An offer of which nothing was taken stays. -/
theorem unsent_of_untaken {o : Bytes} {answer : Poll (Except SinkError Nat)}
    (h : Does limit b (.line (.write o answer)) b')
    (nothing : (Entry.write o answer).taken = []) : b'.unsent = o := by
  cases h with
  | untaken => rfl
  | took_part some_taken some_left => exact absurd nothing (taken_ne_nil some_taken some_left)
  | took_all some_left all_taken =>
    have htaken : o.take _ = [] := nothing
    rw [List.take_of_length_le all_taken] at htaken
    exact absurd htaken some_left

end Deed.Does

/-! ## Any number of steps -/

/-- From the backlog `b`, the deeds of a timeline lead one after the other to a last backlog. -/
inductive Leads (limit : Nat) : Backlog → Timeline → Backlog → Prop
  | nil (b : Backlog) : Leads limit b [] b
  | cons {b b' b'' : Backlog} {d : Deed} {t : Timeline} (first : d.Does limit b b')
      (rest : Leads limit b' t b'') : Leads limit b (d :: t) b''

namespace Leads

variable {limit : Nat} {b b' b'' : Backlog} {t u : Timeline}

theorem single {d : Deed} (h : d.Does limit b b') : Leads limit b [d] b' :=
  .cons h (.nil b')

theorem append (h : Leads limit b t b') (h' : Leads limit b' u b'') :
    Leads limit b (t ++ u) b'' := by
  induction h with
  | nil => exact h'
  | cons first _ ih => exact .cons first (ih h')

theorem of_append (h : Leads limit b (t ++ u) b'') :
    ∃ b', Leads limit b t b' ∧ Leads limit b' u b'' := by
  induction t generalizing b with
  | nil => exact ⟨b, .nil b, h⟩
  | cons d t ih =>
    cases h with
    | cons first rest =>
      obtain ⟨b', ht, hu⟩ := ih rest
      exact ⟨b', .cons first ht, hu⟩

theorem covers (h : Leads limit b t b') {a : Account} (ha : a.Covers b) :
    (t.foldl Account.enter a).Covers b' := by
  induction h generalizing a with
  | nil => exact ha
  | cons first _ ih => exact ih (first.covers ha)

theorem length_le (h : Leads limit b t b') (hb : b.unsent.length ≤ limit) :
    b'.unsent.length ≤ limit := by
  induction h with
  | nil => exact hb
  | cons first _ ih => exact ih (first.length_le hb)

/-- Between two offers the backlog only grows, unless it is dropped. -/
theorem unsent_mono (h : Leads limit b t b') (no_write : ∀ e, .line e ∈ t → e.isWrite = false)
    (kept : .dropped ∉ t) : b.unsent <+: b'.unsent := by
  induction h with
  | nil => exact List.prefix_refl _
  | @cons b b₁ _ d t first _ ih =>
    have hfirst : b.unsent <+: b₁.unsent := by
      cases first with
      | untaken | took_part | took_all => cases no_write _ List.mem_cons_self
      | flush | shutdown | event => exact List.prefix_refl _
      | stage => exact List.prefix_append _ _
      | drop => exact absurd List.mem_cons_self kept
    exact hfirst.trans (ih (fun e he => no_write e (List.mem_cons_of_mem d he))
      fun hdrop => kept (List.mem_cons_of_mem d hdrop))

/-- After a short write the rest of the offer comes next. -/
theorem next_of_cut (h : Leads limit b t b') (cut : b.cut = true) (whole : b'.cut = false) :
    ∃ answer rest, t = .line (.write b.unsent answer) :: rest := by
  cases h with
  | nil =>
    rw [cut] at whole
    cases whole
  | cons first =>
    cases first with
    | untaken | took_part | took_all => exact ⟨_, _, rfl⟩
    | flush | shutdown | event | stage | drop => cases cut

end Leads

/-! ## What the sink sees -/

/-- The calls of a timeline come in good order. Each is looked at with what is before it. -/
structure Orderly (limit : Nat) (t : Timeline) : Prop where
  /-- An offer is not empty, fits on the stage, and completes the escaped form of the input staged
  so far. -/
  offer : ∀ (before : Timeline) o answer after, t = before ++ .line (.write o answer) :: after →
    o ≠ [] ∧ o.length ≤ limit ∧ before.account.stream ++ o = escape before.account.input
  /-- An offer of which nothing was taken begins the next one, unless it was dropped. -/
  again : ∀ (before : Timeline) o answer between o' answer' after,
    t = before ++ .line (.write o answer) :: (between ++ .line (.write o' answer') :: after) →
    (Entry.write o answer).taken = [] → (∀ e, .line e ∈ between → e.isWrite = false) →
    .dropped ∉ between → o <+: o'
  /-- After a short write the rest of the offer is the next call. -/
  rest : ∀ (before : Timeline) o n after, t = before ++ .line (.write o (.ready (.ok n))) :: after →
    0 < n → n < o.length → ∃ answer more, after = .line (.write (o.drop n) answer) :: more
  /-- A flush or shutdown finds all input at the sink. -/
  finish : ∀ (before : Timeline) e after, t = before ++ .line e :: after →
    e.isFlush = true ∨ e.isShutdown = true →
    before.account.stream = escape before.account.input

/-- Each call is one step of the timeline, between the backlog that the steps before it lead to and
the one that the steps behind it start from. -/
theorem Leads.orderly {limit : Nat} {t : Timeline} {unsent : Bytes}
    (h : Leads limit {} t ⟨unsent, false⟩) : Orderly limit t := by
  have hstart : Account.Covers {} {} := rfl
  refine ⟨?_, ?_, ?_, ?_⟩
  · rintro before o answer after rfl
    obtain ⟨b, hbefore, hafter⟩ := h.of_append
    cases hafter with
    | cons first =>
      obtain ⟨rfl, some_left⟩ := first.offer
      exact ⟨some_left, hbefore.length_le (Nat.zero_le _), hbefore.covers hstart⟩
  · rintro before o answer between o' answer' after rfl hnothing no_write kept
    obtain ⟨b, -, hafter⟩ := h.of_append
    cases hafter with
    | @cons _ b₁ _ _ _ first hrest =>
      obtain ⟨b₂, hbetween, hnext⟩ := hrest.of_append
      cases hnext with
      | cons next =>
        obtain ⟨rfl, -⟩ := next.offer
        rw [← first.unsent_of_untaken hnothing]
        exact hbetween.unsent_mono no_write kept
  · rintro before o n after rfl some_taken some_left
    obtain ⟨b, -, hafter⟩ := h.of_append
    cases hafter with
    | cons first hrest =>
      cases first with
      | untaken _ taken => exact absurd taken (Deed.Does.taken_ne_nil some_taken some_left)
      | took_part => exact hrest.next_of_cut rfl rfl
      | took_all _ all_taken => exact absurd some_left (Nat.not_lt.mpr all_taken)
  · rintro before e after rfl hkind
    obtain ⟨b, hbefore, hafter⟩ := h.of_append
    have hcovers := hbefore.covers hstart
    cases hafter with
    | cons first =>
      cases first with
      | flush | shutdown => exact (List.append_nil _).symm.trans hcovers
      | untaken | took_part | took_all | event => simp [Entry.isFlush, Entry.isShutdown] at hkind

end TelnetEscape
