import TelnetEscape.Proofs.Calls
import TelnetEscape.Writer.Blocking
import TelnetEscape.Writer.Polled

/-!
# Offering a stage to a sink

A blocking and a polled writer push out a stage in the same way: they offer what is unsent, after a
short answer what is left of it, and stop when nothing is left, when a call fails or when it is
pending. `Offers` says which calls that comes to, for any answers of the sink.

* `push_offers`, `pollPush_offers`: this is what the two kinds of writers do;
* `Offers.taken_prefix`, `Offers.taken_eq_iff`: the sink takes a front of what is unsent, and all of
  it just when the push succeeds;
* `Offers.failure?_eq`: the first call that fails is the one whose error is reported.
-/

namespace TelnetEscape

/-! ## Failed calls -/

/-- The error that an answer brings. -/
def Poll.error? {α : Type} : Poll (Except SinkError α) → Option SinkError
  | .ready (.error e) => some e
  | _ => none

/-- The error that a writer sees in a call. An offer of which nothing is taken is one too. -/
def Entry.failure? : Entry → Option SinkError
  | .write _ (.ready (.ok 0)) => some .nothingTaken
  | .write _ (.ready (.error e)) => some e
  | .flush (.ready (.error e)) => some e
  | .shutdown (.ready (.error e)) => some e
  | _ => none

/-- The error of the first call that failed. -/
def Journal.failure? (lines : Journal) : Option SinkError :=
  lines.findSome? Entry.failure?

/-- No write is made after a failed call. -/
def Journal.StopsAtFailure (lines : Journal) : Prop :=
  lines.Pairwise fun e later => e.failure? ≠ none → later.isWrite = false

/-- The last line is a write that failed with `e`. -/
def Journal.EndsInFailure (lines : Journal) (e : SinkError) : Prop :=
  ∃ (front : Journal) (offered : Bytes) (answer : Poll (Except SinkError Nat)),
    lines = front ++ [.write offered answer] ∧ (Entry.write offered answer).failure? = some e

theorem Journal.failure?_append (a b : Journal) :
    failure? (a ++ b) = (failure? a).or (failure? b) :=
  List.findSome?_append

theorem Journal.entry_failure?_eq_none {lines : Journal} (h : lines.failure? = none) {e : Entry}
    (he : e ∈ lines) : e.failure? = none :=
  List.findSome?_eq_none_iff.mp h e he

/-- Calls that stop at a failure may come after calls none of which failed. -/
theorem Journal.StopsAtFailure.append_of_none {a b : Journal} (ha : a.failure? = none)
    (hb : b.StopsAtFailure) : (a ++ b).StopsAtFailure := by
  refine List.pairwise_append.mpr ⟨?_, hb, ?_⟩
  · exact List.pairwise_of_forall_mem_list fun e he _ _ hne =>
      absurd (entry_failure?_eq_none ha he) hne
  · intro e he _ _ hne
    exact absurd (entry_failure?_eq_none ha he) hne

/-- Nothing but writes may not come after a failure. -/
theorem Journal.StopsAtFailure.append_of_no_write {a b : Journal} (ha : a.StopsAtFailure)
    (hb : ∀ e ∈ b, e.isWrite = false) : (a ++ b).StopsAtFailure := by
  refine List.pairwise_append.mpr ⟨ha, ?_, ?_⟩
  · exact List.pairwise_of_forall_mem_list fun _ _ later hl _ => hb later hl
  · intro _ _ later hl _
    exact hb later hl

/-! ## Offers -/

/-- The calls that pushing out `unsent` makes, and what it comes to. -/
inductive Offers : Bytes → Journal → Poll (Except SinkError Unit) → Prop
  | done : Offers [] [] (.ready (.ok ()))
  | pending {unsent : Bytes} (some_left : unsent ≠ []) :
      Offers unsent [.write unsent .pending] .pending
  | refused {unsent : Bytes} (some_left : unsent ≠ []) :
      Offers unsent [.write unsent (.ready (.ok 0))] (.ready (.error .nothingTaken))
  | failed {unsent : Bytes} (some_left : unsent ≠ []) (e : SinkError) :
      Offers unsent [.write unsent (.ready (.error e))] (.ready (.error e))
  | took {unsent : Bytes} {n : Nat} {lines : Journal} {answer : Poll (Except SinkError Unit)}
      (some_left : unsent ≠ []) (rest : Offers (unsent.drop (n + 1)) lines answer) :
      Offers unsent (.write unsent (.ready (.ok (n + 1))) :: lines) answer

namespace Offers

variable {unsent : Bytes} {lines : Journal} {answer : Poll (Except SinkError Unit)}

/-- What holds of every write that offers something holds of all calls. -/
theorem forall_mem {P : Entry → Prop} (h : Offers unsent lines answer)
    (hwrite : ∀ offered answer, offered ≠ [] → P (.write offered answer)) : ∀ e ∈ lines, P e := by
  induction h with
  | done => exact List.forall_mem_nil _
  | pending some_left | refused some_left | failed some_left =>
    exact List.forall_mem_singleton.mpr (hwrite _ _ some_left)
  | took some_left _ ih => exact List.forall_mem_cons.mpr ⟨hwrite _ _ some_left, ih⟩

theorem isWrite (h : Offers unsent lines answer) : ∀ e ∈ lines, e.isWrite = true :=
  h.forall_mem fun _ _ _ => rfl

theorem events_eq_nil (h : Offers unsent lines answer) : lines.events = [] :=
  List.filterMap_eq_nil_iff.mpr (h.forall_mem fun _ _ _ => rfl)

theorem taken_prefix (h : Offers unsent lines answer) : lines.taken <+: unsent := by
  induction h with
  | done => exact List.prefix_refl _
  | pending | refused | failed => simp [Entry.taken]
  | @took unsent n lines answer _ _ ih =>
    rw [Journal.taken_cons]
    have := (List.prefix_append_right_inj (unsent.take (n + 1))).mpr ih
    rwa [List.take_append_drop] at this

/-- All is taken just when the push succeeds. -/
theorem taken_eq_iff (h : Offers unsent lines answer) :
    lines.taken = unsent ↔ answer = .ready (.ok ()) := by
  induction h with
  | done => simp
  | pending some_left | refused some_left | failed some_left =>
    simpa [Entry.taken] using some_left.symm
  | @took unsent n lines answer _ _ ih =>
    have hsplit : (lines.taken = unsent.drop (n + 1)) ↔
        unsent.take (n + 1) ++ lines.taken = unsent.take (n + 1) ++ unsent.drop (n + 1) :=
      List.append_right_inj _ |>.symm
    rw [List.take_append_drop] at hsplit
    exact hsplit.symm.trans ih

theorem failure?_eq (h : Offers unsent lines answer) : lines.failure? = answer.error? := by
  induction h with
  | done | pending | refused | failed => rfl
  | took _ _ ih => exact ih

theorem stopsAtFailure (h : Offers unsent lines answer) : lines.StopsAtFailure := by
  induction h with
  | done => exact List.Pairwise.nil
  | pending | refused | failed => exact List.pairwise_singleton _ _
  | took _ _ ih => exact List.Pairwise.cons (fun _ _ hne => absurd rfl hne) ih

/-- A push that fails ends with the write that failed. -/
theorem endsInFailure {e : SinkError} (h : Offers unsent lines answer)
    (hfailed : answer = .ready (.error e)) : lines.EndsInFailure e := by
  induction h with
  | done | pending => cases hfailed
  | refused | failed =>
    cases hfailed
    exact ⟨[], _, _, rfl, rfl⟩
  | took _ _ ih =>
    obtain ⟨front, offered, answer, rfl, hfailure⟩ := ih hfailed
    exact ⟨_ :: front, offered, answer, rfl, hfailure⟩

end Offers

/-! ## Stages taken in parts -/

namespace Stage

@[simp] theorem advance_zero (s : Stage) : s.advance 0 = s := by
  simp [advance]

theorem advance_advance (s : Stage) (a b : Nat) : (s.advance a).advance b = s.advance (a + b) := by
  simp only [advance, pending, Stage.mk.injEq, true_and]
  omega

theorem unsent_ne_nil {s : Stage} (h : s.pending ≠ 0) : s.unsent ≠ [] :=
  mt s.unsent_eq_nil_iff.mp h

theorem advance_min (s : Stage) (n : Nat) : s.advance (min n s.pending) = s.advance n := by
  simp [advance]

section
variable {s : Stage} {front : Bytes} (h : front <+: s.unsent)
include h

theorem sent_advance_length : (s.advance front.length).sent = s.sent + front.length := by
  have := h.length_le
  rw [length_unsent] at this
  simp only [advance]
  omega

theorem taken_advance_length : (s.advance front.length).taken = s.taken ++ front := by
  rw [taken_advance, ← List.prefix_iff_eq_take.mp h]

theorem append_unsent_advance_length : front ++ (s.advance front.length).unsent = s.unsent := by
  rw [unsent_advance]
  exact List.prefix_iff_eq_append.mp h

end

end Stage

/-! ## What the writers do -/

namespace Writer

variable {σ : Type}

/-- The writer after its sink, now in state `s`, took the bytes of the offers `lines`. -/
def afterOffers (w : Writer σ) (s : σ) (lines : Journal) : Writer σ :=
  w.advance s lines.taken.length

@[simp] theorem afterOffers_nil (w : Writer σ) : w.afterOffers w.sink [] = w := by
  simp [afterOffers, advance]

theorem afterOffers_of_taken_nil (w : Writer σ) (s : σ) {lines : Journal}
    (h : lines.taken = []) : w.afterOffers s lines = { w with sink := s } := by
  simp [afterOffers, advance, h]

/-- Taking part of what is unsent first, and then some of the rest. -/
theorem afterOffers_advance (w : Writer σ) (s s' : σ) (n : Nat) (lines : Journal) :
    (w.advance s n).afterOffers s' lines =
      w.afterOffers s' (.write w.stage.unsent (.ready (.ok n)) :: lines) := by
  have : (w.stage.unsent.take n).length = min n w.stage.pending := by
    rw [List.length_take, Stage.length_unsent]
  simp only [afterOffers, advance, Journal.taken_cons, Entry.taken, List.length_append, this,
    ← Stage.advance_advance, Stage.advance_min]

theorem push_offers [Sink σ] (w : Writer σ) :
    ∃ lines, Calls Sink.Step w.sink lines w.push.2.sink ∧
      Offers w.stage.unsent lines (.ready w.push.1) ∧
      w.push.2 = w.afterOffers w.push.2.sink lines := by
  induction w using push.induct with
  | case1 w hdone =>
    rw [push, if_pos hdone, (Stage.unsent_eq_nil_iff _).mpr hdone]
    exact ⟨[], .nil _, .done, by simp⟩
  | case2 w hleft s hwrite =>
    rw [push, if_neg hleft, hwrite]
    refine ⟨[.write w.stage.unsent (.ready (.ok 0))], .single hwrite,
      .refused (Stage.unsent_ne_nil hleft), ?_⟩
    exact (afterOffers_of_taken_nil w s rfl).symm
  | case3 w hleft n s hwrite ih =>
    rw [push, if_neg hleft, hwrite]
    obtain ⟨lines, hcalls, hoffers, hw⟩ := ih
    rw [stage_advance, Stage.unsent_advance] at hoffers
    refine ⟨.write w.stage.unsent (.ready (.ok (n + 1))) :: lines, .cons hwrite hcalls,
      .took (Stage.unsent_ne_nil hleft) hoffers, ?_⟩
    exact hw.trans (afterOffers_advance w s _ (n + 1) lines)
  | case4 w hleft e s hwrite =>
    rw [push, if_neg hleft, hwrite]
    refine ⟨[.write w.stage.unsent (.ready (.error e))], .single hwrite,
      .failed (Stage.unsent_ne_nil hleft) e, ?_⟩
    exact (afterOffers_of_taken_nil w s rfl).symm

theorem pollPush_offers [AsyncSink σ] (w : Writer σ) :
    ∃ lines, Calls AsyncSink.Step w.sink lines w.pollPush.2.sink ∧
      Offers w.stage.unsent lines w.pollPush.1 ∧
      w.pollPush.2 = w.afterOffers w.pollPush.2.sink lines := by
  induction w using pollPush.induct with
  | case1 w hdone =>
    rw [pollPush, if_pos hdone, (Stage.unsent_eq_nil_iff _).mpr hdone]
    exact ⟨[], .nil _, .done, by simp⟩
  | case2 w hleft s hwrite =>
    rw [pollPush, if_neg hleft, hwrite]
    refine ⟨[.write w.stage.unsent .pending], .single hwrite,
      .pending (Stage.unsent_ne_nil hleft), ?_⟩
    exact (afterOffers_of_taken_nil w s rfl).symm
  | case3 w hleft s hwrite =>
    rw [pollPush, if_neg hleft, hwrite]
    refine ⟨[.write w.stage.unsent (.ready (.ok 0))], .single hwrite,
      .refused (Stage.unsent_ne_nil hleft), ?_⟩
    exact (afterOffers_of_taken_nil w s rfl).symm
  | case4 w hleft n s hwrite ih =>
    rw [pollPush, if_neg hleft, hwrite]
    obtain ⟨lines, hcalls, hoffers, hw⟩ := ih
    rw [stage_advance, Stage.unsent_advance] at hoffers
    refine ⟨.write w.stage.unsent (.ready (.ok (n + 1))) :: lines, .cons hwrite hcalls,
      .took (Stage.unsent_ne_nil hleft) hoffers, ?_⟩
    exact hw.trans (afterOffers_advance w s _ (n + 1) lines)
  | case5 w hleft e s hwrite =>
    rw [pollPush, if_neg hleft, hwrite]
    refine ⟨[.write w.stage.unsent (.ready (.error e))], .single hwrite,
      .failed (Stage.unsent_ne_nil hleft) e, ?_⟩
    exact (afterOffers_of_taken_nil w s rfl).symm

end Writer
end TelnetEscape
