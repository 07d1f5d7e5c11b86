import TelnetEscape.Proofs.SendOutcome

/-!
# Writing everything through one blocking writer

A writer serves as a plain byte sink by `write`, and callers write everything by calling it again
with what is left, and at once again after an interruption (`WritesAll`). `write_calls` says what one
call does to the sink of the writer: a count of `n` means that the escaped form of the first `n`
bytes is there and nothing more; an error means that nothing is there, or that a pair is torn, and
then it is not one that callers try again after. Hence no byte is sent twice, however often the calls
are cut short or interrupted (`WriteAllOutcome`).
-/

namespace TelnetEscape

/-- What the sink has of `data` after one write, told by the answer. -/
inductive WriteOutcome (data : Bytes) (lines : Journal) : Except SinkError Nat → Prop
  | took {n : Nat} (n_le : n ≤ data.length) (some_taken : data ≠ [] → 0 < n)
      (taken : lines.taken = escape (data.take n)) (whole : lines.torn = false) :
      WriteOutcome data lines (.ok n)
  | nothing {e : SinkError} (taken : lines.taken = []) (whole : lines.torn = false) :
      WriteOutcome data lines (.error e)
  | tore {e : SinkError} {a : Nat} (iac_at : data[a]? = some iac)
      (taken : lines.taken = escape (data.take a) ++ [iac]) (torn : lines.torn = true)
      (final : e.kind ≠ .interrupted) : WriteOutcome data lines (.error e)

/-- What the sink has of `data` after writing all of it: everything on success; else, and while the
calls that were allowed do not suffice, a front of it. Only an error can leave half a pair. -/
def WriteAllOutcome (data : Bytes) (lines : Journal) : Option (Except SinkError Unit) → Prop
  | some (.ok ()) => lines.taken = escape data
  | some (.error _) => ∃ a torn, Progress.Reaches ⟨a, torn⟩ data lines.taken
  | none => ∃ a, Progress.Reaches ⟨a, false⟩ data lines.taken

/-! ## One write -/

/-- The answer of a send, given as that of a plain write. -/
def writeAnswer : Except Shortfall Nat → Except SinkError Nat
  | .ok n => .ok n
  | .error f => f.toWriteAnswer

theorem Writer.write_eq {σ : Type} [Sink σ] (w : Writer σ) (data : Bytes) :
    w.write data = (writeAnswer (w.send data).1, (w.send data).2) := by
  rw [write]
  rcases w.send data with ⟨_ | _, _⟩ <;> rfl

/-- How a shortfall is answered to a plain write. -/
inductive Shortfall.AnswersWrite (f : Shortfall) : Except SinkError Nat → Prop
  | short_write (some_delivered : 0 < f.delivered) (whole : f.tornPair = false) :
      AnswersWrite f (.ok f.delivered)
  | nothing (none_delivered : f.delivered = 0) (whole : f.tornPair = false) :
      AnswersWrite f (.error f.cause)
  | torn (torn : f.tornPair = true) (final : f.cause.kind ≠ .interrupted) :
      AnswersWrite f (.error f.cause)
  | wrapped (torn : f.tornPair = true) (kind_eq : f.cause.kind = .interrupted) :
      AnswersWrite f (.error (.shortfall f.delivered true f.cause))

theorem Shortfall.answersWrite_toWriteAnswer (f : Shortfall) : f.AnswersWrite f.toWriteAnswer := by
  unfold toWriteAnswer
  by_cases hshort : 0 < f.delivered ∧ f.tornPair = false
  · rw [if_pos hshort]
    exact .short_write hshort.1 hshort.2
  rw [if_neg hshort]
  by_cases hwrapped : f.tornPair = true ∧ f.cause.kind = .interrupted
  · rw [if_pos hwrapped, toError, hwrapped.1]
    exact .wrapped hwrapped.1 hwrapped.2
  rw [if_neg hwrapped]
  cases htorn : f.tornPair with
  | false => exact .nothing (Nat.eq_zero_of_not_pos fun hpos => hshort ⟨hpos, htorn⟩) htorn
  | true => exact .torn htorn fun hkind => hwrapped ⟨htorn, hkind⟩

theorem SendOk.writeOutcome {data : Bytes} {lines : Journal} {n : Nat} (h : SendOk data lines n) :
    WriteOutcome data lines (.ok n) := by
  refine .took (Nat.le_of_eq h.count) ?_ ?_ h.whole
  · intro hne
    rw [h.count]
    exact List.length_pos_iff.mpr hne
  · rw [h.taken, h.count, List.take_length]

theorem SendFailed.writeOutcome {data : Bytes} {lines : Journal} {f : Shortfall}
    (h : SendFailed data lines f) : WriteOutcome data lines f.toWriteAnswer := by
  have htaken := h.reaches.output_eq
  have htorn := h.torn
  have hanswers := f.answersWrite_toWriteAnswer
  generalize f.toWriteAnswer = answer at hanswers ⊢
  cases hanswers with
  | short_write some_delivered whole =>
    rw [whole] at htaken htorn
    refine .took h.reaches.inputs_le (fun _ => some_delivered) ?_ htorn
    rw [htaken, halfPair_false, List.append_nil]
  | nothing none_delivered whole =>
    rw [whole] at htaken htorn
    refine .nothing ?_ htorn
    rw [htaken, none_delivered]
    rfl
  | torn torn final =>
    rw [torn] at htaken htorn
    exact .tore (h.reaches.iac_at torn) htaken htorn final
  | wrapped torn =>
    rw [torn] at htaken htorn
    exact .tore (h.reaches.iac_at torn) htaken htorn ErrorKind.noConfusion

theorem SendOutcome.writeOutcome {data : Bytes} {lines : Journal} {answer : Except Shortfall Nat}
    (h : SendOutcome data lines answer) : WriteOutcome data lines (writeAnswer answer) := by
  cases answer with
  | ok n => exact SendOk.writeOutcome h
  | error f => exact SendFailed.writeOutcome h

/-- What one write to a writer does to its sink. -/
theorem Writer.write_calls {σ : Type} [Sink σ] (w : Writer σ) (data : Bytes) :
    ∃ lines, Calls Sink.Step w.sink lines (w.write data).2.sink ∧
      WriteOutcome data lines (w.write data).1 := by
  obtain ⟨lines, hcalls, houtcome, -, -⟩ := w.send_calls data
  rw [write_eq]
  exact ⟨lines, hcalls, houtcome.writeOutcome⟩

theorem Writer.calls_of_write {σ : Type} [Sink σ] {w w' : Writer σ} {data : Bytes}
    {answer : Except SinkError Nat} (h : Sink.Step w (.write data (.ready answer)) w') :
    ∃ lines, Calls Sink.Step w.sink lines w'.sink ∧ WriteOutcome data lines answer := by
  have hwrite : w.write data = (answer, w') := h
  have hcalls := w.write_calls data
  rwa [hwrite] at hcalls

/-- A call that is no write, and an event, are passed on to the sink. -/
theorem Writer.step_of_not_write {σ : Type} [Sink σ] {w w' : Writer σ} {e : Entry}
    (h : Sink.Step w e w') (hwrite : e.isWrite = false) : Sink.Step w.sink e w'.sink := by
  match e, h with
  | .write .., _ => cases hwrite
  | .flush (.ready answer), h =>
    obtain ⟨hanswer, rfl⟩ := Prod.mk.inj h
    exact Prod.ext hanswer rfl
  | .event ev, h =>
    obtain rfl : w.observe ev = w' := h
    exact rfl

/-! ## Many writes -/

/-- The calls that writing all of `data` makes on a sink, and what it comes to. -/
inductive WritesAll : Bytes → Journal → Option (Except SinkError Unit) → Prop
  | done : WritesAll [] [] (some (.ok ()))
  | out_of_calls {data : Bytes} (some_left : data ≠ []) : WritesAll data [] none
  | refused {data : Bytes} (some_left : data ≠ []) :
      WritesAll data [.write data (.ready (.ok 0))]
        (some (.error (.described .writeZero "failed to write whole buffer")))
  | took {data : Bytes} {n : Nat} {lines : Journal} {answer : Option (Except SinkError Unit)}
      (some_left : data ≠ []) (rest : WritesAll (data.drop (n + 1)) lines answer) :
      WritesAll data (.write data (.ready (.ok (n + 1))) :: lines) answer
  | interrupted {data : Bytes} {e : SinkError} {lines : Journal}
      {answer : Option (Except SinkError Unit)} (some_left : data ≠ [])
      (kind_eq : e.kind = .interrupted) (rest : WritesAll data lines answer) :
      WritesAll data (.write data (.ready (.error e)) :: lines) answer
  | failed {data : Bytes} {e : SinkError} (some_left : data ≠ []) (kind_ne : e.kind ≠ .interrupted) :
      WritesAll data [.write data (.ready (.error e))] (some (.error e))

namespace WritesAll

variable {data : Bytes} {lines : Journal} {answer : Option (Except SinkError Unit)}

/-- On success the writes took all of the data. -/
theorem taken_eq (h : WritesAll data lines answer) (hok : answer = some (.ok ())) :
    lines.taken = data := by
  induction h with
  | done => rfl
  | out_of_calls | refused | failed => cases hok
  | @took data n lines answer _ _ ih =>
    rw [Journal.taken_cons, ih hok]
    exact List.take_append_drop (n + 1) data
  | interrupted _ _ _ ih => exact ih hok

theorem torn_eq_false (h : WritesAll data lines answer) : lines.torn = false := by
  induction h with
  | done | out_of_calls | refused | failed => rfl
  | took _ _ ih | interrupted _ _ _ ih => exact ih

end WritesAll

/-- Writing everything to any sink, by induction on the calls that are allowed. -/
theorem Sink.writeAll_writesAll {σ : Type} [Sink σ] (calls : Nat) (s : σ) (data : Bytes) :
    ∃ lines, Calls Sink.Step s lines (Sink.writeAll calls s data).2 ∧
      WritesAll data lines (Sink.writeAll calls s data).1 := by
  induction calls generalizing s data with
  | zero =>
    cases data with
    | nil => exact ⟨[], .nil _, .done⟩
    | cons b data => exact ⟨[], .nil _, .out_of_calls (by simp)⟩
  | succ calls ih =>
    cases data with
    | nil => exact ⟨[], .nil _, .done⟩
    | cons b data =>
      have some_left : b :: data ≠ [] := by simp
      rw [Sink.writeAll]
      cases hwrite : Sink.write s (b :: data) with
      | mk answer s' =>
        have hstep : Sink.Step s (.write (b :: data) (.ready answer)) s' := hwrite
        rcases answer with e | _ | n
        case ok.zero => exact ⟨_, .single hstep, .refused some_left⟩
        case ok.succ =>
          obtain ⟨lines, hrest, hwrites⟩ := ih s' ((b :: data).drop (n + 1))
          exact ⟨_, .cons hstep hrest, .took some_left hwrites⟩
        case error =>
          by_cases hkind : e.kind = .interrupted
          · obtain ⟨lines, hrest, hwrites⟩ := ih s' (b :: data)
            dsimp only
            rw [if_pos hkind]
            exact ⟨_, .cons hstep hrest, .interrupted some_left hkind hwrites⟩
          · dsimp only
            rw [if_neg hkind]
            exact ⟨_, .single hstep, .failed some_left hkind⟩

/-! ## Many writes through a writer -/

/-- Going on with what is left after a write that took `n` bytes. -/
theorem WriteAllOutcome.after {data : Bytes} {n : Nat} (hn : n ≤ data.length)
    {first lines : Journal} (hfirst : first.taken = escape (data.take n))
    {answer : Option (Except SinkError Unit)} (h : WriteAllOutcome (data.drop n) lines answer) :
    WriteAllOutcome data (first ++ lines) answer := by
  have htaken : (first ++ lines).taken = escape (data.take n) ++ lines.taken := by
    rw [Journal.taken_append, hfirst]
  match answer, h with
  | some (.ok ()), h =>
    have hrest : lines.taken = escape (data.drop n) := h
    show (first ++ lines).taken = escape data
    rw [htaken, hrest, ← escape_append, List.take_append_drop]
  | some (.error _), ⟨a, torn, hreaches⟩ =>
    exact ⟨n + a, torn, htaken ▸ hreaches.after hn⟩
  | none, ⟨a, hreaches⟩ =>
    exact ⟨n + a, htaken ▸ hreaches.after hn⟩

theorem WriteOutcome.writeAllOutcome {data : Bytes} {lines : Journal} {e : SinkError}
    (h : WriteOutcome data lines (.error e)) : WriteAllOutcome data lines (some (.error e)) := by
  cases h with
  | nothing taken => exact ⟨0, false, Nat.zero_le _, by rw [taken]; rfl, by simp⟩
  | @tore _ a iac_at taken => exact ⟨a, true, Progress.reaches_torn iac_at taken⟩

/-- What many writes to a writer do to its sink. -/
theorem WritesAll.writer_calls {σ : Type} [Sink σ] {w w' : Writer σ} {data : Bytes}
    {upper : Journal} {answer : Option (Except SinkError Unit)} (h : WritesAll data upper answer)
    (hcalls : Calls Sink.Step w upper w') :
    ∃ lines, Calls Sink.Step w.sink lines w'.sink ∧ WriteAllOutcome data lines answer := by
  induction h generalizing w with
  | done =>
    cases hcalls
    exact ⟨[], .nil _, rfl⟩
  | out_of_calls =>
    cases hcalls
    exact ⟨[], .nil _, 0, Nat.zero_le _, rfl, by simp⟩
  | @refused data some_left =>
    obtain ⟨lines, -, houtcome⟩ := Writer.calls_of_write hcalls.step_of_single
    cases houtcome with
    | took _ some_taken => exact absurd (some_taken some_left) (Nat.lt_irrefl 0)
  | @took data n upper answer some_left _ ih =>
    cases hcalls with
    | cons first rest =>
      obtain ⟨lines, hfirst, houtcome⟩ := Writer.calls_of_write first
      obtain ⟨more, hmore, hall⟩ := ih rest
      cases houtcome with
      | took n_le _ taken => exact ⟨lines ++ more, hfirst.append hmore, hall.after n_le taken⟩
  | @interrupted data e upper answer _ kind_eq _ ih =>
    cases hcalls with
    | cons first rest =>
      obtain ⟨lines, hfirst, houtcome⟩ := Writer.calls_of_write first
      obtain ⟨more, hmore, hall⟩ := ih rest
      cases houtcome with
      | nothing taken =>
        exact ⟨lines ++ more, hfirst.append hmore, hall.after (Nat.zero_le _) taken⟩
      | tore _ _ _ final => exact absurd kind_eq final
  | failed =>
    obtain ⟨lines, hfirst, houtcome⟩ := Writer.calls_of_write hcalls.step_of_single
    exact ⟨lines, hfirst, houtcome.writeAllOutcome⟩

/-- **Writing everything sends each byte once.** Over any number of short writes, interruptions and
other failures: on success the sink took exactly the escaped data; on an error it took the escaped
form of a front of the data, and at most one IAC more, which is half of the pair that comes next. -/
theorem writeAll_outcome {σ : Type} [Sink σ] (calls : Nat) (w : Writer (Journaled σ))
    (data : Bytes) :
    ∃ lines : Journal,
      (Sink.writeAll calls w data).2.sink.journal = w.sink.journal ++ lines ∧
      WriteAllOutcome data lines (Sink.writeAll calls w data).1 := by
  obtain ⟨upper, hupper, hwrites⟩ := Sink.writeAll_writesAll calls w data
  obtain ⟨lines, hcalls, houtcome⟩ := hwrites.writer_calls hupper
  exact ⟨lines, Journaled.journal_of_calls hcalls, houtcome⟩

end TelnetEscape
