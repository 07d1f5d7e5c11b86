import TelnetEscape.Proofs.WriteAll
import TelnetEscape.Sink.Nonblocking
import TelnetEscape.Sink.Script

/-!
# Flushes behind plain writes

With `flushSink`, a send flushes the sink behind its data and reports a flush that failed, together
with a count that says that all of the data is through. A plain write has only one of the two to
give, and gives the count: an error would tell its callers to write the same data again. So a write
that is answered in full, and a loop that wrote everything, end with a flush of the sink behind all
of the escaped data (`full_write_ends_in_flush`), but whether that flush worked is known to the send
alone (`write_hides_failed_flush`).

`FlushedSend` is the send below a write that is answered in full, and `FlushedWrites` the loop,
write by write, down to such a send.
-/

namespace TelnetEscape

variable {σ : Type} [Sink σ]

/-- The answer of a send that got `n` input bytes through and then flushed the sink. -/
def flushAnswer (n : Nat) : Except SinkError Unit → Except Shortfall Nat
  | .ok () => .ok n
  | .error e => .error ⟨n, false, e⟩

/-- A send of `data` from `w` to `w'` whose last call on the sink is a flush: the sink has taken all
of the escaped data by then, without a failure, and the answer of the send tells that of the
flush. -/
structure FlushedSend (w : Writer (Journaled σ)) (data : Bytes) (flushed : Except SinkError Unit)
    (w' : Writer (Journaled σ)) : Prop where
  send_eq : w.send data = (flushAnswer data.length flushed, w')
  calls : ∃ lines : Journal, GotThrough data lines ∧
    w'.sink.journal = w.sink.journal ++ (lines ++ [.flush (.ready flushed)])

/-- The writes by which all of `data` is written, from `w` to `w'`. Each finds the writer as the one
before it left it, with the data that is left, and the sink has the escaped form of what was
counted, once. The last write is answered in full, and the send below it ends with a flush. -/
inductive FlushedWrites :
    Writer (Journaled σ) → Bytes → Except SinkError Unit → Writer (Journaled σ) → Prop
  | last {w w' : Writer (Journaled σ)} {data : Bytes} {flushed : Except SinkError Unit}
      (write_eq : w.write data = (.ok data.length, w')) (sends : FlushedSend w data flushed w') :
      FlushedWrites w data flushed w'
  | short {w next w' : Writer (Journaled σ)} {data : Bytes} {n : Nat} {lines : Journal}
      {flushed : Except SinkError Unit} (write_eq : w.write data = (.ok n, next))
      (some_taken : 0 < n) (some_left : n < data.length)
      (journal_eq : next.sink.journal = w.sink.journal ++ lines)
      (taken : lines.taken = escape (data.take n))
      (rest : FlushedWrites next (data.drop n) flushed w') : FlushedWrites w data flushed w'
  | interrupted {w next w' : Writer (Journaled σ)} {data : Bytes} {e : SinkError} {lines : Journal}
      {flushed : Except SinkError Unit} (write_eq : w.write data = (.error e, next))
      (kind_eq : e.kind = .interrupted)
      (journal_eq : next.sink.journal = w.sink.journal ++ lines) (taken : lines.taken = [])
      (again : FlushedWrites next data flushed w') : FlushedWrites w data flushed w'

/-! ## One write -/

theorem Writer.config_write (w : Writer σ) (data : Bytes) :
    (w.write data).2.config = w.config := by
  rw [write_eq]
  exact (w.send_leaves data).1

theorem Shortfall.delivered_eq_of_toWriteAnswer {f : Shortfall} {n : Nat}
    (h : f.toWriteAnswer = .ok n) : f.delivered = n := by
  have hanswers := f.answersWrite_toWriteAnswer
  rw [h] at hanswers
  cases hanswers
  rfl

/-- An answer in full means that all batches are through, so the flush was made. -/
theorem Finishes.of_full_answer {config : Config} {data : Bytes} {lines flushes : Journal}
    {batches answer : Except Shortfall Nat} (h : Finishes config batches flushes answer)
    (hsent : Sent data lines batches) (on : config.flushSink = true)
    (hfull : writeAnswer answer = .ok data.length) :
    ∃ flushed, flushes = [.flush (.ready flushed)] ∧ answer = flushAnswer data.length flushed ∧
      GotThrough data lines := by
  cases batches with
  | error f =>
    have hshort : FellShort data lines f := hsent
    -- whatever came of the flush, the shortfall of the batches is the first error
    have hanswer : answer = .error f := by cases h <;> rfl
    rw [hanswer] at hfull
    have hall := Shortfall.delivered_eq_of_toWriteAnswer hfull
    exact absurd hall (Nat.ne_of_lt hshort.delivered_lt)
  | ok n =>
    obtain ⟨rfl, hthrough⟩ := hsent
    cases h with
    | unflushed off =>
      rw [off] at on
      cases on
    | flushed => exact ⟨.ok (), rfl, rfl, hthrough⟩
    | flush_failed _ e => exact ⟨.error e, rfl, rfl, hthrough⟩

theorem Writer.flushedSend_of_full {w : Writer (Journaled σ)} {data : Bytes}
    (on : w.config.flushSink = true) (hfull : (w.write data).1 = .ok data.length) :
    ∃ flushed, FlushedSend w data flushed (w.write data).2 := by
  obtain ⟨lines, flushes, batches, hcalls, hsends, hfinishes⟩ := w.send_sends data
  have hjournal := Journaled.journal_of_calls hcalls
  rw [write_eq] at hfull ⊢
  obtain ⟨flushed, hflushes, hanswer, hthrough⟩ := hfinishes.of_full_answer hsends.sent on hfull
  rw [hflushes] at hjournal
  exact ⟨flushed, Prod.ext hanswer rfl, lines, hthrough, hjournal⟩

/-! ## Many writes -/

omit [Sink σ] in
/-- Calls that end in a flush, with other calls in front of them. -/
theorem exists_flush_after {w next w' : Writer (Journaled σ)} {first : Journal} {bytes : Bytes}
    {flushed : Except SinkError Unit} (hfirst : next.sink.journal = w.sink.journal ++ first)
    (hrest : ∃ lines : Journal,
      w'.sink.journal = next.sink.journal ++ (lines ++ [.flush (.ready flushed)]) ∧
      lines.taken = bytes) :
    ∃ lines : Journal, w'.sink.journal = w.sink.journal ++ (lines ++ [.flush (.ready flushed)]) ∧
      lines.taken = first.taken ++ bytes := by
  obtain ⟨lines, hjournal, htaken⟩ := hrest
  refine ⟨first ++ lines, ?_, ?_⟩
  · rw [hjournal, hfirst, List.append_assoc, List.append_assoc]
  · rw [Journal.taken_append, htaken]

/-- By induction on the writes: the last call on the sink is the flush, and all of the escaped data
was taken before it. -/
theorem FlushedWrites.exists_calls {w w' : Writer (Journaled σ)} {data : Bytes}
    {flushed : Except SinkError Unit} (h : FlushedWrites w data flushed w') :
    ∃ lines : Journal, w'.sink.journal = w.sink.journal ++ (lines ++ [.flush (.ready flushed)]) ∧
      lines.taken = escape data := by
  induction h with
  | last _ sends =>
    obtain ⟨lines, hthrough, hjournal⟩ := sends.calls
    exact ⟨lines, hjournal, hthrough.taken⟩
  | @short _ _ _ data n _ _ _ _ _ journal_eq taken _ ih =>
    obtain ⟨lines, hjournal, htaken⟩ := exists_flush_after journal_eq ih
    rw [taken, ← escape_append, List.take_append_drop] at htaken
    exact ⟨lines, hjournal, htaken⟩
  | interrupted _ _ journal_eq taken _ ih =>
    obtain ⟨lines, hjournal, htaken⟩ := exists_flush_after journal_eq ih
    rw [taken, List.nil_append] at htaken
    exact ⟨lines, hjournal, htaken⟩

theorem WritesAll.lines_eq_nil {lines : Journal} {answer : Option (Except SinkError Unit)}
    (h : WritesAll [] lines answer) : lines = [] := by
  cases h with
  | done | out_of_calls => rfl
  | refused some_left | took some_left | interrupted some_left | failed some_left =>
    exact absurd rfl some_left

/-- One of the writes: it keeps the configuration and adds its calls to the journal. -/
theorem Writer.journal_of_write {w w' : Writer (Journaled σ)} {data : Bytes}
    {answer : Except SinkError Nat} (h : w.write data = (answer, w')) :
    w'.config = w.config ∧
      ∃ lines, w'.sink.journal = w.sink.journal ++ lines ∧ WriteOutcome data lines answer := by
  have hconfig := w.config_write data
  obtain ⟨lines, hcalls, houtcome⟩ := w.write_calls data
  rw [h] at hconfig hcalls houtcome
  exact ⟨hconfig, lines, Journaled.journal_of_calls hcalls, houtcome⟩

/-- The last of the writes, which is answered in full. -/
theorem Writer.flushedWrites_of_full {w w' : Writer (Journaled σ)} {data : Bytes}
    (on : w.config.flushSink = true) (h : w.write data = (.ok data.length, w')) :
    ∃ flushed, FlushedWrites w data flushed w' := by
  have hfull : (w.write data).1 = .ok data.length := by rw [h]
  obtain ⟨flushed, hsend⟩ := Writer.flushedSend_of_full on hfull
  rw [h] at hsend
  exact ⟨flushed, .last h hsend⟩

/-- By induction on the writes. The last one is answered in full; those before it are answered with
a count, or are interrupted and bring the sink nothing. -/
theorem WritesAll.flushedWrites {data : Bytes} {upper : Journal}
    {answer : Option (Except SinkError Unit)} (h : WritesAll data upper answer)
    (hok : answer = some (.ok ())) (some_data : data ≠ []) {w w' : Writer (Journaled σ)}
    (on : w.config.flushSink = true) (hcalls : Calls Sink.Step w upper w') :
    ∃ flushed, FlushedWrites w data flushed w' := by
  induction h generalizing w with
  | done => exact absurd rfl some_data
  | out_of_calls | refused | failed => cases hok
  | @took data n _ answer _ rest ih =>
    cases hcalls with
    | @cons _ next _ _ _ first later =>
      have hwrite : w.write data = (.ok (n + 1), next) := first
      obtain ⟨hconfig, lines, hjournal, houtcome⟩ := Writer.journal_of_write hwrite
      cases houtcome with
      | took n_le _ taken =>
        by_cases hall : n + 1 = data.length
        · rw [List.drop_of_length_le (Nat.le_of_eq hall.symm)] at rest
          rw [rest.lines_eq_nil] at later
          cases later
          rw [hall] at hwrite
          exact Writer.flushedWrites_of_full on hwrite
        · have some_left : n + 1 < data.length := Nat.lt_of_le_of_ne n_le hall
          have hleft : data.drop (n + 1) ≠ [] :=
            mt List.drop_eq_nil_iff.mp (Nat.not_le.mpr some_left)
          obtain ⟨flushed, hrest⟩ := ih hok hleft (hconfig ▸ on) later
          exact ⟨flushed, .short hwrite (Nat.succ_pos n) some_left hjournal taken hrest⟩
  | @interrupted data e _ answer _ kind_eq _ ih =>
    cases hcalls with
    | @cons _ next _ _ _ first later =>
      have hwrite : w.write data = (.error e, next) := first
      obtain ⟨hconfig, lines, hjournal, houtcome⟩ := Writer.journal_of_write hwrite
      cases houtcome with
      | nothing taken =>
        obtain ⟨flushed, hagain⟩ := ih hok some_data (hconfig ▸ on) later
        exact ⟨flushed, .interrupted hwrite kind_eq hjournal taken hagain⟩
      | tore _ _ _ final => exact absurd kind_eq final

/-- **A full write ends in a flush.** With `flushSink`, when a write of some data is answered in
full, or writing all of it succeeds, the last call on the sink was a flush, made when the sink had
all of the escaped data. The send below the write, the last one if there were several, succeeded if
that flush worked; if not, it reported all of its data as delivered and the error of the flush. -/
theorem full_write_ends_in_flush (w : Writer (Journaled σ)) {data : Bytes}
    (on : w.config.flushSink = true) (some_data : data ≠ []) :
    ((w.write data).1 = .ok data.length →
      ∃ flushed, FlushedSend w data flushed (w.write data).2) ∧
    ∀ calls, (Sink.writeAll calls w data).1 = some (.ok ()) →
      ∃ (flushed : Except SinkError Unit) (lines : Journal),
        FlushedWrites w data flushed (Sink.writeAll calls w data).2 ∧
        (Sink.writeAll calls w data).2.sink.journal =
          w.sink.journal ++ (lines ++ [.flush (.ready flushed)]) ∧
        lines.taken = escape data := by
  constructor
  · intro hfull
    exact Writer.flushedSend_of_full on hfull
  · intro calls hok
    obtain ⟨upper, hcalls, hwrites⟩ := Sink.writeAll_writesAll calls w data
    obtain ⟨flushed, hflushed⟩ := hwrites.flushedWrites hok some_data on hcalls
    obtain ⟨lines, hjournal, htaken⟩ := hflushed.exists_calls
    exact ⟨flushed, lines, hflushed, hjournal, htaken⟩

/-- A writer that flushes a sink after each send, in batches of at most two bytes. The sink is
interrupted at its second write, and the second flush fails. -/
def lateFlushWriter : Writer (Journaled (Nonblocking ScriptedSink)) :=
  { sink := { sink := { sink := { script :=
      { writes := { steps := [.take none, .fail (.plain .interrupted)] }
        flushes := { steps := [.take none, .fail (.described .timedOut "late")] } } } } }
    config := { capacity := 2, flushSink := true } }

/-- The interruption ends a first send after one byte; the second send gets the rest through and
reports the flush, but writing everything succeeds. -/
theorem full_write_ends_in_flush_of_late_flush :
    lateFlushWriter.config.flushSink = true ∧ [1, 255, 2] ≠ ([] : Bytes) ∧
    (Sink.writeAll 9 lateFlushWriter [1, 255, 2]).1 = some (.ok ()) ∧
    ∃ (flushed : Except SinkError Unit) (lines : Journal),
      FlushedWrites lateFlushWriter [1, 255, 2] flushed
        (Sink.writeAll 9 lateFlushWriter [1, 255, 2]).2 ∧
      (Sink.writeAll 9 lateFlushWriter [1, 255, 2]).2.sink.journal =
        lateFlushWriter.sink.journal ++ (lines ++ [.flush (.ready flushed)]) ∧
      lines.taken = escape [1, 255, 2] := by
  have on : lateFlushWriter.config.flushSink = true := rfl
  have some_data : [1, 255, 2] ≠ ([] : Bytes) := by decide
  have hok : (Sink.writeAll 9 lateFlushWriter [1, 255, 2]).1 = some (.ok ()) := by cbv
  exact ⟨on, some_data, hok, (full_write_ends_in_flush lateFlushWriter on some_data).2 9 hok⟩

/-- A writer that flushes a sink after each send. The sink takes all it is offered, and no flush
works. -/
def unflushableWriter : Writer (Journaled (Nonblocking ScriptedSink)) :=
  { sink := { sink := { sink := { script :=
      { flushes := { rest := .fail (.described .timedOut "late") } } } } }
    config := { flushSink := true } }

/-- The journal of a write of one byte and of a flush behind it that fails. -/
def failedFlushJournal : Journal :=
  [.write [1] (.ready (.ok 1)), .event (.drained 1 (some 1)),
    .flush (.ready (.error (.described .timedOut "late")))]

/-- The write is answered in full, and writing everything succeeds, but the only flush failed. -/
theorem write_hides_failed_flush :
    unflushableWriter.config.flushSink = true ∧
    (let (answer, w) := unflushableWriter.write [1]
     answer = .ok 1 ∧ w.sink.journal = failedFlushJournal) ∧
    let (answer, w) := Sink.writeAll 1 unflushableWriter [1]
    answer = some (.ok ()) ∧ w.sink.journal = failedFlushJournal := by
  refine ⟨rfl, ?_, ?_⟩
  · cbv
  · cbv

end TelnetEscape
