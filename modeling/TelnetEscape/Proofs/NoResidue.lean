import Mathlib.Data.List.Forall2
import TelnetEscape.Proofs.Runs
import TelnetEscape.Proofs.SinkMaps
import TelnetEscape.Proofs.WriteAll
import TelnetEscape.Sink.Nonblocking
import TelnetEscape.Sink.Script

/-!
# Nothing stays behind in a blocking writer

A caller of a blocking writer sends, writes and flushes, and between these calls acts on the sink
itself, as for commands that must not be escaped. Any of these operations may fail, at any call that
it makes. Still nothing stays behind in the writer (`Rested`), so each operation goes as on a new
writer over the sink in its state (`AsNew`), and what the sink took is the bytes of the first
operation, then those of the second, and so on: `BlockingOutcome.Brings` says which these are.

`carryOut_brings` and `carryOut_rested` are about one operation, `carryOutAll_brings` and
`carryOutAll_rested` about any number of them.
-/

namespace TelnetEscape

/-- What a caller does with a blocking writer. -/
inductive BlockingOperation
  | send (data : Bytes)
  | write (data : Bytes)
  /-- Writes all of `data` by at most `calls` calls of `write`. -/
  | writeAll (data : Bytes) (calls : Nat)
  | flush
  /-- Writes to the sink itself. -/
  | rawWrite (data : Bytes)
  /-- Writes all of `data` to the sink itself by at most `calls` calls, where a count that is larger
  than the offer stands for all of it. -/
  | rawWriteAll (data : Bytes) (calls : Nat)
deriving DecidableEq, Repr

/-- What came of an operation. -/
inductive BlockingOutcome
  | send (data : Bytes) (answer : Except Shortfall Nat)
  | write (data : Bytes) (answer : Except SinkError Nat)
  | writeAll (data : Bytes) (answer : Option (Except SinkError Unit))
  | flush (answer : Except SinkError Unit)
  | rawWrite (data : Bytes) (answer : Except SinkError Nat)
  | rawWriteAll (data : Bytes) (answer : Option (Except SinkError Unit))

namespace Writer

variable {σ : Type} [Sink σ]

/-- One operation. -/
def carryOut (w : Writer σ) : BlockingOperation → BlockingOutcome × Writer σ
  | .send data => (w.send data).map (.send data) id
  | .write data => (w.write data).map (.write data) id
  | .writeAll data calls => (Sink.writeAll calls w data).map (.writeAll data) id
  | .flush => w.flush.map .flush id
  | .rawWrite data => (w.onSink fun s => Sink.write s data).map (.rawWrite data) id
  | .rawWriteAll data calls =>
    (w.onSink fun s => Sink.writeAll calls s data).map (.rawWriteAll data) id

/-- One operation after the other. -/
def carryOutAll (w : Writer σ) : List BlockingOperation → List BlockingOutcome × Writer σ
  | [] => ([], w)
  | operation :: operations =>
    let (outcome, w') := w.carryOut operation
    let (outcomes, w'') := w'.carryOutAll operations
    (outcome :: outcomes, w'')

end Writer

/-- The bytes that an operation brings to the sink, told by what came of it. Those of a send or a
write are escaped, up to half of a pair that was torn, and they are a front of its own data. -/
def BlockingOutcome.Brings : BlockingOutcome → Bytes → Prop
  | send data (.ok _), segment => segment = escape data
  | send data (.error f), segment => Progress.Reaches ⟨f.delivered, f.tornPair⟩ data segment
  | write data (.ok n), segment => Progress.Reaches ⟨n, false⟩ data segment
  | write data (.error _), segment => segment = [] ∨ ∃ a, Progress.Reaches ⟨a, true⟩ data segment
  | writeAll data (some (.ok ())), segment => segment = escape data
  | writeAll data _, segment => ∃ p : Progress, p.Reaches data segment
  | flush _, segment => segment = []
  | rawWrite data answer, segment => segment = (Entry.write data (.ready answer)).taken
  | rawWriteAll data (some (.ok ())), segment => segment = data
  | rawWriteAll data _, segment => segment <+: data

/-! ## The bytes of one operation -/

section
variable {data : Bytes} {lines : Journal}

theorem SendOutcome.brings {answer : Except Shortfall Nat} (h : SendOutcome data lines answer) :
    (BlockingOutcome.send data answer).Brings lines.taken := by
  cases answer with
  | ok n =>
    have hok : SendOk data lines n := h
    exact hok.taken
  | error f =>
    have hfailed : SendFailed data lines f := h
    exact hfailed.reaches

theorem WriteOutcome.brings {answer : Except SinkError Nat} (h : WriteOutcome data lines answer) :
    (BlockingOutcome.write data answer).Brings lines.taken := by
  cases h with
  | took n_le _ taken => exact ⟨n_le, taken.trans (List.append_nil _).symm, by simp⟩
  | nothing taken => exact .inl taken
  | @tore _ a iac_at taken => exact .inr ⟨a, Progress.reaches_torn iac_at taken⟩

theorem WriteAllOutcome.brings {answer : Option (Except SinkError Unit)}
    (h : WriteAllOutcome data lines answer) :
    (BlockingOutcome.writeAll data answer).Brings lines.taken := by
  match answer, h with
  | some (.ok ()), htaken => exact htaken
  | some (.error _), ⟨a, torn, hreaches⟩ => exact ⟨⟨a, torn⟩, hreaches⟩
  | none, ⟨a, hreaches⟩ => exact ⟨⟨a, false⟩, hreaches⟩

theorem WritesAll.taken_prefix {answer : Option (Except SinkError Unit)}
    (h : WritesAll data lines answer) : lines.taken <+: data := by
  induction h with
  | done | out_of_calls | refused | failed => exact List.nil_prefix
  | @took data n lines _ _ _ ih =>
    have hfront := (List.prefix_append_right_inj (data.take (n + 1))).mpr ih
    rwa [List.take_append_drop] at hfront
  | interrupted _ _ _ ih => exact ih

theorem WritesAll.brings {answer : Option (Except SinkError Unit)}
    (h : WritesAll data lines answer) :
    (BlockingOutcome.rawWriteAll data answer).Brings lines.taken := by
  match answer, h with
  | some (.ok ()), h => exact h.taken_eq rfl
  | some (.error _), h => exact h.taken_prefix
  | none, h => exact h.taken_prefix

end

namespace Writer

variable {σ : Type} [Sink σ]

theorem carryOut_brings (w : Writer σ) (operation : BlockingOperation) :
    ∃ lines, Calls Sink.Step w.sink lines (w.carryOut operation).2.sink ∧
      (w.carryOut operation).1.Brings lines.taken := by
  cases operation with
  | send data =>
    obtain ⟨lines, hcalls, houtcome, -, -⟩ := w.send_calls data
    exact ⟨lines, hcalls, houtcome.brings⟩
  | write data =>
    obtain ⟨lines, hcalls, houtcome⟩ := w.write_calls data
    exact ⟨lines, hcalls, houtcome.brings⟩
  | writeAll data calls =>
    obtain ⟨upper, hupper, hwrites⟩ := Sink.writeAll_writesAll calls w data
    obtain ⟨lines, hcalls, houtcome⟩ := hwrites.writer_calls hupper
    exact ⟨lines, hcalls, houtcome.brings⟩
  | flush => exact ⟨[.flush (.ready _)], .single rfl, rfl⟩
  | rawWrite data => exact ⟨[.write data (.ready _)], .single rfl, List.append_nil _⟩
  | rawWriteAll data calls =>
    obtain ⟨lines, hcalls, hwrites⟩ := Sink.writeAll_writesAll calls w.sink data
    exact ⟨lines, hcalls, hwrites.brings⟩

end Writer

/-! ## A writer at rest -/

namespace Writer

variable {σ : Type} {config : Config} {w w' : Writer σ}

/-- Nothing is staged. -/
structure Rested (config : Config) (w : Writer σ) : Prop where
  config_eq : w.config = config
  stage_eq : w.stage = {}

theorem Rested.onSink {α : Type} (h : w.Rested config) (act : σ → α × σ) :
    (w.onSink act).2.Rested config :=
  ⟨h.config_eq, h.stage_eq⟩

variable [Sink σ]

theorem Rested.send (h : w.Rested config) (data : Bytes) : (w.send data).2.Rested config := by
  obtain ⟨hconfig, hstage⟩ := w.send_leaves data
  exact ⟨hconfig.trans h.config_eq, hstage⟩

theorem Rested.write (h : w.Rested config) (data : Bytes) : (w.write data).2.Rested config := by
  rw [Writer.write_eq]
  exact h.send data

/-- Whoever uses a writer as a plain byte sink leaves it at rest. -/
theorem Rested.calls {upper : Journal} (h : w.Rested config) (hcalls : Calls Sink.Step w upper w') :
    w'.Rested config := by
  induction hcalls with
  | nil => exact h
  | @cons w w₁ _ e _ first _ ih =>
    refine ih ?_
    match e, first with
    | .write data (.ready answer), first =>
      obtain rfl : (w.write data).2 = w₁ := congrArg Prod.snd first
      exact h.write data
    | .flush (.ready answer), first =>
      obtain rfl : (w.flush).2 = w₁ := congrArg Prod.snd first
      exact h.onSink _
    | .event e, first =>
      obtain rfl : w.observe e = w₁ := first
      exact ⟨h.config_eq, h.stage_eq⟩

theorem carryOut_rested (h : w.Rested config) (operation : BlockingOperation) :
    (w.carryOut operation).2.Rested config := by
  cases operation with
  | send data => exact h.send data
  | write data => exact h.write data
  | writeAll data calls =>
    obtain ⟨_, hcalls, -⟩ := Sink.writeAll_writesAll calls w data
    exact h.calls hcalls
  | flush => exact h.onSink Sink.flush
  | rawWrite data => exact h.onSink fun s => Sink.write s data
  | rawWriteAll data calls => exact h.onSink fun s => Sink.writeAll calls s data

/-! ## Any number of operations -/

theorem carryOutAll_rested (h : w.Rested config) (operations : List BlockingOperation) :
    (w.carryOutAll operations).2.Rested config := by
  induction operations generalizing w with
  | nil => exact h
  | cons operation operations ih => exact ih (carryOut_rested h operation)

theorem carryOutAll_brings (w : Writer σ) (operations : List BlockingOperation) :
    ∃ parts : List Journal, Calls Sink.Step w.sink parts.flatten (w.carryOutAll operations).2.sink ∧
      List.Forall₂ (fun outcome part => outcome.Brings part.taken)
        (w.carryOutAll operations).1 parts := by
  induction operations generalizing w with
  | nil => exact ⟨[], .nil _, .nil⟩
  | cons operation operations ih =>
    obtain ⟨lines, hcalls, hbrings⟩ := w.carryOut_brings operation
    obtain ⟨parts, hrest, hall⟩ := ih (w.carryOut operation).2
    exact ⟨lines :: parts, hcalls.append hrest, .cons hbrings hall⟩

end Writer

/-! ## As on a new writer -/

/-- Operations do not tell a sink from the one that it is mapped to. -/
theorem Sink.Hom.carryOut {σ τ : Type} [Sink σ] [Sink τ] {f : σ → τ} (hom : Sink.Hom f)
    (w : Writer σ) (operation : BlockingOperation) :
    (w.mapSink f).carryOut operation = Prod.map id (Writer.mapSink f) (w.carryOut operation) := by
  cases operation with
  | send data =>
    rw [Writer.carryOut, hom.send]
    rfl
  | write data =>
    have hwrite : (w.mapSink f).write data = Prod.map id (Writer.mapSink f) (w.write data) :=
      hom.writer.write_map w data
    rw [Writer.carryOut, hwrite]
    rfl
  | writeAll data calls =>
    rw [Writer.carryOut, hom.writer.writeAll]
    rfl
  | flush =>
    rw [Writer.carryOut, hom.flush]
    rfl
  | rawWrite data =>
    rw [Writer.carryOut, Writer.onSink_mapSink fun s => hom.write_map s data]
    rfl
  | rawWriteAll data calls =>
    rw [Writer.carryOut, Writer.onSink_mapSink fun s => hom.writeAll calls s data]
    rfl

section
variable {σ : Type} [Sink σ]

/-- The operation goes as on a new writer over the sink in its state: it comes to the same, leaves
the sink in the same state and adds the same lines to its journal. -/
structure AsNew (w : Writer (Journaled σ)) (operation : BlockingOperation) : Prop where
  outcome_eq : (w.carryOut operation).1 =
    ((Writer.fresh w.sink.sink w.config).carryOut operation).1
  sink_eq : (w.carryOut operation).2.sink.sink =
    ((Writer.fresh w.sink.sink w.config).carryOut operation).2.sink.sink
  journal_eq : (w.carryOut operation).2.sink.journal = w.sink.journal ++
    ((Writer.fresh w.sink.sink w.config).carryOut operation).2.sink.journal

theorem Writer.Rested.asNew {config : Config} {w : Writer (Journaled σ)} (h : w.Rested config)
    (operation : BlockingOperation) : AsNew w operation := by
  have hw : w = (Writer.fresh w.sink.sink w.config).mapSink (Journaled.after w.sink.journal) := by
    obtain ⟨sink, config', stage⟩ := w
    obtain rfl : stage = {} := h.stage_eq
    rw [Writer.fresh, Writer.mapSink, Journaled.after_journal]
  have hsame := (Journaled.after_hom w.sink.journal).carryOut
    (Writer.fresh w.sink.sink w.config) operation
  rw [← hw] at hsame
  refine ⟨?_, ?_, ?_⟩
  · rw [hsame]
    rfl
  · rw [hsame]
    rfl
  · rw [hsame]
    exact Journaled.journal_after _ _

theorem Journal.taken_flatten (parts : List Journal) :
    taken parts.flatten = (parts.map taken).flatten := by
  induction parts with
  | nil => rfl
  | cons part parts ih => rw [List.flatten_cons, taken_append, ih, List.map_cons, List.flatten_cons]

/-- What is so of a writer after any operations. -/
structure NoResidue (config : Config) (outcomes : List BlockingOutcome)
    (w : Writer (Journaled σ)) : Prop where
  /-- Nothing is staged. -/
  rested : w.Rested config
  /-- The sink took the bytes of the operations, one after the other. -/
  segments : ∃ segments, List.Forall₂ BlockingOutcome.Brings outcomes segments ∧
    w.sink.journal.taken = segments.flatten
  /-- The next operation brings bytes of its own data only. -/
  next_brings : ∀ operation, ∃ lines : Journal,
    (w.carryOut operation).2.sink.journal = w.sink.journal ++ lines ∧
    (w.carryOut operation).1.Brings lines.taken
  /-- The next operation goes as on a new writer. -/
  next_asNew : ∀ operation, AsNew w operation

/-- **Nothing stays behind between calls.** After any operations on a new writer over any sink, with
commands among them that are not escaped and failures at any call, nothing is staged; the sink took
the bytes of the operations one after the other, those of a send or a write escaped, and for each a
front of its own data with at most half a pair behind it; and whatever comes next goes as on a new
writer over the sink in its state. -/
theorem blocking_no_residue (s : σ) (config : Config) (operations : List BlockingOperation) :
    NoResidue config ((Writer.fresh s config).carryOutAll operations).1
      ((Writer.fresh s config).carryOutAll operations).2 := by
  have hrested := Writer.carryOutAll_rested (w := Writer.fresh s config) ⟨rfl, rfl⟩ operations
  obtain ⟨parts, hcalls, hbrings⟩ := (Writer.fresh s config).carryOutAll_brings operations
  generalize (Writer.fresh s config).carryOutAll operations = done at *
  obtain ⟨outcomes, w⟩ := done
  refine ⟨hrested, ⟨parts.map Journal.taken, ?_, ?_⟩, fun operation => ?_, hrested.asNew⟩
  · exact List.forall₂_map_right_iff.mpr hbrings
  · rw [Journaled.journal_of_calls hcalls, Journal.taken_append, Journal.taken_flatten]
    rfl
  · obtain ⟨lines, hnext, hlines⟩ := w.carryOut_brings operation
    exact ⟨lines, Journaled.journal_of_calls hnext, hlines⟩

/-- A send that tears a pair, a command past the escaping, and another send. -/
example :
    let sink : ScriptedSink :=
      { script := { writes := { steps := [.take (some 2), .fail (.plain .brokenPipe)] } } }
    let w := ((Writer.fresh (⟨sink⟩ : Nonblocking ScriptedSink) {}).carryOutAll
      [.send [1, 255, 2], .rawWrite [255, 241], .send [3, 255]]).2
    w.stage = {} ∧ w.sink.journal.taken = [1, 255] ++ [255, 241] ++ [3, 255, 255] := by
  cbv

end
end TelnetEscape
