import TelnetEscape.Proofs.Calls
import TelnetEscape.Writer.Blocking

/-!
# Maps between sinks

If every call on a sink gets the answer that it gets on another one, with corresponding states
afterwards, then a blocking writer cannot tell the two apart. `Sink.Hom` says so of a map between
sinks, and `Sink.Hom.writer` carries it from a sink to the writer on it: the map is applied to the
sink of the writer and leaves the rest alone. So it goes up any tower of writers, and on to callers
that write everything (`Sink.Hom.writeAll`).

The map that matters here puts an earlier journal before the one that a sink keeps
(`Journaled.after_hom`). What is done on a journaled sink does not depend on what is in its journal.
-/

namespace TelnetEscape

/-- Every call gets the same answer on the other side of the map. -/
structure Sink.Hom {σ τ : Type} [Sink σ] [Sink τ] (f : σ → τ) : Prop where
  write_map : ∀ s offered, Sink.write (f s) offered = Prod.map id f (Sink.write s offered)
  flush_map : ∀ s, Sink.flush (f s) = Prod.map id f (Sink.flush s)
  observe_map : ∀ s e, Observer.observe (f s) e = f (Observer.observe s e)

/-- The writer over another sink. -/
def Writer.mapSink {σ τ : Type} (f : σ → τ) (w : Writer σ) : Writer τ :=
  { sink := f w.sink, config := w.config, stage := w.stage }

theorem Writer.onSink_mapSink {σ τ α : Type} {f : σ → τ} {act : σ → α × σ} {act' : τ → α × τ}
    (hact : ∀ s, act' (f s) = Prod.map id f (act s)) (w : Writer σ) :
    (w.mapSink f).onSink act' = Prod.map id (mapSink f) (w.onSink act) := by
  rw [onSink, mapSink, hact]
  rfl

section
variable {σ τ : Type} {f : σ → τ} [Sink σ] [Sink τ] (hom : Sink.Hom f)
include hom

namespace Sink.Hom

/-! ## Writing everything -/

theorem writeAll (calls : Nat) (s : σ) (data : Bytes) :
    Sink.writeAll calls (f s) data = Prod.map id f (Sink.writeAll calls s data) := by
  induction calls generalizing s data with
  | zero => cases data <;> rfl
  | succ calls ih =>
    cases data with
    | nil => rfl
    | cons b data =>
      rw [Sink.writeAll, Sink.writeAll, hom.write_map]
      rcases Sink.write s (b :: data) with ⟨e | _ | n, s'⟩
      case ok.zero => rfl
      case ok.succ => exact ih s' _
      case error =>
        by_cases hkind : e.kind = .interrupted
        · simpa [hkind] using ih s' (b :: data)
        · simp [hkind]

/-! ## Writers -/

theorem push (w : Writer σ) : (w.mapSink f).push = Prod.map id (Writer.mapSink f) w.push := by
  have hwrites (w : Writer σ) : Sink.write (w.mapSink f).sink (w.mapSink f).stage.unsent =
      Prod.map id f (Sink.write w.sink w.stage.unsent) := hom.write_map _ _
  induction w using Writer.push.induct with
  | case1 w hdone =>
    have hdone' : (w.mapSink f).stage.pending = 0 := hdone
    rw [Writer.push, if_pos hdone', Writer.push, if_pos hdone]
    rfl
  | case2 w hleft s hwrite | case4 w hleft e s hwrite =>
    have hleft' : (w.mapSink f).stage.pending ≠ 0 := hleft
    rw [Writer.push, if_neg hleft', hwrites, hwrite, Writer.push, if_neg hleft, hwrite]
    rfl
  | case3 w hleft n s hwrite ih =>
    have hleft' : (w.mapSink f).stage.pending ≠ 0 := hleft
    rw [Writer.push, if_neg hleft', hwrites, hwrite, Writer.push, if_neg hleft, hwrite]
    exact ih

theorem observe (w : Writer σ) (e : Event) :
    (w.mapSink f).observe e = (w.observe e).mapSink f := by
  simp only [Writer.observe, Writer.mapSink, hom.observe_map]

theorem drain (w : Writer σ) (inputs : Nat) :
    (w.mapSink f).drain inputs = Prod.map id (Writer.mapSink f) (w.drain inputs) := by
  rw [Writer.drain, hom.push, Writer.drain]
  rcases w.push with ⟨e | _, w'⟩
  · exact congrArg (fun w'' => (_, Writer.clearStage w'')) (hom.observe w' _)
  · exact congrArg (fun w'' => (_, Writer.clearStage w'')) (hom.observe w' _)

theorem sendBatches (w : Writer σ) (delivered : Nat) (data : Bytes) :
    (w.mapSink f).sendBatches delivered data =
      Prod.map id (Writer.mapSink f) (w.sendBatches delivered data) := by
  have hdrain (w : Writer σ) (data : Bytes) :
      ((w.mapSink f).startBatch data).drain ((w.mapSink f).batchSize data) =
        Prod.map id (Writer.mapSink f) ((w.startBatch data).drain (w.batchSize data)) :=
    hom.drain (w.startBatch data) (w.batchSize data)
  induction w, delivered, data using Writer.sendBatches.induct with
  | case1 w delivered data f' w' hfailed =>
    rw [Writer.sendBatches, hdrain, Writer.sendBatches, hfailed]
    rfl
  | case2 w delivered data w' hdrained hall =>
    rw [Writer.sendBatches, hdrain, Writer.sendBatches, hdrained]
    dsimp only
    rw [if_pos hall]
    exact if_pos hall
  | case3 w delivered data w' hdrained hleft ih =>
    rw [Writer.sendBatches, hdrain, Writer.sendBatches, hdrained]
    dsimp only
    rw [if_neg hleft]
    exact (if_neg hleft).trans ih

theorem flush (w : Writer σ) : (w.mapSink f).flush = Prod.map id (Writer.mapSink f) w.flush :=
  Writer.onSink_mapSink hom.flush_map w

theorem endFlush (w : Writer σ) (answer : Except Shortfall Nat) :
    (w.mapSink f).endFlush answer = Prod.map id (Writer.mapSink f) (w.endFlush answer) := by
  rw [Writer.endFlush, hom.flush, Writer.endFlush]
  rcases w.flush with ⟨_ | _, w'⟩ <;> rfl

theorem send (w : Writer σ) (data : Bytes) :
    (w.mapSink f).send data = Prod.map id (Writer.mapSink f) (w.send data) := by
  rw [Writer.send, hom.sendBatches, Writer.send]
  rcases w.sendBatches 0 data with ⟨answer, w'⟩
  by_cases hflush : w'.config.flushSink = true
  · dsimp only
    rw [if_pos hflush]
    exact (if_pos hflush).trans (hom.endFlush w' answer)
  · dsimp only
    rw [if_neg hflush]
    exact if_neg hflush

/-- A writer over the one sink goes as over the other. -/
theorem writer : Sink.Hom (Writer.mapSink f) where
  write_map w data := by
    show (w.mapSink f).write data = Prod.map id (Writer.mapSink f) (w.write data)
    rw [Writer.write, hom.send, Writer.write]
    rcases w.send data with ⟨_ | _, w'⟩ <;> rfl
  flush_map := hom.flush
  observe_map := hom.observe

end Sink.Hom
end

/-! ## Journals -/

/-- The sink with an earlier journal before its own. -/
def Journaled.after {σ : Type} (earlier : Journal) (j : Journaled σ) : Journaled σ :=
  { j with newestFirst := j.newestFirst ++ earlier.reverse }

theorem Journaled.journal_after {σ : Type} (earlier : Journal) (j : Journaled σ) :
    (j.after earlier).journal = earlier ++ j.journal := by
  simp [after, journal]

theorem Journaled.after_journal {σ : Type} (j : Journaled σ) :
    after j.journal { sink := j.sink } = j := by
  simp [after, journal]

/-- What is in a journal makes no difference to the calls. -/
theorem Journaled.after_hom {σ : Type} [Sink σ] (earlier : Journal) :
    Sink.Hom (after (σ := σ) earlier) :=
  ⟨fun _ _ => rfl, fun _ => rfl, fun _ _ => rfl⟩

end TelnetEscape
