import TelnetEscape.Writer.Blocking
import TelnetEscape.Writer.Polled

/-!
# Towers of writers

A writer is itself a sink, so writers can stand on one another: each one's sink is the next, and the
lowest stands on a sink that is no writer. A tower of height 0 is that sink alone.
-/

namespace TelnetEscape

/-- `n` writers on top of each other over a sink. -/
def Tower (σ : Type) : Nat → Type
  | 0 => σ
  | n + 1 => Writer (Tower σ n)

namespace Tower

variable {σ : Type}

/-- A tower with one writer for each configuration, the first one on top. -/
def build (sink : σ) : (configs : List Config) → Tower σ configs.length
  | [] => sink
  | config :: configs => ({ sink := build sink configs, config } : Writer _)

/-- The sink that the tower stands on. -/
def bottom : {n : Nat} → Tower σ n → σ
  | 0, s => s
  | _ + 1, (w : Writer (Tower σ _)) => w.sink.bottom

/-- Puts another state of the lowest sink in place. -/
def mapBottom (f : σ → σ) : {n : Nat} → Tower σ n → Tower σ n
  | 0, s => f s
  | _ + 1, (w : Writer (Tower σ _)) => ({ w with sink := w.sink.mapBottom f } : Writer _)

/-- How much every writer has staged and unsent, the topmost one first. -/
def pending : {n : Nat} → Tower σ n → List Nat
  | 0, _ => []
  | _ + 1, (w : Writer (Tower σ _)) => w.pending :: w.sink.pending

instance instSink [Sink σ] : (n : Nat) → Sink (Tower σ n)
  | 0 => ‹Sink σ›
  | n + 1 => @Writer.instSink (Tower σ n) (instSink n)

instance instAsyncSink [AsyncSink σ] : (n : Nat) → AsyncSink (Tower σ n)
  | 0 => ‹AsyncSink σ›
  | n + 1 => @Writer.instAsyncSink (Tower σ n) (instAsyncSink n)

end Tower
end TelnetEscape
