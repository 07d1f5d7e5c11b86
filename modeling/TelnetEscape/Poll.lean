/-!
# Polling

A polled operation answers at once or is pending, and a pending one is asked again later. An
operation that takes several polls is a value that says what is left of it: a poll gives its answer
or the operation that remains, and to give it up is to forget that value.
-/

namespace TelnetEscape

/-- The answer of one poll. -/
inductive Poll (α : Type)
  | pending
  | ready (answer : α)
deriving DecidableEq, Repr

/-- What one poll makes of an operation. -/
inductive Turn (φ α : Type)
  /-- What is left of the operation. -/
  | pending (left : φ)
  | ready (answer : α)
deriving DecidableEq, Repr

/-- The turn of an operation that stays as it is while it is pending. -/
def Poll.toTurn {φ α : Type} (operation : φ) : Poll α → Turn φ α
  | pending => .pending operation
  | ready answer => .ready answer

variable {φ α τ : Type}

/-- An operation of one call, which stays the same while it is pending. -/
def oneCall (call : τ → Poll α × τ) (_ : Unit) (state : τ) : Turn Unit α × τ :=
  let (answer, state) := call state
  (answer.toTurn (), state)

/-- What came of polling an operation a number of times. -/
structure Polled (α τ : Type) where
  /-- How often the operation was polled. -/
  polls : Nat
  /-- The answer, or `none` if the operation was still pending when it was given up. -/
  answer? : Option α
  /-- The state that the operation worked on, afterwards. -/
  state : τ

/-- Polls on after `made` polls, at most `limit` times more. -/
def pollFrom (poll : φ → τ → Turn φ α × τ) (made : Nat) : Nat → φ → τ → Polled α τ
  | 0, _, state => ⟨made, none, state⟩
  | limit + 1, operation, state =>
    match poll operation state with
    | (.ready answer, state) => ⟨made + 1, some answer, state⟩
    | (.pending left, state) => pollFrom poll (made + 1) limit left state

/-- Polls an operation at most `limit` times, at once again after each pending answer. -/
def pollUpTo (poll : φ → τ → Turn φ α × τ) (limit : Nat) (operation : φ) (state : τ) :
    Polled α τ :=
  pollFrom poll 0 limit operation state

end TelnetEscape
