import TelnetEscape.Escape.Progress
import TelnetEscape.Escape.Fit

/-!
# The stage

A writer's stage holds escaped output on its way to the sink, and remembers how much of its front
the sink has taken. Only a stage that was sent in full is emptied, so the sent part stays readable:
it tells what became of the input behind it.

* `taken_append_unsent`: a stage is what was taken of it followed by what was not;
* `taken_advance`, `unsent_advance`: taking `n` bytes moves the first `n` unsent bytes across;
* `pending_advance_lt`: taking bytes leaves fewer to take, which is why pushing out a stage ends.
-/

namespace TelnetEscape

structure Stage where
  /-- Escaped output, from a pair boundary on. -/
  bytes : Bytes := []
  /-- How many bytes of the front the sink has taken. -/
  sent : Nat := 0
deriving DecidableEq, Repr

namespace Stage

def unsent (s : Stage) : Bytes :=
  s.bytes.drop s.sent

def taken (s : Stage) : Bytes :=
  s.bytes.take s.sent

/-- How many bytes are unsent. -/
def pending (s : Stage) : Nat :=
  s.bytes.length - s.sent

/-- What the taken bytes stand for. -/
def progress (s : Stage) : Progress :=
  Progress.of s.taken

/-- The sink says that it took `n` bytes of what is unsent. It cannot have taken more than there
were. -/
def advance (s : Stage) (n : Nat) : Stage :=
  { s with sent := s.sent + min n s.pending }

/-- How much of `data` fits into a stage of at most `limit` bytes. Sent bytes take up room until
the stage is emptied. -/
def fitting (s : Stage) (limit : Nat) (data : Bytes) : Nat :=
  let (_, count) := appendFitting limit s.bytes data
  count

/-- Adds the escaped form of as much of `data` as fits. -/
def fill (s : Stage) (limit : Nat) (data : Bytes) : Stage :=
  let (bytes, _) := appendFitting limit s.bytes data
  { s with bytes }

/-! ## What was taken and what was not -/

theorem taken_append_unsent (s : Stage) : s.taken ++ s.unsent = s.bytes :=
  List.take_append_drop _ _

theorem length_unsent (s : Stage) : s.unsent.length = s.pending :=
  List.length_drop

theorem unsent_eq_nil_iff (s : Stage) : s.unsent = [] ↔ s.pending = 0 := by
  rw [← List.length_eq_zero_iff, length_unsent]

/-! ## Taking bytes -/

@[simp] theorem bytes_advance (s : Stage) (n : Nat) : (s.advance n).bytes = s.bytes := rfl

theorem taken_advance (s : Stage) (n : Nat) : (s.advance n).taken = s.taken ++ s.unsent.take n := by
  simp only [taken, unsent, advance, List.take_add]
  congr 1
  rw [List.take_eq_take_iff]
  simp only [pending, List.length_drop]
  omega

theorem unsent_advance (s : Stage) (n : Nat) : (s.advance n).unsent = s.unsent.drop n := by
  simp only [unsent, advance, List.drop_drop]
  rw [List.drop_eq_drop_iff]
  simp only [pending]
  omega

theorem pending_advance (s : Stage) (n : Nat) : (s.advance n).pending = s.pending - n := by
  simp only [pending, advance]
  omega

theorem pending_advance_lt (s : Stage) {n : Nat} (hn : 0 < n) (hs : s.pending ≠ 0) :
    (s.advance n).pending < s.pending := by
  rw [pending_advance]
  omega

/-! ## Adding input -/

theorem fitting_eq (s : Stage) (limit : Nat) (data : Bytes) :
    s.fitting limit data = fit (limit - s.bytes.length) data := by
  rw [fitting, appendFitting_eq]

@[simp] theorem fitting_empty (limit : Nat) (data : Bytes) :
    ({} : Stage).fitting limit data = fit limit data :=
  fitting_eq {} limit data

theorem fill_eq (s : Stage) (limit : Nat) (data : Bytes) :
    s.fill limit data =
      { bytes := s.bytes ++ escape (data.take (s.fitting limit data)), sent := s.sent } := by
  rw [fill, fitting, appendFitting_eq]

@[simp] theorem bytes_fill (s : Stage) (limit : Nat) (data : Bytes) :
    (s.fill limit data).bytes = s.bytes ++ escape (data.take (s.fitting limit data)) := by
  rw [fill_eq]

theorem bytes_fill_empty (limit : Nat) (data : Bytes) :
    (({} : Stage).fill limit data).bytes = escape (data.take (fit limit data)) := by
  rw [bytes_fill, fitting_empty]
  rfl

@[simp] theorem sent_fill (s : Stage) (limit : Nat) (data : Bytes) :
    (s.fill limit data).sent = s.sent := rfl

/-- Filling never takes a stage past its limit, unless it was past it before. -/
theorem length_bytes_fill_le (s : Stage) (limit : Nat) (data : Bytes) :
    (s.fill limit data).bytes.length ≤ max limit s.bytes.length := by
  have := escapedLength_take_fit_le (limit - s.bytes.length) data
  rw [bytes_fill, List.length_append, length_escape, fitting_eq]
  omega

end Stage
end TelnetEscape
