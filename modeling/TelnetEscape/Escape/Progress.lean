import TelnetEscape.Escape.Basic

/-!
# How far a piece of escaped output got

A sink that takes only the front of some escaped output has taken some input bytes in full, and
perhaps the first half of a doubled IAC. `Progress` keeps these two facts. `Progress.of` finds them by
a walk over the output, from a pair boundary on and pair by pair: at an IAC it looks at the next byte
and goes past both.

* `Progress.walk_eq_read`: the walk comes to what reading byte by byte comes to, which carries a half
  pair along instead of looking ahead;
* `Progress.of_append`: hence reading on from where a first part ended gives the progress of the
  whole; `of_append_of_whole` and `of_append_of_half` say what that is in both cases;
* `Progress.of_escape`: all of the escaped form stands for all of the input.
-/

namespace TelnetEscape

/-- What a piece of escaped output stands for. -/
structure Progress where
  /-- Input bytes whose escaped form is there in full. -/
  inputs : Nat := 0
  /-- The output ends between the two halves of a doubled IAC. -/
  midPair : Bool := false
deriving DecidableEq, Repr

namespace Progress

/-- Goes on through output with `count` input bytes behind it, from a pair boundary on. An IAC and the
byte after it, whatever that is, stand for one input byte; an IAC at the very end stands for none. -/
def walk (count : Nat) : (output : Bytes) → Progress
  | [] => ⟨count, false⟩
  | [b] => if b = iac then ⟨count, true⟩ else ⟨count + 1, false⟩
  | b :: next :: rest =>
    if b = iac then walk (count + 1) rest else walk (count + 1) (next :: rest)

/-- The progress that a piece of output stands for, from a pair boundary on. -/
def of (output : Bytes) : Progress :=
  walk 0 output

/-- One more byte of output. After half a pair any byte completes it; an IAC opens a pair; every
other byte stands for itself. -/
def step (p : Progress) (b : UInt8) : Progress :=
  if p.midPair then ⟨p.inputs + 1, false⟩
  else if b = iac then ⟨p.inputs, true⟩
  else ⟨p.inputs + 1, false⟩

/-- Reads output from where `p` ended. -/
def read (p : Progress) (output : Bytes) : Progress :=
  output.foldl step p

/-! ## Reading in parts -/

@[simp] theorem read_nil (p : Progress) : p.read [] = p := rfl

@[simp] theorem read_cons (p : Progress) (b : UInt8) (output : Bytes) :
    p.read (b :: output) = (p.step b).read output := rfl

@[simp] theorem read_append (p : Progress) (a b : Bytes) : p.read (a ++ b) = (p.read a).read b :=
  List.foldl_append

@[simp] theorem of_nil : of [] = {} := rfl

/-- By induction on the walk. After an IAC that is not the last byte, both it and the next one are
read, and that closes the pair. -/
theorem walk_eq_read (count : Nat) (output : Bytes) :
    walk count output = read ⟨count, false⟩ output := by
  induction count, output using walk.induct with
  | case1 count => rfl
  | case2 count => rfl
  | case3 count b hb =>
    rw [walk, if_neg hb, read_cons, step, if_neg Bool.false_ne_true, if_neg hb, read_nil]
  | case4 count next rest ih =>
    rw [walk, if_pos rfl, ih]
    rfl
  | case5 count b next rest hb ih =>
    rw [walk, if_neg hb, ih, read_cons _ b, step, if_neg Bool.false_ne_true, if_neg hb]

theorem of_eq_read (output : Bytes) : of output = read {} output :=
  walk_eq_read 0 output

theorem of_append (a b : Bytes) : of (a ++ b) = (of a).read b := by
  rw [of_eq_read, of_eq_read, read_append]

/-- The count of earlier inputs is carried along and decides nothing. -/
theorem read_eq_add (n : Nat) (mid : Bool) (output : Bytes) :
    read ⟨n, mid⟩ output =
      ⟨n + (read ⟨0, mid⟩ output).inputs, (read ⟨0, mid⟩ output).midPair⟩ := by
  induction output generalizing n mid with
  | nil => rfl
  | cons b output ih =>
    cases mid with
    | true =>
      simp only [read_cons, step, if_true]
      rw [ih, ih (0 + 1)]
      simp; omega
    | false =>
      by_cases h : b = iac
      · simp only [read_cons, step, h, if_true, Bool.false_eq_true, if_false]
        rw [ih]
      · simp only [read_cons, step, h, Bool.false_eq_true, if_false]
        rw [ih, ih (0 + 1)]
        simp; omega

/-- Reading on after whole pairs is counting afresh. -/
theorem of_append_of_whole {p : Bytes} (hwhole : (of p).midPair = false) (q : Bytes) :
    of (p ++ q) = ⟨(of p).inputs + (of q).inputs, (of q).midPair⟩ := by
  have hp : of p = ⟨(of p).inputs, false⟩ := by rw [← hwhole]
  rw [of_append, hp, read_eq_add, of_eq_read q]

/-- Reading on after half a pair is counting afresh behind the byte that completes it. -/
theorem of_append_of_half {p : Bytes} (hhalf : (of p).midPair = true) (x : UInt8) (r : Bytes) :
    of (p ++ x :: r) = ⟨(of p).inputs + 1 + (of r).inputs, (of r).midPair⟩ := by
  have hp : of p = ⟨(of p).inputs, true⟩ := by rw [← hhalf]
  rw [of_append, hp, read_cons, step, if_pos rfl, read_eq_add, of_eq_read r]

/-! ## Reading escaped input -/

theorem read_escapeByte (n : Nat) (b : UInt8) :
    read ⟨n, false⟩ (escapeByte b) = ⟨n + 1, false⟩ := by
  by_cases h : b = iac <;> simp [escapeByte, step, h]

theorem read_escape (n : Nat) (data : Bytes) :
    read ⟨n, false⟩ (escape data) = ⟨n + data.length, false⟩ := by
  induction data generalizing n with
  | nil => rfl
  | cons b data ih =>
    rw [escape_cons, read_append, read_escapeByte, ih, List.length_cons]
    simp; omega

theorem of_escape (data : Bytes) : of (escape data) = ⟨data.length, false⟩ := by
  rw [of_eq_read, read_escape, Nat.zero_add]

theorem midPair_of_escape (data : Bytes) : (of (escape data)).midPair = false := by
  rw [of_escape]

end Progress
end TelnetEscape
