import TelnetEscape.Escape.Basic

/-!
# How much input fits

`appendFitting limit buffer data` appends as much of the escaped form of `data` as a buffer of at
most `limit` bytes has room for, and counts the data that it stands for. A doubled IAC is never cut:
with one byte of room left, an IAC does not fit. As in `escape`, a run of ordinary bytes is copied as
a whole, up to the IAC that ends it or to where the room ends.

`fit room data` is the count alone, byte by byte.

* `appendFitting_eq`: what is appended is the escaped form of the front that `fit` counts;
* `fit_le_length`, `escapedLength_take_fit_le`: the count is one of a front that fits;
* `fit_pos`: with room for a pair, some of any input fits, which is why loops over batches end.
-/

namespace TelnetEscape

/-- Goes on through `data`, of which `rest` is what comes from `index` on, for as long as the next
byte fits into the `room` that is left. The bytes from `start` to `index` are a run that is not in
the buffer yet. The count is that of the bytes gone through. -/
def appendFittingRuns (data buffer : Bytes) (room start index : Nat) :
    (rest : Bytes) → Bytes × Nat
  | [] => (buffer ++ data.extract start index, index)
  | b :: rest =>
    if room < width b then (buffer ++ data.extract start index, index)
    else if b = iac then
      appendFittingRuns data (buffer ++ data.extract start index ++ [iac, iac]) (room - width b)
        (index + 1) (index + 1) rest
    else appendFittingRuns data buffer (room - width b) start (index + 1) rest

/-- Appends the escaped form of as much of `data` as there is room for in a buffer of at most
`limit` bytes. A buffer that is longer has no room. -/
def appendFitting (limit : Nat) (buffer data : Bytes) : Bytes × Nat :=
  appendFittingRuns data buffer (limit - buffer.length) 0 0 data

/-- The length of the longest front of `data` whose escaped form takes at most `room` bytes. -/
def fit (room : Nat) : Bytes → Nat
  | [] => 0
  | b :: data => if width b ≤ room then fit (room - width b) data + 1 else 0

/-! ## The count -/

@[simp] theorem fit_nil (room : Nat) : fit room [] = 0 := rfl

theorem fit_cons (room : Nat) (b : UInt8) (data : Bytes) :
    fit room (b :: data) = if width b ≤ room then fit (room - width b) data + 1 else 0 := rfl

theorem fit_le_length (room : Nat) (data : Bytes) : fit room data ≤ data.length := by
  induction data generalizing room with
  | nil => simp
  | cons b data ih =>
    rw [fit_cons, List.length_cons]
    have := ih (room - width b)
    split <;> omega

theorem escapedLength_take_fit_le (room : Nat) (data : Bytes) :
    escapedLength (data.take (fit room data)) ≤ room := by
  induction data generalizing room with
  | nil => simp
  | cons b data ih =>
    rw [fit_cons]
    split
    · rw [List.take_succ_cons, escapedLength_cons]
      have := ih (room - width b)
      omega
    · simp

theorem fit_pos {room : Nat} (hroom : 2 ≤ room) {data : Bytes} (hdata : data ≠ []) :
    0 < fit room data := by
  cases data with
  | nil => exact absurd rfl hdata
  | cons b data =>
    have := width_le_two b
    rw [fit_cons, if_pos (by omega)]
    omega

/-! ## What is appended -/

/-- By induction on what is left of `data = front ++ run ++ rest`, where `front` is in the buffer. It
goes as without a bound up to the first byte that does not fit. -/
theorem appendFittingRuns_eq {data buffer front run rest : Bytes} (room : Nat)
    (hdata : data = front ++ run ++ rest) :
    appendFittingRuns data buffer room front.length (front ++ run).length rest =
      (buffer ++ run ++ escape (rest.take (fit room rest)),
        (front ++ run).length + fit room rest) := by
  induction rest generalizing buffer front run room with
  | nil => rw [appendFittingRuns, extract_run hdata, fit_nil, List.take_nil, escape_nil,
      List.append_nil, Nat.add_zero]
  | cons b rest ih =>
    rw [appendFittingRuns, fit_cons, extract_run hdata]
    by_cases hroom : room < width b
    · rw [if_pos hroom, if_neg (Nat.not_le.mpr hroom), List.take_zero, escape_nil, List.append_nil,
        Nat.add_zero]
    rw [if_neg hroom, if_pos (Nat.not_lt.mp hroom), List.take_succ_cons, escape_cons]
    by_cases hb : b = iac
    · have hnext : data = (front ++ run ++ [b]) ++ [] ++ rest := by simp [hdata]
      have hrest := @ih (buffer ++ run ++ [iac, iac]) _ _ (room - width b) hnext
      rw [List.append_nil, List.append_nil, List.length_append, List.length_singleton] at hrest
      rw [if_pos hb, hrest, escapeByte, if_pos hb]
      simp only [List.append_assoc, Prod.mk.injEq, true_and]
      omega
    · have hnext : data = front ++ (run ++ [b]) ++ rest := by simp [hdata]
      have hrest := @ih buffer _ _ (room - width b) hnext
      rw [← List.append_assoc, List.length_append, List.length_singleton] at hrest
      rw [if_neg hb, hrest, escapeByte, if_neg hb]
      simp only [List.append_assoc, Prod.mk.injEq, true_and]
      omega

theorem appendFitting_eq (limit : Nat) (buffer data : Bytes) :
    appendFitting limit buffer data =
      (buffer ++ escape (data.take (fit (limit - buffer.length) data)),
        fit (limit - buffer.length) data) := by
  have hruns := @appendFittingRuns_eq data buffer [] [] data (limit - buffer.length) rfl
  rw [List.append_nil buffer, List.append_nil, List.length_nil, Nat.zero_add] at hruns
  exact hruns

end TelnetEscape
