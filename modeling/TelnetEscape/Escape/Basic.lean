/-!
# Escaped data

On a Telnet connection the byte 255, IAC, announces a command, so a 255 that is data is sent
twice and every other byte as it is. `escape` is that map on byte strings. It copies a run of
ordinary bytes as a whole, up to the IAC that ends it.

* `escape_eq_flatMap`: what comes of it is the escaped form of each byte, one after the other;
* `escape_append`: the escaped form of a concatenation is the concatenation of the escaped forms;
* `length_escape`: `escapedLength` is the length of the escaped form, found without building it.
-/

namespace TelnetEscape

abbrev Bytes := List UInt8

/-- Interpret As Command: the byte that is doubled. -/
def iac : UInt8 := 255

/-- The escaped form of one byte. -/
def escapeByte (b : UInt8) : Bytes :=
  if b = iac then [iac, iac] else [b]

/-- Goes on through `data`, of which `rest` is what comes from `index` on, and appends its escaped
form to a buffer. The bytes from `start` to `index` are a run that is not in the buffer yet. -/
def appendRuns (data buffer : Bytes) (start index : Nat) : (rest : Bytes) → Bytes
  | [] => buffer ++ data.drop start
  | b :: rest =>
    if b = iac then
      appendRuns data (buffer ++ data.extract start index ++ [iac, iac]) (index + 1) (index + 1)
        rest
    else appendRuns data buffer start (index + 1) rest

/-- Appends the escaped form of `data` to what is already in a buffer. -/
def appendEscaped (buffer data : Bytes) : Bytes :=
  appendRuns data buffer 0 0 data

/-- The escaped form of a byte string. -/
def escape (data : Bytes) : Bytes :=
  appendEscaped [] data

/-- How many bytes one byte takes in escaped form. -/
def width (b : UInt8) : Nat :=
  if b = iac then 2 else 1

/-- How many bytes a byte string takes in escaped form. -/
def escapedLength (data : Bytes) : Nat :=
  data.length + data.count iac

/-! ## One byte -/

@[simp] theorem length_escapeByte (b : UInt8) : (escapeByte b).length = width b := by
  unfold escapeByte width
  split <;> rfl

theorem width_pos (b : UInt8) : 0 < width b := by
  unfold width
  split <;> omega

theorem width_le_two (b : UInt8) : width b ≤ 2 := by
  unfold width
  split <;> omega

/-! ## Runs and bytes -/

theorem extract_run {data front run rest : Bytes} (hdata : data = front ++ run ++ rest) :
    data.extract front.length (front ++ run).length = run := by
  simp [List.extract, hdata]

/-- By induction on what is left of `data = front ++ run ++ rest`, where `front` is in the buffer. An
IAC moves the run and itself to the front, an ordinary byte goes on with the run. -/
theorem appendRuns_eq {data buffer front run rest : Bytes} (hdata : data = front ++ run ++ rest) :
    appendRuns data buffer front.length (front ++ run).length rest =
      buffer ++ run ++ rest.flatMap escapeByte := by
  induction rest generalizing buffer front run with
  | nil => simp [appendRuns, hdata]
  | cons b rest ih =>
    rw [appendRuns, List.flatMap_cons]
    by_cases hb : b = iac
    · have hnext : data = (front ++ run ++ [b]) ++ [] ++ rest := by simp [hdata]
      have hrest := @ih (buffer ++ run ++ [iac, iac]) _ _ hnext
      rw [List.append_nil, List.append_nil, List.length_append, List.length_singleton] at hrest
      rw [if_pos hb, extract_run hdata, hrest, escapeByte, if_pos hb, List.append_assoc _ [iac, iac]]
    · have hnext : data = front ++ (run ++ [b]) ++ rest := by simp [hdata]
      have hrest := @ih buffer _ _ hnext
      rw [← List.append_assoc, List.length_append, List.length_singleton] at hrest
      rw [if_neg hb, hrest, escapeByte, if_neg hb]
      simp only [List.append_assoc]

/-- What is in the buffer stays, and the escaped form of each byte comes behind it. -/
theorem appendEscaped_eq_flatMap (buffer data : Bytes) :
    appendEscaped buffer data = buffer ++ data.flatMap escapeByte := by
  have hruns := @appendRuns_eq data buffer [] [] data rfl
  rw [List.append_nil buffer] at hruns
  exact hruns

theorem escape_eq_flatMap (data : Bytes) : escape data = data.flatMap escapeByte :=
  appendEscaped_eq_flatMap [] data

theorem appendEscaped_eq (buffer data : Bytes) :
    appendEscaped buffer data = buffer ++ escape data := by
  rw [appendEscaped_eq_flatMap, escape_eq_flatMap]

/-! ## Byte strings -/

@[simp] theorem escape_nil : escape [] = [] := rfl

@[simp] theorem escape_cons (b : UInt8) (data : Bytes) :
    escape (b :: data) = escapeByte b ++ escape data := by
  simp [escape_eq_flatMap]

@[simp] theorem escape_append (a b : Bytes) : escape (a ++ b) = escape a ++ escape b := by
  simp [escape_eq_flatMap]

@[simp] theorem escapedLength_nil : escapedLength [] = 0 := rfl

theorem escapedLength_cons (b : UInt8) (data : Bytes) :
    escapedLength (b :: data) = width b + escapedLength data := by
  by_cases h : b = iac
  · simp [escapedLength, width, h]
    omega
  · simp [escapedLength, width, h, List.count_cons_of_ne h]
    omega

theorem escapedLength_append (a b : Bytes) :
    escapedLength (a ++ b) = escapedLength a + escapedLength b := by
  simp only [escapedLength, List.length_append, List.count_append]
  omega

theorem length_escape (data : Bytes) : (escape data).length = escapedLength data := by
  induction data with
  | nil => rfl
  | cons b data ih => simp [escapedLength_cons, ih]

end TelnetEscape
