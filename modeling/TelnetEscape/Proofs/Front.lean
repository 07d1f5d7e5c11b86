import TelnetEscape.Escape.Progress

/-!
# Fronts of escaped data

A sink that took the front of some escaped data has the escaped form of the first so many input
bytes, and perhaps the first half of one more doubled IAC. `Progress.Reaches` says so of a progress,
and `Progress.of_reaches` says that the progress read off any front is of this kind.

* `Reaches.after`: what is reached in the rest of the data, after a first part that arrived in full;
* `of_inputs_lt`: a front that is not all of the escaped data stands for less than all of the input.
-/

namespace TelnetEscape

/-- What is left of a doubled IAC that was torn. -/
def halfPair (torn : Bool) : Bytes :=
  if torn then [iac] else []

@[simp] theorem halfPair_false : halfPair false = [] := rfl

@[simp] theorem halfPair_true : halfPair true = [iac] := rfl

/-- The escaped form of a front is a front of the escaped form. -/
theorem escape_mono {a b : Bytes} (h : a <+: b) : escape a <+: escape b := by
  obtain ⟨rest, rfl⟩ := h
  rw [escape_append]
  exact List.prefix_append _ _

theorem escape_take_mono (k : Nat) (data : Bytes) : escape (data.take k) <+: escape data :=
  escape_mono (List.take_prefix k data)

namespace Progress

/-- `output` is the escaped form of the first `p.inputs` bytes of `data`, followed by half a pair if
`p` is in the middle of one, which is then that of the next input byte. -/
structure Reaches (p : Progress) (data output : Bytes) : Prop where
  inputs_le : p.inputs ≤ data.length
  output_eq : output = escape (data.take p.inputs) ++ halfPair p.midPair
  iac_at : p.midPair = true → data[p.inputs]? = some iac

variable {p : Progress} {data output : Bytes}

theorem Reaches.lt_of_midPair (h : p.Reaches data output) (hmid : p.midPair = true) :
    p.inputs < data.length := by
  obtain ⟨hlt, _⟩ := List.getElem?_eq_some_iff.mp (h.iac_at hmid)
  exact hlt

/-- With all input bytes reached, the output is all of the escaped form. -/
theorem Reaches.output_eq_escape (h : p.Reaches data output) (hall : p.inputs = data.length) :
    output = escape data := by
  have hmid : p.midPair = false := by
    refine Bool.eq_false_iff.mpr fun hmid => ?_
    have := h.lt_of_midPair hmid
    omega
  rw [h.output_eq, hall, hmid, List.take_length, halfPair_false, List.append_nil]

theorem reaches_escape (data : Bytes) : Reaches ⟨data.length, false⟩ data (escape data) :=
  ⟨Nat.le_refl _, by simp, by simp⟩

/-- Half a pair after the escaped form of a front, where an IAC comes next in the data. -/
theorem reaches_torn {a : Nat} (hiac : data[a]? = some iac)
    (htaken : output = escape (data.take a) ++ [iac]) : Reaches ⟨a, true⟩ data output := by
  obtain ⟨hlt, -⟩ := List.getElem?_eq_some_iff.mp hiac
  exact ⟨Nat.le_of_lt hlt, htaken, fun _ => hiac⟩

/-- What is reached in the rest of the data is reached in all of it once the first `k` bytes are
there in full. -/
theorem Reaches.after {k : Nat} (hk : k ≤ data.length) (h : p.Reaches (data.drop k) output) :
    Reaches ⟨k + p.inputs, p.midPair⟩ data (escape (data.take k) ++ output) := by
  refine ⟨?_, ?_, ?_⟩
  · have := h.inputs_le
    rw [List.length_drop] at this
    show k + p.inputs ≤ data.length
    omega
  · rw [List.take_add, escape_append, List.append_assoc, ← h.output_eq]
  · intro hmid
    rw [← List.getElem?_drop]
    exact h.iac_at hmid

/-- What is reached in the first part of the data is reached in all of it. -/
theorem Reaches.of_take {k : Nat} (h : p.Reaches (data.take k) output) :
    p.Reaches data output := by
  have hle := h.inputs_le
  rw [List.length_take] at hle
  refine ⟨by omega, ?_, ?_⟩
  · rw [h.output_eq, List.take_take, Nat.min_eq_left (by omega)]
  · intro hmid
    have hlt := h.lt_of_midPair hmid
    rw [List.length_take] at hlt
    rw [← List.getElem?_take_of_lt (show p.inputs < k by omega)]
    exact h.iac_at hmid

/-- What is reached is a front of the escaped form. -/
theorem Reaches.prefix_escape (h : p.Reaches data output) : output <+: escape data := by
  rw [h.output_eq]
  cases hmid : p.midPair with
  | false =>
    rw [halfPair_false, List.append_nil]
    exact escape_take_mono p.inputs data
  | true =>
    obtain ⟨hlt, hiac⟩ := List.getElem?_eq_some_iff.mp (h.iac_at hmid)
    have hdrop := List.drop_eq_getElem_cons hlt
    have hsplit := escape_append (data.take p.inputs) (data.drop p.inputs)
    rw [List.take_append_drop, hdrop, hiac] at hsplit
    rw [hsplit, List.prefix_append_right_inj, escape_cons]
    exact ⟨iac :: escape (data.drop (p.inputs + 1)), rfl⟩

/-! ## Reading a front -/

theorem of_escape_append (data output : Bytes) :
    of (escape data ++ output) = ⟨data.length + (of output).inputs, (of output).midPair⟩ := by
  rw [of_append_of_whole (midPair_of_escape data), of_escape]

/-- What is reached reads as what reaches it. -/
theorem Reaches.of_eq (h : p.Reaches data output) : of output = p := by
  have hhalf : of (halfPair p.midPair) = ⟨0, p.midPair⟩ := by cases p.midPair <;> rfl
  rw [h.output_eq, of_escape_append, hhalf, List.length_take_of_le h.inputs_le]
  rfl

theorem Reaches.cons {b : UInt8} (h : p.Reaches data output) :
    Reaches ⟨1 + p.inputs, p.midPair⟩ (b :: data) (escapeByte b ++ output) := by
  have := @Reaches.after p (b :: data) output 1 (by simp) h
  simpa using this

theorem of_escapeByte_append (b : UInt8) (output : Bytes) :
    of (escapeByte b ++ output) = ⟨1 + (of output).inputs, (of output).midPair⟩ := by
  have hbyte : of (escapeByte b) = ⟨1, false⟩ := by
    rw [of_eq_read, read_escapeByte]
  rw [of_append_of_whole (by rw [hbyte]), hbyte]

theorem of_half (data : Bytes) : (of [iac]).Reaches (iac :: data) [iac] :=
  ⟨Nat.zero_le _, rfl, fun _ => rfl⟩

/-- A front of the escaped form of a byte string begins with all, half or nothing of the first
byte's. -/
theorem prefix_escape_cons {b : UInt8} (h : output <+: escape (b :: data)) :
    output = [] ∨ (b = iac ∧ output = [iac]) ∨
      ∃ front, front <+: escape data ∧ output = escapeByte b ++ front := by
  rw [escape_cons] at h
  by_cases hb : b = iac
  · subst hb
    rcases output with _ | ⟨x, _ | ⟨y, front⟩⟩
    · exact Or.inl rfl
    · have hx : x = iac := by simpa [escapeByte] using h
      exact Or.inr (Or.inl ⟨rfl, by rw [hx]⟩)
    · simp only [escapeByte, if_true, List.cons_append, List.nil_append, List.cons_prefix_cons] at h
      obtain ⟨rfl, rfl, hfront⟩ := h
      exact Or.inr (Or.inr ⟨front, hfront, rfl⟩)
  · rcases output with _ | ⟨x, front⟩
    · exact Or.inl rfl
    · simp only [escapeByte, if_neg hb, List.cons_append, List.nil_append,
        List.cons_prefix_cons] at h
      obtain ⟨rfl, hfront⟩ := h
      exact Or.inr (Or.inr ⟨front, hfront, by simp [escapeByte, hb]⟩)

/-- The progress read off a front of escaped data is what the front reaches. -/
theorem of_reaches (h : output <+: escape data) : (of output).Reaches data output := by
  induction data generalizing output with
  | nil =>
    rw [escape_nil, List.prefix_nil] at h
    subst h
    exact ⟨Nat.le_refl _, rfl, by simp⟩
  | cons b data ih =>
    rcases prefix_escape_cons h with rfl | ⟨rfl, rfl⟩ | ⟨front, hfront, rfl⟩
    · exact ⟨Nat.zero_le _, rfl, by simp⟩
    · exact of_half data
    · rw [of_escapeByte_append]
      exact (ih hfront).cons

/-- A front that is not all of the escaped data stands for less than all of the input. -/
theorem of_inputs_lt (h : output <+: escape data) (hne : output ≠ escape data) :
    (of output).inputs < data.length := by
  have hr := of_reaches h
  have hne' : (of output).inputs ≠ data.length := fun hall => hne (hr.output_eq_escape hall)
  have := hr.inputs_le
  omega

end Progress
end TelnetEscape
