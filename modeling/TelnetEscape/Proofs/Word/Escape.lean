import Mathlib.Algebra.Ring.Nat
import TelnetEscape.Escape.Fit
import TelnetEscape.Escape.Progress

/-!
# Escaping with counters of 64 bits

A machine counts in words of 64 bits, with sums and differences modulo 2^64. This is how it finds
lengths, walks over output and stages what fits, each with its counters as words. The numbers that
come out are the exact ones.

* `toNat_escapedLength`: the escaped length of fewer than 2^63 bytes is still a word;
* `exact_walk`: neither the count nor the index of a walk gets past the length of the output;
* `Filling.after_front`: after every round of the staging loop the room that is left is the exact
  difference, so it was never taken below zero;
* `exact_appendFitting`: staging comes to the same bytes and the same count.
-/

namespace TelnetEscape.Word

/-! ## Words -/

theorem toNat_add_of_lt {a b : UInt64} (h : a.toNat + b.toNat < 2 ^ 64) :
    (a + b).toNat = a.toNat + b.toNat := by
  rw [UInt64.toNat_add, Nat.mod_eq_of_lt h]

theorem toNat_succ {a : UInt64} {n : Nat} (h : a.toNat < n) (hn : n < 2 ^ 64) :
    (a + 1).toNat = a.toNat + 1 :=
  toNat_add_of_lt (by rw [UInt64.toNat_one]; omega)

theorem toNat_pos {a : UInt64} (ha : a ≠ 0) : 0 < a.toNat := by
  refine Nat.pos_of_ne_zero fun h => ha ?_
  rwa [← UInt64.toNat_zero, UInt64.toNat_inj] at h

theorem exists_toNat_eq_succ {a : UInt64} (ha : a ≠ 0) : ∃ k, a.toNat = k + 1 :=
  Nat.exists_eq_add_one_of_ne_zero (Nat.ne_of_gt (toNat_pos ha))

theorem toNat_min (a b : UInt64) : (min a b).toNat = min a.toNat b.toNat := by
  show (if a ≤ b then a else b).toNat = _
  simp only [UInt64.le_iff_toNat_le]
  split <;> omega

theorem toNat_max (a b : UInt64) : (max a b).toNat = max a.toNat b.toNat := by
  show (if a ≤ b then b else a).toNat = _
  simp only [UInt64.le_iff_toNat_le]
  split <;> omega

/-! ## Slices -/

/-- A byte string whose length is a word. -/
@[ext] structure Slice where
  bytes : Bytes
  length_lt : bytes.length < 2 ^ 64

namespace Slice

def length (data : Slice) : UInt64 :=
  UInt64.ofNat data.bytes.length

def take (data : Slice) (k : UInt64) : Slice where
  bytes := data.bytes.take k.toNat
  length_lt := Nat.lt_of_le_of_lt (List.length_take_le' _ _) data.length_lt

def drop (data : Slice) (k : UInt64) : Slice where
  bytes := data.bytes.drop k.toNat
  length_lt := by
    rw [List.length_drop]
    exact Nat.lt_of_le_of_lt (Nat.sub_le _ _) data.length_lt

@[simp] theorem toNat_length (data : Slice) : data.length.toNat = data.bytes.length :=
  UInt64.toNat_ofNat_of_lt' data.length_lt

theorem lt_length_iff (data : Slice) (index : UInt64) :
    index < data.length ↔ index.toNat < data.bytes.length := by
  rw [UInt64.lt_iff_toNat_lt, toNat_length]

/-- The index of a byte. -/
theorem toNat_add_one (data : Slice) {index : UInt64} (h : index < data.length) :
    (index + 1).toNat = index.toNat + 1 ∧ index.toNat < data.bytes.length := by
  have hlt := (data.lt_length_iff index).mp h
  exact ⟨toNat_succ hlt data.length_lt, hlt⟩

/-- The index of a byte that is not the last. -/
theorem toNat_add_two (data : Slice) {index : UInt64} (h : index < data.length)
    (hmore : index + 1 ≠ data.length) :
    (index + 2).toNat = index.toNat + 2 ∧ index.toNat + 1 < data.bytes.length := by
  obtain ⟨hnext, hlt⟩ := data.toNat_add_one h
  have hne : (index + 1).toNat ≠ data.length.toNat := fun heq => hmore (UInt64.toNat_inj.mp heq)
  rw [hnext, toNat_length] at hne
  have htwo : (2 : UInt64).toNat = 2 := rfl
  have hlength := data.length_lt
  exact ⟨toNat_add_of_lt (by omega), by omega⟩

@[simp] theorem bytes_drop (data : Slice) (k : UInt64) :
    (data.drop k).bytes = data.bytes.drop k.toNat := rfl

end Slice

/-! ## The escaped length -/

/-- Counts the IACs one by one. -/
def countIac (data : Bytes) : UInt64 :=
  data.foldl (fun count b => if b = iac then count + 1 else count) 0

def escapedLength (data : Slice) : UInt64 :=
  data.length + countIac data.bytes

/-- By induction on the data that is left to count. -/
theorem toNat_foldl_count (data : Bytes) (count : UInt64)
    (hfits : count.toNat + data.length < 2 ^ 64) :
    (data.foldl (fun count b => if b = iac then count + 1 else count) count).toNat =
      count.toNat + data.count iac := by
  induction data generalizing count with
  | nil => rfl
  | cons b data ih =>
    rw [List.length_cons] at hfits
    rw [List.foldl_cons]
    by_cases hb : b = iac
    · have hnext := toNat_succ (show count.toNat < count.toNat + 1 by omega) (by omega)
      rw [if_pos hb, ih _ (by omega), hnext, hb, List.count_cons_self]
      omega
    · rw [if_neg hb, ih _ (by omega), List.count_cons_of_ne hb]

theorem toNat_countIac (data : Slice) : (countIac data.bytes).toNat = data.bytes.count iac := by
  have hcount := toNat_foldl_count data.bytes 0
  rw [UInt64.toNat_zero, Nat.zero_add, Nat.zero_add] at hcount
  exact hcount data.length_lt

/-- At worst every byte is an IAC, and the length is doubled. -/
theorem toNat_escapedLength (data : Slice) (hhalf : data.bytes.length < 2 ^ 63) :
    (escapedLength data).toNat = TelnetEscape.escapedLength data.bytes := by
  have hcount : data.bytes.count iac ≤ data.bytes.length := List.count_le_length
  rw [escapedLength, toNat_add_of_lt, data.toNat_length, toNat_countIac,
    TelnetEscape.escapedLength]
  rw [data.toNat_length, toNat_countIac]
  omega

/-! ## The walk over output -/

structure Progress where
  inputs : UInt64
  midPair : Bool

/-- The progress in exact numbers. -/
def Progress.exact (p : Progress) : TelnetEscape.Progress :=
  ⟨p.inputs.toNat, p.midPair⟩

/-- Goes on through `output` from `index` on, with `count` input bytes before it. -/
def walk (output : Slice) (count index : UInt64) : Progress :=
  if index < output.length then
    if output.bytes[index.toNat]? = some iac then
      if index + 1 = output.length then ⟨count, true⟩ else walk output (count + 1) (index + 2)
    else walk output (count + 1) (index + 1)
  else ⟨count, false⟩
termination_by output.bytes.length - index.toNat
decreasing_by
  · have := output.toNat_add_two ‹_› ‹_›
    omega
  · have := output.toNat_add_one ‹_›
    omega

/-- By induction on the walk. What it has counted is no more than what it has gone past, and that is
within the output. -/
theorem exact_walk (output : Slice) (count index : UInt64) (hcount : count.toNat ≤ index.toNat) :
    (walk output count index).exact =
      TelnetEscape.Progress.read ⟨count.toNat, false⟩ (output.bytes.drop index.toNat) := by
  induction count, index using walk.induct output with
  | case1 count index hindex hiac hend =>
    obtain ⟨hnext, -⟩ := output.toNat_add_one hindex
    have hlast : index.toNat + 1 = output.bytes.length := by
      rw [← hnext, hend, output.toNat_length]
    obtain ⟨hlt, hbyte⟩ := List.getElem?_eq_some_iff.mp hiac
    have hdrop := List.drop_eq_getElem_cons hlt
    rw [List.drop_of_length_le (Nat.le_of_eq hlast.symm), hbyte] at hdrop
    rw [walk, if_pos hindex, if_pos hiac, if_pos hend, hdrop]
    rfl
  | case2 count index hindex hiac hend ih =>
    obtain ⟨hnext, hmore⟩ := output.toNat_add_two hindex hend
    obtain ⟨hlt, hbyte⟩ := List.getElem?_eq_some_iff.mp hiac
    have hcount' : (count + 1).toNat = count.toNat + 1 :=
      toNat_succ (show count.toNat < output.bytes.length by omega) output.length_lt
    have hdrop := List.drop_eq_getElem_cons hlt
    rw [List.drop_eq_getElem_cons hmore, hbyte] at hdrop
    rw [walk, if_pos hindex, if_pos hiac, if_neg hend, ih (by omega), hcount', hnext, hdrop]
    rfl
  | case3 count index hindex hbyte ih =>
    obtain ⟨hnext, hlt⟩ := output.toNat_add_one hindex
    have hcount' : (count + 1).toNat = count.toNat + 1 :=
      toNat_succ (show count.toNat < output.bytes.length by omega) output.length_lt
    have hne : output.bytes[index.toNat] ≠ iac := fun h =>
      hbyte (List.getElem?_eq_some_iff.mpr ⟨hlt, h⟩)
    rw [walk, if_pos hindex, if_neg hbyte, ih (by omega), hcount', hnext,
      List.drop_eq_getElem_cons hlt, TelnetEscape.Progress.read_cons, TelnetEscape.Progress.step,
      if_neg Bool.false_ne_true, if_neg hne]
  | case4 count index hindex =>
    have hall : output.bytes.length ≤ index.toNat := by
      rw [output.lt_length_iff] at hindex
      omega
    rw [walk, if_neg hindex, List.drop_of_length_le hall]
    rfl

/-- The progress that a piece of output stands for. -/
def progress (output : Slice) : Progress :=
  walk output 0 0

theorem exact_progress (output : Slice) :
    (progress output).exact = TelnetEscape.Progress.of output.bytes := by
  rw [progress, exact_walk output 0 0 (Nat.le_refl _), TelnetEscape.Progress.of_eq_read,
    UInt64.toNat_zero, List.drop_zero]

/-! ## Staging what fits -/

/-- How many bytes one byte takes in escaped form. -/
def width (b : UInt8) : UInt64 :=
  if b = iac then 2 else 1

theorem toNat_width (b : UInt8) : (width b).toNat = TelnetEscape.width b := by
  unfold width TelnetEscape.width
  split <;> rfl

/-- Where the loop stands that stages what fits. -/
structure Filling where
  buffer : Bytes
  /-- How many more bytes the buffer may take. -/
  room : UInt64
  /-- Where the run starts that is not in the buffer yet. -/
  start : UInt64
  /-- How many bytes of the data it has gone through. -/
  index : UInt64

namespace Filling

/-- The buffer with the run that was not in it yet. -/
def filled (data : Bytes) (f : Filling) : Bytes :=
  f.buffer ++ data.extract f.start.toNat f.index.toNat

/-- One round, for the next byte of the data. It ends the loop if the byte does not fit. -/
def round (data : Bytes) (f : Filling) (b : UInt8) : Except Filling Filling :=
  if f.room < width b then .error f
  else if b = iac then
    .ok ⟨f.filled data ++ [iac, iac], f.room - width b, f.index + 1, f.index + 1⟩
  else .ok { f with room := f.room - width b, index := f.index + 1 }

/-- Where the loop ended, with all of the data or before a byte that did not fit. -/
def ended : Except Filling Filling → Filling
  | .ok f => f
  | .error f => f

variable {data : Bytes} {f f' : Filling} {b : UInt8}

theorem room_lt_iff (f : Filling) (b : UInt8) :
    f.room < width b ↔ f.room.toNat < TelnetEscape.width b := by
  rw [UInt64.lt_iff_toNat_lt, toNat_width]

/-- The loop checks the room before it takes from it. -/
theorem toNat_room_sub (hfits : ¬ f.room < width b) :
    (f.room - width b).toNat = f.room.toNat - TelnetEscape.width b := by
  rw [UInt64.toNat_sub_of_le _ _ (UInt64.not_lt.mp hfits), toNat_width]

/-- What a round takes from the room is what it adds to the buffer or to the run. -/
theorem round_ok (h : f.round data b = .ok f') (hindex : f.index.toNat + 1 < 2 ^ 64) :
    f'.room.toNat + TelnetEscape.width b = f.room.toNat ∧
      f'.index.toNat = f.index.toNat + 1 := by
  have hnext := toNat_succ (Nat.lt_succ_self f.index.toNat) hindex
  rw [round] at h
  split at h
  · cases h
  · rename_i hfits
    have hroom := toNat_room_sub hfits
    rw [room_lt_iff] at hfits
    split at h
    all_goals
      cases h
      exact ⟨by dsimp only; omega, hnext⟩

/-- By induction on the front of the data that the loop has gone through. -/
theorem after_front {front : Bytes} (h : front.foldlM (round data) f = .ok f')
    (hindex : f.index.toNat + front.length < 2 ^ 64) :
    f'.room.toNat + TelnetEscape.escapedLength front = f.room.toNat ∧
      f'.index.toNat = f.index.toNat + front.length := by
  induction front generalizing f with
  | nil =>
    cases h
    exact ⟨rfl, rfl⟩
  | cons b front ih =>
    rw [List.length_cons] at hindex
    rw [List.foldlM_cons] at h
    cases hround : f.round data b with
    | error g =>
      rw [hround] at h
      cases h
    | ok g =>
      rw [hround] at h
      obtain ⟨hroom, hnext⟩ := round_ok hround (by omega)
      obtain ⟨hroom', hindex'⟩ := ih h (by omega)
      rw [TelnetEscape.escapedLength_cons, List.length_cons]
      omega

/-- By induction on what is left of the data: each round is one of the exact loop. -/
theorem exact_ended (data : Bytes) (f : Filling) (rest : Bytes)
    (hindex : f.index.toNat + rest.length < 2 ^ 64) :
    let g := ended (rest.foldlM (round data) f)
    (g.filled data, g.index.toNat) =
      appendFittingRuns data f.buffer f.room.toNat f.start.toNat f.index.toNat rest := by
  induction rest generalizing f with
  | nil => rfl
  | cons b rest ih =>
    rw [List.length_cons] at hindex
    have hnext := toNat_succ (Nat.lt_succ_self f.index.toNat) (by omega)
    rw [List.foldlM_cons, appendFittingRuns, round]
    by_cases hroom : f.room < width b
    · rw [if_pos hroom, if_pos ((f.room_lt_iff b).mp hroom)]
      rfl
    · rw [if_neg hroom, if_neg (mt (f.room_lt_iff b).mpr hroom), ← toNat_room_sub hroom, ← hnext]
      by_cases hb : b = iac
      · rw [if_pos hb, if_pos hb]
        exact ih ⟨f.filled data ++ [iac, iac], f.room - width b, f.index + 1, f.index + 1⟩
          (by dsimp only; omega)
      · rw [if_neg hb, if_neg hb]
        exact ih { f with room := f.room - width b, index := f.index + 1 } (by dsimp only; omega)

end Filling

/-- The difference of two words, or nothing if it would be below zero. -/
def saturatingSub (a b : UInt64) : UInt64 :=
  if a < b then 0 else a - b

theorem toNat_saturatingSub (a b : UInt64) : (saturatingSub a b).toNat = a.toNat - b.toNat := by
  rw [saturatingSub]
  split
  · rename_i h
    rw [UInt64.lt_iff_toNat_lt] at h
    rw [UInt64.toNat_zero]
    omega
  · rename_i h
    exact UInt64.toNat_sub_of_le a b (UInt64.not_lt.mp h)

/-- Where the staging loop starts, with nothing gone through. -/
def Filling.initial (limit : UInt64) (buffer : Slice) : Filling :=
  ⟨buffer.bytes, saturatingSub limit buffer.length, 0, 0⟩

/-- Appends the escaped form of as much of `data` as there is room for in a buffer of at most
`limit` bytes, and counts that data. -/
def appendFitting (limit : UInt64) (buffer data : Slice) : Bytes × UInt64 :=
  let f := Filling.ended (data.bytes.foldlM (Filling.round data.bytes) (.initial limit buffer))
  (f.filled data.bytes, f.index)

theorem appendFitting_of_no_data (limit : UInt64) (buffer : Slice) {data : Slice}
    (hdata : data.bytes = []) : appendFitting limit buffer data = (buffer.bytes, 0) := by
  rw [appendFitting, hdata]
  exact congrArg (·, 0) (List.append_nil buffer.bytes)

theorem exact_appendFitting (limit : UInt64) (buffer data : Slice) :
    ((appendFitting limit buffer data).1, (appendFitting limit buffer data).2.toNat) =
      TelnetEscape.appendFitting limit.toNat buffer.bytes data.bytes := by
  have hended := Filling.exact_ended data.bytes (.initial limit buffer) data.bytes
  rw [TelnetEscape.appendFitting, ← buffer.toNat_length, ← toNat_saturatingSub]
  apply hended
  rw [Filling.initial, UInt64.toNat_zero, Nat.zero_add]
  exact data.length_lt

end TelnetEscape.Word
