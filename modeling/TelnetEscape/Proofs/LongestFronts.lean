import Mathlib.Data.Nat.Basic
import Mathlib.Order.Bounds.Defs
import Mathlib.Order.Monotone.Defs
import TelnetEscape.Escape.Fit
import TelnetEscape.Proofs.Front

/-!
# Longest fronts

Only so much of some data fits into the room that a stage has left, and only so much of it is there
when the sink stops after a number of bytes. Both are the longest front of the data whose escaped
form takes at most that many bytes (`Longest`): `fit` finds it in the data, and the progress read
off the escaped output finds it from the other side, without knowing the data.

* `fit_longest`: `fit` counts the longest front;
* `fit_mono`, `fit_succ_le`, `fit_eq_length_iff`: how the count grows with the room;
* `appendFitting_fillsUp`: what comes of filling a buffer, by the longest front that fits;
* `inputs_frontProgress`: the count read off the first `k` bytes of the output is that of the room
  `k`;
* `progress_inverts_escape`: what the progress of a front tells of the data.
-/

namespace TelnetEscape

/-- `n` is the greatest number of bytes at the front of `data` whose escaped form takes at most
`room` bytes. -/
def Longest (room : Nat) (data : Bytes) (n : Nat) : Prop :=
  IsGreatest {m | m ≤ data.length ∧ escapedLength (data.take m) ≤ room} n

/-! ## Fronts and their escaped lengths -/

theorem escapedLength_take_succ {data : Bytes} {m : Nat} (h : m < data.length) :
    escapedLength (data.take (m + 1)) = escapedLength (data.take m) + width data[m] := by
  rw [List.take_succ_eq_append_getElem h, escapedLength_append, escapedLength_cons]
  rfl

theorem escapedLength_mono {a b : Bytes} (h : a <+: b) : escapedLength a ≤ escapedLength b := by
  rw [← length_escape, ← length_escape]
  exact (escape_mono h).length_le

/-! ## The longest front that fits -/

/-- Every front that fits is counted. -/
theorem le_fit {room : Nat} {data : Bytes} {m : Nat} (hm : m ≤ data.length)
    (hfits : escapedLength (data.take m) ≤ room) : m ≤ fit room data := by
  induction data generalizing room m with
  | nil => exact hm
  | cons b data ih =>
    cases m with
    | zero => exact Nat.zero_le _
    | succ m =>
      rw [List.take_succ_cons, escapedLength_cons] at hfits
      rw [List.length_cons] at hm
      rw [fit_cons, if_pos (by omega)]
      apply Nat.succ_le_succ
      apply ih <;> omega

theorem fit_longest (room : Nat) (data : Bytes) : Longest room data (fit room data) := by
  constructor
  · exact ⟨fit_le_length room data, escapedLength_take_fit_le room data⟩
  · intro m hm
    exact le_fit hm.1 hm.2

theorem Longest.eq_fit {room : Nat} {data : Bytes} {n : Nat} (h : Longest room data n) :
    n = fit room data := by
  apply Nat.le_antisymm
  · exact le_fit h.1.1 h.1.2
  · exact h.2 (fit_longest room data).1

/-- Some of the data fits just if its first byte does. -/
theorem fit_cons_pos_iff (room : Nat) (b : UInt8) (data : Bytes) :
    0 < fit room (b :: data) ↔ width b ≤ room := by
  rw [fit_cons]
  split <;> omega

theorem fit_mono {room room' : Nat} (h : room ≤ room') (data : Bytes) :
    fit room data ≤ fit room' data := by
  apply le_fit (fit_le_length room data)
  exact Nat.le_trans (escapedLength_take_fit_le room data) h

/-- One more byte of room makes room for one more byte of data at most. -/
theorem fit_succ_le (room : Nat) (data : Bytes) : fit (room + 1) data ≤ fit room data + 1 := by
  have hle := fit_le_length (room + 1) data
  have hfits := escapedLength_take_fit_le (room + 1) data
  cases hn : fit (room + 1) data with
  | zero => exact Nat.zero_le _
  | succ n =>
    rw [hn] at hle hfits
    rw [escapedLength_take_succ hle] at hfits
    have hwidth := width_pos data[n]
    apply Nat.succ_le_succ
    apply le_fit <;> omega

theorem fit_eq_length_iff (room : Nat) (data : Bytes) :
    fit room data = data.length ↔ escapedLength data ≤ room := by
  constructor
  · intro hall
    have hfits := escapedLength_take_fit_le room data
    rwa [hall, List.take_length] at hfits
  · intro hfits
    apply Nat.le_antisymm (fit_le_length room data)
    apply le_fit (Nat.le_refl _)
    rwa [List.take_length]

/-! ## Filling a buffer -/

/-- Behind the longest front that fits there is no room for any of the rest. -/
theorem fit_rest (room : Nat) (data : Bytes) :
    fit (room - escapedLength (data.take (fit room data))) (data.drop (fit room data)) = 0 := by
  generalize hm : fit (room - escapedLength (data.take (fit room data)))
    (data.drop (fit room data)) = m
  have hle := fit_le_length (room - escapedLength (data.take (fit room data)))
    (data.drop (fit room data))
  have hfits := escapedLength_take_fit_le (room - escapedLength (data.take (fit room data)))
    (data.drop (fit room data))
  rw [hm] at hle hfits
  rw [List.length_drop] at hle
  have hfront := escapedLength_take_fit_le room data
  have hfront_le := fit_le_length room data
  -- both fronts together are a front that fits
  have hboth : fit room data + m ≤ fit room data := by
    apply le_fit
    · omega
    · rw [List.take_add, escapedLength_append]
      omega
  omega

/-- Nothing fits if there is no data or no room, or one byte of room and an IAC first. -/
theorem fit_eq_zero_iff (room : Nat) (data : Bytes) :
    fit room data = 0 ↔ data = [] ∨ room = 0 ∨ (room = 1 ∧ data.head? = some iac) := by
  cases data with
  | nil => simp
  | cons b data =>
    have hpos := fit_cons_pos_iff room b data
    by_cases hb : b = iac
    · rw [hb] at hpos ⊢
      rw [show width iac = 2 from rfl] at hpos
      simp
      omega
    · rw [width, if_neg hb] at hpos
      simp [hb]
      omega

/-- `data` was appended to `buffer`, up to `limit` bytes: `n` bytes of it, in escaped form, make
`filled`. -/
structure FillsUp (limit : Nat) (buffer data filled : Bytes) (n : Nat) : Prop where
  longest : Longest (limit - buffer.length) data n
  filled_eq : filled = buffer ++ escape (data.take n)
  length_le : filled.length ≤ max limit buffer.length
  /-- There is no room for any of the rest. -/
  rest_stays_out : appendFitting limit filled (data.drop n) = (filled, 0)
  /-- Nothing goes in only if there is nothing, no room, or one byte of room for an IAC. -/
  nothing_iff : n = 0 ↔ data = [] ∨ limit ≤ buffer.length ∨
    (limit = buffer.length + 1 ∧ data.head? = some iac)

/-- **Filling a buffer is maximal and keeps pairs whole.** Whatever is in the buffer and whatever its
limit, the data that goes in is the longest front whose escaped form fits into the room that is left,
and comes behind what was there. Only a buffer that was past its limit stays so, and appending the
rest at once does nothing. -/
theorem appendFitting_fillsUp (limit : Nat) (buffer data : Bytes) :
    FillsUp limit buffer data (appendFitting limit buffer data).1
      (appendFitting limit buffer data).2 := by
  rw [appendFitting_eq]
  dsimp only
  have hfits := escapedLength_take_fit_le (limit - buffer.length) data
  have hlength : (buffer ++ escape (data.take (fit (limit - buffer.length) data))).length =
      buffer.length + escapedLength (data.take (fit (limit - buffer.length) data)) := by
    rw [List.length_append, length_escape]
  refine ⟨fit_longest _ _, rfl, ?_, ?_, ?_⟩
  · omega
  · rw [appendFitting_eq, hlength, ← Nat.sub_sub, fit_rest, List.take_zero, escape_nil,
      List.append_nil]
  · have hone : limit - buffer.length = 1 ↔ limit = buffer.length + 1 := by omega
    rw [fit_eq_zero_iff, Nat.sub_eq_zero_iff_le, hone]

/-- An IAC that meets the last free byte stays out, and the run before it goes in. -/
example : appendFitting 4 [9] [1, 2, 255, 4] = ([9, 1, 2], 2) ∧
    appendFitting 5 [9] [1, 2, 255, 4] = ([9, 1, 2, 255, 255], 3) := by
  decide

/-! ## The front behind some output -/

/-- What the first `k` bytes of the escaped form of `data` stand for. -/
def frontProgress (data : Bytes) (k : Nat) : Progress :=
  Progress.of ((escape data).take k)

theorem frontProgress_reaches (data : Bytes) (k : Nat) :
    (frontProgress data k).Reaches data ((escape data).take k) :=
  Progress.of_reaches (List.take_prefix k _)

/-- Half a pair is less than the escaped form of the byte that it belongs to. -/
theorem Progress.Reaches.length_halfPair_lt {p : Progress} {data output : Bytes}
    (h : p.Reaches data output) (hlt : p.inputs < data.length) :
    (halfPair p.midPair).length < width data[p.inputs] := by
  cases hmid : p.midPair with
  | false => exact width_pos _
  | true =>
    obtain ⟨_, hiac⟩ := List.getElem?_eq_some_iff.mp (h.iac_at hmid)
    rw [hiac]
    decide

theorem Progress.Reaches.longest {p : Progress} {data : Bytes} {k : Nat}
    (h : p.Reaches data ((escape data).take k)) : Longest k data p.inputs := by
  have hlen := congrArg List.length h.output_eq
  rw [List.length_take, List.length_append, length_escape, length_escape] at hlen
  constructor
  · exact ⟨h.inputs_le, by omega⟩
  · intro m ⟨hm, hfits⟩
    -- with one byte more than `p.inputs`, the front would already be longer than the output
    apply Nat.le_of_not_lt
    intro hlt
    have hhalf := h.length_halfPair_lt (Nat.lt_of_lt_of_le hlt hm)
    have hnext := escapedLength_take_succ (Nat.lt_of_lt_of_le hlt hm)
    have hle : escapedLength (data.take (p.inputs + 1)) ≤ escapedLength (data.take m) :=
      escapedLength_mono (List.take_prefix_take_left hlt)
    have hall : escapedLength (data.take m) ≤ escapedLength data :=
      escapedLength_mono (List.take_prefix m data)
    omega

theorem inputs_frontProgress (data : Bytes) (k : Nat) :
    (frontProgress data k).inputs = fit k data :=
  (frontProgress_reaches data k).longest.eq_fit

/-- What the progress `p` of the first `k` bytes of the escaped form of `data` tells: the longest
front of the data that is there in full, and whether half a pair, of the next byte, comes after
it. -/
structure ReadsBack (data : Bytes) (k : Nat) (p : Progress) : Prop where
  longest : Longest k data p.inputs
  whole : p.midPair = false → (escape data).take k = escape (data.take p.inputs)
  half : p.midPair = true →
    data[p.inputs]? = some iac ∧ (escape data).take k = escape (data.take p.inputs) ++ [iac]

/-- **Reading inverts escaping, on every front.** Whatever number of bytes of the escaped form of
some data is there, the progress read off them counts the longest front of the data that fits into
so many bytes, and says exactly what else there is. The count never falls as the output grows, rises
by at most one with each byte, and is that of all the data just if all the output is there. -/
theorem progress_inverts_escape (data : Bytes) :
    (∀ k, ReadsBack data k (frontProgress data k)) ∧
    Monotone (fun k => (frontProgress data k).inputs) ∧
    (∀ k, (frontProgress data (k + 1)).inputs ≤ (frontProgress data k).inputs + 1) ∧
    ∀ k, (frontProgress data k).inputs = data.length ↔ escapedLength data ≤ k := by
  simp only [inputs_frontProgress]
  refine ⟨?_, ?_, ?_, ?_⟩
  · intro k
    have hreaches := frontProgress_reaches data k
    refine ⟨hreaches.longest, ?_, ?_⟩
    · intro hmid
      have houtput := hreaches.output_eq
      rwa [hmid, halfPair_false, List.append_nil] at houtput
    · intro hmid
      have houtput := hreaches.output_eq
      rw [hmid, halfPair_true] at houtput
      exact ⟨hreaches.iac_at hmid, houtput⟩
  · intro k k' hk
    exact fit_mono hk data
  · intro k
    exact fit_succ_le k data
  · intro k
    exact fit_eq_length_iff k data

/-- Within a run of IACs only the number of bytes tells pairs from halves. -/
example : frontProgress [255, 255, 255] 4 = ⟨2, false⟩ ∧
    frontProgress [255, 255, 255] 5 = ⟨2, true⟩ := by
  decide

end TelnetEscape
