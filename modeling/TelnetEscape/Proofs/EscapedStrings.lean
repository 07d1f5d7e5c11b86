import Mathlib.Algebra.Group.Nat.Even
import Mathlib.Algebra.Ring.Parity
import TelnetEscape.FrameItem
import TelnetEscape.Proofs.Front

/-!
# Escaped byte strings

Escaping loses nothing: of two escaped forms, one begins with the other just if the data behind them
do (`escape_prefix_iff`). Which byte strings are escaped forms can be seen from the runs of IACs in
them. A run is told by what is around it: there is no IAC on either side. In an escaped form every
run has even length (`EvenRuns`), and nothing more is asked (`exists_escape_iff`).

* `escape_uniquely_readable`: these laws, with how `escape` comes about byte by byte;
* `encodeAll_regroups`: payload that is encoded item by item, in items of any sort and size, makes
  one frame, that of all the payload.
-/

namespace TelnetEscape

/-! ## Fronts -/

theorem escapeByte_append_prefix_iff (x y : UInt8) (u v : Bytes) :
    escapeByte x ++ u <+: escapeByte y ++ v ↔ x = y ∧ u <+: v := by
  unfold escapeByte
  by_cases hx : x = iac
  · by_cases hy : y = iac
    · simp [hx, hy]
    · simp [hx, hy, Ne.symm hy]
  · by_cases hy : y = iac
    · simp [hx, hy]
    · simp [hx, hy, List.cons_prefix_cons]

theorem escapeByte_ne_nil (b : UInt8) : escapeByte b ≠ [] := by
  apply List.ne_nil_of_length_pos
  rw [length_escapeByte]
  exact width_pos b

/-- By induction on `a`: the first byte is the same, and then the rest. -/
theorem prefix_of_prefix_escape {a b : Bytes} (h : escape a <+: escape b) : a <+: b := by
  induction a generalizing b with
  | nil => exact List.nil_prefix
  | cons x a ih =>
    rw [escape_cons] at h
    cases b with
    | nil =>
      rw [escape_nil, List.prefix_nil, List.append_eq_nil_iff] at h
      exact absurd h.1 (escapeByte_ne_nil x)
    | cons y b =>
      rw [escape_cons, escapeByte_append_prefix_iff] at h
      obtain ⟨rfl, hrest⟩ := h
      exact List.cons_prefix_cons.mpr ⟨rfl, ih hrest⟩

theorem escape_prefix_iff (a b : Bytes) : escape a <+: escape b ↔ a <+: b :=
  ⟨prefix_of_prefix_escape, escape_mono⟩

theorem escape_injective : Function.Injective escape := by
  intro a b h
  have hab : a <+: b := prefix_of_prefix_escape (h ▸ List.prefix_refl _)
  have hba : b <+: a := prefix_of_prefix_escape (h ▸ List.prefix_refl _)
  exact hab.eq_of_length (Nat.le_antisymm hab.length_le hba.length_le)

/-- Only data without an IAC is its own escaped form, since each one makes it longer. -/
theorem escape_eq_self_iff (a : Bytes) : escape a = a ↔ iac ∉ a := by
  constructor
  · intro h
    have hlen := congrArg List.length h
    rw [length_escape, escapedLength] at hlen
    apply List.count_eq_zero.mp
    omega
  · intro h
    induction a with
    | nil => rfl
    | cons b a ih =>
      rw [List.mem_cons, not_or] at h
      rw [escape_cons, escapeByte, if_neg (Ne.symm h.1), ih h.2, List.singleton_append]

/-! ## Runs of IACs -/

/-- Every run of IACs with no other IAC beside it has even length. -/
def EvenRuns (output : Bytes) : Prop :=
  ∀ (before : Bytes) (n : Nat) (after : Bytes), output = before ++ List.replicate n iac ++ after →
    before.getLast? ≠ some iac → after.head? ≠ some iac → Even n

theorem evenRuns_nil : EvenRuns [] := by
  intro before n after h _ _
  obtain ⟨-, rfl, -⟩ : before = [] ∧ n = 0 ∧ after = [] := by simpa using h
  exact Even.zero

/-- A byte that is no IAC can be left out in front: it belongs to no run. -/
theorem evenRuns_cons_iff {x : UInt8} (hx : x ≠ iac) (output : Bytes) :
    EvenRuns (x :: output) ↔ EvenRuns output := by
  constructor
  · intro h before n after houtput hbefore hafter
    apply h (x :: before) n after
    · rw [houtput]
      rfl
    · cases before with
      | nil => simpa using hx
      | cons y before => rwa [List.getLast?_cons_cons]
    · exact hafter
  · intro h before n after houtput hbefore hafter
    cases before with
    | nil =>
      cases n with
      | zero => exact Even.zero
      | succ n =>
        rw [List.replicate_succ] at houtput
        exact absurd (List.cons.inj houtput).1 hx
    | cons y before =>
      apply h before n after (List.cons.inj houtput).2 _ hafter
      cases before with
      | nil => simp
      | cons z before => rwa [List.getLast?_cons_cons] at hbefore

/-- Two IACs can be left out in front: the run that they belong to gets shorter by two. -/
theorem evenRuns_pair_iff (output : Bytes) : EvenRuns (iac :: iac :: output) ↔ EvenRuns output := by
  constructor
  · intro h before n after houtput hbefore hafter
    cases before with
    | nil =>
      have heven : Even (n + 2) := by
        apply h [] (n + 2) after _ (by simp) hafter
        rw [houtput]
        rfl
      rwa [Nat.even_add, iff_true_right even_two] at heven
    | cons y before =>
      apply h (iac :: iac :: y :: before) n after _ _ hafter
      · rw [houtput]
        rfl
      · rwa [List.getLast?_cons_cons, List.getLast?_cons_cons]
  · intro h before n after houtput hbefore hafter
    rcases before with _ | ⟨y, _ | ⟨z, before⟩⟩
    · rcases n with _ | _ | n
      · exact Even.zero
      · have hafter' : iac :: output = after := (List.cons.inj houtput).2
        rw [← hafter'] at hafter
        exact absurd rfl hafter
      · have hrest : output = List.replicate n iac ++ after :=
          (List.cons.inj (List.cons.inj houtput).2).2
        exact (h [] n after hrest (by simp) hafter).add even_two
    · have hy : iac = y := (List.cons.inj houtput).1
      rw [← hy] at hbefore
      exact absurd rfl hbefore
    · obtain ⟨rfl, htail⟩ := List.cons.inj houtput
      obtain ⟨rfl, hrest⟩ := List.cons.inj htail
      apply h before n after hrest _ hafter
      cases before with
      | nil => simp
      | cons x before => rwa [List.getLast?_cons_cons, List.getLast?_cons_cons] at hbefore

/-- A single IAC in front is a run of length one. -/
theorem not_evenRuns_of_single {output : Bytes} (hnext : output.head? ≠ some iac) :
    ¬ EvenRuns (iac :: output) := by
  intro h
  have hone := h [] 1 output rfl (by simp) hnext
  exact absurd hone Nat.not_even_one

theorem evenRuns_escape (data : Bytes) : EvenRuns (escape data) := by
  induction data with
  | nil => exact evenRuns_nil
  | cons b data ih =>
    rw [escape_cons, escapeByte]
    by_cases hb : b = iac
    · rw [if_pos hb]
      exact (evenRuns_pair_iff _).mpr ih
    · rw [if_neg hb]
      exact (evenRuns_cons_iff hb _).mpr ih

/-- By induction on the length, because a pair is two bytes. -/
theorem EvenRuns.exists_escape {output : Bytes} (h : EvenRuns output) :
    ∃ data, escape data = output := by
  induction hlen : output.length using Nat.strongRecOn generalizing output with
  | ind len ih =>
    subst hlen
    rcases output with _ | ⟨x, output⟩
    · exact ⟨[], rfl⟩
    by_cases hx : x = iac
    · subst hx
      by_cases hnext : output.head? = some iac
      · obtain ⟨output, rfl⟩ := List.head?_eq_some_iff.mp hnext
        have hshorter : output.length < (iac :: iac :: output).length := by
          simp only [List.length_cons]
          omega
        obtain ⟨data, hdata⟩ := ih _ hshorter ((evenRuns_pair_iff output).mp h) rfl
        exact ⟨iac :: data, by rw [escape_cons, hdata]; rfl⟩
      · exact absurd h (not_evenRuns_of_single hnext)
    · have hshorter : output.length < (x :: output).length := Nat.lt_succ_self _
      obtain ⟨data, hdata⟩ := ih _ hshorter ((evenRuns_cons_iff hx output).mp h) rfl
      exact ⟨x :: data, by rw [escape_cons, hdata, escapeByte, if_neg hx]; rfl⟩

theorem exists_escape_iff (output : Bytes) : (∃ data, escape data = output) ↔ EvenRuns output := by
  constructor
  · rintro ⟨data, rfl⟩
    exact evenRuns_escape data
  · intro h
    exact h.exists_escape

/-- **Escaped data is uniquely readable.** The escaped form is that of each byte in turn, as long as
was counted, and that of two parts is made of theirs. It shows the fronts of the data, and hence the
data. The byte strings that are escaped forms are those in which every run of IACs has even length,
and escaping one of them again changes it just if there is an IAC. -/
theorem escape_uniquely_readable :
    (∀ a : Bytes, escape a = a.flatMap (fun x => if x = iac then [iac, iac] else [x]) ∧
      (escape a).length = escapedLength a) ∧
    (∀ a b, escape (a ++ b) = escape a ++ escape b) ∧
    (∀ a b, escape a <+: escape b ↔ a <+: b) ∧
    Function.Injective escape ∧
    (∀ output, (∃ a, escape a = output) ↔ EvenRuns output) ∧
    ∀ a, escape (escape a) = escape a ↔ iac ∉ a := by
  refine ⟨?_, escape_append, escape_prefix_iff, escape_injective, exists_escape_iff, ?_⟩
  · intro a
    exact ⟨escape_eq_flatMap a, length_escape a⟩
  · intro a
    rw [escape_injective.eq_iff, escape_eq_self_iff]

/-! ## Frames -/

namespace FrameItem

/-- The payload of several items. -/
def payload (items : List FrameItem) : Bytes :=
  items.flatMap bytes

theorem encodeAll_append (buffer : Bytes) (before after : List FrameItem) :
    encodeAll buffer (before ++ after) = encodeAll (encodeAll buffer before) after :=
  List.foldl_append

theorem encodeAll_eq (buffer : Bytes) (items : List FrameItem) :
    encodeAll buffer items = buffer ++ escape (payload items) := by
  induction items generalizing buffer with
  | nil => exact (List.append_nil buffer).symm
  | cons item items ih =>
    have hrest : encodeAll buffer (item :: items) = encodeAll (encode buffer item) items := rfl
    rw [hrest, ih, encode_eq, List.append_assoc, ← escape_append]
    rfl

/-- **Items may be regrouped.** Items of any sort, encoded one after the other, leave what is in the
buffer as it is, at every item, and add the escaped form of their payload. So does appending all of
the payload at once, or as any other items. -/
theorem encodeAll_regroups (buffer : Bytes) (items : List FrameItem) :
    encodeAll buffer items = buffer ++ escape (payload items) ∧
    (∀ k, encodeAll buffer (items.take k) <+: encodeAll buffer items) ∧
    encodeAll buffer items = appendEscaped buffer (payload items) ∧
    ∀ others, payload others = payload items →
      encodeAll buffer others = encodeAll buffer items := by
  refine ⟨encodeAll_eq buffer items, ?_, ?_, ?_⟩
  · intro k
    have hsplit := encodeAll_append buffer (items.take k) (items.drop k)
    rw [List.take_append_drop, encodeAll_eq _ (items.drop k)] at hsplit
    rw [hsplit]
    exact List.prefix_append _ _
  · rw [encodeAll_eq, appendEscaped_eq]
  · intro others hpayload
    rw [encodeAll_eq, encodeAll_eq, hpayload]

/-- An IAC in the buffer, and two more that meet at the border of two items or are in one. -/
theorem encodeAll_regroups_of_border :
    payload [.byte 7, .run [255, 255]] = payload [.run [7, 255], .byte 255] ∧
    encodeAll [255] [.run [7, 255], .byte 255] = [255, 7, 255, 255, 255, 255] ∧
    encodeAll [255] [.byte 7, .run [255, 255]] = encodeAll [255] [.run [7, 255], .byte 255] := by
  have hpayload : payload [.byte 7, .run [255, 255]] = payload [.run [7, 255], .byte 255] := by
    decide
  refine ⟨hpayload, by decide, ?_⟩
  exact (encodeAll_regroups [255] [.run [7, 255], .byte 255]).2.2.2 _ hpayload

end FrameItem
end TelnetEscape
