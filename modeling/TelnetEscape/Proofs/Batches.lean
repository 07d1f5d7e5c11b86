import TelnetEscape.Proofs.Agreement
import TelnetEscape.Proofs.LongestFronts

/-!
# The batches of a send

A blocking send cuts its data from the front, each time as much as fits on an empty stage. `Cuts`
says so of the segments, and leaves no choice (`Cuts.unique`). The batches are their escaped forms.
Since a stage is filled until the next byte of data does not fit, a batch that is not the last takes
all of the room, or all but one byte if an IAC comes next (`Cuts.full`).

`HandsOver` is the order of the writes: what is left of a batch is offered until the sink has all of
it, then comes the next batch, and a write that fails is the last. From it follow the laws for a
single offer and for a pair that is taken in two writes.

* `Sends.handsOver`: the writes of a send are of this kind;
* `Cuts.second_half`: nothing comes between the two halves of a pair;
* `send_batched`: the segments of a send, its writes, and the flush behind them.
-/

namespace TelnetEscape

/-! ## Cutting the data -/

/-- `segments` are the parts of `data`, one after the other. Each is the longest front of what is
left whose escaped form takes at most `limit` bytes, and none is empty. -/
inductive Cuts (limit : Nat) : Bytes → List Bytes → Prop
  | nil : Cuts limit [] []
  | cons {data segment rest : Bytes} {segments : List Bytes} (data_eq : data = segment ++ rest)
      (some_taken : segment ≠ []) (longest : Longest limit data segment.length)
      (more : Cuts limit rest segments) : Cuts limit data (segment :: segments)

namespace Cuts

variable {limit : Nat} {data : Bytes} {segments : List Bytes}

theorem eq_nil (h : Cuts limit [] segments) : segments = [] := by
  cases h with
  | nil => rfl
  | cons data_eq some_taken => exact absurd (List.append_eq_nil_iff.mp data_eq.symm).1 some_taken

/-- Of some data the first segment is what fits, and the others are those of the rest. -/
theorem of_ne_nil (h : Cuts limit data segments) (some_data : data ≠ []) :
    ∃ more, segments = data.take (fit limit data) :: more ∧
      Cuts limit (data.drop (fit limit data)) more := by
  cases h with
  | nil => exact absurd rfl some_data
  | @cons _ segment rest segments data_eq _ longest more =>
    refine ⟨segments, ?_, ?_⟩
    · rw [← longest.eq_fit, data_eq, List.take_left]
    · rw [← longest.eq_fit, data_eq, List.drop_left]
      exact more

theorem unique (h : Cuts limit data segments) {other : List Bytes} (h' : Cuts limit data other) :
    other = segments := by
  induction h generalizing other with
  | nil => exact h'.eq_nil
  | @cons data segment rest segments data_eq some_taken longest _ ih =>
    have some_data : data ≠ [] := by
      rw [data_eq]
      exact List.append_ne_nil_of_left_ne_nil some_taken rest
    obtain ⟨more, rfl, hmore⟩ := h'.of_ne_nil some_data
    rw [← longest.eq_fit, data_eq, List.drop_left] at hmore
    rw [← longest.eq_fit, data_eq, List.take_left, ih hmore]

theorem flatten_eq (h : Cuts limit data segments) : segments.flatten = data := by
  induction h with
  | nil => rfl
  | cons data_eq _ _ _ ih => rw [List.flatten_cons, ih, data_eq]

theorem ne_nil (h : Cuts limit data segments) : ∀ segment ∈ segments, segment ≠ [] := by
  induction h with
  | nil => exact List.forall_mem_nil _
  | cons _ some_taken _ _ ih => exact List.forall_mem_cons.mpr ⟨some_taken, ih⟩

theorem escapedLength_le (h : Cuts limit data segments) :
    ∀ segment ∈ segments, escapedLength segment ≤ limit := by
  induction h with
  | nil => exact List.forall_mem_nil _
  | cons data_eq _ longest _ ih =>
    have hfits := longest.1.2
    rw [data_eq, List.take_left] at hfits
    exact List.forall_mem_cons.mpr ⟨hfits, ih⟩

/-- By induction on the length of the data: some of it always fits, so there is less left. -/
theorem exists_of_two_le (hlimit : 2 ≤ limit) (data : Bytes) :
    ∃ segments, Cuts limit data segments := by
  induction hlen : data.length using Nat.strongRecOn generalizing data with
  | ind len ih =>
    by_cases hdata : data = []
    · exact ⟨[], hdata ▸ .nil⟩
    · have hfit := fit_pos hlimit hdata
      have hlength := List.length_pos_iff.mpr hdata
      have hshorter : (data.drop (fit limit data)).length < len := by
        rw [List.length_drop]
        omega
      obtain ⟨segments, hsegments⟩ := ih _ hshorter _ rfl
      have hle := fit_le_length limit data
      have htake : (data.take (fit limit data)).length = fit limit data :=
        List.length_take_of_le hle
      refine ⟨_, .cons (List.take_append_drop _ data).symm ?_ ?_ hsegments⟩
      · apply List.ne_nil_of_length_pos
        omega
      · rw [htake]
        exact fit_longest limit data

end Cuts

/-- One more byte than the longest front would not fit. -/
theorem Longest.limit_lt {limit : Nat} {segment rest : Bytes} {b : UInt8}
    (h : Longest limit (segment ++ b :: rest) segment.length) :
    limit < escapedLength segment + width b := by
  have hnext : escapedLength (segment ++ [b]) = escapedLength segment + width b := by
    rw [escapedLength_append, escapedLength_cons, escapedLength_nil, Nat.add_zero]
  have htake : (segment ++ b :: rest).take (segment.length + 1) = segment ++ [b] := by
    rw [List.take_length_add_append]
    rfl
  apply Nat.lt_of_not_le
  intro hfits
  have hle : segment.length + 1 ≤ segment.length := by
    apply h.2
    refine ⟨?_, ?_⟩
    · simp only [List.length_append, List.length_cons]
      omega
    · rw [htake, hnext]
      exact hfits
  omega

/-- A batch that another one follows is full, or has one byte of room and an IAC next. -/
theorem Cuts.full {limit : Nat} {data : Bytes} {segments before after : List Bytes}
    {segment next : Bytes} (h : Cuts limit data segments)
    (hsegments : segments = before ++ segment :: next :: after) :
    (escape segment).length = limit ∨
      (escape segment).length + 1 = limit ∧ next.head? = some iac := by
  induction h generalizing before with
  | nil => simp at hsegments
  | @cons data first rest segments data_eq _ longest more ih =>
    cases before with
    | cons _ before => exact ih (List.cons.inj hsegments).2
    | nil =>
      obtain ⟨rfl, rfl⟩ := List.cons.inj hsegments
      cases more with
      | @cons _ _ rest' _ rest_eq next_taken =>
        obtain ⟨b, next, rfl⟩ := List.exists_cons_of_ne_nil next_taken
        have hfits := longest.1.2
        rw [data_eq, List.take_left] at hfits
        rw [data_eq, rest_eq, List.cons_append] at longest
        have hover := longest.limit_lt
        rw [length_escape]
        by_cases hb : b = iac
        · rw [hb, width, if_pos rfl] at hover
          rw [hb, List.head?_cons, and_iff_left rfl]
          omega
        · rw [width, if_neg hb] at hover
          exact Or.inl (by omega)

example : fit 4 [1, 2, 3, iac, 5] = 3 ∧ fit 4 [iac, 5] = 2 := by decide

/-! ## Handing over batches -/

/-- The writes that hand batches to a sink, in order. What is left of a batch is offered until all
of it is taken, and only then the next batch. A write that fails is the last one. -/
inductive HandsOver : List Bytes → Journal → Prop
  | done : HandsOver [] []
  | failed {batch : Bytes} {batches : List Bytes} {answer : Except SinkError Nat}
      (failure : (Entry.write batch (.ready answer)).failure? ≠ none) :
      HandsOver (batch :: batches) [.write batch (.ready answer)]
  | took_part {batch : Bytes} {batches : List Bytes} {n : Nat} {lines : Journal}
      (some_taken : 0 < n) (some_left : n < batch.length)
      (rest : HandsOver (batch.drop n :: batches) lines) :
      HandsOver (batch :: batches) (.write batch (.ready (.ok n)) :: lines)
  | took_all {batch : Bytes} {batches : List Bytes} {n : Nat} {lines : Journal}
      (all_taken : batch.length ≤ n) (next : HandsOver batches lines) :
      HandsOver (batch :: batches) (.write batch (.ready (.ok n)) :: lines)

/-- `offered` is the end of one of the batches. Behind what the sink has taken it makes up that
batch and all before it. -/
structure Completing (batches : List Bytes) (taken offered : Bytes) : Prop where
  some_left : offered ≠ []
  of_batch : ∃ batch ∈ batches, offered <:+ batch
  through : ∃ i, taken ++ offered = (batches.take (i + 1)).flatten

namespace Completing

variable {batch taken offered : Bytes} {batches : List Bytes} {n : Nat}

theorem first (some_batch : batch ≠ []) (batches : List Bytes) :
    Completing (batch :: batches) [] batch := by
  refine ⟨some_batch, ⟨batch, List.mem_cons_self, List.suffix_refl batch⟩, 0, ?_⟩
  rw [List.take_succ_cons, List.take_zero, List.flatten_singleton, List.nil_append]

theorem after_part (h : Completing (batch.drop n :: batches) taken offered) :
    Completing (batch :: batches) (batch.take n ++ taken) offered := by
  obtain ⟨some_left, ⟨whole, hmem, hsuffix⟩, i, hthrough⟩ := h
  refine ⟨some_left, ?_, i, ?_⟩
  · rcases List.mem_cons.mp hmem with rfl | hmem
    · exact ⟨batch, List.mem_cons_self, hsuffix.trans (List.drop_suffix n batch)⟩
    · exact ⟨whole, List.mem_cons_of_mem batch hmem, hsuffix⟩
  · rw [List.take_succ_cons, List.flatten_cons] at hthrough ⊢
    rw [List.append_assoc, hthrough, ← List.append_assoc, List.take_append_drop]

theorem after_batch (h : Completing batches taken offered) (all_taken : batch.length ≤ n) :
    Completing (batch :: batches) (batch.take n ++ taken) offered := by
  obtain ⟨some_left, ⟨whole, hmem, hsuffix⟩, i, hthrough⟩ := h
  refine ⟨some_left, ⟨whole, List.mem_cons_of_mem batch hmem, hsuffix⟩, i + 1, ?_⟩
  rw [List.take_of_length_le all_taken, List.append_assoc, hthrough, List.take_succ_cons,
    List.flatten_cons]

end Completing

namespace HandsOver

variable {batches : List Bytes} {before offers after : Journal} {offered : Bytes}

/-- By induction on the writes: the first one offers the first batch, and what it takes of it comes
before all that is taken later. -/
theorem completing {answer : Poll (Except SinkError Nat)} (h : HandsOver batches offers)
    (some_each : ∀ batch ∈ batches, batch ≠ [])
    (hoffers : offers = before ++ .write offered answer :: after) :
    Completing batches before.taken offered := by
  induction h generalizing before with
  | done => simp at hoffers
  | failed =>
    cases before with
    | nil =>
      obtain ⟨rfl, -⟩ := Entry.write.inj (List.cons.inj hoffers).1
      exact .first (List.forall_mem_cons.mp some_each).1 _
    | cons first before => simp at hoffers
  | @took_part batch batches n lines some_taken some_left rest ih =>
    cases before with
    | nil =>
      obtain ⟨rfl, -⟩ := Entry.write.inj (List.cons.inj hoffers).1
      exact .first (List.forall_mem_cons.mp some_each).1 _
    | cons first before =>
      obtain ⟨rfl, hrest⟩ := List.cons.inj hoffers
      have hdrop : batch.drop n ≠ [] := mt List.drop_eq_nil_iff.mp (Nat.not_le.mpr some_left)
      have some_rest : ∀ b ∈ batch.drop n :: batches, b ≠ [] := by
        rw [List.forall_mem_cons]
        exact ⟨hdrop, (List.forall_mem_cons.mp some_each).2⟩
      exact (ih some_rest hrest).after_part
  | @took_all batch batches n lines all_taken next ih =>
    cases before with
    | nil =>
      obtain ⟨rfl, -⟩ := Entry.write.inj (List.cons.inj hoffers).1
      exact .first (List.forall_mem_cons.mp some_each).1 _
    | cons first before =>
      obtain ⟨rfl, hrest⟩ := List.cons.inj hoffers
      exact (ih (List.forall_mem_cons.mp some_each).2 hrest).after_batch all_taken

theorem first_write {batch : Bytes} (h : HandsOver (batch :: batches) offers) :
    ∃ answer more, offers = .write batch answer :: more := by
  cases h with
  | failed | took_part | took_all => exact ⟨_, _, rfl⟩

/-- After a short write the rest of the offer comes next. -/
theorem rest_next {n : Nat} (h : HandsOver batches offers)
    (hoffers : offers = before ++ .write offered (.ready (.ok n)) :: after) (some_taken : 0 < n)
    (some_left : n < offered.length) :
    ∃ answer more, after = .write (offered.drop n) answer :: more := by
  induction h generalizing before with
  | done => simp at hoffers
  | failed failure =>
    cases before with
    | nil =>
      obtain ⟨hwrite, -⟩ := List.cons.inj hoffers
      rw [hwrite] at failure
      obtain ⟨m, rfl⟩ := Nat.exists_eq_add_one.mpr some_taken
      exact absurd rfl failure
    | cons first before => simp at hoffers
  | took_part _ _ rest ih =>
    cases before with
    | nil =>
      obtain ⟨hwrite, rfl⟩ := List.cons.inj hoffers
      obtain ⟨rfl, hanswer⟩ := Entry.write.inj hwrite
      cases hanswer
      exact rest.first_write
    | cons first before => exact ih (List.cons.inj hoffers).2
  | took_all all_taken _ ih =>
    cases before with
    | nil =>
      obtain ⟨rfl, hanswer⟩ := Entry.write.inj (List.cons.inj hoffers).1
      cases hanswer
      exact absurd some_left (Nat.not_lt.mpr all_taken)
    | cons first before => exact ih (List.cons.inj hoffers).2

end HandsOver

/-! ## What a send does -/

section
variable {limit : Nat} {data : Bytes} {segments batches : List Bytes} {lines more : Journal}

theorem Offers.of_nil {answer : Poll (Except SinkError Unit)} (h : Offers [] lines answer) :
    lines = [] ∧ answer = .ready (.ok ()) := by
  cases h with
  | done => exact ⟨rfl, rfl⟩
  | pending some_left | refused some_left | failed some_left | took some_left =>
    exact absurd rfl some_left

/-- A push that gets to the end, before the other batches. -/
theorem Offers.handsOver_of_ok {unsent : Bytes} (h : Offers unsent lines (.ready (.ok ())))
    (some_left : unsent ≠ []) (hmore : HandsOver batches more) :
    HandsOver (unsent :: batches) (lines ++ more) := by
  generalize hready : Poll.ready (Except.ok ()) = answer at h
  induction h with
  | done => exact absurd rfl some_left
  | pending | refused | failed => cases hready
  | @took unsent n lines answer _ rest ih =>
    by_cases hall : unsent.length ≤ n + 1
    · rw [List.drop_eq_nil_of_le hall] at rest
      rw [rest.of_nil.1]
      exact .took_all hall hmore
    · apply HandsOver.took_part (Nat.succ_pos n) (Nat.not_le.mp hall)
      exact ih (mt List.drop_eq_nil_iff.mp hall) hready

/-- A push that fails, after which the other batches are not offered. -/
theorem Offers.handsOver_of_error {unsent : Bytes} {e : SinkError}
    (h : Offers unsent lines (.ready (.error e))) (batches : List Bytes) :
    HandsOver (unsent :: batches) lines := by
  generalize hready : Poll.ready (Except.error e) = answer at h
  induction h with
  | done | pending => cases hready
  | refused | failed => exact .failed (Option.some_ne_none _)
  | @took unsent n lines answer _ rest ih =>
    by_cases hall : unsent.length ≤ n + 1
    · rw [List.drop_eq_nil_of_le hall] at rest
      rw [← hready] at rest
      cases rest.of_nil.2
    · exact .took_part (Nat.succ_pos n) (Nat.not_le.mp hall) (ih hready)

theorem escape_ne_nil (h : data ≠ []) : escape data ≠ [] := by
  apply List.ne_nil_of_length_pos
  have := List.length_pos_iff.mpr h
  rw [length_escape, escapedLength]
  omega

/-- A batch that is taken in full, before the rest of the data. Without data there is none. -/
theorem Cuts.handsOver_after {inputs : Nat} (h : Cuts limit data segments) (hlimit : 2 ≤ limit)
    (drains : Drains (escape (data.take (fit limit data))) inputs lines (.ok ()))
    (hrest : ∀ others, Cuts limit (data.drop (fit limit data)) others →
      HandsOver (others.map escape) more) :
    HandsOver (segments.map escape) (lines.answered ++ more) := by
  have hoffers := drains.offers_answered
  by_cases hdata : data = []
  · subst hdata
    rw [List.take_nil, escape_nil] at hoffers
    rw [h.eq_nil, hoffers.of_nil.1]
    exact hrest [] .nil
  · obtain ⟨others, rfl, hothers⟩ := h.of_ne_nil hdata
    have hfit := fit_pos hlimit hdata
    have hlength := List.length_pos_iff.mpr hdata
    have hfront : data.take (fit limit data) ≠ [] := by
      apply List.ne_nil_of_length_pos
      rw [List.length_take]
      omega
    exact hoffers.handsOver_of_ok (escape_ne_nil hfront) (hrest others hothers)

/-- By induction on the batches that were started. -/
theorem Sends.handsOver {answer : Except Shortfall Nat} (h : Sends limit data lines answer)
    (hlimit : 2 ≤ limit) (hcuts : Cuts limit data segments) :
    HandsOver (segments.map escape) lines.answered := by
  induction h generalizing segments with
  | last all_fit drains =>
    rw [← List.append_nil (Journal.answered _)]
    apply hcuts.handsOver_after hlimit drains
    intro others hothers
    rw [all_fit] at hothers
    rw [hothers.eq_nil]
    exact .done
  | @short data lines f drains =>
    cases drains with
    | short offers =>
      have hdata : data ≠ [] := by
        rintro rfl
        cases offers.of_nil.2
      obtain ⟨others, rfl, -⟩ := hcuts.of_ne_nil hdata
      rw [Journal.answered_append, Journal.answered_event, List.append_nil, offers.answered_eq]
      exact offers.handsOver_of_error _
  | more _ drains _ ih =>
    rw [Journal.answered_append]
    exact hcuts.handsOver_after hlimit drains fun _ hothers => ih hothers

end

/-- Half a pair is followed by the other half. -/
theorem Progress.next_of_midPair {front rest data : Bytes} (h : front ++ rest = escape data)
    (hmid : (Progress.of front).midPair = true) : ∃ rest', rest = iac :: rest' := by
  have hreaches := of_reaches (h ▸ List.prefix_append front rest)
  obtain ⟨hlt, hiac⟩ := List.getElem?_eq_some_iff.mp (hreaches.iac_at hmid)
  have hdata := List.take_append_drop (Progress.of front).inputs data
  rw [List.drop_eq_getElem_cons hlt, hiac] at hdata
  have hfront := hreaches.output_eq
  rw [hmid, halfPair_true] at hfront
  have hescape := congrArg escape hdata
  rw [escape_append, escape_cons, ← h] at hescape
  generalize Progress.of front = p at hfront hescape
  rw [hfront, List.append_assoc] at hescape
  obtain ⟨-, hrest⟩ := List.cons.inj (List.append_cancel_left hescape)
  exact ⟨_, hrest.symm⟩

/-- The segments and the writes of a send of `data`. -/
structure Batched (limit : Nat) (data : Bytes) (segments : List Bytes) (offers : Journal) :
    Prop where
  cuts : Cuts limit data segments
  flatten_eq : segments.flatten = data
  /-- The data leaves no choice how it is cut. -/
  unique : ∀ others, Cuts limit data others → others = segments
  /-- Only in front of an IAC, or at the end, does a batch leave room. -/
  full : ∀ before segment next after, segments = before ++ segment :: next :: after →
    (escape segment).length = limit ∨
      (escape segment).length + 1 = limit ∧ next.head? = some iac
  /-- The batches are offered one after the other. -/
  hands_over : HandsOver (segments.map escape) offers
  /-- An offer is not empty, fits on the stage, and ends at the end of a segment. -/
  offer : ∀ (before : Journal) offered answer after,
    offers = before ++ .write offered answer :: after →
      offered ≠ [] ∧ offered.length ≤ limit ∧
        ∃ i, before.taken ++ offered = escape (segments.take i).flatten
  /-- When a write takes the first half of a pair, the next call offers the second one. -/
  second_half : ∀ (before : Journal) offered answer after,
    offers = before ++ .write offered answer :: after →
    (Entry.write offered answer).taken ≠ [] →
    (Progress.of (before.taken ++ (Entry.write offered answer).taken)).midPair = true →
      ∃ rest answer' more, after = .write (iac :: rest) answer' :: more
  no_data : data = [] → offers = []

section
variable {limit : Nat} {data : Bytes} {segments : List Bytes} {before offers after : Journal}

theorem flatten_map_escape (segments : List Bytes) :
    (segments.map escape).flatten = escape segments.flatten := by
  induction segments with
  | nil => rfl
  | cons segment segments ih =>
    rw [List.map_cons, List.flatten_cons, ih, List.flatten_cons, escape_append]

theorem Completing.through_segments {taken offered : Bytes}
    (h : Completing (segments.map escape) taken offered) :
    ∃ i, taken ++ offered = escape (segments.take i).flatten := by
  obtain ⟨i, hthrough⟩ := h.through
  exact ⟨i + 1, by rw [hthrough, ← List.map_take, flatten_map_escape]⟩

theorem Cuts.completing {offered : Bytes} {answer : Poll (Except SinkError Nat)}
    (h : Cuts limit data segments) (hands_over : HandsOver (segments.map escape) offers)
    (hoffers : offers = before ++ .write offered answer :: after) :
    Completing (segments.map escape) before.taken offered := by
  apply hands_over.completing _ hoffers
  rw [List.forall_mem_map]
  exact fun segment hmem => escape_ne_nil (h.ne_nil segment hmem)

theorem Cuts.length_offered_le {taken offered : Bytes} (h : Cuts limit data segments)
    (hcompleting : Completing (segments.map escape) taken offered) : offered.length ≤ limit := by
  obtain ⟨batch, hmem, hsuffix⟩ := hcompleting.of_batch
  obtain ⟨segment, hsegment, rfl⟩ := List.mem_map.mp hmem
  calc offered.length
    _ ≤ (escape segment).length := hsuffix.length_le
    _ = escapedLength segment := length_escape segment
    _ ≤ limit := h.escapedLength_le segment hsegment

/-- A write that leaves half a pair is a short one, since offers end with a segment. The rest of the
offer begins with the other half, and comes next. -/
theorem Cuts.second_half {offered : Bytes} {answer : Poll (Except SinkError Nat)}
    (h : Cuts limit data segments) (hands_over : HandsOver (segments.map escape) offers)
    (hoffers : offers = before ++ .write offered answer :: after)
    (some_taken : (Entry.write offered answer).taken ≠ [])
    (hmid : (Progress.of (before.taken ++ (Entry.write offered answer).taken)).midPair = true) :
    ∃ rest answer' more, after = .write (iac :: rest) answer' :: more := by
  obtain ⟨i, hthrough⟩ := (h.completing hands_over hoffers).through_segments
  match answer with
  | .pending | .ready (.error _) => exact absurd rfl some_taken
  | .ready (.ok n) =>
    rw [Entry.taken] at some_taken hmid
    by_cases hall : offered.length ≤ n
    · rw [List.take_of_length_le hall, hthrough, Progress.of_escape] at hmid
      cases hmid
    · have hpos : 0 < n := by
        apply Nat.pos_of_ne_zero
        rintro rfl
        exact some_taken List.take_zero
      obtain ⟨answer', more, rfl⟩ := hands_over.rest_next hoffers hpos (Nat.not_le.mp hall)
      rw [← List.take_append_drop n offered, ← List.append_assoc] at hthrough
      obtain ⟨rest, hrest⟩ := Progress.next_of_midPair hthrough hmid
      exact ⟨rest, answer', more, by rw [hrest]⟩

theorem Cuts.batched (h : Cuts limit data segments)
    (hands_over : HandsOver (segments.map escape) offers) : Batched limit data segments offers where
  cuts := h
  flatten_eq := h.flatten_eq
  unique _ h' := h.unique h'
  full _ _ _ _ hsegments := h.full hsegments
  hands_over := hands_over
  offer _ _ _ _ hoffers :=
    have hcompleting := h.completing hands_over hoffers
    ⟨hcompleting.some_left, h.length_offered_le hcompleting, hcompleting.through_segments⟩
  second_half _ _ _ _ hoffers some_taken hmid :=
    h.second_half hands_over hoffers some_taken hmid
  no_data hdata := by
    subst hdata
    rw [h.eq_nil] at hands_over
    cases hands_over
    rfl

end

/-- A blocking sink has no other calls than writes and flushes, and answers all. -/
theorem Sink.isAnswered_or_event {σ : Type} [Sink σ] {s s' : σ} {lines : Journal}
    (h : Calls Sink.Step s lines s') :
    ∀ line ∈ lines, line.isAnswered = true ∨ ∃ e, line = .event e := by
  induction h with
  | nil => exact List.forall_mem_nil _
  | @cons s s' s'' e lines first _ ih =>
    rw [List.forall_mem_cons]
    refine ⟨?_, ih⟩
    match e, first with
    | .write _ (.ready _), _ | .flush (.ready _), _ => exact Or.inl rfl
    | .event e, _ => exact Or.inr ⟨e, rfl⟩

/-- The calls of a blocking send, to any sink and for any capacity. The data is cut in one way, with
as much as fits in each batch, the batches are handed over one after the other, up to the first
write that fails, and only flushes come behind that. Between these calls there is nothing but
events. -/
theorem send_batched {σ : Type} [Sink σ] (w : Writer (Journaled σ)) (data : Bytes) :
    ∃ segments lines offers flushes,
      (w.send data).2.sink.journal = w.sink.journal ++ lines ∧
      (∀ line ∈ lines, line.isAnswered = true ∨ ∃ e, line = .event e) ∧
      lines.answered = offers ++ flushes ∧ (∀ call ∈ flushes, call.isFlush = true) ∧
      Batched w.config.stageLimit data segments offers := by
  obtain ⟨lines, flushes, batches, hcalls, hsends, hfinishes⟩ := w.send_sends data
  obtain ⟨segments, hcuts⟩ := Cuts.exists_of_two_le w.config.two_le_stageLimit data
  refine ⟨segments, lines ++ flushes, lines.answered, flushes, ?_, ?_, ?_, ?_, ?_⟩
  · exact Journaled.journal_of_calls hcalls
  · exact Sink.isAnswered_or_event hcalls
  · rw [Journal.answered_append, Journal.answered_flushes hfinishes]
  · exact hfinishes.isFlush
  · exact hcuts.batched (hsends.handsOver w.config.two_le_stageLimit hcuts)

end TelnetEscape
