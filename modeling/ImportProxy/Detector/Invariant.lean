import ImportProxy.Detector.Allow
import ImportProxy.Lib.Machine

/-!
# Reachable detector states

What every run of `allow` on packets with in-range end times keeps: each stream
has a non-empty buffer of headers of its name, whose start times strictly
ascend. `CallStep` lists the exits of one call.
-/

namespace ImportProxy.Detector

open ImportProxy.Base

/-- The buffer of the stream `name` in a reachable state. -/
structure StreamInv (name : Bytes) (b : Lib.Ring DataPacketHeader) : Prop where
  nonempty : b.toList ≠ []
  named : ∀ s ∈ b.toList, s.name = name
  spans : ∀ s ∈ b.toList, s.startTime ≤ s.endTime
  ascending : Lib.Ascending DataPacketHeader.startTime b.toList

namespace StreamInv

variable {name : Bytes} {b b' : Lib.Ring DataPacketHeader} {h : DataPacketHeader}

/-- A start time after the back's end time is after every start time. -/
theorem startTime_lt_of_back (hi : StreamInv name b) {back : DataPacketHeader}
    (hback : b.toList.getLast? = some back) (hlt : back.endTime < h.startTime) :
    ∀ s ∈ b.toList, s.startTime < h.startTime := by
  intro s hs
  have hle := hi.ascending.le_getLast hback s hs
  have hspan := hi.spans back (List.mem_of_getLast? hback)
  omega

/-- An end time before the front's start time is before every start time. -/
theorem endTime_lt_of_front (hi : StreamInv name b) {front : DataPacketHeader}
    (hfront : b.toList.head? = some front) (hlt : h.endTime < front.startTime) :
    ∀ s ∈ b.toList, h.endTime < s.startTime := by
  intro s hs
  exact lt_of_lt_of_le hlt (hi.ascending.head_le hfront s hs)

theorem startTime_lt_of_front (hi : StreamInv name b) {front : DataPacketHeader}
    (hspan : h.startTime ≤ h.endTime) (hfront : b.toList.head? = some front)
    (hlt : h.endTime < front.startTime) : ∀ s ∈ b.toList, h.startTime < s.startTime := by
  intro s hs
  exact lt_of_le_of_lt hspan (hi.endTime_lt_of_front hfront hlt s hs)

/-- A header that does not slip starts at a time of its own. -/
theorem startTime_ne (hi : StreamInv name b) (hs : ∀ s ∈ b.toList, h.slips s = false) :
    ∀ s ∈ b.toList, s.startTime ≠ h.startTime := by
  intro s hm he
  have hspan := hi.spans s hm
  have hslip : h.slips s = true := by
    rw [DataPacketHeader.slips_iff]
    exact Or.inl ⟨he.le, he ▸ hspan⟩
  rw [hs s hm] at hslip
  exact Bool.noConfusion hslip

theorem ascending_retained (hi : StreamInv name b) :
    Lib.Ascending DataPacketHeader.startTime b.retained :=
  hi.ascending.sublist b.retained_sublist

/-- A back-fill inserts the header by its start time among the retained ones. -/
theorem toList_backFill (hi : StreamInv name b) (hs : ∀ s ∈ b.toList, h.slips s = false) :
    ((b.pushBack h).sortBy DataPacketHeader.startTime).toList =
      Lib.insertByKey DataPacketHeader.startTime h b.retained := by
  change (b.pushBack h).toList.insertionSort _ = _
  rw [Lib.Ring.toList_pushBack hi.nonempty]
  apply Lib.insertionSort_append_singleton hi.ascending_retained
  intro s hm
  exact hi.startTime_ne hs s (b.retained_sublist.subset hm)

/-- An exit leaves the buffer as it was, or enters a header that no comparison found equal
among headers that were there. -/
theorem unchanged_or_entered {v : Except AllowError Bool} (hi : StreamInv name b)
    (hstep : OfferStep b h v b') :
    b' = b ∨ findHeader b.toList h = .ok false ∧ b'.capacity = b.capacity ∧
      ∃ kept, kept.Sublist b.toList ∧ b'.toList.Perm (h :: kept) := by
  cases hstep with
  | compareThrew e hf => exact Or.inl rfl
  | duplicate hf => exact Or.inl rfl
  | appended back hf hback hlt =>
    refine Or.inr ⟨hf, Lib.Ring.capacity_pushBack b h, b.retained, b.retained_sublist, ?_⟩
    rw [Lib.Ring.toList_pushBack hi.nonempty]
    exact List.perm_append_singleton h b.retained
  | frontInserted front hf hfront hlt hroom =>
    refine Or.inr ⟨hf, Lib.Ring.capacity_pushFront b h, b.toList, List.Sublist.refl _, ?_⟩
    rw [Lib.Ring.toList_pushFront_of_not_full hroom]
  | expired front hf hfront hlt hfull => exact Or.inl rfl
  | slipped hf hs => exact Or.inl rfl
  | backFilled back front hf hback hfront hle hge hs =>
    refine Or.inr ⟨hf, Lib.Ring.capacity_pushBack b h, b.retained, b.retained_sublist, ?_⟩
    rw [hi.toList_backFill hs]
    exact List.perm_orderedInsert _ _ _
  | empty hempty => exact Or.inl rfl

/-- Every exit keeps the start times in order. -/
theorem ascending_step {v : Except AllowError Bool} (hi : StreamInv name b)
    (hstep : OfferStep b h v b') (hspan : h.startTime ≤ h.endTime) :
    Lib.Ascending DataPacketHeader.startTime b'.toList := by
  cases hstep with
  | compareThrew e hf => exact hi.ascending
  | duplicate hf => exact hi.ascending
  | appended back hf hback hlt =>
    rw [Lib.Ring.toList_pushBack hi.nonempty]
    apply hi.ascending_retained.append
    intro s hs
    exact hi.startTime_lt_of_back hback hlt s (b.retained_sublist.subset hs)
  | frontInserted front hf hfront hlt hroom =>
    rw [Lib.Ring.toList_pushFront_of_not_full hroom]
    exact hi.ascending.cons (hi.startTime_lt_of_front hspan hfront hlt)
  | expired front hf hfront hlt hfull => exact hi.ascending
  | slipped hf hs => exact hi.ascending
  | backFilled back front hf hback hfront hle hge hs =>
    rw [hi.toList_backFill hs]
    apply hi.ascending_retained.insertByKey
    intro s hm
    exact hi.startTime_ne hs s (b.retained_sublist.subset hm)
  | empty hempty => exact hi.ascending

/-- What holds of the headers of a buffer and of the one that is offered holds after the call. -/
theorem forall_mem_step {v : Except AllowError Bool} {P : DataPacketHeader → Prop}
    (hi : StreamInv name b) (hstep : OfferStep b h v b') (hb : ∀ s ∈ b.toList, P s) (hh : P h) :
    ∀ s ∈ b'.toList, P s := by
  rcases hi.unchanged_or_entered hstep with rfl | ⟨-, -, kept, hkept, hperm⟩
  · exact hb
  · intro s hs
    rcases List.mem_cons.mp (hperm.mem_iff.mp hs) with rfl | hm
    · exact hh
    · exact hb s (hkept.subset hm)

/-- Every exit of a call keeps the invariant of the stream. -/
theorem step {v : Except AllowError Bool} (hi : StreamInv name b) (hstep : OfferStep b h v b')
    (hname : h.name = name) (hspan : h.startTime ≤ h.endTime) : StreamInv name b' := by
  refine ⟨?_, hi.forall_mem_step hstep hi.named hname, hi.forall_mem_step hstep hi.spans hspan,
    hi.ascending_step hstep hspan⟩
  rcases hi.unchanged_or_entered hstep with rfl | ⟨-, -, kept, -, hperm⟩
  · exact hi.nonempty
  · intro hnil
    rw [hnil] at hperm
    exact List.cons_ne_nil h kept hperm.nil_eq.symm

end StreamInv

section

variable [Platform]

/-- The exits of one call of `allow`. -/
inductive CallStep (d : DuplicatePacketDetector) (p : Packet) :
    Except AllowError Bool → DuplicatePacketDetector → Prop
  | unpackFailed (e : HeaderError) (hp : DataPacketHeader.ofPacket p = .error e) :
      CallStep d p (.ok false) d
  | createFailed (h : DataPacketHeader) (e : AllowError)
      (hp : DataPacketHeader.ofPacket p = .ok h) (hb : d.mCircularBuffers h.name = none)
      (hc : newCircularBuffer (d.newCapacity h) = .error e) : CallStep d p (.error e) d
  | created (h : DataPacketHeader) (b : Lib.Ring DataPacketHeader)
      (hp : DataPacketHeader.ofPacket p = .ok h) (hb : d.mCircularBuffers h.name = none)
      (hc : newCircularBuffer (d.newCapacity h) = .ok b) :
      CallStep d p (.ok true) (d.withBuffer h.name (b.pushBack h))
  | offered (h : DataPacketHeader) (b b' : Lib.Ring DataPacketHeader)
      (v : Except AllowError Bool) (hp : DataPacketHeader.ofPacket p = .ok h)
      (hb : d.mCircularBuffers h.name = some b) (hs : OfferStep b h v b') :
      CallStep d p v (d.withBuffer h.name b')

/-- A call takes one of the listed exits. -/
theorem call_step (d : DuplicatePacketDetector) (p : Packet) :
    CallStep d p (d.allow p).1 (d.next p) := by
  unfold DuplicatePacketDetector.next DuplicatePacketDetector.allow
  split
  · next e hp => exact .unpackFailed e hp
  · next h hp =>
    unfold DuplicatePacketDetector.allowHeader
    split
    · next hb =>
      split
      · next e hc => exact .createFailed h e hp hb hc
      · next b hc => exact .created h b hp hb hc
    · next b hb => exact .offered h b _ _ hp hb (offer_step b h)

/-- A detector as the constructor makes it: the fixed size, when it is used, is positive. -/
def Configured (d : DuplicatePacketDetector) : Prop :=
  d.mEstimateCapacity = true ∨ 0 < d.mCircularBufferSize

/-- The invariant of reachable states. -/
structure Inv (d : DuplicatePacketDetector) : Prop where
  configured : Configured d
  stream : ∀ name b, d.mCircularBuffers name = some b → StreamInv name b

omit [Platform] in
/-- The constructor yields a detector without streams. -/
theorem new_buffers {options : DuplicatePacketDetectorOptions} {d : DuplicatePacketDetector}
    (h : DuplicatePacketDetector.new options = .ok d) : d.mCircularBuffers = fun _ ↦ none := by
  unfold DuplicatePacketDetector.new at h
  split at h
  · split at h <;> cases h
    rfl
  · split at h
    · split at h <;> cases h
      rfl
    · cases h

omit [Platform] in
/-- The constructor establishes the invariant. -/
theorem inv_new {options : DuplicatePacketDetectorOptions} {d : DuplicatePacketDetector}
    (h : DuplicatePacketDetector.new options = .ok d) : Inv d := by
  constructor
  · unfold DuplicatePacketDetector.new at h
    split at h
    · split at h <;> cases h
      exact Or.inl rfl
    · split at h
      · next size hs =>
        split at h
        · cases h
        · next hpos =>
          cases h
          exact Or.inr (not_le.mp hpos)
      · cases h
  · intro name b hb
    rw [new_buffers h] at hb
    cases hb

/-- The capacity of a new buffer is never zero. -/
theorem newCapacity_ne_zero {d : DuplicatePacketDetector} (hc : Configured d)
    (h : DataPacketHeader) : d.newCapacity h ≠ 0 := by
  unfold DuplicatePacketDetector.newCapacity
  split
  · exact estimateCapacity_ne_zero h _
  · next he =>
    have hpos : 0 < d.mCircularBufferSize := hc.resolve_left he
    omega

/-- A detector of fixed size makes every buffer of that size. -/
theorem newCircularBuffer_fixed {d : DuplicatePacketDetector} {h : DataPacketHeader}
    (he : d.mEstimateCapacity = false) (hsize : 0 < d.mCircularBufferSize) :
    newCircularBuffer (d.newCapacity h) = .ok (Lib.Ring.empty d.mCircularBufferSize.toNat) := by
  have hcap : d.newCapacity h = d.mCircularBufferSize := by
    rw [DuplicatePacketDetector.newCapacity, if_neg (by simp [he])]
  rw [hcap, newCircularBuffer, if_neg (by omega)]

/-- A new buffer holds the first header. -/
theorem toList_created {d : DuplicatePacketDetector} {h : DataPacketHeader}
    {b : Lib.Ring DataPacketHeader} (hd : Configured d)
    (hc : newCircularBuffer (d.newCapacity h) = .ok b) : (b.pushBack h).toList = [h] := by
  have hne := newCapacity_ne_zero hd h
  unfold newCircularBuffer at hc
  split at hc
  · cases hc
  · cases hc
    apply Lib.Ring.toList_pushBack_empty
    omega

omit [Platform] in
/-- Other streams keep their buffers. -/
theorem withBuffer_of_ne {d : DuplicatePacketDetector} {name other : Bytes}
    (b : Lib.Ring DataPacketHeader) (h : other ≠ name) :
    (d.withBuffer name b).mCircularBuffers other = d.mCircularBuffers other :=
  Function.update_of_ne h _ _

omit [Platform] in
@[simp] theorem withBuffer_self (d : DuplicatePacketDetector) (name : Bytes)
    (b : Lib.Ring DataPacketHeader) :
    (d.withBuffer name b).mCircularBuffers name = some b := Function.update_self _ _ _

omit [Platform] in
/-- What holds of every buffer holds with one replaced of which it holds. -/
theorem forall_withBuffer {d : DuplicatePacketDetector} {name : Bytes}
    {b : Lib.Ring DataPacketHeader} {P : Bytes → Lib.Ring DataPacketHeader → Prop}
    (hd : ∀ other c, d.mCircularBuffers other = some c → P other c) (hb : P name b) :
    ∀ other c, (d.withBuffer name b).mCircularBuffers other = some c → P other c := by
  intro other c hc
  by_cases ho : other = name
  · subst ho
    rw [withBuffer_self] at hc
    cases hc
    exact hb
  · rw [withBuffer_of_ne b ho] at hc
    exact hd other c hc

/-- A buffer that is there after a call was there before, was made by the call for the header of
its packet, or was offered that header. -/
theorem CallStep.buffer_cases {d d' : DuplicatePacketDetector} {p : Packet}
    {v : Except AllowError Bool} {name : Bytes} {b' : Lib.Ring DataPacketHeader}
    (hstep : CallStep d p v d') (hb' : d'.mCircularBuffers name = some b') :
    d.mCircularBuffers name = some b' ∨
      ∃ h, DataPacketHeader.ofPacket p = .ok h ∧ h.name = name ∧
        ((d.mCircularBuffers name = none ∧ v = .ok true ∧
          ∃ b, newCircularBuffer (d.newCapacity h) = .ok b ∧ b' = b.pushBack h) ∨
        ∃ b, d.mCircularBuffers name = some b ∧ OfferStep b h v b') := by
  cases hstep with
  | unpackFailed => exact Or.inl hb'
  | createFailed => exact Or.inl hb'
  | created h b hp hnone hc =>
    by_cases hn : name = h.name
    · subst hn
      rw [withBuffer_self, Option.some.injEq] at hb'
      exact Or.inr ⟨h, hp, rfl, Or.inl ⟨hnone, rfl, b, hc, hb'.symm⟩⟩
    · rw [withBuffer_of_ne _ hn] at hb'
      exact Or.inl hb'
  | offered h b c v hp hb hs =>
    by_cases hn : name = h.name
    · subst hn
      rw [withBuffer_self, Option.some.injEq] at hb'
      rw [← hb']
      exact Or.inr ⟨h, hp, rfl, Or.inr ⟨b, hb, hs⟩⟩
    · rw [withBuffer_of_ne _ hn] at hb'
      exact Or.inl hb'

omit [Platform] in
/-- Replacing the buffer of one stream by a good one keeps the invariant. -/
theorem Inv.withBuffer {d : DuplicatePacketDetector} {name : Bytes}
    {b : Lib.Ring DataPacketHeader} (hd : Inv d) (hb : StreamInv name b) :
    Inv (d.withBuffer name b) :=
  ⟨hd.configured, forall_withBuffer hd.stream hb⟩

/-- The buffer of a new stream satisfies the invariant. -/
theorem streamInv_created {d : DuplicatePacketDetector} {h : DataPacketHeader}
    {b : Lib.Ring DataPacketHeader} (hd : Configured d) (hspan : h.startTime ≤ h.endTime)
    (hc : newCircularBuffer (d.newCapacity h) = .ok b) : StreamInv h.name (b.pushBack h) := by
  have hl := toList_created hd hc
  constructor
  · rw [hl]; simp
  · rw [hl]; simp
  · rw [hl]; simpa using hspan
  · rw [hl]
    exact List.pairwise_singleton _ _

/-- Every exit of a call keeps the invariant. -/
theorem Inv.step {d d' : DuplicatePacketDetector} {p : Packet} {v : Except AllowError Bool}
    (hd : Inv d) (hr : EndTimeInRange p) (hstep : CallStep d p v d') : Inv d' := by
  cases hstep with
  | unpackFailed e hp => exact hd
  | createFailed h e hp hb hc => exact hd
  | created h b hp hb hc =>
    exact hd.withBuffer
      (streamInv_created hd.configured (DataPacketHeader.startTime_le_endTime hp hr) hc)
  | offered h b b' _ hp hb hs =>
    exact hd.withBuffer ((hd.stream h.name b hb).step hs rfl
      (DataPacketHeader.startTime_le_endTime hp hr))

/-- One call keeps the invariant. -/
theorem Inv.next {d : DuplicatePacketDetector} {p : Packet} (hd : Inv d)
    (hr : EndTimeInRange p) : Inv (d.next p) := hd.step hr (call_step d p)

/-- A run of calls on packets with in-range end times keeps the invariant. -/
theorem Inv.after {d : DuplicatePacketDetector} {ps : List Packet} (hd : Inv d)
    (hr : ∀ p ∈ ps, EndTimeInRange p) : Inv (d.after ps) :=
  (Lib.along_of_forall hr).invariant Inv hd fun _ _ hi hp ↦ hi.next hp

end

/-- A packet as `testing/sanitizer.cpp` builds them, for the stream UU.CTU.HHZ.01. -/
def testPacket (startTimeMuSec : Int) (samplingRate : ℚ) (nSamples : UInt32) : Packet where
  streamIdentifier :=
    { network := ascii "UU", station := ascii "CTU", channel := ascii "HHZ",
      locationCode := ascii "01" }
  startTime := { seconds := startTimeMuSec / 1000000, nanos := startTimeMuSec % 1000000 * 1000 }
  samplingRate := .finite samplingRate
  dataType := .integer32
  numberOfSamples := nSamples
  data := []

/-- The options for a circular buffer of fixed size. -/
def fixedSizeOptions (size : Int) : DuplicatePacketDetectorOptions :=
  { mCircularBufferDuration := -1, mCircularBufferSize := size }

/-- The detector for a circular buffer of fixed size. -/
def fixedSize (size : Int) : DuplicatePacketDetector := { mCircularBufferSize := size }

/-- A positive size is accepted by the constructor. -/
theorem new_fixedSize {size : Int} (h : 0 < size) :
    DuplicatePacketDetector.new (fixedSizeOptions size) = .ok (fixedSize size) := by
  have hs : (fixedSizeOptions size).getCircularBufferSize = some size := if_pos h
  have hd : (fixedSizeOptions size).getCircularBufferDuration = none := rfl
  unfold DuplicatePacketDetector.new
  rw [hs, hd]
  exact if_neg (by omega)

end ImportProxy.Detector
