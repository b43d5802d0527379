import ImportProxy.Detector.Invariant
import Mathlib.Data.List.Chain
import Mathlib.Data.List.Induction

/-!
# The representation of a stream

What the buffer of a stream is in every reachable state, whatever the calls
returned or threw: the headers of one name and one rate, in the order of their start
times, no two of which `operator==` takes for duplicates
(`src/duplicatePacketDetector.cpp:92–131,252–368`). The rate and the capacity are those
of the first packet of the stream that was allowed.
-/

namespace ImportProxy.Detector

open ImportProxy.Base

/-- Each of two headers compares unequal to the other, without an exception. -/
def Different (s t : DataPacketHeader) : Prop := s.eq t = .ok false ∧ t.eq s = .ok false

/-- The buffer of the stream `name`, made with a capacity for a first header of some rate. -/
structure Represents (name : Bytes) (rate capacity : Int) (b : Lib.Ring DataPacketHeader) : Prop
    extends StreamInv name b where
  rated : ∀ s ∈ b.toList, s.samplingRate = rate
  different : b.toList.Pairwise Different
  sized : (b.capacity : Int) = capacity

/-- `std::is_sorted` with the comparison of start times. -/
def isSorted (l : List DataPacketHeader) : Bool :=
  decide (l.IsChain fun lhs rhs ↦ ¬rhs.startTime < lhs.startTime)

/-- The `is_sorted` assertion of `offer`, true on the exits that do not reach it;
`src/duplicatePacketDetector.cpp:325–332`. -/
def offerAssertion (circularBuffer : Lib.Ring DataPacketHeader) (header : DataPacketHeader) :
    Bool :=
  match findHeader circularBuffer.toList header with
  | .error _ => true
  | .ok true => true
  | .ok false =>
    match circularBuffer.back?, circularBuffer.front? with
    | some back, some front =>
      if header.startTime > back.endTime then true
      else if header.endTime < front.startTime then
        if !circularBuffer.full then isSorted (circularBuffer.pushFront header).toList else true
      else true
    | _, _ => true

section

variable [Platform]

/-- The `is_sorted` assertion of `allow`, in a build that has assertions. -/
def allowAssertion (detector : DuplicatePacketDetector) (packet : Packet) : Bool :=
  match DataPacketHeader.ofPacket packet with
  | .error _ => true
  | .ok header =>
    match detector.mCircularBuffers header.name with
    | none => true
    | some circularBuffer => offerAssertion circularBuffer header

/-- The call on `first` after the calls on `before` is the first of the run that allows a packet
of the stream. -/
structure FirstAllowed (d : DuplicatePacketDetector) (packets : List Packet) (name : Bytes)
    (before : List Packet) (first : Packet) : Prop where
  split : ∃ rest, packets = before ++ first :: rest
  named : toName first.streamIdentifier = name
  allowed : (d.after before).allows first
  earliest : ∀ earlier packet later, before = earlier ++ packet :: later →
    toName packet.streamIdentifier = name → ¬(d.after earlier).allows packet

end

section Headers

variable {name : Bytes} {rate capacity : Int} {s t h : DataPacketHeader}
  {b b' : Lib.Ring DataPacketHeader}

theorem Different.symm (hd : Different s t) : Different t s := And.symm hd

/-- Within a stream it does not matter which side the comparison is made from. -/
theorem different_of_eq_false (hname : t.name = s.name) (heq : s.eq t = .ok false) :
    Different s t := by
  refine ⟨heq, ?_⟩
  obtain ⟨hrate, hclose⟩ := (DataPacketHeader.eq_false_iff hname).mp heq
  rw [DataPacketHeader.eq_false_iff hname.symm, hrate]
  refine ⟨rfl, fun hsamples ↦ ?_⟩
  rw [abs_sub_comm]
  exact hclose hsamples.symm

/-- A header that no comparison found equal differs from every header that is held. -/
theorem Represents.unequal (hi : Represents name rate capacity b) (hname : h.name = name)
    (hf : findHeader b.toList h = .ok false) : ∀ s ∈ b.toList, Different h s := by
  intro s hs
  have heq := findHeader_eq_false_iff.mp hf s hs
  have hsame : h.name = s.name := hname.trans (hi.named s hs).symm
  exact (different_of_eq_false hsame heq).symm

/-- The comparison that finds no duplicate has not thrown, so the rates agree. -/
theorem Represents.rate_eq (hi : Represents name rate capacity b) (hname : h.name = name)
    (hf : findHeader b.toList h = .ok false) : h.samplingRate = rate := by
  obtain ⟨front, hfront⟩ := List.exists_mem_of_ne_nil b.toList hi.nonempty
  have heq := findHeader_eq_false_iff.mp hf front hfront
  have hsame : h.name = front.name := hname.trans (hi.named front hfront).symm
  rw [((DataPacketHeader.eq_false_iff hsame).mp heq).1, hi.rated front hfront]

/-- Every exit of a call on a known stream keeps its representation. -/
theorem Represents.step {v : Except AllowError Bool} (hi : Represents name rate capacity b)
    (hstep : OfferStep b h v b') (hname : h.name = name) (hspan : h.startTime ≤ h.endTime) :
    Represents name rate capacity b' := by
  have hinv := hi.toStreamInv.step hstep hname hspan
  rcases hi.unchanged_or_entered hstep with rfl | ⟨hf, hcapacity, kept, hkept, hperm⟩
  · exact hi
  · refine ⟨hinv, hi.forall_mem_step hstep hi.rated (hi.rate_eq hname hf), ?_, ?_⟩
    · apply (hperm.pairwise_iff Different.symm).mpr
      apply List.Pairwise.cons
      · intro s hs
        exact hi.unequal hname hf s (hkept.subset hs)
      · exact hi.different.sublist hkept
    · rw [hcapacity]
      exact hi.sized

/-- Ascending start times pass the assertion. -/
theorem isSorted_of_ascending {l : List DataPacketHeader}
    (ha : Lib.Ascending DataPacketHeader.startTime l) : isSorted l = true := by
  apply decide_eq_true
  apply List.Pairwise.isChain
  exact ha.imp fun hlt ↦ hlt.le.not_gt

/-- The buffer is sorted after a front insertion. -/
theorem StreamInv.offerAssertion_eq_true (hi : StreamInv name b) (hspan : h.startTime ≤ h.endTime) :
    offerAssertion b h = true := by
  unfold offerAssertion
  split
  · rfl
  · rfl
  · split
    · next back front hback hfront =>
      split
      · rfl
      · split
        · next hlt =>
          split
          · next hroom =>
            rw [Lib.Ring.toList_pushFront_of_not_full (by simpa using hroom)]
            apply isSorted_of_ascending
            exact hi.ascending.cons (hi.startTime_lt_of_front hspan hfront hlt)
          · rfl
        · rfl
    · rfl

/-- No comparison accesses an empty buffer. -/
theorem eq_ne_emptyBuffer (s t : DataPacketHeader) : s.eq t ≠ .error .emptyBuffer := by
  unfold DataPacketHeader.eq
  split_ifs
  · simp
  · simp
  · simp
  · cases startTimeTolerance s.samplingRate <;> simp

theorem findHeader_ne_emptyBuffer (l : List DataPacketHeader) (h : DataPacketHeader) :
    findHeader l h ≠ .error .emptyBuffer := by
  induction l with
  | nil => simp [findHeader]
  | cons s l ih =>
    rw [findHeader]
    split
    · next e hs =>
      rw [← hs]
      exact eq_ne_emptyBuffer s h
    · simp
    · exact ih

/-- The front and the back of the buffer of a known stream are there when they are read. -/
theorem StreamInv.ne_emptyBuffer {v : Except AllowError Bool} (hi : StreamInv name b)
    (hstep : OfferStep b h v b') : v ≠ .error .emptyBuffer := by
  cases hstep with
  | compareThrew e hf =>
    rw [← hf]
    exact findHeader_ne_emptyBuffer _ _
  | duplicate hf => simp
  | appended => simp
  | frontInserted => simp
  | expired => simp
  | slipped => simp
  | backFilled => simp
  | empty hempty => exact absurd hempty hi.nonempty

end Headers

section Detector

variable [Platform] {d d' : DuplicatePacketDetector} {p first : Packet}
  {packets before : List Packet} {name : Bytes} {b : Lib.Ring DataPacketHeader}
  {h : DataPacketHeader}

/-- No call takes the buffer of a stream away. -/
theorem CallStep.isSome {v : Except AllowError Bool} (hstep : CallStep d p v d')
    (hb : (d.mCircularBuffers name).isSome = true) :
    (d'.mCircularBuffers name).isSome = true := by
  have kept (other : Bytes) (c : Lib.Ring DataPacketHeader) :
      ((d.withBuffer other c).mCircularBuffers name).isSome = true := by
    by_cases hn : name = other
    · rw [hn, withBuffer_self, Option.isSome_some]
    · rw [withBuffer_of_ne c hn]
      exact hb
  cases hstep with
  | unpackFailed => exact hb
  | createFailed => exact hb
  | created h c => exact kept h.name (c.pushBack h)
  | offered h c c' => exact kept h.name c'

/-- A stream never loses its buffer. -/
theorem isSome_after (hb : (d.mCircularBuffers name).isSome = true) (packets : List Packet) :
    ((d.after packets).mCircularBuffers name).isSome = true := by
  refine Lib.run_invariant
    (fun d : DuplicatePacketDetector ↦ (d.mCircularBuffers name).isSome = true) hb ?_
  intro d p hd
  exact (call_step d p).isSome hd

/-- A packet that is allowed has a buffer from then on. -/
theorem isSome_of_allows (hv : d.allows p) (hname : toName p.streamIdentifier = name) :
    ((d.next p).mCircularBuffers name).isSome = true := by
  have hstep := call_step d p
  unfold DuplicatePacketDetector.allows at hv
  rw [hv] at hstep
  generalize d.next p = d' at hstep ⊢
  cases hstep with
  | created h c hp =>
    rw [← hname, ← (DataPacketHeader.ofPacket_ok hp).2.1, withBuffer_self, Option.isSome_some]
  | offered h c c' _ hp =>
    rw [← hname, ← (DataPacketHeader.ofPacket_ok hp).2.1, withBuffer_self, Option.isSome_some]

/-- As long as a stream has no buffer, none of its packets was allowed. -/
theorem not_allows_of_none (hb : (d.after packets).mCircularBuffers name = none)
    {earlier later : List Packet} (hsplit : packets = earlier ++ p :: later)
    (hname : toName p.streamIdentifier = name) : ¬(d.after earlier).allows p := by
  intro hv
  have hafter : d.after packets = ((d.after earlier).next p).after later := by
    rw [hsplit, DuplicatePacketDetector.after, List.foldl_append]
    rfl
  have hsome := isSome_after (isSome_of_allows hv hname) later
  rw [← hafter, hb] at hsome
  exact Bool.noConfusion hsome

/-- No call changes the capacity of new buffers. -/
theorem newCapacity_after (d : DuplicatePacketDetector) (packets : List Packet)
    (h : DataPacketHeader) : (d.after packets).newCapacity h = d.newCapacity h := by
  refine Lib.run_invariant
    (fun d' : DuplicatePacketDetector ↦ d'.newCapacity h = d.newCapacity h) rfl ?_
  intro d' p hd
  rw [← hd]
  have hstep := call_step d' p
  generalize (d'.allow p).1 = v at hstep
  generalize d'.next p = d'' at hstep ⊢
  cases hstep with
  | unpackFailed | createFailed | created | offered => rfl

/-- The buffer of a new stream represents it. -/
theorem represents_created (hd : Configured d) (hspan : h.startTime ≤ h.endTime)
    (hc : newCircularBuffer (d.newCapacity h) = .ok b) :
    Represents h.name h.samplingRate (d.newCapacity h) (b.pushBack h) := by
  have hl := toList_created hd hc
  refine ⟨streamInv_created hd hspan hc, ?_, ?_, ?_⟩
  · rw [hl]
    simp
  · rw [hl]
    exact List.pairwise_singleton _ _
  · unfold newCircularBuffer at hc
    split at hc
    · cases hc
    · cases hc
      rw [Lib.Ring.capacity_pushBack, Lib.Ring.capacity_empty]
      omega

/-- A further call does not change which packet was the first. -/
theorem FirstAllowed.concat (hf : FirstAllowed d packets name before first) (p : Packet) :
    FirstAllowed d (packets ++ [p]) name before first := by
  obtain ⟨rest, hsplit⟩ := hf.split
  refine ⟨⟨rest ++ [p], ?_⟩, hf.named, hf.allowed, hf.earliest⟩
  rw [hsplit, List.append_assoc, List.cons_append]

/-- Every buffer goes back to the first packet of its stream that was allowed. -/
theorem exists_firstAllowed (hd : Inv d) (hempty : d.mCircularBuffers = fun _ ↦ none)
    (hr : ∀ p ∈ packets, EndTimeInRange p)
    (hb : (d.after packets).mCircularBuffers name = some b) :
    ∃ before first header, FirstAllowed d packets name before first ∧
      DataPacketHeader.ofPacket first = .ok header ∧
      Represents name header.samplingRate (d.newCapacity header) b := by
  induction packets using List.reverseRecOn generalizing b with
  | nil =>
    rw [DuplicatePacketDetector.after, List.foldl_nil, hempty] at hb
    cases hb
  | append_singleton packets p ih =>
    have hr' : ∀ x ∈ packets, EndTimeInRange x := by
      intro x hx
      exact hr x (List.mem_append_left _ hx)
    have hp' : EndTimeInRange p := hr p (by simp)
    -- The buffer was there before the last call, which did not touch it.
    have earlier {c : Lib.Ring DataPacketHeader}
        (hc : (d.after packets).mCircularBuffers name = some c) :
        ∃ before first header, FirstAllowed d (packets ++ [p]) name before first ∧
          DataPacketHeader.ofPacket first = .ok header ∧
          Represents name header.samplingRate (d.newCapacity header) c := by
      obtain ⟨before, first, header, hfirst, hheader, hrep⟩ := ih hr' hc
      exact ⟨before, first, header, hfirst.concat p, hheader, hrep⟩
    rw [DuplicatePacketDetector.after_concat] at hb
    rcases (call_step (d.after packets) p).buffer_cases hb with
      hb | ⟨h, hp, hname, ⟨hnone, hv, c, hc, rfl⟩ | ⟨c, hc, hs⟩⟩
    · exact earlier hb
    · have hconfigured := (hd.after hr').configured
      have hspan := DataPacketHeader.startTime_le_endTime hp hp'
      have hnamed : toName p.streamIdentifier = name :=
        (DataPacketHeader.ofPacket_ok hp).2.1.symm.trans hname
      refine ⟨packets, p, h, ⟨⟨[], rfl⟩, hnamed, hv, ?_⟩, hp, ?_⟩
      · intro earlier packet later hsplit hpacket
        exact not_allows_of_none hnone hsplit hpacket
      · rw [← newCapacity_after d packets h, ← hname]
        exact represents_created hconfigured hspan hc
    · obtain ⟨before, first, header, hfirst, hheader, hrep⟩ := earlier hc
      have hspan := DataPacketHeader.startTime_le_endTime hp hp'
      exact ⟨before, first, header, hfirst, hheader, hrep.step hs hname hspan⟩

/-- A call in a reachable state does not read the front or the back of an empty buffer. -/
theorem Inv.allow_ne_emptyBuffer (hd : Inv d) (p : Packet) :
    (d.allow p).1 ≠ .error .emptyBuffer := by
  have hstep := call_step d p
  generalize (d.allow p).1 = v at hstep ⊢
  generalize d.next p = d' at hstep
  cases hstep with
  | unpackFailed => simp
  | createFailed h e hp hb hc =>
    unfold newCircularBuffer at hc
    split at hc
    · cases hc
      simp
    · cases hc
  | created => simp
  | offered h c c' _ hp hb hs => exact (hd.stream h.name c hb).ne_emptyBuffer hs

/-- Nor does its assertion fail. -/
theorem Inv.allowAssertion_eq_true (hd : Inv d) (hr : EndTimeInRange p) :
    allowAssertion d p = true := by
  unfold allowAssertion
  split
  · rfl
  · next h hp =>
    split
    · rfl
    · next c hb =>
      exact (hd.stream h.name c hb).offerAssertion_eq_true
        (DataPacketHeader.startTime_le_endTime hp hr)

/-- In every reachable state each buffer represents its stream, from the first packet that was
allowed on: it is not empty and not larger than it was made, its headers have the stream's name and
the rate of that packet, ascend strictly and compare unequal. No call reads an end of an empty
buffer or fails its assertion. -/
theorem representation {options : DuplicatePacketDetectorOptions}
    (hnew : DuplicatePacketDetector.new options = .ok d)
    (hr : ∀ p ∈ packets, EndTimeInRange p) :
    (∀ name b, (d.after packets).mCircularBuffers name = some b →
      ∃ before first header, FirstAllowed d packets name before first ∧
        DataPacketHeader.ofPacket first = .ok header ∧
        header.samplingRate = (Double.round first.samplingRate).toInt32 ∧
        Represents name header.samplingRate (d.newCapacity header) b ∧
        (b.toList.length : Int) ≤ d.newCapacity header) ∧
    ∀ p, ((d.after packets).allow p).1 ≠ .error .emptyBuffer ∧
      (EndTimeInRange p → allowAssertion (d.after packets) p = true) := by
  have hinv : Inv (d.after packets) := (inv_new hnew).after hr
  constructor
  · intro name b hb
    obtain ⟨before, first, header, hfirst, hheader, hrep⟩ :=
      exists_firstAllowed (inv_new hnew) (new_buffers hnew) hr hb
    refine ⟨before, first, header, hfirst, hheader,
      (DataPacketHeader.ofPacket_ok hheader).2.2.2.2.1, hrep, ?_⟩
    rw [← hrep.sized]
    exact_mod_cast b.length_le
  · intro p
    exact ⟨hinv.allow_ne_emptyBuffer p, hinv.allowAssertion_eq_true⟩

end Detector

section Runs

attribute [local instance] x86Platform

/-- A packet, one of another rate, whose comparison throws, and one older than the first. -/
def throwingRun : List Packet :=
  [testPacket 1001000000 100 100, testPacket 1002000000 50 100, testPacket 1000000000 100 100]

/-- The buffer after the run, whose second call throws and whose third inserts at the front. -/
theorem representation_throwingRun :
    ∃ b before first header,
      ((fixedSize 2).after throwingRun).mCircularBuffers (ascii "UU.CTU.HHZ..01") = some b ∧
      FirstAllowed (fixedSize 2) throwingRun (ascii "UU.CTU.HHZ..01") before first ∧
      Represents (ascii "UU.CTU.HHZ..01") header.samplingRate ((fixedSize 2).newCapacity header) b ∧
      allowAssertion ((fixedSize 2).after throwingRun) (testPacket 1003000000 100 100) = true := by
  have hnew := new_fixedSize (show (0 : Int) < 2 by decide)
  have hr : ∀ p ∈ throwingRun, EndTimeInRange p := by decide +kernel
  have hp : EndTimeInRange (testPacket 1003000000 100 100) := by decide +kernel
  have hsome : (((fixedSize 2).after throwingRun).mCircularBuffers
      (ascii "UU.CTU.HHZ..01")).isSome = true := by decide +kernel
  obtain ⟨b, hb⟩ := Option.isSome_iff_exists.mp hsome
  obtain ⟨hbuffers, hcalls⟩ := representation hnew hr
  obtain ⟨before, first, header, hfirst, -, -, hrep, -⟩ := hbuffers _ b hb
  exact ⟨b, before, first, header, hb, hfirst, hrep, (hcalls _).2 hp⟩

end Runs
end ImportProxy.Detector
