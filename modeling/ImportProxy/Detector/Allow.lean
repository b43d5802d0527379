import ImportProxy.Detector.Options
import ImportProxy.Lib.Latest
import ImportProxy.Lib.Ring
import Mathlib.Logic.Function.Basic

/-!
# The duplicate packet detector

`DuplicatePacketDetector` and its `allow`: `src/duplicatePacketDetector.cpp:243–480`.
One circular buffer of headers is kept for each stream name. `OfferStep` lists
the exits of a call on a known stream; later modules argue by cases on it.
-/

namespace ImportProxy.Detector

open ImportProxy.Base

/-- `DuplicatePacketDetectorImpl`; `src/duplicatePacketDetector.cpp:381–386`. -/
structure DuplicatePacketDetector where
  mCircularBuffers : Bytes → Option (Lib.Ring DataPacketHeader) := fun _ ↦ none
  mCircularBufferDuration : Int := 300
  mCircularBufferSize : Int := 100
  mEstimateCapacity : Bool := false

/-- `std::find` with `operator==` over a buffer: whether an equal header comes before the
first comparison that throws. -/
def findHeader : List DataPacketHeader → DataPacketHeader → Except AllowError Bool
  | [], _ => .ok false
  | streamHeader :: rest, header =>
    match streamHeader.eq header with
    | .error e => .error e
    | .ok true => .ok true
    | .ok false => findHeader rest header

/-- `boost::circular_buffer(capacity)`: the capacity is taken as an unsigned size, so a
negative one exceeds the maximal size and throws. -/
def newCircularBuffer (capacity : Int) : Except AllowError (Lib.Ring DataPacketHeader) :=
  if capacity < 0 then .error .circularBufferLength else .ok (Lib.Ring.empty capacity.toNat)

/-- `allow` on the buffer of a known stream; `src/duplicatePacketDetector.cpp:296–367`. -/
def offer (circularBuffer : Lib.Ring DataPacketHeader) (header : DataPacketHeader) :
    Except AllowError Bool × Lib.Ring DataPacketHeader :=
  match findHeader circularBuffer.toList header with
  | .error e => (.error e, circularBuffer)
  | .ok true => (.ok false, circularBuffer)
  | .ok false =>
    match circularBuffer.back?, circularBuffer.front? with
    | some back, some front =>
      if header.startTime > back.endTime then (.ok true, circularBuffer.pushBack header)
      else if header.endTime < front.startTime then
        -- The packet enters a buffer with room, and yet the verdict is `false`.
        if !circularBuffer.full then (.ok false, circularBuffer.pushFront header)
        else (.ok false, circularBuffer)
      else if circularBuffer.toList.any header.slips then (.ok false, circularBuffer)
      else (.ok true, (circularBuffer.pushBack header).sortBy DataPacketHeader.startTime)
    | _, _ => (.error .emptyBuffer, circularBuffer)

namespace DuplicatePacketDetector

/-- The detector with the buffer of one stream replaced. -/
def withBuffer (detector : DuplicatePacketDetector) (name : Bytes)
    (circularBuffer : Lib.Ring DataPacketHeader) : DuplicatePacketDetector :=
  { detector with
    mCircularBuffers := Function.update detector.mCircularBuffers name (some circularBuffer) }

section

variable [Platform]

/-- The capacity of the buffer of a new stream; `src/duplicatePacketDetector.cpp:262–268`. -/
def newCapacity (detector : DuplicatePacketDetector) (header : DataPacketHeader) : Int :=
  if detector.mEstimateCapacity then estimateCapacity header detector.mCircularBufferDuration
  else detector.mCircularBufferSize

/-- `DuplicatePacketDetectorImpl::allow`; `src/duplicatePacketDetector.cpp:252–368`. The
exception or the verdict comes with the state that the call leaves. -/
def allowHeader (detector : DuplicatePacketDetector) (header : DataPacketHeader) :
    Except AllowError Bool × DuplicatePacketDetector :=
  match detector.mCircularBuffers header.name with
  | none =>
    match newCircularBuffer (detector.newCapacity header) with
    | .error e => (.error e, detector)
    | .ok circularBuffer =>
      (.ok true, detector.withBuffer header.name (circularBuffer.pushBack header))
  | some circularBuffer =>
    let (verdict, circularBuffer) := offer circularBuffer header
    (verdict, detector.withBuffer header.name circularBuffer)

/-- `DuplicatePacketDetector::allow`; `src/duplicatePacketDetector.cpp:463–480`. -/
def allow (detector : DuplicatePacketDetector) (packet : Packet) :
    Except AllowError Bool × DuplicatePacketDetector :=
  match DataPacketHeader.ofPacket packet with
  | .error _ => (.ok false, detector)
  | .ok header => detector.allowHeader header

/-- The state after one call. -/
def next (detector : DuplicatePacketDetector) (packet : Packet) : DuplicatePacketDetector :=
  (detector.allow packet).2

/-- The state after a run of calls. -/
def after (detector : DuplicatePacketDetector) (packets : List Packet) :
    DuplicatePacketDetector := packets.foldl next detector

/-- The state after one more call. -/
theorem after_concat (detector : DuplicatePacketDetector) (packets : List Packet)
    (packet : Packet) :
    detector.after (packets ++ [packet]) = (detector.after packets).next packet := by
  unfold after
  rw [List.foldl_append, List.foldl_cons, List.foldl_nil]

/-- The call returns true. -/
def allows (detector : DuplicatePacketDetector) (packet : Packet) : Prop :=
  (detector.allow packet).1 = .ok true

instance (detector : DuplicatePacketDetector) (packet : Packet) :
    Decidable (detector.allows packet) := inferInstanceAs (Decidable (_ = _))

end

/-- The constructor from options; `src/duplicatePacketDetector.cpp:390–420`. -/
def new (options : DuplicatePacketDetectorOptions) :
    Except OptionsError DuplicatePacketDetector :=
  match options.getCircularBufferDuration with
  | some circularBufferDuration =>
    if circularBufferDuration ≤ 0 then .error .durationNotPositive
    else .ok { mCircularBufferDuration := circularBufferDuration, mEstimateCapacity := true }
  | none =>
    match options.getCircularBufferSize with
    | some circularBufferSize =>
      if circularBufferSize ≤ 0 then .error (.sizeNotPositive circularBufferSize)
      else .ok { mCircularBufferSize := circularBufferSize, mEstimateCapacity := false }
    | none => .error .unspecified

/-- The headers that the detector holds for a stream, from front to back. -/
def headers (detector : DuplicatePacketDetector) (name : Bytes) : List DataPacketHeader :=
  match detector.mCircularBuffers name with
  | none => []
  | some circularBuffer => circularBuffer.toList

end DuplicatePacketDetector

/-- The exits of a call on the buffer of a known stream: what is known at the exit, the
result, and the buffer that is left. -/
inductive OfferStep (b : Lib.Ring DataPacketHeader) (h : DataPacketHeader) :
    Except AllowError Bool → Lib.Ring DataPacketHeader → Prop
  | compareThrew (e : AllowError) (hf : findHeader b.toList h = .error e) :
      OfferStep b h (.error e) b
  | duplicate (hf : findHeader b.toList h = .ok true) : OfferStep b h (.ok false) b
  | appended (back : DataPacketHeader) (hf : findHeader b.toList h = .ok false)
      (hback : b.toList.getLast? = some back) (hlt : back.endTime < h.startTime) :
      OfferStep b h (.ok true) (b.pushBack h)
  | frontInserted (front : DataPacketHeader) (hf : findHeader b.toList h = .ok false)
      (hfront : b.toList.head? = some front) (hlt : h.endTime < front.startTime)
      (hroom : b.full = false) : OfferStep b h (.ok false) (b.pushFront h)
  | expired (front : DataPacketHeader) (hf : findHeader b.toList h = .ok false)
      (hfront : b.toList.head? = some front) (hlt : h.endTime < front.startTime)
      (hfull : b.full = true) : OfferStep b h (.ok false) b
  | slipped (hf : findHeader b.toList h = .ok false) (hs : ∃ s ∈ b.toList, h.slips s = true) :
      OfferStep b h (.ok false) b
  | backFilled (back front : DataPacketHeader) (hf : findHeader b.toList h = .ok false)
      (hback : b.toList.getLast? = some back) (hfront : b.toList.head? = some front)
      (hle : h.startTime ≤ back.endTime) (hge : front.startTime ≤ h.endTime)
      (hs : ∀ s ∈ b.toList, h.slips s = false) :
      OfferStep b h (.ok true) ((b.pushBack h).sortBy DataPacketHeader.startTime)
  | empty (hempty : b.toList = []) : OfferStep b h (.error .emptyBuffer) b

/-- A call on a known stream takes one of the listed exits. -/
theorem offer_step (b : Lib.Ring DataPacketHeader) (h : DataPacketHeader) :
    OfferStep b h (offer b h).1 (offer b h).2 := by
  unfold offer
  split
  · next e hf => exact .compareThrew e hf
  · next hf => exact .duplicate hf
  · next hf =>
    split
    · next back front hback hfront =>
      split
      · next hlt => exact .appended back hf hback hlt
      · next hle =>
        split
        · next hlt =>
          split
          · next hroom => exact .frontInserted front hf hfront hlt (by simpa using hroom)
          · next hfull => exact .expired front hf hfront hlt (by simpa using hfull)
        · next hge =>
          split
          · next hs => exact .slipped hf (List.any_eq_true.mp hs)
          · next hs =>
            refine .backFilled back front hf hback hfront (not_lt.mp hle) (not_lt.mp hge) ?_
            simpa using hs
    · next hnone =>
      apply OfferStep.empty
      cases hl : b.toList with
      | nil => rfl
      | cons a l =>
        have hb : b.back? = some ((a :: l).getLast (by simp)) := by
          rw [Lib.Ring.back?, hl, List.getLast?_eq_getLast_of_ne_nil]
        exact (hnone _ a hb (by rw [Lib.Ring.front?, hl, List.head?_cons])).elim

/-- No equal header is found exactly when the comparison with each says so. -/
theorem findHeader_eq_false_iff {l : List DataPacketHeader} {h : DataPacketHeader} :
    findHeader l h = .ok false ↔ ∀ s ∈ l, s.eq h = .ok false := by
  induction l with
  | nil => simp [findHeader]
  | cons s l ih =>
    rw [List.forall_mem_cons, ← ih, findHeader]
    split
    · next hs => simp [hs]
    · next hs => simp [hs]
    · next hs => simp [hs]

/-- A buffered header is found, unless a comparison before it throws. -/
theorem findHeader_ne_false_of_mem {l : List DataPacketHeader} {h : DataPacketHeader}
    (hm : h ∈ l) : findHeader l h ≠ .ok false := by
  intro hf
  exact DataPacketHeader.eq_self_ne_false h (findHeader_eq_false_iff.mp hf h hm)

end ImportProxy.Detector
