import ImportProxy.Base.Packet
import ImportProxy.Lib.Interval
import Mathlib.Data.List.Sort

/-!
# Packet headers

The header that the duplicate detector keeps of a packet, and the comparison of
two headers: `src/duplicatePacketDetector.cpp:29–136`. Every header of a packet
with in-range end-time arithmetic spans a non-empty closed interval.
-/

namespace ImportProxy.Detector

open ImportProxy.Base

/-- `toName`; `src/duplicatePacketDetector.cpp:29–46`. -/
def toName (streamIdentifier : StreamIdentifier) : Bytes :=
  let result := streamIdentifier.network ++ ascii "." ++ streamIdentifier.station ++ ascii "."
    ++ streamIdentifier.channel ++ ascii "."
  if streamIdentifier.locationCode.isEmpty then result
  else result ++ ascii "." ++ streamIdentifier.locationCode

/-- The exceptions that constructing a header can throw. -/
inductive HeaderError where
  | samplingRateNotPositive
  | noSamples
  deriving DecidableEq, Repr

/-- The text of a header exception; `src/duplicatePacketDetector.cpp:57,88`. -/
def HeaderError.what : HeaderError → Bytes
  | samplingRateNotPositive => ascii "Sampling rate not positive"
  | noSamples => ascii "No samples in packet"

/-- The exceptions that leave `allow`. The last two stand for the length error of
`boost::circular_buffer` and for an access to the front or back of an empty buffer. -/
inductive AllowError where
  | inconsistentSamplingRates (name : Bytes)
  | unclassifiedSamplingRate (samplingRate : Int) (name : Bytes)
  | circularBufferLength
  | emptyBuffer
  deriving DecidableEq, Repr

/-- The text of an exception; `src/duplicatePacketDetector.cpp:105–107,127–129`. -/
def AllowError.what : AllowError → Bytes
  | inconsistentSamplingRates name => ascii "Inconsistent sampling rates for: " ++ name
  | unclassifiedSamplingRate samplingRate name =>
    ascii "Could not classify sampling rate: " ++ ascii (toString samplingRate)
      ++ ascii " for " ++ name
  | circularBufferLength => ascii "circular_buffer"
  | emptyBuffer => []

/-- `DataPacketHeader`; `src/duplicatePacketDetector.cpp:132–137`. Times are in microseconds. -/
structure DataPacketHeader where
  name : Bytes
  startTime : Int
  endTime : Int
  samplingRate : Int
  nSamples : UInt32
  deriving DecidableEq, Repr

section Construction

variable [Platform]

/-- The rounded sampling period, `dtMuSec`; `src/duplicatePacketDetector.cpp:59`. -/
def dtMuSec (samplingRate : Double) : Int :=
  (Double.round (Double.div (.finite 1000000) samplingRate)).toInt64

/-- `getEndTimeInMicroSeconds`; `src/duplicatePacketDetector.cpp:48–62`. The count of
samples is an unsigned 32-bit integer, also when one is subtracted from it. -/
def getEndTimeInMicroSeconds (packet : Packet) : Except HeaderError Int :=
  let startTimeMuSec := Platform.timestampToMicroseconds packet.startTime
  let nSamples := packet.numberOfSamples
  if packet.samplingRate.leZero then .error .samplingRateNotPositive
  else
    let endTimeMuSec := wrap64 (startTimeMuSec
      + wrap64 (dtMuSec packet.samplingRate * (nSamples - 1).toNat))
    .ok endTimeMuSec

/-- The constructor of `DataPacketHeader`; `src/duplicatePacketDetector.cpp:68–90`. -/
def DataPacketHeader.ofPacket (packet : Packet) : Except HeaderError DataPacketHeader :=
  let name := toName packet.streamIdentifier
  let startTime := Platform.timestampToMicroseconds packet.startTime
  match getEndTimeInMicroSeconds packet with
  | .error e => .error e
  | .ok endTime =>
    let samplingRate := (Double.round packet.samplingRate).toInt32
    let nSamples := packet.numberOfSamples
    if nSamples ≤ 0 then .error .noSamples
    else .ok { name, startTime, endTime, samplingRate, nSamples }

/-- The start time of a packet in microseconds. -/
def startMuSec (packet : Packet) : Int := Platform.timestampToMicroseconds packet.startTime

/-- No operation of `getEndTimeInMicroSeconds` leaves the range of its type: the rounded
period, its product with the number of intervals, and the sum with the start time. -/
def EndTimeInRange (packet : Packet) : Prop :=
  packet.samplingRate.leZero = false →
    (Double.round (Double.div (.finite 1000000) packet.samplingRate)).FitsInt64 ∧
    InInt64 (Platform.timestampToMicroseconds packet.startTime) ∧
    InInt64 (dtMuSec packet.samplingRate * (packet.numberOfSamples - 1).toNat) ∧
    InInt64 (Platform.timestampToMicroseconds packet.startTime
      + dtMuSec packet.samplingRate * (packet.numberOfSamples - 1).toNat)

instance (packet : Packet) : Decidable (EndTimeInRange packet) :=
  inferInstanceAs (Decidable (_ → _))

end Construction

/-- How far apart two start times may be for packets of the same length to count as
duplicates, by the sampling rate; `src/duplicatePacketDetector.cpp:111–126`. -/
def startTimeTolerance (samplingRate : Int) : Option Int :=
  if samplingRate < 105 then some 15000
  else if samplingRate < 255 then some 4500
  else if samplingRate < 505 then some 2500
  else if samplingRate < 1005 then some 1500
  else none

namespace DataPacketHeader

/-- `DataPacketHeader::operator==`; `src/duplicatePacketDetector.cpp:100–131`. -/
def eq (lhs rhs : DataPacketHeader) : Except AllowError Bool :=
  if rhs.name ≠ lhs.name then .ok false
  else if rhs.samplingRate - lhs.samplingRate ≠ 0 then
    .error (.inconsistentSamplingRates lhs.name)
  else if rhs.nSamples ≠ lhs.nSamples then .ok false
  else
    let dStartTime := |rhs.startTime - lhs.startTime|
    match startTimeTolerance lhs.samplingRate with
    | some tolerance => .ok (decide (dStartTime < tolerance))
    | none => .error (.unclassifiedSamplingRate lhs.samplingRate lhs.name)

/-- The closed interval from the first to the last sample. -/
def interval (header : DataPacketHeader) : Set Int := Set.Icc header.startTime header.endTime

/-- The slip test on one buffered header: an end point of the offered packet lies in its
interval; `src/duplicatePacketDetector.cpp:343–346`. -/
def slips (header streamHeader : DataPacketHeader) : Bool :=
  (decide (header.startTime ≥ streamHeader.startTime) &&
    decide (header.startTime ≤ streamHeader.endTime)) ||
  (decide (header.endTime ≥ streamHeader.startTime) &&
    decide (header.endTime ≤ streamHeader.endTime))

/-- The interval of the offered packet reaches over both ends of a buffered one. -/
def encloses (header streamHeader : DataPacketHeader) : Bool :=
  decide (header.startTime < streamHeader.startTime) &&
    decide (streamHeader.endTime < header.endTime)

/-- The slip test asks for an end point inside the buffered interval. -/
theorem slips_iff (h s : DataPacketHeader) : h.slips s = true ↔
    Lib.Interval.EndpointIn h.startTime h.endTime s.startTime s.endTime := by
  simp only [slips, Bool.or_eq_true, Bool.and_eq_true, decide_eq_true_eq, ge_iff_le,
    Lib.Interval.EndpointIn]

theorem encloses_iff (h s : DataPacketHeader) : h.encloses s = true ↔
    Lib.Interval.Encloses h.startTime h.endTime s.startTime s.endTime := by
  simp only [encloses, Bool.and_eq_true, decide_eq_true_eq, Lib.Interval.Encloses]

/-- Two spans share no instant exactly when one ends before the other starts. -/
theorem disjoint_interval_iff {h s : DataPacketHeader} (hh : h.startTime ≤ h.endTime)
    (hs : s.startTime ≤ s.endTime) :
    Disjoint h.interval s.interval ↔ h.endTime < s.startTime ∨ s.endTime < h.startTime :=
  Lib.Interval.disjoint_iff hh hs

/-- Two spans share an instant exactly when the slip test sees it or one encloses the other. -/
theorem not_disjoint_interval_iff {h s : DataPacketHeader} (hh : h.startTime ≤ h.endTime)
    (hs : s.startTime ≤ s.endTime) :
    ¬Disjoint h.interval s.interval ↔ h.slips s = true ∨ h.encloses s = true := by
  rw [slips_iff, encloses_iff]
  exact Lib.Interval.not_disjoint_iff hh hs

/-- Headers of one stream compare unequal when they have one rate and, with the same number of
samples, start times no closer than the tolerance. -/
theorem eq_false_iff {s t : DataPacketHeader} (hname : t.name = s.name) :
    s.eq t = .ok false ↔ t.samplingRate = s.samplingRate ∧
      (t.nSamples = s.nSamples → ∃ tolerance, startTimeTolerance s.samplingRate = some tolerance ∧
        tolerance ≤ |t.startTime - s.startTime|) := by
  unfold eq
  rw [if_neg (not_not.mpr hname)]
  by_cases hrate : t.samplingRate = s.samplingRate
  · rw [if_neg (by omega)]
    by_cases hsamples : t.nSamples = s.nSamples
    · rw [if_neg (not_not.mpr hsamples)]
      cases startTimeTolerance s.samplingRate with
      | none => simp [hrate, hsamples]
      | some tolerance => simp [hrate, hsamples]
    · rw [if_pos hsamples]
      simp [hrate, hsamples]
  · rw [if_pos (by omega)]
    simp [hrate]

/-- A header never compares unequal to itself. -/
theorem eq_self_ne_false (h : DataPacketHeader) : h.eq h ≠ .ok false := by
  unfold eq
  simp only [ne_eq, not_true_eq_false, ↓reduceIte, sub_self, abs_zero]
  cases ht : startTimeTolerance h.samplingRate with
  | none => simp
  | some tolerance =>
    have hpos : 0 < tolerance := by
      unfold startTimeTolerance at ht
      split_ifs at ht <;> simp only [Option.some.injEq] at ht <;> omega
    simp [hpos]

/-- A header with a classified rate equals itself. -/
theorem eq_self {h : DataPacketHeader} (hr : h.samplingRate < 1005) :
    h.eq h = .ok true := by
  unfold eq
  simp only [ne_eq, not_true_eq_false, ↓reduceIte, sub_self, abs_zero]
  unfold startTimeTolerance
  split_ifs <;> rfl

end DataPacketHeader

section Range

variable [Platform]

/-- The rounded period of a positive rate is not negative. -/
theorem dtMuSec_nonneg {samplingRate : Double} (hpos : samplingRate.leZero = false)
    (hr : (Double.round (Double.div (.finite 1000000) samplingRate)).FitsInt64) :
    0 ≤ dtMuSec samplingRate := by
  unfold dtMuSec
  cases samplingRate with
  | finite r =>
    have hr0 : 0 < r := by simpa [Double.leZero] using hpos
    have hquotient : 0 ≤ 1000000 / r := by positivity
    rw [Double.div, if_neg hr0.ne', Double.ofRat_of_nonneg hquotient] at hr ⊢
    split at hr
    · exact hr.elim
    · next hfinite =>
      simp only [Double.round, Double.FitsInt64, truncate_intCast] at hr
      simp only [if_neg hfinite, Double.round, Double.toInt64, truncate_intCast, if_pos hr]
      exact roundHalfAway_nonneg (Lib.Binary64.nearest_nonneg hquotient)
  | posInf =>
    simp only [Double.div, Double.round, Double.FitsInt64, truncate_intCast] at hr
    simp only [Double.div, Double.round, Double.toInt64, truncate_intCast, if_pos hr]
    exact roundHalfAway_nonneg le_rfl
  | negInf => simp [Double.leZero] at hpos
  | nan => simp [Double.div, Double.round, Double.FitsInt64] at hr

/-- The parts of a header that was constructed. -/
theorem DataPacketHeader.ofPacket_ok {packet : Packet} {h : DataPacketHeader}
    (hp : ofPacket packet = .ok h) :
    packet.samplingRate.leZero = false ∧ h.name = toName packet.streamIdentifier ∧
      h.startTime = Platform.timestampToMicroseconds packet.startTime ∧
      h.endTime = wrap64 (h.startTime
        + wrap64 (dtMuSec packet.samplingRate * (h.nSamples - 1).toNat)) ∧
      h.samplingRate = (Double.round packet.samplingRate).toInt32 ∧
      h.nSamples = packet.numberOfSamples ∧ 0 < h.nSamples := by
  unfold ofPacket getEndTimeInMicroSeconds at hp
  cases hz : packet.samplingRate.leZero with
  | true => simp [hz] at hp
  | false =>
    simp only [hz, Bool.false_eq_true, ↓reduceIte] at hp
    split at hp
    · cases hp
    · next hn =>
      cases hp
      exact ⟨rfl, rfl, rfl, rfl, rfl, rfl, UInt32.not_le.mp hn⟩

/-- In range, the end time is the start time plus whole periods. -/
theorem DataPacketHeader.endTime_eq {packet : Packet} {h : DataPacketHeader}
    (hp : ofPacket packet = .ok h) (hr : EndTimeInRange packet) :
    h.endTime = h.startTime + dtMuSec packet.samplingRate * (h.nSamples - 1).toNat := by
  obtain ⟨hpos, -, hs, he, -, hn, -⟩ := ofPacket_ok hp
  obtain ⟨-, -, hprod, hsum⟩ := hr hpos
  rw [he, hs, hn, wrap64_of_inInt64 hprod, wrap64_of_inInt64 hsum]

/-- In range, a header spans a non-empty interval. -/
theorem DataPacketHeader.startTime_le_endTime {packet : Packet} {h : DataPacketHeader}
    (hp : ofPacket packet = .ok h) (hr : EndTimeInRange packet) :
    h.startTime ≤ h.endTime := by
  have hpos := (ofPacket_ok hp).1
  have hdt := dtMuSec_nonneg hpos (hr hpos).1
  rw [endTime_eq hp hr]
  have hmul : 0 ≤ dtMuSec packet.samplingRate * ((h.nSamples - 1).toNat : Int) :=
    mul_nonneg hdt (Int.natCast_nonneg _)
  omega

end Range
end ImportProxy.Detector
