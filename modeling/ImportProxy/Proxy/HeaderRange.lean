import ImportProxy.Detector.Header
import ImportProxy.Frontend.Reader

/-!
# Headers in range

The frontend forwards every positive rate, `src/frontend.cpp:161–165`; the detector
computes the end time and the rounded rate of the header with machine integers,
`src/duplicatePacketDetector.cpp:48–91`. Which of the forwarded packets have headers
that are in range.
-/

namespace ImportProxy.Proxy

open ImportProxy.Base ImportProxy.Detector
open Lib.Binary64 (nearest limit nearest_nonneg two_pow_lt_limit)
open ImportProxy.Frontend (forwarded forwarded_eq_some_iff hasSamples)

section Definitions

variable [Platform]

/-- The header of a packet is constructed, every conversion and operation on the way is in range,
and the end time is not before the start time. -/
structure HeaderInRange (packet : Packet) : Prop where
  constructed : ∃ header, DataPacketHeader.ofPacket packet = .ok header ∧
    header.startTime ≤ header.endTime
  endTime : EndTimeInRange packet
  samplingRate : (Double.round packet.samplingRate).FitsInt32

/-- The longest period for which the end time of so many intervals is in range. -/
def longestPeriod (nIntervals : Nat) (startTime : Int) : Int :=
  if nIntervals = 0 then 2 ^ 63 - 1 else (2 ^ 63 - 1 - max 0 startTime) / nIntervals

/-- The rate of a packet is finite, and neither too fast for an `int` nor, with the quotient that
double precision has for it, too slow for the end time of its samples. -/
def RateInRange (packet : Packet) : Prop :=
  ∃ r : ℚ, packet.samplingRate = .finite r ∧ r < 2 ^ 31 - 1 / 2 ∧
    nearest (1000000 / r) <
      longestPeriod (packet.numberOfSamples - 1).toNat (startMuSec packet) + 1 / 2

end Definitions

/-- A period is in range with its product and its sum up to the longest one. -/
theorem le_longestPeriod_iff {period startTime : Int} (nIntervals : Nat) (hperiod : 0 ≤ period)
    (hstart : InInt64 startTime) : period ≤ longestPeriod nIntervals startTime ↔
      InInt64 period ∧ InInt64 (period * nIntervals) ∧
        InInt64 (startTime + period * nIntervals) := by
  obtain ⟨hlow, hhigh⟩ := hstart
  unfold longestPeriod InInt64
  by_cases hn : nIntervals = 0
  · rw [if_pos hn, hn, Nat.cast_zero, Int.mul_zero]
    omega
  · have hpos : (0 : Int) < nIntervals := by omega
    rw [if_neg hn, Int.le_ediv_iff_mul_le hpos]
    have hle : period ≤ period * nIntervals := le_mul_of_one_le_right hperiod (by omega)
    omega

/-- The longest period is itself in range. -/
theorem longestPeriod_lt (nIntervals : Nat) {startTime : Int} (hstart : InInt64 startTime) :
    longestPeriod nIntervals startTime < 2 ^ 63 := by
  unfold longestPeriod
  split
  · decide
  · have hroom : 0 ≤ 2 ^ 63 - 1 - max 0 startTime := by
      have hupper := hstart.2
      omega
    have hle := Int.ediv_le_self (nIntervals : Int) hroom
    omega

/-- The rounded period of a finite rate, unless the quotient overflows. -/
theorem round_period {r : ℚ} (hr : 0 < r) :
    Double.round (Double.div (.finite 1000000) (.finite r)) =
      if limit ≤ nearest (1000000 / r) then .posInf
      else .finite (roundHalfAway (nearest (1000000 / r))) := by
  rw [Double.div, if_neg hr.ne', Double.ofRat_of_nonneg (by positivity), apply_ite Double.round]
  rfl

/-- A positive rate rounds to an `int` up to half above the largest one. -/
theorem fitsInt32_round_iff {r : ℚ} (hr : 0 < r) :
    (Double.round (.finite r)).FitsInt32 ↔ r < 2 ^ 31 - 1 / 2 := by
  have hnonneg := roundHalfAway_nonneg hr.le
  show InInt32 (truncate (roundHalfAway r : ℚ)) ↔ _
  rw [truncate_intCast]
  have hle : InInt32 (roundHalfAway r) ↔ roundHalfAway r ≤ 2 ^ 31 - 1 := by
    unfold InInt32
    omega
  rw [hle, roundHalfAway_le_iff hr.le]
  norm_num

section Headers

variable [Platform] {packet : Packet} {r : ℚ}

/-- The end time is in range up to the longest period. -/
theorem endTimeInRange_iff (hrate : packet.samplingRate = .finite r) (hr : 0 < r)
    (hstart : InInt64 (startMuSec packet)) : EndTimeInRange packet ↔
      nearest (1000000 / r) <
        longestPeriod (packet.numberOfSamples - 1).toNat (startMuSec packet) + 1 / 2 := by
  have hpositive : packet.samplingRate.leZero = false := by
    rw [hrate, Double.leZero, decide_eq_false_iff_not]
    exact not_le.mpr hr
  have hround := round_period hr
  by_cases hlimit : limit ≤ nearest (1000000 / r)
  · rw [if_pos hlimit] at hround
    apply iff_of_false
    · intro hrange
      have hfits := (hrange hpositive).1
      rw [hrate, hround] at hfits
      exact hfits
    · have hlongest : (longestPeriod (packet.numberOfSamples - 1).toNat (startMuSec packet) : ℚ) <
          2 ^ 63 := by exact_mod_cast longestPeriod_lt _ hstart
      have hbelow : (2 : ℚ) ^ 64 < limit := two_pow_lt_limit (by decide)
      rw [not_lt]
      linarith
  · rw [if_neg hlimit] at hround
    have hquotient : 0 ≤ nearest (1000000 / r) := nearest_nonneg (by positivity)
    have hfits : (Double.round (Double.div (.finite 1000000) packet.samplingRate)).FitsInt64 ↔
        InInt64 (roundHalfAway (nearest (1000000 / r))) := by
      rw [hrate, hround, Double.FitsInt64, truncate_intCast]
    have hperiod (h : InInt64 (roundHalfAway (nearest (1000000 / r)))) :
        dtMuSec packet.samplingRate = roundHalfAway (nearest (1000000 / r)) := by
      rw [dtMuSec, hrate, hround, Double.toInt64, truncate_intCast, if_pos h]
    rw [← roundHalfAway_le_iff hquotient,
      le_longestPeriod_iff _ (roundHalfAway_nonneg hquotient) hstart]
    constructor
    · intro hrange
      obtain ⟨hperiodFits, -, hproduct, hsum⟩ := hrange hpositive
      have hin := hfits.mp hperiodFits
      rw [hperiod hin] at hproduct hsum
      exact ⟨hin, hproduct, hsum⟩
    · rintro ⟨hin, hproduct, hsum⟩ -
      rw [hperiod hin]
      exact ⟨hfits.mpr hin, hstart, hproduct, hsum⟩

/-- The header of a positive number of samples at a positive rate is always constructed. -/
theorem exists_ofPacket (hn : 0 < packet.numberOfSamples)
    (hr : packet.samplingRate.leZero = false) :
    ∃ header, DataPacketHeader.ofPacket packet = .ok header := by
  unfold DataPacketHeader.ofPacket getEndTimeInMicroSeconds
  simp only [hr, Bool.false_eq_true, if_false, if_neg (UInt32.not_le.mpr hn)]
  exact ⟨_, rfl⟩

/-- A header is in range when the rate of its packet is. -/
theorem headerInRange_iff (hn : 0 < packet.numberOfSamples)
    (hr : packet.samplingRate.gtZero = true) (hstart : InInt64 (startMuSec packet)) :
    HeaderInRange packet ↔ RateInRange packet := by
  cases hrate : packet.samplingRate with
  | finite r =>
    have hpos : 0 < r := by
      rw [hrate] at hr
      exact of_decide_eq_true hr
    constructor
    · intro hrange
      have hfast := hrange.samplingRate
      rw [hrate, fitsInt32_round_iff hpos] at hfast
      exact ⟨r, hrate, hfast, (endTimeInRange_iff hrate hpos hstart).mp hrange.endTime⟩
    · rintro ⟨r', hrate', hfast, hslow⟩
      cases hrate.symm.trans hrate'
      have hend := (endTimeInRange_iff hrate hpos hstart).mpr hslow
      have hpositive : packet.samplingRate.leZero = false := by
        rw [hrate, Double.leZero, decide_eq_false_iff_not]
        exact not_le.mpr hpos
      obtain ⟨header, hheader⟩ := exists_ofPacket hn hpositive
      refine ⟨⟨header, hheader, DataPacketHeader.startTime_le_endTime hheader hend⟩, hend, ?_⟩
      rw [hrate, fitsInt32_round_iff hpos]
      exact hfast
  | posInf =>
    apply iff_of_false
    · intro hrange
      have hfast := hrange.samplingRate
      rw [hrate] at hfast
      exact hfast
    · rintro ⟨r, hfinite, -⟩
      cases hrate.symm.trans hfinite
  | negInf | nan =>
    rw [hrate] at hr
    cases hr

/-- The header of a packet that the frontend forwards is in range exactly when its rate is. The
conversion of a valid timestamp is to whole microseconds. -/
theorem forwarded_headerInRange_iff {message packet : Packet}
    (hplatform : ∀ t : Timestamp, t.Valid →
      Platform.timestampToMicroseconds t = t.seconds * 1000000 + t.nanos / 1000)
    (hforwarded : forwarded message = some packet) (hvalid : packet.startTime.Valid) :
    HeaderInRange packet ↔ RateInRange packet := by
  have hstart : InInt64 (startMuSec packet) := by
    rw [startMuSec, hplatform _ hvalid, InInt64]
    obtain ⟨hlow, hhigh, hnanos, hnanos'⟩ := hvalid
    omega
  have hsamples : hasSamples packet = true := by
    obtain ⟨⟨htests, -⟩, rfl⟩ := forwarded_eq_some_iff.mp hforwarded
    exact htests
  simp only [hasSamples, Bool.and_eq_true, decide_eq_true_eq] at hsamples
  exact headerInRange_iff hsamples.1.1 hsamples.2 hstart

end Headers

section Runs

attribute [local instance] x86Platform

/-- A packet of the stream UU.FTU.HHZ.01, one second after the epoch. -/
def ratedPacket (samplingRate : ℚ) (nSamples : UInt32) : Packet where
  streamIdentifier := ⟨ascii "UU", ascii "FTU", ascii "HHZ", ascii "01"⟩
  startTime := ⟨1, 0⟩
  samplingRate := .finite samplingRate
  dataType := .integer32
  numberOfSamples := nSamples
  data := []

theorem x86_timestampToMicroseconds {t : Timestamp} (h : t.Valid) :
    Platform.timestampToMicroseconds t = t.seconds * 1000000 + t.nanos / 1000 := by
  show t.seconds * 1000000 + t.nanos.tdiv 1000 = _
  rw [Int.tdiv_eq_ediv_of_nonneg h.2.2.1]

theorem forwarded_headerInRange_hundredHertz : HeaderInRange (ratedPacket 100 500) := by
  have hforwarded : forwarded (ratedPacket 100 500) = some (ratedPacket 100 500) := by
    decide +kernel
  have hlongest : longestPeriod 499 1000000 = 18483711496700953 := by decide
  have hrate : RateInRange (ratedPacket 100 500) := by
    refine ⟨100, rfl, by norm_num, ?_⟩
    show nearest (1000000 / 100) < longestPeriod 499 1000000 + 1 / 2
    rw [hlongest]
    decide +kernel
  exact (forwarded_headerInRange_iff (fun _ ↦ x86_timestampToMicroseconds) hforwarded
    (by decide)).mpr hrate

/-- At one sample in `2 ^ 12` seconds, the end of `2 ^ 32 - 1` samples comes before their start. -/
theorem slowPacket_not_inRange :
    forwarded (ratedPacket (1 / 2 ^ 12) 4294967295) =
      some (ratedPacket (1 / 2 ^ 12) 4294967295) ∧
    (ratedPacket (1 / 2 ^ 12) 4294967295).startTime.Valid ∧
    ¬HeaderInRange (ratedPacket (1 / 2 ^ 12) 4294967295) := by
  refine ⟨by decide +kernel, by decide, fun h ↦ ?_⟩
  exact absurd h.endTime (by decide +kernel)

end Runs

end ImportProxy.Proxy
