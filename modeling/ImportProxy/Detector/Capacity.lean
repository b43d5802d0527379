import ImportProxy.Detector.Invariant

/-!
# Buffers sized by a duration

The capacity that `estimateCapacity` gives to a buffer that is to hold a number of
seconds, `src/duplicatePacketDetector.cpp:140–150,260–281`. The length of a packet
is rounded to whole seconds before the division, and the quotient is converted to
`int`.
-/

namespace ImportProxy.Detector

open ImportProxy.Base

/-- The `duration` of `estimateCapacity`: that of the first packet in whole seconds. -/
def packetDuration (header : DataPacketHeader) : Double :=
  maxZero (Double.round (Double.div (.finite ((header.nSamples.toNat : ℚ) - 1))
    (.finite (max 1 header.samplingRate : Int))))

/-- The quotient that `estimateCapacity` converts to `int`. -/
def capacityQuotient (header : DataPacketHeader) (memory : Int) : Double :=
  Double.div (Double.ofRat (3 / 2 * Lib.Binary64.nearest memory)) (packetDuration header)

/-- The buffer of a stream is sized for a duration: the division and the conversion are defined,
and that many packets of the length of the first one span the duration. -/
structure SizedFor [Platform] (memory : Int) (header : DataPacketHeader) (capacity : Int) :
    Prop where
  divisor : packetDuration header ≠ .finite 0
  quotient : (capacityQuotient header memory).FitsInt32 ∧
    InInt32 (max 10 (capacityQuotient header memory).toInt32 + 1)
  spans : (memory : ℚ) ≤ capacity * (header.nSamples.toNat / header.samplingRate)

/-- The first packet does not round to no second; if it rounds to one, the duration is not too long
for an `int` and the packet not too short for the factor 3/2. -/
def DurationSuffices (memory nSamples samplingRate : Int) : Prop :=
  samplingRate ≤ 2 * (nSamples - 1) ∧
    (2 * (nSamples - 1) < 3 * samplingRate → 3 * memory < 2 ^ 32 - 2 ∧
      memory * samplingRate ≤ (max 10 (3 * memory / 2) + 1) * nSamples)

instance decidableDurationSuffices (memory nSamples samplingRate : Int) :
    Decidable (DurationSuffices memory nSamples samplingRate) :=
  inferInstanceAs (Decidable (_ ∧ _))

/-- The whole seconds of a packet. -/
def wholeSeconds (header : DataPacketHeader) : Int :=
  roundHalfAway (((header.nSamples.toNat : ℚ) - 1) / header.samplingRate)

/-- A header of at least one sample and of a rate that is at least one and an `int`. -/
structure Rated (header : DataPacketHeader) : Prop where
  sampled : 1 ≤ header.nSamples.toNat
  rated : 1 ≤ header.samplingRate
  fits : header.samplingRate < 2 ^ 31

section Estimate

open Lib.Binary64 (nearest nearest_div_lt_iff floor_nearest_div nearest_intCast)

variable {header : DataPacketHeader} {memory : Int}

/-- The time between the first and the last sample is not negative. -/
theorem span_nonneg (hrated : Rated header) :
    0 ≤ ((header.nSamples.toNat : ℚ) - 1) / header.samplingRate := by
  have hn : (1 : ℚ) ≤ header.nSamples.toNat := by exact_mod_cast hrated.sampled
  have hr : (1 : ℚ) ≤ header.samplingRate := by exact_mod_cast hrated.rated
  apply div_nonneg
  · linarith
  · linarith

/-- The division in binary64 rounds to the same whole seconds. -/
theorem round_span (hrated : Rated header) :
    Double.round (Double.div (.finite ((header.nSamples.toNat : ℚ) - 1))
      (.finite (max 1 header.samplingRate : Int))) = .finite (wholeSeconds header) := by
  obtain ⟨hn, hr, hfits⟩ := hrated
  have hcast : (header.nSamples.toNat : ℚ) - 1 = ((header.nSamples.toNat - 1 : Int) : ℚ) := by
    push_cast
    rfl
  have hne : (header.samplingRate : ℚ) ≠ 0 := by
    have hpos : (1 : ℚ) ≤ header.samplingRate := by exact_mod_cast hr
    linarith
  have hcount := header.nSamples.toNat_lt
  have hlow : (0 : Int) ≤ header.nSamples.toNat - 1 := by omega
  have hhigh : (header.nSamples.toNat : Int) - 1 < 2 ^ 51 := by omega
  have hrate : header.samplingRate ≤ 2 ^ 64 := by omega
  rw [max_eq_right hr, Double.div, if_neg hne, wholeSeconds, hcast,
    Double.ofRat_div hlow (by omega) hhigh hrate, Double.round,
    roundHalfAway_nearest_div hlow (by omega) hhigh hrate]

/-- The duration is a number of whole seconds. -/
theorem packetDuration_eq (hrated : Rated header) :
    packetDuration header = .finite (wholeSeconds header) := by
  have hnonneg : 0 ≤ wholeSeconds header := roundHalfAway_nonneg (span_nonneg hrated)
  rw [packetDuration, round_span hrated, maxZero, Double.gtZero]
  by_cases hpos : 0 < wholeSeconds header
  · rw [if_pos (by simpa using hpos)]
  · have hzero : wholeSeconds header = 0 := by omega
    rw [if_neg (by simpa using hpos), hzero, Int.cast_zero]

/-- A packet rounds to at most so many seconds. -/
theorem wholeSeconds_le_iff (hrated : Rated header) (n : Int) : wholeSeconds header ≤ n ↔
    2 * ((header.nSamples.toNat : Int) - 1) < (2 * n + 1) * header.samplingRate := by
  have hpos : (0 : ℚ) < header.samplingRate := by exact_mod_cast hrated.rated
  rw [wholeSeconds, roundHalfAway_le_iff (span_nonneg hrated), div_lt_iff₀ hpos]
  constructor
  · intro h
    have h' : (2 * ((header.nSamples.toNat : ℚ) - 1)) < (2 * n + 1) * header.samplingRate := by
      linarith
    exact_mod_cast h'
  · intro h
    have h' : (2 * ((header.nSamples.toNat : ℚ) - 1)) < (2 * n + 1) * header.samplingRate := by
      exact_mod_cast h
    linarith

/-- It has at most as many seconds as samples. -/
theorem wholeSeconds_lt (hrated : Rated header) : wholeSeconds header < 2 ^ 32 := by
  have hcount := header.nSamples.toNat_lt
  have hscaled : (2 * (2 ^ 32 - 1) + 1 : Int) ≤ (2 * (2 ^ 32 - 1) + 1) * header.samplingRate :=
    le_mul_of_one_le_right (by decide) hrated.rated
  have hle := (wholeSeconds_le_iff hrated (2 ^ 32 - 1)).mpr (by omega)
  omega

/-- The quotient by a positive number of seconds. -/
theorem capacityQuotient_eq (hrated : Rated header) (hmemory : 1 ≤ memory)
    (hmax : memory < 2 ^ 31) (hpos : 0 < wholeSeconds header) {x : ℚ}
    (hx : x = 3 / 2 * memory / wholeSeconds header) :
    capacityQuotient header memory = .finite (nearest x) ∧ ⌊nearest x⌋ = ⌊x⌋ ∧
      ∀ n : Int, nearest x < n ↔ x < n := by
  have hlt := wholeSeconds_lt hrated
  have hne : (wholeSeconds header : ℚ) ≠ 0 := by exact_mod_cast hpos.ne'
  have hmemory' : |(memory : ℚ)| < 2 ^ 51 := by
    rw [abs_of_pos (by exact_mod_cast hmemory)]
    exact_mod_cast hmax.trans (by decide)
  have hscaled : Double.ofRat (3 / 2 * memory) = .finite (3 / 2 * memory) := by
    have hhalf : (3 / 2 * memory : ℚ) = (3 * memory : Int) / (2 : Int) := by
      push_cast
      ring
    have hsmall : |((3 * memory : Int) / 2 : ℚ)| < 2 ^ 51 := by
      have hlow : (1 : ℚ) ≤ memory := by exact_mod_cast hmemory
      have hhigh : (memory : ℚ) < 2 ^ 31 := by exact_mod_cast hmax
      push_cast
      rw [abs_of_pos (by linarith)]
      linarith
    rw [hhalf, Double.ofRat_div (by omega) (by decide) (by omega) (by decide), Int.cast_ofNat,
      Lib.Binary64.nearest_half hsmall]
  have hquotient : x = (3 * memory : Int) / (2 * wholeSeconds header : Int) := by
    rw [hx]
    push_cast
    field_simp
  rw [capacityQuotient, packetDuration_eq hrated, nearest_intCast hmemory', hscaled, Double.div,
    if_neg hne, ← hx, hquotient]
  exact ⟨Double.ofRat_div (by omega) (by omega) (by omega) (by omega),
    floor_nearest_div (by omega) (by omega) (by omega) (by omega),
    nearest_div_lt_iff (by omega) (by omega) (by omega) (by omega)⟩

variable [Platform]

/-- A quotient that fits is converted to its floor. -/
theorem toInt32_eq_floor {x : ℚ} (hx : 0 ≤ x) (hlt : x < 2 ^ 31) :
    (Double.finite x).toInt32 = ⌊x⌋ := by
  have hfloor : ⌊x⌋ < 2 ^ 31 := by
    rw [Int.floor_lt]
    exact_mod_cast hlt
  have hnonneg : 0 ≤ ⌊x⌋ := Int.floor_nonneg.mpr hx
  rw [Double.toInt32, truncate, if_pos hx, if_pos ⟨by omega, hfloor⟩]

/-- The conversion and the final addition stay in range below the largest `int`. -/
theorem fitsCapacity_iff {x : ℚ} (hx : 0 ≤ x) :
    (Double.finite x).FitsInt32 ∧ InInt32 (max 10 (Double.finite x).toInt32 + 1) ↔
      x < 2 ^ 31 - 1 := by
  have hnonneg : 0 ≤ ⌊x⌋ := Int.floor_nonneg.mpr hx
  have hlt_iff : ⌊x⌋ < 2 ^ 31 - 1 ↔ x < 2 ^ 31 - 1 := by
    rw [Int.floor_lt]
    norm_num
  constructor
  · rintro ⟨hfits, hmax⟩
    have htrunc : InInt32 ⌊x⌋ := by
      rw [Double.FitsInt32, truncate, if_pos hx] at hfits
      exact hfits
    rw [Double.toInt32, truncate, if_pos hx, if_pos htrunc] at hmax
    have hupper := hmax.2
    rw [← hlt_iff]
    omega
  · intro hlt
    have hfloor := hlt_iff.mpr hlt
    rw [toInt32_eq_floor hx (by linarith)]
    refine ⟨?_, ⟨by omega, by omega⟩⟩
    rw [Double.FitsInt32, truncate, if_pos hx]
    exact ⟨by omega, by omega⟩

/-- The value of the estimate when the conversion and the addition are defined. -/
theorem estimateCapacity_eq {x : ℚ} (hx : 0 ≤ x) (hlt : x < 2 ^ 31 - 1)
    (hquotient : capacityQuotient header memory = .finite x) :
    estimateCapacity header memory = max 10 ⌊x⌋ + 1 := by
  have hfits := (fitsCapacity_iff hx).mpr hlt
  have hexact : estimateCapacity header memory =
      max 10 (capacityQuotient header memory).toInt32 + 1 := by
    rw [← hquotient] at hfits
    exact wrap32_of_inInt32 hfits.2
  rw [hexact, hquotient, toInt32_eq_floor hx (by linarith)]

/-- A packet that rounds to no second is a division by zero. -/
theorem not_sizedFor_of_zero (hrated : Rated header) (hzero : wholeSeconds header = 0)
    (capacity : Int) : ¬ SizedFor memory header capacity := by
  intro hsized
  apply hsized.divisor
  rw [packetDuration_eq hrated, hzero, Int.cast_zero]

/-- Packets of a positive number of seconds: the estimate is in range exactly when the quotient
is, and then it is left to compare the spans. -/
theorem sizedFor_iff_of_pos (hrated : Rated header) (hmemory : 1 ≤ memory)
    (hmax : memory < 2 ^ 31) (hpos : 0 < wholeSeconds header) {x : ℚ}
    (hx : x = 3 / 2 * memory / wholeSeconds header) :
    SizedFor memory header (estimateCapacity header memory) ↔ x < 2 ^ 31 - 1 ∧
      (memory : ℚ) ≤ (max 10 ⌊x⌋ + 1 : Int) * (header.nSamples.toNat / header.samplingRate) := by
  obtain ⟨hquotient, hfloor, hbelow⟩ := capacityQuotient_eq hrated hmemory hmax hpos hx
  have hbelow' : nearest x < 2 ^ 31 - 1 ↔ x < 2 ^ 31 - 1 := by
    have hint : ((2 ^ 31 - 1 : Int) : ℚ) = 2 ^ 31 - 1 := by norm_num
    rw [← hint, hbelow]
  have hnonneg : 0 ≤ nearest x := by
    have hmemory' : (1 : ℚ) ≤ memory := by exact_mod_cast hmemory
    have hpos' : (0 : ℚ) < wholeSeconds header := by exact_mod_cast hpos
    apply Lib.Binary64.nearest_nonneg
    rw [hx]
    apply div_nonneg
    · linarith
    · exact hpos'.le
  rw [← hbelow', ← hfloor]
  constructor
  · intro hsized
    have hlt : nearest x < 2 ^ 31 - 1 := by
      have hfits := hsized.quotient
      rw [hquotient] at hfits
      exact (fitsCapacity_iff hnonneg).mp hfits
    refine ⟨hlt, ?_⟩
    rw [← estimateCapacity_eq hnonneg hlt hquotient]
    exact hsized.spans
  · rintro ⟨hlt, hspans⟩
    constructor
    · rw [packetDuration_eq hrated]
      intro hzero
      have hzero' : (wholeSeconds header : ℚ) = 0 := by injection hzero
      have : wholeSeconds header = 0 := by exact_mod_cast hzero'
      omega
    · rw [hquotient]
      exact (fitsCapacity_iff hnonneg).mpr hlt
    · rw [estimateCapacity_eq hnonneg hlt hquotient]
      exact hspans

/-- Packets that round to one second. -/
theorem sizedFor_iff_of_one (hrated : Rated header) (hmemory : 1 ≤ memory)
    (hmax : memory < 2 ^ 31) (hone : wholeSeconds header = 1) :
    SizedFor memory header (estimateCapacity header memory) ↔ 3 * memory < 2 ^ 32 - 2 ∧
      memory * header.samplingRate ≤ (max 10 (3 * memory / 2) + 1) * header.nSamples.toNat := by
  have hrate : (0 : ℚ) < header.samplingRate := by exact_mod_cast hrated.rated
  have hquotient : (3 / 2 * (memory : ℚ)) = 3 / 2 * memory / wholeSeconds header := by
    rw [hone, Int.cast_one, div_one]
  have hfloor : ⌊3 / 2 * (memory : ℚ)⌋ = 3 * memory / 2 := by
    rw [Int.floor_eq_iff]
    have hlow : 2 * (3 * memory / 2) ≤ 3 * memory := by omega
    have hhigh : 3 * memory < 2 * (3 * memory / 2) + 2 := by omega
    have hlow' : (2 * (3 * memory / 2 : Int) : ℚ) ≤ 3 * memory := by exact_mod_cast hlow
    have hhigh' : (3 * memory : ℚ) < 2 * (3 * memory / 2 : Int) + 2 := by exact_mod_cast hhigh
    constructor
    · linarith
    · linarith
  rw [sizedFor_iff_of_pos hrated hmemory hmax (by omega) hquotient, hfloor]
  apply and_congr
  · constructor
    · intro h
      have h' : (3 * memory : ℚ) < 2 ^ 32 - 2 := by linarith
      exact_mod_cast h'
    · intro h
      have h' : (3 * memory : ℚ) < 2 ^ 32 - 2 := by exact_mod_cast h
      linarith
  · rw [← mul_div_assoc, le_div_iff₀ hrate]
    norm_cast

/-- Packets that round to more than one second: the factor 3/2 covers the rounding. -/
theorem sizedFor_of_two_le (hrated : Rated header) (hmemory : 1 ≤ memory)
    (hmax : memory < 2 ^ 31) (htwo : 2 ≤ wholeSeconds header) :
    SizedFor memory header (estimateCapacity header memory) := by
  have hrate : (0 : ℚ) < header.samplingRate := by exact_mod_cast hrated.rated
  have hmemory' : (1 : ℚ) ≤ memory := by exact_mod_cast hmemory
  have hmax' : (memory : ℚ) ≤ 2 ^ 31 - 1 := by exact_mod_cast Int.le_sub_one_of_lt hmax
  have htwo' : (2 : ℚ) ≤ wholeSeconds header := by exact_mod_cast htwo
  have hwhole : (0 : ℚ) < wholeSeconds header := by linarith
  rw [sizedFor_iff_of_pos hrated hmemory hmax (by omega) rfl]
  have hlow : (wholeSeconds header : ℚ) - 1 / 2 ≤
      header.nSamples.toNat / header.samplingRate := by
    have hround : ¬ wholeSeconds header ≤ wholeSeconds header - 1 := by omega
    rw [wholeSeconds_le_iff hrated, not_lt] at hround
    have hround' : (2 * (wholeSeconds header - 1 : Int) + 1) * (header.samplingRate : ℚ) ≤
        2 * ((header.nSamples.toNat : ℚ) - 1) := by exact_mod_cast hround
    rw [le_div_iff₀ hrate]
    push_cast at hround'
    linarith
  constructor
  · rw [div_lt_iff₀ hwhole]
    have hscaled : (2 ^ 31 - 1 : ℚ) * 2 ≤ (2 ^ 31 - 1) * wholeSeconds header := by
      apply mul_le_mul_of_nonneg_left htwo'
      norm_num
    linarith
  · have hcapacity : 3 / 2 * (memory : ℚ) / wholeSeconds header ≤
        (max 10 ⌊3 / 2 * (memory : ℚ) / wholeSeconds header⌋ + 1 : Int) := by
      apply (Int.lt_floor_add_one _).le.trans
      exact_mod_cast Int.add_le_add_right (le_max_right _ _) 1
    calc (memory : ℚ)
        ≤ 3 / 2 * memory / wholeSeconds header * (wholeSeconds header - 1 / 2) := by
          rw [div_mul_eq_mul_div, le_div_iff₀ hwhole]
          nlinarith
      _ ≤ _ * (header.nSamples.toNat / header.samplingRate) := by
          apply mul_le_mul hcapacity hlow
          · linarith
          · apply hcapacity.trans'
            apply div_nonneg
            · linarith
            · exact hwhole.le

/-- When the estimated capacity is large enough for the duration. -/
theorem sizedFor_iff (hrated : Rated header) (hmemory : 1 ≤ memory)
    (hmax : memory < 2 ^ 31) :
    SizedFor memory header (estimateCapacity header memory) ↔
      DurationSuffices memory header.nSamples.toNat header.samplingRate := by
  have hnonneg : 0 ≤ wholeSeconds header := roundHalfAway_nonneg (span_nonneg hrated)
  have hzero := wholeSeconds_le_iff hrated 0
  have hone := wholeSeconds_le_iff hrated 1
  unfold DurationSuffices
  by_cases h0 : wholeSeconds header ≤ 0
  · have hshort := hzero.mp h0
    constructor
    · intro hsized
      exact absurd hsized (not_sizedFor_of_zero hrated (by omega) _)
    · rintro ⟨hlong, -⟩
      omega
  · have hlong : header.samplingRate ≤ 2 * ((header.nSamples.toNat : Int) - 1) := by omega
    by_cases h1 : wholeSeconds header ≤ 1
    · have hshort : 2 * ((header.nSamples.toNat : Int) - 1) < 3 * header.samplingRate := by omega
      rw [sizedFor_iff_of_one hrated hmemory hmax (by omega)]
      constructor
      · intro h
        exact ⟨hlong, fun _ ↦ h⟩
      · rintro ⟨-, h⟩
        exact h hshort
    · have hlonger : ¬ 2 * ((header.nSamples.toNat : Int) - 1) < 3 * header.samplingRate := by
        omega
      constructor
      · intro _
        exact ⟨hlong, fun h ↦ absurd h hlonger⟩
      · intro _
        exact sizedFor_of_two_le hrated hmemory hmax (by omega)

end Estimate

section Detector

variable [Platform] {options options' : DuplicatePacketDetectorOptions}
variable {detector detector' : DuplicatePacketDetector} {packet : Packet} {packets : List Packet}
variable {header : DataPacketHeader} {duration : Int}

/-- The detector estimates capacities, for a duration. -/
def SizedByDuration (duration : Int) (detector : DuplicatePacketDetector) : Prop :=
  detector.mEstimateCapacity = true ∧ detector.mCircularBufferDuration = duration

omit [Platform] in
/-- The constructor takes the duration that the options accepted. -/
theorem sizedByDuration_new (hset : options.setCircularBufferDuration duration = .ok options')
    (hnew : DuplicatePacketDetector.new options' = .ok detector) :
    1 ≤ duration ∧ SizedByDuration duration detector := by
  unfold DuplicatePacketDetectorOptions.setCircularBufferDuration at hset
  split at hset
  · cases hset
  · next hpos =>
    cases hset
    have hget : (DuplicatePacketDetectorOptions.mk duration (-1)).getCircularBufferDuration =
        some duration := if_pos (not_le.mp hpos)
    unfold DuplicatePacketDetector.new at hnew
    rw [hget] at hnew
    dsimp only at hnew
    rw [if_neg hpos] at hnew
    cases hnew
    exact ⟨by omega, rfl, rfl⟩

/-- No exit of a call changes the configuration. -/
theorem SizedByDuration.step {v : Except AllowError Bool} (h : SizedByDuration duration detector)
    (hstep : CallStep detector packet v detector') : SizedByDuration duration detector' := by
  cases hstep with
  | unpackFailed => exact h
  | createFailed => exact h
  | created => exact h
  | offered => exact h

/-- Nor does a run of calls. -/
theorem SizedByDuration.after (h : SizedByDuration duration detector) (packets : List Packet) :
    SizedByDuration duration (detector.after packets) :=
  Lib.run_invariant (SizedByDuration duration) h fun d p hd ↦ hd.step (call_step d p)

/-- Such a detector estimates the capacity of each new buffer. -/
theorem SizedByDuration.newCapacity_eq (h : SizedByDuration duration detector)
    (header : DataPacketHeader) :
    detector.newCapacity header = estimateCapacity header duration := by
  rw [DuplicatePacketDetector.newCapacity, if_pos h.1, h.2]

/-- A header has a sample, and its rate is an `int`. -/
theorem rated_of_ofPacket (hheader : DataPacketHeader.ofPacket packet = .ok header)
    (hrate : 1 ≤ header.samplingRate) : Rated header := by
  obtain ⟨-, -, -, -, hint, -, hpos⟩ := DataPacketHeader.ofPacket_ok hheader
  refine ⟨UInt32.lt_iff_toNat_lt.mp hpos, hrate, ?_⟩
  rw [hint]
  exact (Double.inInt32_toInt32 _).2

/-- The capacity that a run gives to the buffer of a new stream is large enough exactly for these
packets. -/
theorem newCapacity_sizedFor_iff
    (hset : options.setCircularBufferDuration duration = .ok options') (hmax : duration < 2 ^ 31)
    (hnew : DuplicatePacketDetector.new options' = .ok detector)
    (hheader : DataPacketHeader.ofPacket packet = .ok header) (hrate : 1 ≤ header.samplingRate) :
    SizedFor duration header ((detector.after packets).newCapacity header) ↔
      DurationSuffices duration header.nSamples.toNat header.samplingRate := by
  obtain ⟨hpos, hsized⟩ := sizedByDuration_new hset hnew
  rw [(hsized.after packets).newCapacity_eq]
  exact sizedFor_iff (rated_of_ofPacket hheader hrate) hpos hmax

/-- Then the first packet of a stream makes a buffer that spans the duration. -/
theorem created_spans (hset : options.setCircularBufferDuration duration = .ok options')
    (hmax : duration < 2 ^ 31) (hnew : DuplicatePacketDetector.new options' = .ok detector)
    (hheader : DataPacketHeader.ofPacket packet = .ok header) (hrate : 1 ≤ header.samplingRate)
    (hfirst : (detector.after packets).mCircularBuffers header.name = none)
    (hsuffices : DurationSuffices duration header.nSamples.toNat header.samplingRate) :
    ∃ b, (detector.after (packets ++ [packet])).mCircularBuffers header.name = some b ∧
      (duration : ℚ) ≤ b.capacity * (header.nSamples.toNat / header.samplingRate) := by
  obtain ⟨hpos, hduration⟩ := sizedByDuration_new hset hnew
  have hcapacity := (hduration.after packets).newCapacity_eq header
  have hsized := (sizedFor_iff (rated_of_ofPacket hheader hrate) hpos hmax).mpr hsuffices
  have hnonneg : 0 ≤ estimateCapacity header duration := by
    have hexact : estimateCapacity header duration =
        max 10 (capacityQuotient header duration).toInt32 + 1 :=
      wrap32_of_inInt32 hsized.quotient.2
    omega
  refine ⟨(Lib.Ring.empty (estimateCapacity header duration).toNat).pushBack header, ?_, ?_⟩
  · rw [DuplicatePacketDetector.after_concat, DuplicatePacketDetector.next,
      DuplicatePacketDetector.allow, hheader]
    dsimp only
    rw [DuplicatePacketDetector.allowHeader, hfirst]
    dsimp only
    rw [hcapacity, newCircularBuffer, if_neg (by omega)]
    exact withBuffer_self _ _ _
  · have hcast : (((estimateCapacity header duration).toNat : Int) : ℚ) =
        estimateCapacity header duration := by rw [Int.toNat_of_nonneg hnonneg]
    rw [Lib.Ring.capacity_pushBack, Lib.Ring.capacity_empty, ← Int.cast_natCast (R := ℚ), hcast]
    exact hsized.spans

end Detector

section Runs

attribute [local instance] x86Platform

/-- The detector of the default duration of five minutes. -/
def fiveMinutes : DuplicatePacketDetector :=
  { mCircularBufferDuration := 300, mEstimateCapacity := true }

/-- The header of a packet at 100 Hz. -/
def hundredHertzHeader (nSamples : UInt32) (endTime : Int) : DataPacketHeader where
  name := ascii "UU.CTU.HHZ..01"
  startTime := 1000000000
  endTime := endTime
  samplingRate := 100
  nSamples := nSamples

/-- Packets of five seconds. -/
theorem newCapacity_sizedFor_fiveSeconds :
    SizedFor 300 (hundredHertzHeader 500 1004990000)
      ((fiveMinutes.after []).newCapacity (hundredHertzHeader 500 1004990000)) := by
  have hset : DuplicatePacketDetectorOptions.setCircularBufferDuration {} 300 = .ok {} := by
    decide
  have hheader : DataPacketHeader.ofPacket (testPacket 1000000000 100 500) =
      .ok (hundredHertzHeader 500 1004990000) := by decide +kernel
  exact (newCapacity_sizedFor_iff hset (by decide) rfl hheader (by decide)).mpr (by decide)

/-- Half a second at 100 Hz rounds to none: the estimate divides by zero. Sixty samples round to
one second: the capacity of 451 packets is worth less than five minutes. -/
theorem newCapacity_not_sizedFor_halfSecond :
    DataPacketHeader.ofPacket (testPacket 1000000000 100 50) =
        .ok (hundredHertzHeader 50 1000490000) ∧
      packetDuration (hundredHertzHeader 50 1000490000) = .finite 0 ∧
      ¬SizedFor 300 (hundredHertzHeader 50 1000490000)
        (fiveMinutes.newCapacity (hundredHertzHeader 50 1000490000)) ∧
      DataPacketHeader.ofPacket (testPacket 1000000000 100 60) =
        .ok (hundredHertzHeader 60 1000590000) ∧
      ¬SizedFor 300 (hundredHertzHeader 60 1000590000)
        (fiveMinutes.newCapacity (hundredHertzHeader 60 1000590000)) := by
  have hzero : packetDuration (hundredHertzHeader 50 1000490000) = .finite 0 := by
    decide +kernel
  refine ⟨by decide +kernel, hzero, fun h ↦ h.divisor hzero, by decide +kernel, ?_⟩
  intro h
  have hspans := h.spans
  have hcapacity : fiveMinutes.newCapacity (hundredHertzHeader 60 1000590000) = 451 := by
    decide +kernel
  rw [hcapacity] at hspans
  revert hspans
  decide +kernel

end Runs

end ImportProxy.Detector
