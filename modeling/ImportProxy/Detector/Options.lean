import ImportProxy.Detector.Header

/-!
# Detector options

`DuplicatePacketDetectorOptions` and the capacity estimate:
`src/duplicatePacketDetector.cpp:140–238`. The circular buffer is sized either
by a count of packets or by a duration; setting one clears the other.
-/

namespace ImportProxy.Detector

open ImportProxy.Base

/-- The exceptions of the option setters and of the detector's constructor. -/
inductive OptionsError where
  | sizeNotPositive (size : Int)
  | durationNotPositive
  | unspecified
  deriving DecidableEq, Repr

/-- The text of an options exception; `src/duplicatePacketDetector.cpp:198–200,221,412–413`. -/
def OptionsError.what : OptionsError → Bytes
  | sizeNotPositive size =>
    ascii "Circular buffer size of " ++ ascii (toString size) ++ ascii " must be positive"
  | durationNotPositive => ascii "Duration must be positive"
  | unspecified => ascii "Circular buffer size or duration must be specified"

/-- `DuplicatePacketDetectorOptionsImpl`; the duration is in seconds. -/
structure DuplicatePacketDetectorOptions where
  mCircularBufferDuration : Int := 300
  mCircularBufferSize : Int := -1
  deriving DecidableEq, Repr

namespace DuplicatePacketDetectorOptions

/-- `setCircularBufferSize`; `src/duplicatePacketDetector.cpp:193–204`. -/
def setCircularBufferSize (_options : DuplicatePacketDetectorOptions) (size : Int) :
    Except OptionsError DuplicatePacketDetectorOptions :=
  if size ≤ 0 then .error (.sizeNotPositive size)
  else .ok { mCircularBufferSize := size, mCircularBufferDuration := -1 }

/-- `getCircularBufferSize`; `src/duplicatePacketDetector.cpp:206–212`. -/
def getCircularBufferSize (options : DuplicatePacketDetectorOptions) : Option Int :=
  if options.mCircularBufferSize > 0 then some options.mCircularBufferSize else none

/-- `setCircularBufferDuration`; `src/duplicatePacketDetector.cpp:215–224`. -/
def setCircularBufferDuration (_options : DuplicatePacketDetectorOptions) (duration : Int) :
    Except OptionsError DuplicatePacketDetectorOptions :=
  if duration ≤ 0 then .error .durationNotPositive
  else .ok { mCircularBufferDuration := duration, mCircularBufferSize := -1 }

/-- `getCircularBufferDuration`; `src/duplicatePacketDetector.cpp:226–232`. -/
def getCircularBufferDuration (options : DuplicatePacketDetectorOptions) : Option Int :=
  if options.mCircularBufferDuration > 0 then some options.mCircularBufferDuration else none

end DuplicatePacketDetectorOptions

section Capacity

variable [Platform]

/-- `std::max(0.0, x)`. -/
def maxZero (x : Double) : Double := if x.gtZero then x else .finite 0

/-- `estimateCapacity`; `src/duplicatePacketDetector.cpp:140–150`. The difference of the samples
is exact. -/
def estimateCapacity (header : DataPacketHeader) (memory : Int) : Int :=
  let duration := maxZero (Double.round
    (Double.div (.finite ((header.nSamples.toNat : ℚ) - 1))
      (.finite (max 1 header.samplingRate : Int))))
  let dMemory := Lib.Binary64.nearest memory
  wrap32 (max 10 (Double.toInt32 (Double.div (Double.ofRat (3 / 2 * dMemory)) duration)) + 1)

/-- An estimated capacity is never zero: it is positive, or the final addition left the
range of `int` and made it negative. -/
theorem estimateCapacity_ne_zero (header : DataPacketHeader) (memory : Int) :
    estimateCapacity header memory ≠ 0 := by
  have key (c : Int) (hc : InInt32 c) : wrap32 (max 10 c + 1) ≠ 0 := by
    have hu := hc.2
    intro hz
    have hd := Int.dvd_of_bmod_eq_zero hz
    omega
  exact key _ (Double.inInt32_toInt32 _)

end Capacity
end ImportProxy.Detector
