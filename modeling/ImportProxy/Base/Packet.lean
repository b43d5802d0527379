import ImportProxy.Base.Double

/-!
# Packets

The messages of `uDataPacketImportAPI/v1` that pass through the proxy:
`packet.proto:15–25`, `stream_identifier.proto:13–19`, `data_type.proto:10–19`.
A field holds what its generated getter returns, so an unset `location_code`
reads as its declared default `--`.
-/

namespace ImportProxy.Base

/-- A `std::string`: a sequence of bytes. -/
abbrev Bytes := List UInt8

/-- The bytes of a string literal of the source. -/
def ascii (s : String) : Bytes := s.toList.map fun c ↦ c.toNat.toUInt8

/-- `StreamIdentifier`. -/
structure StreamIdentifier where
  network : Bytes
  station : Bytes
  channel : Bytes
  locationCode : Bytes
  deriving DecidableEq, Repr

/-- `google.protobuf.Timestamp`. -/
structure Timestamp where
  seconds : Int
  nanos : Int
  deriving DecidableEq, Repr

/-- The timestamps of the years 1 to 9999, which are the valid ones. -/
def Timestamp.Valid (t : Timestamp) : Prop :=
  -62135596800 ≤ t.seconds ∧ t.seconds ≤ 253402300799 ∧ 0 ≤ t.nanos ∧ t.nanos ≤ 999999999

instance Timestamp.decidableValid (t : Timestamp) : Decidable t.Valid :=
  inferInstanceAs (Decidable (_ ∧ _))

/-- `DataType`; the enumeration is open, so a message may hold a value without a name. -/
inductive DataType where
  | unknown
  | integer32
  | float
  | double
  | text
  | integer64
  | unnamed (value : Int)
  deriving DecidableEq, Repr

/-- `Packet`. -/
structure Packet where
  streamIdentifier : StreamIdentifier
  startTime : Timestamp
  samplingRate : Double
  dataType : DataType
  numberOfSamples : UInt32
  data : Bytes
  deriving DecidableEq, Repr

/-- What the detector takes from outside the repository. -/
class Platform where
  /-- `google::protobuf::util::TimeUtil::TimestampToMicroseconds`. -/
  timestampToMicroseconds : Timestamp → Int
  /-- What `static_cast<int64_t>` leaves when the value is out of range. -/
  indefinite64 : Double → Int
  /-- What `static_cast<int>` leaves when the value is out of range. -/
  indefinite32 : Double → Int

/-- The x86-64 build: whole microseconds rounded toward zero, and the smallest integer for
every conversion out of range. -/
@[reducible] def x86Platform : Platform where
  timestampToMicroseconds t := t.seconds * 1000000 + t.nanos.tdiv 1000
  indefinite64 _ := -2 ^ 63
  indefinite32 _ := -2 ^ 31

namespace Double

/-- The conversion to `int64_t` stays in range. -/
def FitsInt64 : Double → Prop
  | finite q => InInt64 (truncate q)
  | _ => False

instance : (x : Double) → Decidable x.FitsInt64
  | finite q => inferInstanceAs (Decidable (InInt64 (truncate q)))
  | posInf => isFalse id
  | negInf => isFalse id
  | nan => isFalse id

/-- The conversion to `int` stays in range. -/
def FitsInt32 : Double → Prop
  | finite q => InInt32 (truncate q)
  | _ => False

instance decidableFitsInt32 : (x : Double) → Decidable x.FitsInt32
  | finite q => inferInstanceAs (Decidable (InInt32 (truncate q)))
  | posInf => isFalse id
  | negInf => isFalse id
  | nan => isFalse id

variable [Platform]

/-- `static_cast<int64_t>(x)`. -/
def toInt64 (x : Double) : Int :=
  match x with
  | finite q => if InInt64 (truncate q) then truncate q else wrap64 (Platform.indefinite64 x)
  | _ => wrap64 (Platform.indefinite64 x)

/-- `static_cast<int>(x)`. -/
def toInt32 (x : Double) : Int :=
  match x with
  | finite q => if InInt32 (truncate q) then truncate q else wrap32 (Platform.indefinite32 x)
  | _ => wrap32 (Platform.indefinite32 x)

/-- What `static_cast<int>` leaves is in the range of `int`. -/
theorem inInt32_toInt32 (x : Double) : InInt32 x.toInt32 := by
  have hw (y : Int) : InInt32 (wrap32 y) :=
    ⟨Int.le_bmod (by decide), Int.bmod_lt (by decide)⟩
  cases x with
  | finite q =>
    simp only [toInt32]
    split
    · next h => exact h
    · exact hw _
  | posInf => exact hw _
  | negInf => exact hw _
  | nan => exact hw _

end Double
end ImportProxy.Base
