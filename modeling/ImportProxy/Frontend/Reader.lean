import ImportProxy.Frontend.Publishers
import Mathlib.Data.List.DropRight

/-!
# Messages of a publisher

What `OnReadDone` does with a message of the client: its tests, the canonical
identifier, and the counters of `AsynchronousReader`, `src/frontend.cpp:154–257`.
The call of the callback separates `receive` from `submitted`.
-/

namespace ImportProxy.Frontend

open ImportProxy.Base

/-- `isspace` of the C locale. -/
def isspace (c : UInt8) : Bool := c == 32 || (9 ≤ c && c ≤ 13)

/-- `toupper` of the C locale. -/
def toupper (c : UInt8) : UInt8 := if 97 ≤ c && c ≤ 122 then c - 32 else c

/-- `boost::algorithm::trim`. -/
def trim (field : Bytes) : Bytes := (field.dropWhile isspace).rdropWhile isspace

/-- A field of the identifier, trimmed and in upper case. -/
def canonical (field : Bytes) : Bytes := (trim field).map toupper

/-- The identifier that the reader forwards; `src/frontend.cpp:167–187`. -/
def canonicalIdentifier (streamIdentifier : StreamIdentifier) : StreamIdentifier where
  network := canonical streamIdentifier.network
  station := canonical streamIdentifier.station
  channel := canonical streamIdentifier.channel
  locationCode :=
    if (canonical streamIdentifier.locationCode).isEmpty then ascii "--"
    else canonical streamIdentifier.locationCode

/-- The tests on the samples; `src/frontend.cpp:161–164`. -/
def hasSamples (packet : Packet) : Bool :=
  packet.numberOfSamples > 0 && packet.dataType != .unknown && packet.samplingRate.gtZero

/-- The fields that must not be empty; `src/frontend.cpp:188`. -/
def hasNames (streamIdentifier : StreamIdentifier) : Bool :=
  !streamIdentifier.network.isEmpty && !streamIdentifier.station.isEmpty &&
    !streamIdentifier.channel.isEmpty

/-- The packet with which the reader calls the callback; none for an invalid message. -/
def forwarded (packet : Packet) : Option Packet :=
  if hasSamples packet && hasNames (canonicalIdentifier packet.streamIdentifier) then
    some { packet with streamIdentifier := canonicalIdentifier packet.streamIdentifier }
  else none

/-- `PublishResponse`. -/
structure PublishResponse where
  totalPackets : UInt64 := 0
  packetsRejected : UInt64 := 0
  deriving DecidableEq, Repr

/-- The counters of an `AsynchronousReader` and its response. -/
structure Reader where
  mConsecutiveInvalidMessagesCounter : Int := 0
  mTotalPackets : UInt64 := 0
  mPacketsRejected : UInt64 := 0
  mPublishResponse : PublishResponse := {}
  deriving DecidableEq, Repr

namespace Reader

/-- A message up to the callback: the packet to call it with, or an invalid message counted. -/
def receive (reader : Reader) (packet : Packet) : Reader × Option Packet :=
  match forwarded packet with
  | some packet => ({ reader with mTotalPackets := reader.mTotalPackets + 1 }, some packet)
  | none =>
    ({ reader with
        mTotalPackets := reader.mTotalPackets + 1
        mPacketsRejected := reader.mPacketsRejected + 1
        mConsecutiveInvalidMessagesCounter :=
          wrap32 (reader.mConsecutiveInvalidMessagesCounter + 1) }, none)

/-- The callback has returned or thrown; `src/frontend.cpp:202–211`. -/
def submitted (reader : Reader) (threw : Bool) : Reader :=
  if threw then { reader with mPacketsRejected := reader.mPacketsRejected + 1 }
  else { reader with mConsecutiveInvalidMessagesCounter := 0 }

/-- What the reader does after a message; `src/frontend.cpp:226–247`. -/
def afterMessage (options : FrontendOptions) (reader : Reader) : ReadEvent :=
  if reader.mConsecutiveInvalidMessagesCounter >
    options.getMaximumNumberOfConsecutiveInvalidMessages then .tooManyInvalid
  else .message

/-- The client has no more messages; `src/frontend.cpp:254–255`. -/
def endOfStream (reader : Reader) : Reader :=
  { reader with mPublishResponse := ⟨reader.mTotalPackets, reader.mPacketsRejected⟩ }

end Reader

/-- Upper case leaves a field non-empty: the test is on the trimmed fields. -/
theorem hasNames_canonicalIdentifier (streamIdentifier : StreamIdentifier) :
    hasNames (canonicalIdentifier streamIdentifier) =
      (!(trim streamIdentifier.network).isEmpty && !(trim streamIdentifier.station).isEmpty &&
        !(trim streamIdentifier.channel).isEmpty) := by
  simp only [hasNames, canonicalIdentifier, canonical, List.isEmpty_map]

/-- A packet is forwarded for a message that passes the tests, with another identifier. -/
theorem forwarded_eq_some_iff {message packet : Packet} : forwarded message = some packet ↔
    (hasSamples message = true ∧
      hasNames (canonicalIdentifier message.streamIdentifier) = true) ∧
    packet = { message with
      streamIdentifier := canonicalIdentifier message.streamIdentifier } := by
  unfold forwarded
  rw [Option.ite_none_right_eq_some, Bool.and_eq_true, Option.some.injEq, eq_comm (b := packet)]

/-- The callback is called with the forwarded packet, if any. -/
theorem Reader.receive_snd (reader : Reader) (packet : Packet) :
    (reader.receive packet).2 = forwarded packet := by
  unfold Reader.receive
  split
  · next h => exact h.symm
  · next h => exact h.symm

end ImportProxy.Frontend
