import ImportProxy.Detector.Header
import ImportProxy.Frontend.Session
import ImportProxy.Lib.Spelling

/-!
# Canonical identifiers

The tests and the identifier of `OnReadDone`, `src/frontend.cpp:159–224`, as a
normal form: a field is a text without regard to white space around it and to
letter case, and a location code that is blank is `--`. Packets of one such identifier
have one name in the detector, `src/duplicatePacketDetector.cpp:29–46`.
-/

namespace ImportProxy.Frontend

open ImportProxy.Base
open ImportProxy.Detector (toName)

/-- A lower-case letter. -/
def islower (c : UInt8) : Prop := 97 ≤ c ∧ c ≤ 122

/-- The same byte, or one letter in its two cases. -/
def SameLetter (c d : UInt8) : Prop :=
  c = d ∨ (islower c ∧ d = c - 32) ∨ (islower d ∧ c = d - 32)

/-- Two fields that differ only in letter case and in the white space around them. -/
def SameField (field field' : Bytes) : Prop := Lib.Respelled isspace SameLetter field field'

/-- A location code that is blank or `--`. -/
def NoLocation (field : Bytes) : Prop :=
  (∀ c ∈ field, isspace c = true) ∨ SameField field (ascii "--")

/-- Two identifiers that differ only in letter case, in the white space around a field, and in a
blank location code for `--`. -/
structure SameIdentifier (a b : StreamIdentifier) : Prop where
  network : SameField a.network b.network
  station : SameField a.station b.station
  channel : SameField a.channel b.channel
  locationCode : SameField a.locationCode b.locationCode ∨
    (NoLocation a.locationCode ∧ NoLocation b.locationCode)

/-- A message that passes the tests of `OnReadDone`. -/
structure Acceptable (message : Packet) : Prop where
  samples : 0 < message.numberOfSamples
  typed : message.dataType ≠ .unknown
  rated : message.samplingRate.gtZero = true
  network : trim message.streamIdentifier.network ≠ []
  station : trim message.streamIdentifier.station ≠ []
  channel : trim message.streamIdentifier.channel ≠ []

/-- A non-empty field in upper case without white space around it. -/
structure CanonicalField (field : Bytes) : Prop where
  nonempty : field ≠ []
  stripped : Lib.Stripped isspace field
  upper : ∀ c ∈ field, ¬islower c

/-- All fields of the identifier are canonical. -/
structure CanonicalIdentifier (streamIdentifier : StreamIdentifier) : Prop where
  network : CanonicalField streamIdentifier.network
  station : CanonicalField streamIdentifier.station
  channel : CanonicalField streamIdentifier.channel
  locationCode : CanonicalField streamIdentifier.locationCode

/-- The packet with which `OnReadDone` calls the callback for a message, if it does. -/
def Session.callback (options : FrontendOptions) (s : FrontendState) (session : Session)
    (message : Packet) : Option Packet :=
  (session.step options s (.message message)).2.submitting

section Letters

/-- No letter is white space. -/
theorem isspace_toupper (c : UInt8) : isspace (toupper c) = isspace c := by
  unfold isspace toupper
  grind

theorem toupper_toupper (c : UInt8) : toupper (toupper c) = toupper c := by
  unfold toupper
  grind

theorem not_islower_toupper (c : UInt8) : ¬islower (toupper c) := by
  unfold islower toupper
  grind

/-- Two bytes differ at most in letter case exactly when they agree in upper case. -/
theorem sameLetter_iff (c d : UInt8) : SameLetter c d ↔ toupper c = toupper d := by
  unfold SameLetter islower toupper
  grind

end Letters

section Fields

variable {field field' : Bytes}

/-- Upper case does not make a field empty. -/
theorem canonical_eq_nil_iff : canonical field = [] ↔ trim field = [] :=
  Lib.normal_eq_nil_iff

theorem canonical_canonical (field : Bytes) : canonical (canonical field) = canonical field :=
  Lib.normal_normal isspace_toupper toupper_toupper field

/-- Fields have one canonical form exactly when they spell the same text. -/
theorem canonical_eq_iff : canonical field = canonical field' ↔ SameField field field' :=
  Lib.normal_eq_iff isspace_toupper sameLetter_iff

/-- What is left of a field is canonical. -/
theorem canonicalField (h : canonical field ≠ []) : CanonicalField (canonical field) := by
  refine ⟨h, Lib.stripped_normal isspace_toupper field, ?_⟩
  intro c hc
  obtain ⟨d, -, rfl⟩ := List.mem_map.mp hc
  exact not_islower_toupper d

/-- The location code `--` is canonical. -/
theorem canonical_noLocation : canonical (ascii "--") = ascii "--" := by decide

/-- A location code is missing when its canonical form is empty or `--`. -/
theorem noLocation_iff :
    NoLocation field ↔ canonical field = [] ∨ canonical field = ascii "--" := by
  apply or_congr
  · rw [canonical_eq_nil_iff]
    exact Lib.strip_eq_nil_iff.symm
  · rw [← canonical_noLocation, canonical_eq_iff, canonical_noLocation]

/-- Spellings of one field are both missing locations or both not. -/
theorem SameField.noLocation (h : SameField field field') (hf : NoLocation field) :
    NoLocation field' := by
  rw [noLocation_iff, ← canonical_eq_iff.mpr h]
  exact noLocation_iff.mp hf

end Fields

section Identifiers

variable {a b : StreamIdentifier}

/-- A missing location code is forwarded as `--`. -/
theorem locationCode_of_noLocation (h : NoLocation a.locationCode) :
    (canonicalIdentifier a).locationCode = ascii "--" := by
  simp only [canonicalIdentifier, List.isEmpty_iff]
  split
  · rfl
  · next hne => exact (noLocation_iff.mp h).resolve_left hne

/-- Every other location code is forwarded in its canonical form. -/
theorem locationCode_of_not_noLocation (h : ¬NoLocation a.locationCode) :
    (canonicalIdentifier a).locationCode = canonical a.locationCode := by
  simp only [canonicalIdentifier, List.isEmpty_iff]
  apply if_neg
  intro hnil
  exact h (noLocation_iff.mpr (Or.inl hnil))

/-- No other location code is forwarded as `--`. -/
theorem locationCode_eq_dashes_iff :
    (canonicalIdentifier a).locationCode = ascii "--" ↔ NoLocation a.locationCode := by
  refine ⟨fun h ↦ ?_, locationCode_of_noLocation⟩
  by_cases hn : NoLocation a.locationCode
  · exact hn
  · rw [locationCode_of_not_noLocation hn] at h
    exact noLocation_iff.mpr (Or.inr h)

/-- The forwarded location codes agree on one code, and on all that stand for no location. -/
theorem locationCode_eq_iff :
    (canonicalIdentifier a).locationCode = (canonicalIdentifier b).locationCode ↔
      SameField a.locationCode b.locationCode ∨
        (NoLocation a.locationCode ∧ NoLocation b.locationCode) := by
  by_cases ha : NoLocation a.locationCode
  · rw [locationCode_of_noLocation ha, eq_comm, locationCode_eq_dashes_iff]
    constructor
    · intro hb
      exact Or.inr ⟨ha, hb⟩
    · intro h
      exact h.elim (fun hsame ↦ hsame.noLocation ha) And.right
  · rw [locationCode_of_not_noLocation ha]
    constructor
    · intro h
      by_cases hb : NoLocation b.locationCode
      · rw [locationCode_of_noLocation hb] at h
        exact absurd (noLocation_iff.mpr (Or.inr h)) ha
      · rw [locationCode_of_not_noLocation hb] at h
        exact Or.inl (canonical_eq_iff.mp h)
    · rintro (hsame | ⟨ha', -⟩)
      · have hcanonical := canonical_eq_iff.mpr hsame
        have hb : ¬NoLocation b.locationCode := by
          rw [noLocation_iff, ← hcanonical, ← noLocation_iff]
          exact ha
        rw [locationCode_of_not_noLocation hb, hcanonical]
      · exact absurd ha' ha

/-- Identifiers have one canonical form exactly when they differ in spelling alone. -/
theorem canonicalIdentifier_eq_iff :
    canonicalIdentifier a = canonicalIdentifier b ↔ SameIdentifier a b := by
  rw [StreamIdentifier.mk.injEq]
  constructor
  · rintro ⟨hnetwork, hstation, hchannel, hlocation⟩
    exact ⟨canonical_eq_iff.mp hnetwork, canonical_eq_iff.mp hstation,
      canonical_eq_iff.mp hchannel, locationCode_eq_iff.mp hlocation⟩
  · rintro ⟨hnetwork, hstation, hchannel, hlocation⟩
    exact ⟨canonical_eq_iff.mpr hnetwork, canonical_eq_iff.mpr hstation,
      canonical_eq_iff.mpr hchannel, locationCode_eq_iff.mpr hlocation⟩

/-- The forwarded identifier is another spelling of the one received. -/
theorem sameIdentifier_canonicalIdentifier (a : StreamIdentifier) :
    SameIdentifier (canonicalIdentifier a) a := by
  refine ⟨canonical_eq_iff.mp (canonical_canonical _), canonical_eq_iff.mp (canonical_canonical _),
    canonical_eq_iff.mp (canonical_canonical _), ?_⟩
  by_cases h : NoLocation a.locationCode
  · rw [locationCode_of_noLocation h]
    exact Or.inr ⟨noLocation_iff.mpr (Or.inr canonical_noLocation), h⟩
  · rw [locationCode_of_not_noLocation h]
    exact Or.inl (canonical_eq_iff.mp (canonical_canonical _))

/-- A forwarded identifier is forwarded as it is. -/
theorem canonicalIdentifier_canonicalIdentifier (a : StreamIdentifier) :
    canonicalIdentifier (canonicalIdentifier a) = canonicalIdentifier a :=
  canonicalIdentifier_eq_iff.mpr (sameIdentifier_canonicalIdentifier a)

/-- The location code is never empty; the other fields are what is left after trimming. -/
theorem canonicalIdentifier_canonical (hnetwork : trim a.network ≠ [])
    (hstation : trim a.station ≠ []) (hchannel : trim a.channel ≠ []) :
    CanonicalIdentifier (canonicalIdentifier a) := by
  refine ⟨canonicalField (mt canonical_eq_nil_iff.mp hnetwork),
    canonicalField (mt canonical_eq_nil_iff.mp hstation),
    canonicalField (mt canonical_eq_nil_iff.mp hchannel), ?_⟩
  by_cases h : NoLocation a.locationCode
  · rw [locationCode_of_noLocation h, ← canonical_noLocation]
    exact canonicalField (by decide)
  · rw [locationCode_of_not_noLocation h]
    apply canonicalField
    intro hnil
    exact h (noLocation_iff.mpr (Or.inl hnil))

end Identifiers

section Messages

variable {options : FrontendOptions} {s : FrontendState}
  {session : Session} {message packet : Packet}

/-- The tests that `OnReadDone` makes on the canonical identifier. -/
theorem acceptable_iff : Acceptable message ↔ hasSamples message = true ∧
    hasNames (canonicalIdentifier message.streamIdentifier) = true := by
  rw [hasNames_canonicalIdentifier]
  simp only [hasSamples, Bool.and_eq_true, decide_eq_true_eq, bne_iff_ne, Bool.not_eq_true',
    ← Bool.not_eq_true, List.isEmpty_iff]
  constructor
  · intro h
    exact ⟨⟨⟨h.samples, h.typed⟩, h.rated⟩, ⟨h.network, h.station⟩, h.channel⟩
  · rintro ⟨⟨⟨hsamples, htyped⟩, hrated⟩, ⟨hnetwork, hstation⟩, hchannel⟩
    exact ⟨hsamples, htyped, hrated, hnetwork, hstation, hchannel⟩

/-- Acceptable messages are forwarded, with the canonical identifier and no other change. -/
theorem forwarded_iff_acceptable : forwarded message = some packet ↔ Acceptable message ∧
    packet = { message with
      streamIdentifier := canonicalIdentifier message.streamIdentifier } := by
  rw [forwarded_eq_some_iff, acceptable_iff]

theorem isSome_forwarded_iff : (forwarded message).isSome = true ↔ Acceptable message := by
  rw [Option.isSome_iff_exists]
  constructor
  · rintro ⟨packet, hf⟩
    exact (forwarded_iff_acceptable.mp hf).1
  · intro h
    exact ⟨_, forwarded_iff_acceptable.mpr ⟨h, rfl⟩⟩

/-- The samples of a forwarded packet are those of the message, and its fields are not empty. -/
theorem Acceptable.forwarded (h : Acceptable message) : Acceptable { message with
    streamIdentifier := canonicalIdentifier message.streamIdentifier } := by
  have htrim {field : Bytes} (hne : trim field ≠ []) : trim (canonical field) ≠ [] := by
    apply mt canonical_eq_nil_iff.mpr
    rw [canonical_canonical]
    exact mt canonical_eq_nil_iff.mp hne
  exact ⟨h.samples, h.typed, h.rated, htrim h.network, htrim h.station, htrim h.channel⟩

/-- A forwarded packet is forwarded as it is. -/
theorem forwarded_forwarded (h : forwarded message = some packet) :
    forwarded packet = some packet := by
  obtain ⟨hok, rfl⟩ := forwarded_iff_acceptable.mp h
  rw [forwarded_iff_acceptable]
  refine ⟨hok.forwarded, ?_⟩
  rw [canonicalIdentifier_canonicalIdentifier]

/-- A session that waits for a message calls the callback with the forwarded packet. -/
theorem callback_eq_forwarded (hw : session.waiting = true) :
    session.callback options s message = forwarded message := by
  unfold Session.callback Session.step
  dsimp only
  rw [if_pos hw]
  split
  · exact submitting_receive session message
  · next hnone =>
    rw [← submitting_receive session message]
    rfl

/-- The callback of a message is called exactly when its tests pass, with a packet that differs
from it in the identifier alone. The identifier is canonical: it is forwarded as it is, and the
packets of all its spellings have one name in the detector. -/
theorem callback_canonical (options : FrontendOptions) (s : FrontendState)
    (hw : session.waiting = true) (message : Packet) :
    ((session.callback options s message).isSome = true ↔ Acceptable message) ∧
    ∀ packet, session.callback options s message = some packet →
      (∃ streamIdentifier, packet = { message with streamIdentifier := streamIdentifier }) ∧
      CanonicalIdentifier packet.streamIdentifier ∧
      ∀ (options' : FrontendOptions) (s' : FrontendState) (session' : Session),
        session'.waiting = true →
          session'.callback options' s' packet = some packet ∧
          ∀ message' packet', session'.callback options' s' message' = some packet' →
            SameIdentifier message.streamIdentifier message'.streamIdentifier →
              toName packet.streamIdentifier = toName packet'.streamIdentifier := by
  rw [callback_eq_forwarded hw]
  refine ⟨isSome_forwarded_iff, ?_⟩
  intro packet hf
  obtain ⟨hok, heq⟩ := forwarded_iff_acceptable.mp hf
  have hidentifier : packet.streamIdentifier = canonicalIdentifier message.streamIdentifier := by
    rw [heq]
  refine ⟨⟨_, heq⟩, ?_, ?_⟩
  · rw [hidentifier]
    exact canonicalIdentifier_canonical hok.network hok.station hok.channel
  · intro options' s' session' hw'
    rw [callback_eq_forwarded hw']
    refine ⟨forwarded_forwarded hf, ?_⟩
    intro message' packet' hf' hsame
    rw [callback_eq_forwarded hw'] at hf'
    have hidentifier' : packet'.streamIdentifier =
        canonicalIdentifier message'.streamIdentifier := by
      rw [(forwarded_iff_acceptable.mp hf').2]
    rw [hidentifier, hidentifier', canonicalIdentifier_eq_iff.mpr hsame]

/-- A packet of UU.FTU.HHZ without a location, in other spelling. -/
def lowerCasePacket : Packet :=
  { validPacket with streamIdentifier := ⟨ascii " uu", ascii "Ftu\t", ascii "hhz", ascii " "⟩ }

/-- The packet that is forwarded for it. -/
def dashesPacket : Packet :=
  { validPacket with streamIdentifier := ⟨ascii "UU", ascii "FTU", ascii "HHZ", ascii "--"⟩ }

/-- The two spellings, the second of which is canonical. -/
theorem callback_canonical_lowerCase :
    readingSession.callback {} {} lowerCasePacket = some dashesPacket ∧
      readingSession.callback {} {} dashesPacket = some dashesPacket ∧
      CanonicalIdentifier dashesPacket.streamIdentifier ∧
      ∀ packet, readingSession.callback {} {} dashesPacket = some packet →
        toName dashesPacket.streamIdentifier = toName packet.streamIdentifier := by
  have hw : readingSession.waiting = true := rfl
  have hf : readingSession.callback {} {} lowerCasePacket = some dashesPacket := by
    decide +kernel
  have hsame : SameIdentifier lowerCasePacket.streamIdentifier dashesPacket.streamIdentifier :=
    canonicalIdentifier_eq_iff.mp (by decide)
  obtain ⟨-, hforwarded⟩ := callback_canonical {} {} hw lowerCasePacket
  obtain ⟨-, hcanonical, hagain⟩ := hforwarded dashesPacket hf
  obtain ⟨hfixed, hnames⟩ := hagain {} {} readingSession hw
  exact ⟨hf, hfixed, hcanonical, fun packet hp ↦ hnames dashesPacket packet hp hsame⟩

end Messages
end ImportProxy.Frontend
