import ImportProxy.Detector.Invariant
import ImportProxy.Frontend.Reader
import ImportProxy.Lib.Noninterference

/-!
# Isolation of streams

The detector keeps one buffer for each name, and the name of a stream joins its
identifier with dots (`src/duplicatePacketDetector.cpp:29–46,252–298`). Streams do
not influence each other as long as the join tells them apart; the fields of an
identifier may themselves have dots.
-/

namespace ImportProxy.Detector

open ImportProxy.Base

/-- A packet with which the frontend calls its callback. -/
def Forwarded (packet : Packet) : Prop := ∃ message, Frontend.forwarded message = some packet

/-- An identifier of such packets. -/
def Admitted (streamIdentifier : StreamIdentifier) : Prop :=
  ∃ packet, Forwarded packet ∧ packet.streamIdentifier = streamIdentifier

/-- Two detectors of one configuration with the same buffer for a name. -/
structure SameStream (name : Bytes) (d d' : DuplicatePacketDetector) : Prop where
  buffer : d.mCircularBuffers name = d'.mCircularBuffers name
  duration : d.mCircularBufferDuration = d'.mCircularBufferDuration
  size : d.mCircularBufferSize = d'.mCircularBufferSize
  estimate : d.mEstimateCapacity = d'.mEstimateCapacity

section

variable [Platform]

/-- The outcomes of a run of calls: true, false or an exception. -/
def outcomes (d : DuplicatePacketDetector) (packets : List Packet) :
    List (Except AllowError Bool) :=
  Lib.answers DuplicatePacketDetector.allow d packets

/-- The outcomes of the calls on the packets of one stream. -/
def outcomesOf (d : DuplicatePacketDetector) (packets : List Packet)
    (streamIdentifier : StreamIdentifier) : List (Except AllowError Bool) :=
  Lib.visibleAnswers DuplicatePacketDetector.allow
    (fun packet ↦ packet.streamIdentifier == streamIdentifier) d packets

/-- The outcomes of every stream are those of a run on its packets alone. -/
def Isolated (d : DuplicatePacketDetector) (packets : List Packet) : Prop :=
  ∀ streamIdentifier, outcomesOf d packets streamIdentifier =
    outcomes d (packets.filter fun packet ↦ packet.streamIdentifier == streamIdentifier)

variable {d d' : DuplicatePacketDetector} {packet : Packet} {name : Bytes}

/-- A call on a stream depends on its buffer and the configuration alone. -/
theorem SameStream.allow (h : SameStream name d d')
    (hname : toName packet.streamIdentifier = name) :
    (d.allow packet).1 = (d'.allow packet).1 ∧
      SameStream name (d.allow packet).2 (d'.allow packet).2 := by
  subst hname
  unfold DuplicatePacketDetector.allow
  cases hp : DataPacketHeader.ofPacket packet with
  | error e => exact ⟨rfl, h⟩
  | ok header =>
    have hheader : header.name = toName packet.streamIdentifier :=
      (DataPacketHeader.ofPacket_ok hp).2.1
    have hcapacity : d.newCapacity header = d'.newCapacity header := by
      simp only [DuplicatePacketDetector.newCapacity, h.estimate, h.duration, h.size]
    have hset (circularBuffer : Lib.Ring DataPacketHeader) :
        SameStream (toName packet.streamIdentifier) (d.withBuffer header.name circularBuffer)
          (d'.withBuffer header.name circularBuffer) := by
      refine ⟨?_, h.duration, h.size, h.estimate⟩
      rw [hheader, withBuffer_self, withBuffer_self]
    have hbuffer : d.mCircularBuffers header.name = d'.mCircularBuffers header.name := by
      rw [hheader]
      exact h.buffer
    dsimp only
    unfold DuplicatePacketDetector.allowHeader
    rw [hcapacity, hbuffer]
    cases d'.mCircularBuffers header.name with
    | none =>
      dsimp only
      split
      · exact ⟨rfl, h⟩
      · exact ⟨rfl, hset _⟩
    | some circularBuffer => exact ⟨rfl, hset _⟩

/-- A call on a stream of another name keeps the buffer and the configuration. -/
theorem SameStream.allow_other (h : SameStream name d d')
    (hname : toName packet.streamIdentifier ≠ name) :
    SameStream name (d.allow packet).2 d' := by
  have hset {header : DataPacketHeader} (circularBuffer : Lib.Ring DataPacketHeader)
      (hp : DataPacketHeader.ofPacket packet = .ok header) :
      SameStream name (d.withBuffer header.name circularBuffer) d' := by
    refine ⟨?_, h.duration, h.size, h.estimate⟩
    have hne : name ≠ header.name := by
      rw [(DataPacketHeader.ofPacket_ok hp).2.1]
      exact hname.symm
    rw [withBuffer_of_ne _ hne, h.buffer]
  have hstep := call_step d packet
  unfold DuplicatePacketDetector.next at hstep
  revert hstep
  generalize d.allow packet = next
  intro hstep
  cases next
  cases hstep with
  | unpackFailed | createFailed => exact h
  | created header b hp => exact hset _ hp
  | offered header b b' v hp => exact hset _ hp

/-- Streams are isolated in a run whose identifiers have names of their own. -/
theorem isolated_of_injOn (d : DuplicatePacketDetector) {packets : List Packet}
    {S : Set StreamIdentifier} (hS : Set.InjOn toName S)
    (hp : ∀ packet ∈ packets, packet.streamIdentifier ∈ S) : Isolated d packets := by
  intro streamIdentifier
  by_cases hs : streamIdentifier ∈ S
  · have hunwinding : Lib.Unwinding DuplicatePacketDetector.allow
        (fun packet ↦ packet.streamIdentifier == streamIdentifier)
        (fun packet ↦ packet.streamIdentifier ∈ S) (SameStream (toName streamIdentifier)) := by
      constructor
      · intro d d' packet _ hv hR
        exact hR.allow (congrArg toName (beq_iff_eq.mp hv))
      · intro d d' packet hmem hv hR
        rw [beq_eq_false_iff_ne] at hv
        exact hR.allow_other fun hname ↦ hv (hS hmem hs hname)
    exact hunwinding.visibleAnswers_eq ⟨rfl, rfl, rfl, rfl⟩ hp
  · -- no packet of the run is of that stream
    have hunwinding : Lib.Unwinding DuplicatePacketDetector.allow
        (fun packet ↦ packet.streamIdentifier == streamIdentifier)
        (fun packet ↦ packet.streamIdentifier ∈ S) (fun _ _ ↦ True) := by
      constructor
      · intro d d' packet hmem hv _
        exact (hs (beq_iff_eq.mp hv ▸ hmem)).elim
      · exact fun _ _ _ _ _ _ ↦ trivial
    exact hunwinding.visibleAnswers_eq trivial hp

end

/-- One sample at 100 Hz at the start of the epoch. -/
def oneSample (streamIdentifier : StreamIdentifier) : Packet where
  streamIdentifier := streamIdentifier
  startTime := ⟨0, 0⟩
  samplingRate := .finite 100
  dataType := .integer32
  numberOfSamples := 1
  data := []

/-- An admitted identifier is one with which such a sample can be forwarded. -/
theorem forwarded_oneSample {streamIdentifier : StreamIdentifier} (h : Admitted streamIdentifier) :
    Forwarded (oneSample streamIdentifier) := by
  obtain ⟨packet, ⟨message, hf⟩, rfl⟩ := h
  obtain ⟨⟨-, hnames⟩, rfl⟩ := Frontend.forwarded_eq_some_iff.mp hf
  have hsamples : Frontend.hasSamples (oneSample message.streamIdentifier) = true := by
    simp [Frontend.hasSamples, oneSample, Double.gtZero]
  refine ⟨oneSample message.streamIdentifier, ?_⟩
  rw [Frontend.forwarded_eq_some_iff]
  exact ⟨⟨hsamples, hnames⟩, rfl⟩

section

variable [Platform]

/-- Such a sample has a header, at a rate that is classified. -/
theorem ofPacket_oneSample (streamIdentifier : StreamIdentifier) :
    ∃ header, DataPacketHeader.ofPacket (oneSample streamIdentifier) = .ok header ∧
      header.samplingRate < 1005 := by
  have hrate : (Double.round (oneSample streamIdentifier).samplingRate).toInt32 = 100 := by
    have hround : roundHalfAway 100 = 100 := by
      rw [roundHalfAway_of_nonneg (by norm_num)]
      norm_num
    simp only [oneSample, Double.round, hround, Double.toInt32, truncate_intCast]
    rfl
  have hpos : (oneSample streamIdentifier).samplingRate.leZero = false := by
    simp [oneSample, Double.leZero]
  unfold DataPacketHeader.ofPacket getEndTimeInMicroSeconds
  rw [hpos, hrate]
  refine ⟨_, rfl, ?_⟩
  show (100 : Int) < 1005
  decide

/-- Samples of two streams with the same name have the same header. -/
theorem ofPacket_oneSample_congr {s t : StreamIdentifier} (h : toName s = toName t) :
    DataPacketHeader.ofPacket (oneSample s) = DataPacketHeader.ofPacket (oneSample t) := by
  unfold DataPacketHeader.ofPacket getEndTimeInMicroSeconds
  simp only [oneSample, h]
  rfl

/-- A first call is allowed and a second one with the same header is not. -/
theorem allow_twice {p q : Packet} {header : DataPacketHeader}
    (hp : DataPacketHeader.ofPacket p = .ok header)
    (hq : DataPacketHeader.ofPacket q = .ok header) (hrate : header.samplingRate < 1005) :
    ((fixedSize 1).allow p).1 = .ok true ∧ (((fixedSize 1).allow p).2.allow q).1 = .ok false := by
  have hempty : (fixedSize 1).mCircularBuffers header.name = none := rfl
  have hnew := newCircularBuffer_fixed (d := fixedSize 1) (h := header) rfl (by decide)
  have hfirst : (fixedSize 1).allow p = (.ok true, (fixedSize 1).withBuffer header.name
      ((Lib.Ring.empty (fixedSize 1).mCircularBufferSize.toNat).pushBack header)) := by
    rw [DuplicatePacketDetector.allow, hp]
    dsimp only
    rw [DuplicatePacketDetector.allowHeader, hempty]
    dsimp only
    rw [hnew]
  have hlist := toList_created (d := fixedSize 1) (Or.inr (by decide)) hnew
  have hfind : findHeader [header] header = .ok true := by
    rw [findHeader, DataPacketHeader.eq_self hrate]
  rw [hfirst]
  refine ⟨rfl, ?_⟩
  rw [DuplicatePacketDetector.allow, hq]
  dsimp only
  rw [DuplicatePacketDetector.allowHeader, withBuffer_self]
  dsimp only
  rw [offer, hlist, hfind]

/-- Streams are isolated in every run of every detector on forwarded packets with identifiers in
a set, if and only if the name tells the admitted ones of the set apart. -/
theorem isolated_iff_injOn (S : Set StreamIdentifier) :
    (∀ options d, DuplicatePacketDetector.new options = .ok d → ∀ packets : List Packet,
      (∀ packet ∈ packets, Forwarded packet ∧ packet.streamIdentifier ∈ S) →
        Isolated d packets) ↔ Set.InjOn toName {s | s ∈ S ∧ Admitted s} := by
  constructor
  · intro h s hs t ht hname
    by_contra hne
    obtain ⟨header, hheader, hrate⟩ := ofPacket_oneSample t
    have hfirst := allow_twice ((ofPacket_oneSample_congr hname).trans hheader) hheader hrate
    have halone := allow_twice hheader hheader hrate
    have hrun : ∀ packet ∈ [oneSample s, oneSample t],
        Forwarded packet ∧ packet.streamIdentifier ∈ S := by
      rw [List.forall_mem_cons, List.forall_mem_singleton]
      exact ⟨⟨forwarded_oneSample hs.2, hs.1⟩, forwarded_oneSample ht.2, ht.1⟩
    have hisolated := h (fixedSizeOptions 1) (fixedSize 1) (new_fixedSize (by decide)) _ hrun t
    have hs' : (oneSample s).streamIdentifier ≠ t := hne
    have ht' : (oneSample t).streamIdentifier = t := rfl
    simp [outcomesOf, outcomes, Lib.visibleAnswers, Lib.answers, hs', ht', hfirst.2,
      halone.1] at hisolated
  · intro h options d _ packets hp
    exact isolated_of_injOn d h fun packet hmem ↦
      ⟨(hp packet hmem).2, packet, (hp packet hmem).1, rfl⟩

end

/-- The separator of a name. -/
def dot : UInt8 := 46

/-- A first dot splits a list in one way. -/
theorem append_dot_inj {a b x y : Bytes} (ha : dot ∉ a) (hb : dot ∉ b)
    (h : a ++ dot :: x = b ++ dot :: y) : a = b ∧ x = y := by
  induction a generalizing b with
  | nil =>
    cases b with
    | nil => exact ⟨rfl, (List.cons.inj h).2⟩
    | cons c b => exact (hb (List.mem_cons.mpr (Or.inl (List.cons.inj h).1))).elim
  | cons c a ih =>
    cases b with
    | nil => exact (ha (List.mem_cons.mpr (Or.inl (List.cons.inj h).1.symm))).elim
    | cons c' b =>
      obtain ⟨rfl, hrest⟩ := List.cons.inj h
      obtain ⟨rfl, hx⟩ := ih (fun hm ↦ ha (List.mem_cons_of_mem _ hm))
        (fun hm ↦ hb (List.mem_cons_of_mem _ hm)) hrest
      exact ⟨rfl, hx⟩

/-- The name, split at its dots. -/
theorem toName_eq (s : StreamIdentifier) : toName s = s.network ++ dot :: (s.station ++ dot ::
    (s.channel ++ dot :: if s.locationCode.isEmpty then [] else dot :: s.locationCode)) := by
  have hdot : ascii "." = [dot] := rfl
  unfold toName
  rw [hdot]
  split <;> simp

/-- The name tells identifiers apart whose network, station and channel have no dots. -/
theorem injOn_toName_dotFree : Set.InjOn toName {s : StreamIdentifier |
    dot ∉ s.network ∧ dot ∉ s.station ∧ dot ∉ s.channel} := by
  rintro s ⟨hn, hs, hc⟩ t ⟨hn', hs', hc'⟩ hname
  rw [toName_eq, toName_eq] at hname
  obtain ⟨hnetwork, hname⟩ := append_dot_inj hn hn' hname
  obtain ⟨hstation, hname⟩ := append_dot_inj hs hs' hname
  obtain ⟨hchannel, hname⟩ := append_dot_inj hc hc' hname
  have hlocation : s.locationCode = t.locationCode := by
    cases hl : s.locationCode <;> cases hl' : t.locationCode <;> simp_all
  cases s
  cases t
  simp_all

section Runs

/-- Two streams whose names are both `A.B.C.D..E`. -/
def dottedNetwork : StreamIdentifier := ⟨ascii "A.B", ascii "C", ascii "D", ascii "E"⟩

def dottedStation : StreamIdentifier := ⟨ascii "A", ascii "B.C", ascii "D", ascii "E"⟩

/-- A sample of each. -/
def dottedRun : List Packet := [oneSample dottedNetwork, oneSample dottedStation]

/-- The sample of the second stream is refused as a duplicate of that of the first. -/
theorem dottedRun_not_isolated :
    (∀ packet ∈ dottedRun, Frontend.forwarded packet = some packet) ∧
      ¬@Isolated x86Platform (fixedSize 1) dottedRun := by
  constructor
  · decide +kernel
  · intro h
    exact absurd (h dottedStation) (by decide +kernel)

end Runs
end ImportProxy.Detector
