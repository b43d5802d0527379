import ImportProxy.Detector.Invariant
import Mathlib.Data.List.Induction

/-!
# What the detector remembers

On a family of packets of one stream with disjoint intervals, of which no two
compare equal, the buffer of fixed size is a window on the latest packets:
`offer` refines `keepLatest`. The verdict is true for a new packet exactly when
some earlier-starting one was offered before.
-/

namespace ImportProxy.Detector

open ImportProxy.Base

/-- Headers of one stream and one classified rate, with disjoint non-empty intervals, of which
no two compare equal. -/
structure HeaderFamily (name : Bytes) (rate : Int) (family : Set DataPacketHeader) : Prop where
  rate_lt : rate < 1005
  named : ∀ h ∈ family, h.name = name
  rated : ∀ h ∈ family, h.samplingRate = rate
  spans : ∀ h ∈ family, h.startTime ≤ h.endTime
  disjoint : ∀ g ∈ family, ∀ h ∈ family, g ≠ h → Disjoint g.interval h.interval
  unequal : ∀ g ∈ family, ∀ h ∈ family, g ≠ h → g.eq h = .ok false

/-- Inserting a header among those that an append retains keeps the latest, when some header of
the buffer starts earlier. -/
theorem insertByKey_retained {b : Lib.Ring DataPacketHeader} {front h : DataPacketHeader}
    (hfront : b.toList.head? = some front) (hlt : front.startTime < h.startTime) :
    Lib.insertByKey DataPacketHeader.startTime h b.retained =
      Lib.keepLatest DataPacketHeader.startTime b.capacity b.toList h := by
  cases hfull : b.full with
  | false =>
    rw [Lib.Ring.retained_of_not_full hfull,
      Lib.keepLatest_of_lt ((Lib.Ring.not_full_iff b).mp hfull)]
  | true =>
    obtain ⟨rest, hrest⟩ := List.head?_eq_some_iff.mp hfront
    rw [Lib.Ring.retained_of_full hfull,
      Lib.keepLatest_of_le ((Lib.Ring.full_iff b).mp hfull).ge, hrest,
      Lib.insertByKey_of_head_lt hlt, List.tail_cons, List.tail_cons]

namespace HeaderFamily

variable {name : Bytes} {rate : Int} {family : Set DataPacketHeader}
  {b b' : Lib.Ring DataPacketHeader} {h : DataPacketHeader}

/-- Members are told apart by their start times. -/
theorem startTime_inj (hF : HeaderFamily name rate family) {g h : DataPacketHeader}
    (hg : g ∈ family) (hh : h ∈ family) (he : g.startTime = h.startTime) : g = h := by
  by_contra hne
  have hdis := hF.disjoint g hg h hh hne
  have hsg := hF.spans g hg
  have hsh := hF.spans h hh
  rcases (DataPacketHeader.disjoint_interval_iff hsg hsh).mp hdis with hx | hx <;> omega

/-- `std::find` finds exactly the buffered members, and never throws. -/
theorem findHeader_eq (hF : HeaderFamily name rate family) {l : List DataPacketHeader}
    (hl : ∀ s ∈ l, s ∈ family) (hh : h ∈ family) :
    findHeader l h = .ok (decide (h ∈ l)) := by
  induction l with
  | nil => rfl
  | cons s l ih =>
    have ht := ih fun x hx ↦ hl x (List.mem_cons_of_mem s hx)
    unfold findHeader
    by_cases he : s = h
    · subst he
      have hr : s.samplingRate < 1005 := hF.rated s hh ▸ hF.rate_lt
      rw [DataPacketHeader.eq_self hr]
      simp
    · rw [hF.unequal s (hl s List.mem_cons_self) h hh he]
      simp only [ht, List.mem_cons, Ne.symm he, false_or]

/-- A buffer of members in ascending order satisfies the invariant of its stream. -/
theorem streamInv (hF : HeaderFamily name rate family) (hne : b.toList ≠ [])
    (hl : ∀ s ∈ b.toList, s ∈ family)
    (ha : Lib.Ascending DataPacketHeader.startTime b.toList) : StreamInv name b :=
  ⟨hne, fun s hs ↦ hF.named s (hl s hs), fun s hs ↦ hF.spans s (hl s hs), ha⟩

/-- A buffered member is refused and changes nothing. -/
theorem offer_of_mem (hF : HeaderFamily name rate family) (hl : ∀ s ∈ b.toList, s ∈ family)
    (hh : h ∈ family) (hm : h ∈ b.toList) : offer b h = (.ok false, b) := by
  unfold offer
  rw [hF.findHeader_eq hl hh, decide_eq_true hm]

/-- Offering a member that is not buffered keeps the latest, and is accepted exactly when some
buffered member starts earlier. -/
theorem offerStep_of_new (hF : HeaderFamily name rate family) (hi : StreamInv name b)
    (hl : ∀ s ∈ b.toList, s ∈ family) (hh : h ∈ family) (hm : h ∉ b.toList)
    {v : Except AllowError Bool} (hstep : OfferStep b h v b') :
    b'.toList = Lib.keepLatest DataPacketHeader.startTime b.capacity b.toList h ∧
      b'.capacity = b.capacity ∧
      (v = .ok true ↔ ∃ s ∈ b.toList, s.startTime < h.startTime) := by
  have hfind : findHeader b.toList h = .ok false := by
    rw [hF.findHeader_eq hl hh, decide_eq_false hm]
  have hspan := hF.spans h hh
  have hsep (s : DataPacketHeader) (hs : s ∈ b.toList) :
      h.endTime < s.startTime ∨ s.endTime < h.startTime := by
    have hne : h ≠ s := fun he ↦ hm (he ▸ hs)
    exact (DataPacketHeader.disjoint_interval_iff hspan (hi.spans s hs)).mp
      (hF.disjoint h hh s (hl s hs) hne)
  cases hstep with
  | compareThrew e hf => rw [hfind] at hf; cases hf
  | duplicate hf => rw [hfind] at hf; cases hf
  | appended back hf hback hlt =>
    have habove := hi.startTime_lt_of_back hback hlt
    refine ⟨?_, Lib.Ring.capacity_pushBack b h, ?_⟩
    · have hfront : b.toList.head? = some (b.toList.head hi.nonempty) :=
        List.head?_eq_some_head hi.nonempty
      have hlt' := habove _ (List.head_mem hi.nonempty)
      rw [← insertByKey_retained hfront hlt', Lib.Ring.toList_pushBack hi.nonempty,
        Lib.insertByKey_of_above]
      intro s hs
      exact habove s (b.retained_sublist.subset hs)
    · exact iff_of_true rfl ⟨back, List.mem_of_getLast? hback,
        habove back (List.mem_of_getLast? hback)⟩
  | frontInserted front hf hfront hlt hroom =>
    have hbelow := hi.startTime_lt_of_front hspan hfront hlt
    refine ⟨?_, Lib.Ring.capacity_pushFront b h, iff_of_false (by simp) ?_⟩
    · rw [Lib.Ring.toList_pushFront_of_not_full hroom,
        Lib.keepLatest_of_lt ((Lib.Ring.not_full_iff b).mp hroom),
        Lib.insertByKey_of_below hbelow]
    · rintro ⟨s, hs, hx⟩
      exact lt_asymm hx (hbelow s hs)
  | expired front hf hfront hlt hfull =>
    have hbelow := hi.startTime_lt_of_front hspan hfront hlt
    refine ⟨?_, rfl, iff_of_false (by simp) ?_⟩
    · exact (Lib.keepLatest_of_below ((Lib.Ring.full_iff b).mp hfull).ge hbelow).symm
    · rintro ⟨s, hs, hx⟩
      exact lt_asymm hx (hbelow s hs)
  | slipped hf hs =>
    obtain ⟨s, hms, hslip⟩ := hs
    have hcase := hsep s hms
    have hspan' := hi.spans s hms
    simp only [DataPacketHeader.slips, Bool.or_eq_true, Bool.and_eq_true, decide_eq_true_eq]
      at hslip
    omega
  | backFilled back front hf hback hfront hle hge hs =>
    have hmf := List.mem_of_head? hfront
    have hafter : front.startTime < h.startTime := by
      have hcase := hsep front hmf
      have hspan' := hi.spans front hmf
      omega
    refine ⟨?_, by simp, iff_of_true rfl ⟨front, hmf, hafter⟩⟩
    rw [hi.toList_backFill hs, insertByKey_retained hfront hafter]
  | empty hempty => exact (hi.nonempty hempty).elim

end HeaderFamily

section

variable [Platform]

/-- The header of a packet, when it can be constructed. -/
def headerOf (p : Packet) : Option DataPacketHeader := (DataPacketHeader.ofPacket p).toOption

/-- Packets of one stream that share one rounded sampling rate below 1005, have non-empty
pairwise disjoint intervals and are pairwise unequal. -/
structure PacketFamily (name : Bytes) (rate : Int) (family : Set Packet) : Prop where
  rate_lt : rate < 1005
  header : ∀ p ∈ family, ∃ h, DataPacketHeader.ofPacket p = .ok h ∧ h.name = name ∧
    h.samplingRate = rate ∧ h.startTime ≤ h.endTime
  disjoint : ∀ p ∈ family, ∀ q ∈ family, p ≠ q → ∀ g h, DataPacketHeader.ofPacket p = .ok g →
    DataPacketHeader.ofPacket q = .ok h → Disjoint g.interval h.interval
  unequal : ∀ p ∈ family, ∀ q ∈ family, p ≠ q → ∀ g h, DataPacketHeader.ofPacket p = .ok g →
    DataPacketHeader.ofPacket q = .ok h → g.eq h = .ok false

omit [Platform] in
/-- What the window on the headers offered to a stream looks like in the detector. -/
def Window (d : DuplicatePacketDetector) (name : Bytes) (offered : List DataPacketHeader) : Prop :=
  d.mEstimateCapacity = false ∧ 0 < d.mCircularBufferSize ∧
    match offered with
    | [] => d.mCircularBuffers name = none
    | _ :: _ => ∃ b, d.mCircularBuffers name = some b ∧
        b.capacity = d.mCircularBufferSize.toNat ∧
        b.toList = Lib.latest b.capacity (Lib.ranked DataPacketHeader.startTime offered)

omit [Platform] in
/-- A detector of fixed size that was offered nothing. -/
theorem window_fixedSize {size : Int} (h : 0 < size) (name : Bytes) :
    Window (fixedSize size) name [] := ⟨rfl, h, rfl⟩

omit [Platform] in
/-- The headers of a detector whose window is known. -/
theorem Window.headers_eq {d : DuplicatePacketDetector} {name : Bytes}
    {offered : List DataPacketHeader} (h : Window d name offered) :
    d.headers name = Lib.latest d.mCircularBufferSize.toNat
      (Lib.ranked DataPacketHeader.startTime offered) := by
  obtain ⟨-, -, hb⟩ := h
  unfold DuplicatePacketDetector.headers
  cases offered with
  | nil =>
    rw [hb]
    simp [Lib.latest, Lib.ranked]
  | cons g offered =>
    obtain ⟨b, hb, hcap, hl⟩ := hb
    rw [hb]
    dsimp only
    rw [hl, hcap]

namespace PacketFamily

variable {name : Bytes} {rate : Int} {family : Set Packet}

/-- The headers of a family of packets are a family of headers. -/
theorem headerFamily (hF : PacketFamily name rate family) :
    HeaderFamily name rate {h | ∃ p ∈ family, DataPacketHeader.ofPacket p = .ok h} := by
  have pick {h : DataPacketHeader} (hh : ∃ p ∈ family, DataPacketHeader.ofPacket p = .ok h) :
      h.name = name ∧ h.samplingRate = rate ∧ h.startTime ≤ h.endTime := by
    obtain ⟨p, hp, hph⟩ := hh
    obtain ⟨h', hph', hrest⟩ := hF.header p hp
    rw [hph] at hph'
    cases hph'
    exact hrest
  have apart {p q : Packet} {g h : DataPacketHeader} (hg : DataPacketHeader.ofPacket p = .ok g)
      (hh : DataPacketHeader.ofPacket q = .ok h) (hne : g ≠ h) : p ≠ q := by
    intro he
    rw [he, hh] at hg
    cases hg
    exact hne rfl
  refine ⟨hF.rate_lt, fun h hh ↦ (pick hh).1, fun h hh ↦ (pick hh).2.1,
    fun h hh ↦ (pick hh).2.2, ?_, ?_⟩
  · rintro g ⟨p, hp, hg⟩ h ⟨q, hq, hh⟩ hne
    exact hF.disjoint p hp q hq (apart hg hh hne) g h hg hh
  · rintro g ⟨p, hp, hg⟩ h ⟨q, hq, hh⟩ hne
    exact hF.unequal p hp q hq (apart hg hh hne) g h hg hh

/-- Members are told apart by their start times. -/
theorem startMuSec_inj (hF : PacketFamily name rate family) {p q : Packet} (hp : p ∈ family)
    (hq : q ∈ family) (he : startMuSec p = startMuSec q) : p = q := by
  by_contra hne
  obtain ⟨g, hg, -, -, hsg⟩ := hF.header p hp
  obtain ⟨h, hh, -, -, hsh⟩ := hF.header q hq
  have hdis := hF.disjoint p hp q hq hne g h hg hh
  have hgs := (DataPacketHeader.ofPacket_ok hg).2.2.1
  have hhs := (DataPacketHeader.ofPacket_ok hh).2.2.1
  unfold startMuSec at he
  rcases (DataPacketHeader.disjoint_interval_iff hsg hsh).mp hdis with hx | hx <;> omega

end PacketFamily

/-- One call on a member moves the window. It is accepted exactly when the stream is new, or
the header is not held and some held header starts earlier. -/
theorem Window.next {name : Bytes} {rate : Int} {family : Set DataPacketHeader}
    (hF : HeaderFamily name rate family) {d : DuplicatePacketDetector}
    {offered : List DataPacketHeader} (hw : Window d name offered)
    (hoff : ∀ s ∈ offered, s ∈ family) {p : Packet} {h : DataPacketHeader}
    (hp : DataPacketHeader.ofPacket p = .ok h) (hh : h ∈ family) :
    Window (d.next p) name (offered ++ [h]) ∧
      (d.next p).mCircularBufferSize = d.mCircularBufferSize ∧
      (d.allows p ↔ offered = [] ∨ h ∉ d.headers name ∧
        ∃ s ∈ d.headers name, s.startTime < h.startTime) := by
  have hname := hF.named h hh
  have hinj : ∀ a ∈ offered, ∀ c ∈ offered, a.startTime = c.startTime → a = c :=
    fun a ha c hc ↦ hF.startTime_inj (hoff a ha) (hoff c hc)
  obtain ⟨hest, hsize, hbuf⟩ := hw
  unfold DuplicatePacketDetector.next DuplicatePacketDetector.allows
    DuplicatePacketDetector.allow DuplicatePacketDetector.allowHeader
  simp only [hp, hname]
  cases offered with
  | nil =>
    have hnew := newCircularBuffer_fixed (h := h) hest hsize
    have hpos : 0 < d.mCircularBufferSize.toNat := by omega
    simp only [hbuf, hnew, true_or]
    refine ⟨⟨hest, hsize, _, withBuffer_self _ _ _, ?_, ?_⟩, rfl, trivial⟩
    · rw [Lib.Ring.capacity_pushBack, Lib.Ring.capacity_empty]
      rfl
    · rw [Lib.Ring.toList_pushBack_empty hpos, Lib.Ring.capacity_pushBack,
        Lib.Ring.capacity_empty, Lib.latest_of_length_le]
      · rfl
      · rw [Lib.length_ranked]
        exact hpos
  | cons g offered =>
    obtain ⟨b, hb, hcap, hl⟩ := hbuf
    have hheaders : d.headers name = b.toList := by
      rw [DuplicatePacketDetector.headers, hb]
    have hasc := Lib.ascending_ranked hinj
    have hmem : ∀ s ∈ b.toList, s ∈ family := by
      intro s hs
      rw [hl] at hs
      exact hoff s (Lib.mem_ranked.mp (Lib.mem_of_mem_latest hs))
    have hne : b.toList ≠ [] := by
      have hin : g ∈ Lib.ranked DataPacketHeader.startTime (g :: offered) :=
        Lib.mem_ranked.mpr List.mem_cons_self
      have hpos := List.length_pos_of_mem hin
      rw [hl]
      apply List.ne_nil_of_length_pos
      rw [Lib.length_latest]
      omega
    have hi := hF.streamInv hne hmem (hl ▸ hasc.latest _)
    rw [hheaders]
    simp only [hb, List.cons_ne_nil, false_or]
    by_cases hm : h ∈ b.toList
    · rw [hF.offer_of_mem hmem hh hm]
      have hold : h ∈ g :: offered := Lib.mem_ranked.mp (Lib.mem_of_mem_latest (hl ▸ hm))
      refine ⟨⟨hest, hsize, b, withBuffer_self _ _ _, hcap, ?_⟩, rfl, by simp [hm]⟩
      rw [Lib.ranked_append_of_mem hinj hold, ← hl]
    · obtain ⟨hkeep, hcap', hv⟩ := hF.offerStep_of_new hi hmem hh hm (offer_step b h)
      refine ⟨⟨hest, hsize, (offer b h).2, withBuffer_self _ _ _, hcap'.trans hcap, ?_⟩, rfl,
        hv.trans (by simp [hm])⟩
      rw [hkeep, hcap']
      by_cases hold : h ∈ g :: offered
      · -- The header was evicted: it is below a full window, which stays as it is.
        have hbelow := Lib.below_latest hasc (Lib.mem_ranked.mpr hold) (hl ▸ hm)
        rw [← hl] at hbelow
        rw [Lib.ranked_append_of_mem hinj hold, ← hl, Lib.keepLatest_of_below hbelow.1 hbelow.2]
      · have hdiff : ∀ a ∈ g :: offered, a.startTime ≠ h.startTime :=
          fun a ha he ↦ hold (hF.startTime_inj (hoff a ha) hh he ▸ ha)
        rw [Lib.ranked_append_of_new hinj hdiff, Lib.latest_insertByKey hasc, ← hl]
        intro a ha
        exact hdiff a (Lib.mem_ranked.mp ha)

omit [Platform] in
/-- The buffers of two windows of one size on the same headers are equal. -/
theorem Window.buffer_congr {name : Bytes} {d d' : DuplicatePacketDetector}
    {offered offered' : List DataPacketHeader} (h : Window d name offered)
    (h' : Window d' name offered') (hsize : d.mCircularBufferSize = d'.mCircularBufferSize)
    (hinj : ∀ a ∈ offered, ∀ c ∈ offered, a.startTime = c.startTime → a = c)
    (hmem : ∀ s, s ∈ offered ↔ s ∈ offered') :
    d.mCircularBuffers name = d'.mCircularBuffers name := by
  obtain ⟨-, -, hb⟩ := h
  obtain ⟨-, -, hb'⟩ := h'
  cases offered with
  | nil =>
    cases offered' with
    | nil => rw [hb, hb']
    | cons g' offered' => exact absurd ((hmem g').mpr List.mem_cons_self) List.not_mem_nil
  | cons g offered =>
    cases offered' with
    | nil => exact absurd ((hmem g).mp List.mem_cons_self) List.not_mem_nil
    | cons g' offered' =>
      obtain ⟨b, hb, hcap, hl⟩ := hb
      obtain ⟨b', hb', hcap', hl'⟩ := hb'
      have hc : b.capacity = b'.capacity := by rw [hcap, hcap', hsize]
      have ht : b.toList = b'.toList := by
        rw [hl, hl', hc, Lib.ranked_congr hinj hmem]
      rw [hb, hb', Lib.Ring.ext ht hc]

namespace PacketFamily

variable {name : Bytes} {rate : Int} {family : Set Packet} {size : Int} {ps : List Packet}

/-- A member has a header, with its start time. -/
theorem headerOf_eq_some (hF : PacketFamily name rate family) {p : Packet} (hp : p ∈ family) :
    ∃ h, headerOf p = some h ∧ DataPacketHeader.ofPacket p = .ok h ∧
      h.startTime = startMuSec p := by
  obtain ⟨h, hh, -⟩ := hF.header p hp
  refine ⟨h, ?_, hh, (DataPacketHeader.ofPacket_ok hh).2.2.1⟩
  rw [headerOf, hh]
  rfl

/-- The headers of members are headers of the family. -/
theorem mem_of_mem_filterMap (hps : ∀ p ∈ ps, p ∈ family) {h : DataPacketHeader}
    (hh : h ∈ ps.filterMap headerOf) : ∃ p ∈ family, DataPacketHeader.ofPacket p = .ok h := by
  obtain ⟨p, hp, hph⟩ := List.mem_filterMap.mp hh
  refine ⟨p, hps p hp, ?_⟩
  unfold headerOf at hph
  cases hr : DataPacketHeader.ofPacket p with
  | error e => rw [hr] at hph; cases hph
  | ok g => rw [hr] at hph; cases hph; rfl

/-- After any feed of members the buffer is a window on the headers offered. -/
theorem window_after (hF : PacketFamily name rate family) (hsize : 0 < size)
    (hps : ∀ p ∈ ps, p ∈ family) :
    Window ((fixedSize size).after ps) name (ps.filterMap headerOf) ∧
      ((fixedSize size).after ps).mCircularBufferSize = size := by
  induction ps using List.reverseRecOn with
  | nil => exact ⟨window_fixedSize hsize name, rfl⟩
  | append_singleton ps p ih =>
    have hps' : ∀ x ∈ ps, x ∈ family := fun x hx ↦ hps x (List.mem_append_left _ hx)
    obtain ⟨hw, hc⟩ := ih hps'
    have hp : p ∈ family := hps p (by simp)
    obtain ⟨h, hh, hph, -⟩ := hF.headerOf_eq_some hp
    obtain ⟨hw', hc', -⟩ := hw.next hF.headerFamily (fun s hs ↦ mem_of_mem_filterMap hps' hs)
      hph ⟨p, hp, hph⟩
    have hoffered : (ps ++ [p]).filterMap headerOf = ps.filterMap headerOf ++ [h] := by
      rw [List.filterMap_append, List.filterMap_cons_some hh, List.filterMap_nil]
    rw [DuplicatePacketDetector.after_concat, hoffered]
    exact ⟨hw', hc'.trans hc⟩

/-- Headers of members are told apart by their start times. -/
theorem startTime_inj (hF : PacketFamily name rate family) (hps : ∀ p ∈ ps, p ∈ family) :
    ∀ a ∈ ps.filterMap headerOf, ∀ c ∈ ps.filterMap headerOf,
      a.startTime = c.startTime → a = c :=
  fun _ ha _ hc ↦ hF.headerFamily.startTime_inj (mem_of_mem_filterMap hps ha)
    (mem_of_mem_filterMap hps hc)

/-- The headers held are those of the latest-starting distinct packets, none missing. -/
theorem headers_after (hF : PacketFamily name rate family) (hsize : 0 < size)
    (hps : ∀ p ∈ ps, p ∈ family) :
    (((fixedSize size).after ps).headers name).map some =
      (Lib.latest size.toNat (Lib.ranked startMuSec ps)).map headerOf := by
  obtain ⟨hw, hc⟩ := hF.window_after hsize hps
  rw [hw.headers_eq, hc, Lib.map_latest, Lib.map_latest]
  congr 1
  apply Lib.map_some_ranked
  · exact fun a ha c hc ↦ hF.startMuSec_inj (hps a ha) (hps c hc)
  · intro p hp
    obtain ⟨h, hh, -, hs⟩ := hF.headerOf_eq_some (hps p hp)
    exact ⟨h, hh, hs⟩

end PacketFamily

/-- A list of packets is a family when the computed headers say so. -/
theorem packetFamily_of_list {name : Bytes} {rate : Int} {ps : List Packet} (hrate : rate < 1005)
    (hown : ∀ p ∈ ps, ∃ h ∈ headerOf p,
      h.name = name ∧ h.samplingRate = rate ∧ h.startTime ≤ h.endTime)
    (hpair : ∀ p ∈ ps, ∀ q ∈ ps, p ≠ q → ∀ g ∈ headerOf p, ∀ h ∈ headerOf q,
      (g.endTime < h.startTime ∨ h.endTime < g.startTime) ∧ g.eq h = .ok false) :
    PacketFamily name rate {p | p ∈ ps} := by
  have hdef {p : Packet} {h : DataPacketHeader} :
      h ∈ headerOf p ↔ DataPacketHeader.ofPacket p = .ok h := by
    unfold headerOf
    cases DataPacketHeader.ofPacket p with
    | error e => simp [Except.toOption]
    | ok g => simp [Except.toOption]
  refine ⟨hrate, ?_, ?_, ?_⟩
  · intro p hp
    obtain ⟨h, hh, hrest⟩ := hown p hp
    exact ⟨h, hdef.mp hh, hrest⟩
  · intro p hp q hq hne g h hg hh
    have hspan {p : Packet} {h : DataPacketHeader} (hp : p ∈ ps)
        (hh : DataPacketHeader.ofPacket p = .ok h) : h.startTime ≤ h.endTime := by
      obtain ⟨h', hh', -, -, hspan⟩ := hown p hp
      rw [hdef, hh] at hh'
      cases hh'
      exact hspan
    rw [DataPacketHeader.disjoint_interval_iff (hspan hp hg) (hspan hq hh)]
    exact (hpair p hp q hq hne g (hdef.mpr hg) h (hdef.mpr hh)).1
  · intro p hp q hq hne g h hg hh
    exact (hpair p hp q hq hne g (hdef.mpr hg) h (hdef.mpr hh)).2

/-- Whatever the order and the repetitions of a feed of members, the buffer holds the headers
of the latest-starting `size` distinct packets offered, in ascending order. Feeds of the same
packets leave the same buffer. -/
theorem buffer_after_feed {name : Bytes} {rate : Int} {family : Set Packet} {size : Int}
    {ps : List Packet} (hsize : 0 < size) (hF : PacketFamily name rate family)
    (hps : ∀ p ∈ ps, p ∈ family) :
    (((fixedSize size).after ps).headers name).map some =
        (Lib.latest size.toNat (Lib.ranked startMuSec ps)).map headerOf ∧
      (((fixedSize size).after ps).headers name).length = min size.toNat ps.dedup.length ∧
      Lib.Ascending DataPacketHeader.startTime (((fixedSize size).after ps).headers name) ∧
      ∀ qs, (∀ p, p ∈ qs ↔ p ∈ ps) → ((fixedSize size).after qs).mCircularBuffers name =
        ((fixedSize size).after ps).mCircularBuffers name := by
  obtain ⟨hw, hc⟩ := hF.window_after hsize hps
  have hheld := hF.headers_after hsize hps
  refine ⟨hheld, ?_, ?_, ?_⟩
  · have hlen := congrArg List.length hheld
    rw [List.length_map, List.length_map, Lib.length_latest, Lib.length_ranked] at hlen
    exact hlen
  · rw [hw.headers_eq]
    exact (Lib.ascending_ranked (hF.startTime_inj hps)).latest _
  · intro qs hqs
    have hqs' : ∀ p ∈ qs, p ∈ family := fun p hp ↦ hps p ((hqs p).mp hp)
    obtain ⟨hw', hc'⟩ := hF.window_after hsize hqs'
    refine hw'.buffer_congr hw (hc'.trans hc.symm) (hF.startTime_inj hqs') ?_
    intro s
    simp only [List.mem_filterMap, hqs]

end

section Runs

attribute [local instance] x86Platform

/-- Three contiguous packets. -/
def threePackets : List Packet :=
  [testPacket 1000000000 100 100, testPacket 1001000000 100 100, testPacket 1002000000 100 100]

/-- The same packets out of order and with repetitions. -/
def threePacketsShuffled : List Packet :=
  [testPacket 1001000000 100 100, testPacket 1000000000 100 100, testPacket 1001000000 100 100,
    testPacket 1002000000 100 100, testPacket 1000000000 100 100]

theorem packetFamily_threePackets :
    PacketFamily (ascii "UU.CTU.HHZ..01") 100 {p | p ∈ threePackets} :=
  packetFamily_of_list (by decide) (by decide +kernel) (by decide +kernel)

/-- Either feed leaves the same buffer for two packets. -/
theorem buffer_after_feed_twoOfThree :
    ((fixedSize 2).after threePackets).mCircularBuffers (ascii "UU.CTU.HHZ..01") =
      ((fixedSize 2).after threePacketsShuffled).mCircularBuffers (ascii "UU.CTU.HHZ..01") := by
  have hsize : (0 : Int) < 2 := by decide
  have hmem : ∀ p ∈ threePacketsShuffled, p ∈ threePackets := by decide +kernel
  apply (buffer_after_feed hsize packetFamily_threePackets hmem).2.2.2
  intro p
  simp only [threePackets, threePacketsShuffled, List.mem_cons]
  tauto

end Runs
end ImportProxy.Detector
