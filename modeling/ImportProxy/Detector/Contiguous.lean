import ImportProxy.Detector.Invariant
import Mathlib.Data.List.Chain
import Mathlib.Data.List.Induction

/-!
# Business as usual

Contiguous packets of one stream, in order. The end time of a packet counts
whole rounded sampling periods, so it drifts from the time of the last sample,
and two packets of one sample can be closer than the tolerance for duplicates.
All packets are allowed exactly when neither happens between neighbours.
-/

namespace ImportProxy.Detector

open ImportProxy.Base

section

variable [Platform]

omit [Platform] in
/-- How far apart two contiguous packets start, when the first has `n` samples. -/
def spacing (r : ℚ) (n : UInt32) : Int := roundHalfAway (n.toNat * 1000000 / r)

/-- Contiguous packets of one stream at the rate `r`, in order. -/
structure Contiguous (name : Bytes) (r : ℚ) (ps : List Packet) : Prop where
  named : ∀ p ∈ ps, toName p.streamIdentifier = name
  rated : ∀ p ∈ ps, p.samplingRate = .finite r
  sampled : ∀ p ∈ ps, 0 < p.numberOfSamples
  chained : ps.IsChain fun p q ↦ startMuSec q = startMuSec p + spacing r p.numberOfSamples
  inRange : ∀ p ∈ ps, EndTimeInRange p

/-- The rounded periods of the first packet end before the next one starts, and the two are not
single samples within the tolerance. -/
def Distinguishable (r : ℚ) (p q : Packet) : Prop :=
  dtMuSec (.finite r) * (p.numberOfSamples - 1).toNat < spacing r p.numberOfSamples ∧
    (p.numberOfSamples = 1 → q.numberOfSamples = 1 →
      ∀ tolerance ∈ startTimeTolerance (roundHalfAway r), tolerance ≤ spacing r 1)

instance (r : ℚ) (p q : Packet) : Decidable (Distinguishable r p q) :=
  inferInstanceAs (Decidable (_ ∧ _))

omit [Platform] in
/-- Every tolerance is twice a whole number of microseconds that one sampling period lasts. -/
theorem exists_half_tolerance {r : ℚ} (hr : 0 < r) (hlt : roundHalfAway r < 1005) :
    ∃ half : Int, startTimeTolerance (roundHalfAway r) = some (2 * half) ∧ 0 < half ∧
      (half : ℚ) ≤ 1000000 / r := by
  have bound {limit half : Int} (hlim : roundHalfAway r < limit) (hh : 0 ≤ half)
      (hb : half * limit ≤ 1000000) : (half : ℚ) ≤ 1000000 / r := by
    have hrl := lt_of_roundHalfAway_lt hr.le hlim
    have hh' : (0 : ℚ) ≤ half := by exact_mod_cast hh
    have hb' : (half : ℚ) * limit ≤ 1000000 := by exact_mod_cast hb
    rw [le_div_iff₀ hr]
    exact (mul_le_mul_of_nonneg_left hrl.le hh').trans hb'
  unfold startTimeTolerance
  by_cases h1 : roundHalfAway r < 105
  · exact ⟨7500, if_pos h1, by decide, bound h1 (by decide) (by decide)⟩
  rw [if_neg h1]
  by_cases h2 : roundHalfAway r < 255
  · exact ⟨2250, if_pos h2, by decide, bound h2 (by decide) (by decide)⟩
  rw [if_neg h2]
  by_cases h3 : roundHalfAway r < 505
  · exact ⟨1250, if_pos h3, by decide, bound h3 (by decide) (by decide)⟩
  rw [if_neg h3, if_pos hlt]
  exact ⟨750, rfl, by decide, bound hlt (by decide) (by decide)⟩

omit [Platform] in
/-- The spacing is at least the number of samples times a lower bound of the period. -/
theorem mul_le_spacing {r : ℚ} {half : Int} (hpos : 0 < half) (hle : (half : ℚ) ≤ 1000000 / r)
    (n : UInt32) : n.toNat * half ≤ spacing r n := by
  apply le_roundHalfAway (by positivity)
  rw [mul_div_assoc]
  push_cast
  exact mul_le_mul_of_nonneg_left hle (by positivity)

omit [Platform] in
/-- Over headers of one stream and one classified rate, `std::find` looks for the same length
and a close start. -/
theorem findHeader_of_rated {name : Bytes} {rate tolerance : Int} {h : DataPacketHeader}
    {l : List DataPacketHeader} (hname : h.name = name) (hrate : h.samplingRate = rate)
    (ht : startTimeTolerance rate = some tolerance)
    (hl : ∀ s ∈ l, s.name = name ∧ s.samplingRate = rate) :
    findHeader l h = .ok (decide (∃ s ∈ l, h.nSamples = s.nSamples ∧
      |h.startTime - s.startTime| < tolerance)) := by
  induction l with
  | nil => simp [findHeader]
  | cons s l ih =>
    obtain ⟨hsn, hsr⟩ := hl s List.mem_cons_self
    have hrest := ih fun x hx ↦ hl x (List.mem_cons_of_mem s hx)
    have heq : s.eq h = .ok (decide (h.nSamples = s.nSamples ∧
        |h.startTime - s.startTime| < tolerance)) := by
      unfold DataPacketHeader.eq
      simp only [hname, hsn, hrate, hsr, ht, ne_eq, not_true_eq_false, ↓reduceIte, sub_self]
      by_cases hn : h.nSamples = s.nSamples
      · simp [hn]
      · simp [hn]
    unfold findHeader
    rw [heq]
    by_cases hc : h.nSamples = s.nSamples ∧ |h.startTime - s.startTime| < tolerance
    · simp [hc]
    · simp only [hc, decide_false, hrest, List.mem_cons, exists_eq_or_imp, false_or]

namespace Contiguous

variable {name : Bytes} {r : ℚ} {ps : List Packet}

/-- A part of a contiguous list is contiguous. -/
theorem init {qs : List Packet} (hc : Contiguous name r (ps ++ qs)) : Contiguous name r ps :=
  ⟨fun p hp ↦ hc.named p (List.mem_append_left _ hp),
    fun p hp ↦ hc.rated p (List.mem_append_left _ hp),
    fun p hp ↦ hc.sampled p (List.mem_append_left _ hp),
    (List.isChain_append.mp hc.chained).1,
    fun p hp ↦ hc.inRange p (List.mem_append_left _ hp)⟩

/-- A packet of the list has a header, whose parts are known. -/
theorem ofPacket_eq (hc : Contiguous name r ps) (hr : 0 < r) (hlt : roundHalfAway r < 1005)
    {p : Packet} (hp : p ∈ ps) : ∃ h, DataPacketHeader.ofPacket p = .ok h ∧ h.name = name ∧
      h.samplingRate = roundHalfAway r ∧ h.nSamples = p.numberOfSamples ∧
      h.startTime = startMuSec p ∧ h.startTime ≤ h.endTime ∧
      h.endTime = startMuSec p + dtMuSec (.finite r) * (p.numberOfSamples - 1).toNat := by
  have hrate := hc.rated p hp
  have hpos : p.samplingRate.leZero = false := by
    rw [hrate]
    simpa [Double.leZero] using hr
  have hsome : ∃ h, DataPacketHeader.ofPacket p = .ok h := by
    unfold DataPacketHeader.ofPacket getEndTimeInMicroSeconds
    simp only [hpos, Bool.false_eq_true, ↓reduceIte,
      if_neg (UInt32.not_le.mpr (hc.sampled p hp))]
    exact ⟨_, rfl⟩
  obtain ⟨h, hh⟩ := hsome
  obtain ⟨-, hn, hs, -, hsr, hnn, -⟩ := DataPacketHeader.ofPacket_ok hh
  have he := DataPacketHeader.endTime_eq hh (hc.inRange p hp)
  have hnonneg := roundHalfAway_nonneg hr.le
  refine ⟨h, hh, hn.trans (hc.named p hp), ?_, hnn, hs,
    DataPacketHeader.startTime_le_endTime hh (hc.inRange p hp), ?_⟩
  · rw [hsr, hrate]
    simp only [Double.round, Double.toInt32, truncate_intCast]
    exact if_pos ⟨by omega, by omega⟩
  · rw [he, hs, hnn, hrate]
    rfl

/-- The parts of the header of a packet of the list. -/
theorem header_of_ofPacket (hc : Contiguous name r ps) (hr : 0 < r)
    (hlt : roundHalfAway r < 1005) {p : Packet} (hp : p ∈ ps) {h : DataPacketHeader}
    (hh : DataPacketHeader.ofPacket p = .ok h) : h.name = name ∧
      h.samplingRate = roundHalfAway r ∧ h.nSamples = p.numberOfSamples ∧
      h.startTime = startMuSec p ∧
      h.endTime = startMuSec p + dtMuSec (.finite r) * (p.numberOfSamples - 1).toNat := by
  obtain ⟨h', hh', hn, hrate, hnn, hs, -, he⟩ := hc.ofPacket_eq hr hlt hp
  rw [hh] at hh'
  cases hh'
  exact ⟨hn, hrate, hnn, hs, he⟩

/-- Any two packets of the list start at least one lower bound of the period apart. -/
theorem start_add_le (hc : Contiguous name r ps) {half : Int} (hpos : 0 < half)
    (hle : (half : ℚ) ≤ 1000000 / r) :
    ps.Pairwise fun p q ↦ startMuSec p + half ≤ startMuSec q := by
  have htrans : IsTrans Packet fun p q ↦ startMuSec p + half ≤ startMuSec q :=
    ⟨fun a b c hab hbc ↦ by omega⟩
  apply List.IsChain.pairwise
  refine hc.chained.imp_of_mem_imp ?_
  intro p q hp _ hpq
  have hn : 1 ≤ p.numberOfSamples.toNat := UInt32.lt_iff_toNat_lt.mp (hc.sampled p hp)
  have hmul := mul_le_spacing hpos hle p.numberOfSamples
  have hone : half ≤ p.numberOfSamples.toNat * half := by
    exact le_mul_of_one_le_left hpos.le (by exact_mod_cast hn)
  omega

/-- The last packet starts one spacing after its neighbour. -/
theorem start_eq {init : List Packet} {last p : Packet}
    (hc : Contiguous name r (init ++ [last] ++ [p])) :
    startMuSec p = startMuSec last + spacing r last.numberOfSamples := by
  have hlink := hc.chained
  rw [List.append_assoc] at hlink
  exact (List.isChain_cons_cons.mp (List.isChain_append.mp hlink).2.1).1

/-- Packets other than the neighbour start at least two lower bounds of the period earlier. -/
theorem two_mul_le_of_mem_init {init : List Packet} {last p q : Packet}
    (hc : Contiguous name r (init ++ [last] ++ [p])) {half : Int} (hpos : 0 < half)
    (hle : (half : ℚ) ≤ 1000000 / r) (hq : q ∈ init) :
    2 * half ≤ startMuSec p - startMuSec q := by
  have hpair := hc.start_add_le hpos hle
  rw [List.append_assoc] at hpair
  have hql := (List.pairwise_append.mp hpair).2.2 q hq last (by simp)
  have hlp := (List.pairwise_cons.mp (List.pairwise_append.mp hpair).2.1).1 p (by simp)
  omega

/-- A packet within twice the lower bound of the period before the last one, and of its length, is
the neighbour, and both have a single sample. -/
theorem close_iff {init : List Packet} {last p : Packet}
    (hc : Contiguous name r (init ++ [last] ++ [p])) {half : Int} (hpos : 0 < half)
    (hle : (half : ℚ) ≤ 1000000 / r) {q : Packet} (hq : q ∈ init ++ [last]) :
    p.numberOfSamples = q.numberOfSamples ∧ |startMuSec p - startMuSec q| < 2 * half ↔
      q = last ∧ last.numberOfSamples = 1 ∧ p.numberOfSamples = 1 ∧ spacing r 1 < 2 * half := by
  have hnext := hc.start_eq
  constructor
  · rintro ⟨hlen, hclose⟩
    have hlt := (abs_lt.mp hclose).2
    rcases List.mem_append.mp hq with hq | hq
    · have hfar := hc.two_mul_le_of_mem_init hpos hle hq
      omega
    · obtain rfl := List.mem_singleton.mp hq
      have hmul := mul_le_spacing hpos hle q.numberOfSamples
      have hsampled : 0 < q.numberOfSamples.toNat :=
        UInt32.lt_iff_toNat_lt.mp (hc.sampled q (by simp))
      -- Two samples or more take at least the tolerance.
      have hone : q.numberOfSamples.toNat = 1 := by
        by_contra hne
        have htwo : (2 : Int) ≤ q.numberOfSamples.toNat := by omega
        have hmul' := mul_le_mul_of_nonneg_right htwo hpos.le
        omega
      have hq1 : q.numberOfSamples = 1 := UInt32.toNat_inj.mp hone
      rw [hq1] at hnext hlen
      exact ⟨rfl, hq1, hlen, by omega⟩
  · rintro ⟨rfl, hl1, hp1, hclose⟩
    have hge := mul_le_spacing hpos hle 1
    have h1 : ((1 : UInt32).toNat : Int) = 1 := rfl
    refine ⟨hp1.trans hl1.symm, ?_⟩
    rw [hnext, hl1, abs_lt]
    rw [h1] at hge
    omega

end Contiguous

/-- A detector of fixed size that allowed all of `before`: the buffer holds headers of these
packets, the last one at its back, and none of them ends later. -/
def Trailing (d : DuplicatePacketDetector) (name : Bytes) (before : List Packet) : Prop :=
  d.mEstimateCapacity = false ∧ 0 < d.mCircularBufferSize ∧
    match before.getLast? with
    | none => d.mCircularBuffers name = none
    | some last => ∃ b back, d.mCircularBuffers name = some b ∧ StreamInv name b ∧
        b.toList.getLast? = some back ∧ DataPacketHeader.ofPacket last = .ok back ∧
        ∀ s ∈ b.toList, s.endTime ≤ back.endTime ∧
          ∃ q ∈ before, DataPacketHeader.ofPacket q = .ok s

namespace Contiguous

variable {name : Bytes} {r : ℚ} {ps : List Packet} {p last : Packet}
  {b b' : Lib.Ring DataPacketHeader} {h back : DataPacketHeader}

/-- The two ways in which the next packet can be refused, in terms of the buffered headers. -/
theorem distinguishable_iff (hc : Contiguous name r (ps ++ [p])) (hr : 0 < r)
    (hlt : roundHalfAway r < 1005) (hlast : ps.getLast? = some last)
    (hback : DataPacketHeader.ofPacket last = .ok back) (hh : DataPacketHeader.ofPacket p = .ok h)
    (hb : b.toList.getLast? = some back)
    (hmem : ∀ s ∈ b.toList, ∃ q ∈ ps, DataPacketHeader.ofPacket q = .ok s) :
    Distinguishable r last p ↔
      back.endTime < h.startTime ∧ findHeader b.toList h = .ok false := by
  obtain ⟨half, ht, hpos, hhalf⟩ := exists_half_tolerance hr hlt
  obtain ⟨init, rfl⟩ := List.getLast?_eq_some_iff.mp hlast
  obtain ⟨hn, hrate, hnn, hs, -⟩ := hc.header_of_ofPacket hr hlt (by simp) hh
  obtain ⟨-, -, -, -, heb⟩ := hc.header_of_ofPacket hr hlt (p := last) (by simp) hback
  have hall : ∀ s ∈ b.toList, s.name = name ∧ s.samplingRate = roundHalfAway r := by
    intro s hsm
    obtain ⟨q, hq, hqs⟩ := hmem s hsm
    have hk := hc.header_of_ofPacket hr hlt (List.mem_append_left _ hq) hqs
    exact ⟨hk.1, hk.2.1⟩
  have hclose {q : Packet} {s : DataPacketHeader} (hq : q ∈ init ++ [last])
      (hqs : DataPacketHeader.ofPacket q = .ok s) :
      h.nSamples = s.nSamples ∧ |h.startTime - s.startTime| < 2 * half ↔ q = last ∧
        last.numberOfSamples = 1 ∧ p.numberOfSamples = 1 ∧ spacing r 1 < 2 * half := by
    obtain ⟨-, -, hnq, hsq, -⟩ := hc.header_of_ofPacket hr hlt (List.mem_append_left _ hq) hqs
    rw [hnn, hs, hnq, hsq]
    exact hc.close_iff hpos hhalf hq
  have hdup : (∃ s ∈ b.toList, h.nSamples = s.nSamples ∧ |h.startTime - s.startTime| < 2 * half) ↔
      last.numberOfSamples = 1 ∧ p.numberOfSamples = 1 ∧ spacing r 1 < 2 * half := by
    constructor
    · rintro ⟨s, hsm, hsame⟩
      obtain ⟨q, hq, hqs⟩ := hmem s hsm
      exact ((hclose hq hqs).mp hsame).2
    · intro hsingle
      exact ⟨back, List.mem_of_getLast? hb, (hclose (by simp) hback).mpr ⟨rfl, hsingle⟩⟩
  have hend : back.endTime < h.startTime ↔
      dtMuSec (.finite r) * (last.numberOfSamples - 1).toNat < spacing r last.numberOfSamples := by
    rw [heb, hs, hc.start_eq]
    omega
  have hfind : findHeader b.toList h = .ok false ↔
      ¬∃ s ∈ b.toList, h.nSamples = s.nSamples ∧ |h.startTime - s.startTime| < 2 * half := by
    rw [findHeader_of_rated hn hrate ht hall]
    simp only [Except.ok.injEq, decide_eq_false_iff_not]
  rw [hfind, hend, hdup]
  unfold Distinguishable
  apply and_congr_right
  intro _
  rw [ht]
  simp only [Option.mem_some_iff, forall_eq', not_and, not_lt]

/-- A packet that follows the buffered ones is allowed exactly when it is distinguishable from
the last of them, and is then appended. -/
theorem offer_iff (hc : Contiguous name r (ps ++ [p])) (hr : 0 < r)
    (hlt : roundHalfAway r < 1005) (hlast : ps.getLast? = some last)
    (hback : DataPacketHeader.ofPacket last = .ok back) (hh : DataPacketHeader.ofPacket p = .ok h)
    (hi : StreamInv name b) (hb : b.toList.getLast? = some back)
    (hmem : ∀ s ∈ b.toList, s.endTime ≤ back.endTime ∧
      ∃ q ∈ ps, DataPacketHeader.ofPacket q = .ok s) {v : Except AllowError Bool}
    (hstep : OfferStep b h v b') :
    (v = .ok true ↔ Distinguishable r last p) ∧
      (v = .ok true → back.endTime < h.startTime ∧ b' = b.pushBack h) := by
  rw [hc.distinguishable_iff hr hlt hlast hback hh hb fun s hs ↦ (hmem s hs).2]
  obtain ⟨half, -, hpos, hhalf⟩ := exists_half_tolerance hr hlt
  -- The packet starts after every buffered one.
  have hafter (s : DataPacketHeader) (hs : s ∈ b.toList) : s.startTime < h.startTime := by
    obtain ⟨q, hq, hqs⟩ := (hmem s hs).2
    have hqp := (List.pairwise_append.mp (hc.start_add_le hpos hhalf)).2.2 q hq p (by simp)
    rw [(DataPacketHeader.ofPacket_ok hqs).2.2.1, (DataPacketHeader.ofPacket_ok hh).2.2.1]
    unfold startMuSec at hqp
    omega
  have hspan := DataPacketHeader.startTime_le_endTime hh (hc.inRange p (by simp))
  have hmb := List.mem_of_getLast? hb
  cases hstep with
  | compareThrew e hf => simp [hf]
  | duplicate hf => simp [hf]
  | appended back' hf hback' hlt' =>
    rw [hb] at hback'
    cases hback'
    simp [hf, hlt']
  | frontInserted front hf hfront hlt' hroom =>
    have hx := hafter front (List.mem_of_head? hfront)
    omega
  | expired front hf hfront hlt' hfull =>
    have hx := hafter front (List.mem_of_head? hfront)
    omega
  | slipped hf hs =>
    obtain ⟨s, hsm, hslip⟩ := hs
    have hle := (hmem s hsm).1
    have hx := hafter s hsm
    have hno : ¬back.endTime < h.startTime := by
      simp only [DataPacketHeader.slips, Bool.or_eq_true, Bool.and_eq_true, decide_eq_true_eq]
        at hslip
      omega
    simp [hno]
  | backFilled back' front hf hback' hfront hle hge hs =>
    rw [hb] at hback'
    cases hback'
    have hx := hafter back hmb
    have hslip : h.slips back = true := by
      simp only [DataPacketHeader.slips, Bool.or_eq_true, Bool.and_eq_true, decide_eq_true_eq]
      omega
    rw [hs back hmb] at hslip
    cases hslip
  | empty hempty => exact (hi.nonempty hempty).elim

/-- One call on the next packet of a contiguous list. -/
theorem next_iff (hc : Contiguous name r (ps ++ [p])) (hr : 0 < r)
    (hlt : roundHalfAway r < 1005) {d : DuplicatePacketDetector} (ht : Trailing d name ps) :
    (d.allows p ↔ ∀ last ∈ ps.getLast?, Distinguishable r last p) ∧
      (d.allows p → Trailing (d.next p) name (ps ++ [p])) := by
  obtain ⟨h, hh, hn, -, -, -, hspan, -⟩ := hc.ofPacket_eq hr hlt (p := p) (by simp)
  obtain ⟨hest, hsize, hbuf⟩ := ht
  have hstep := call_step d p
  unfold DuplicatePacketDetector.allows
  generalize (d.allow p).1 = v at hstep ⊢
  generalize d.next p = d' at hstep ⊢
  cases hstep with
  | unpackFailed e hp =>
    rw [hh] at hp
    cases hp
  | createFailed g e hp hb hcr =>
    rw [newCircularBuffer_fixed hest hsize] at hcr
    cases hcr
  | created g b hp hb hcr =>
    rw [hh] at hp
    cases hp
    have hnone : ps.getLast? = none := by
      cases hl : ps.getLast? with
      | none => rfl
      | some last =>
        rw [hl] at hbuf
        obtain ⟨b', back, hb', -⟩ := hbuf
        rw [← hn, hb] at hb'
        cases hb'
    have hl := toList_created (Or.inr hsize) hcr
    refine ⟨by simp [hnone], fun _ ↦ ⟨hest, hsize, ?_⟩⟩
    rw [List.getLast?_concat]
    refine ⟨_, h, by rw [← hn, withBuffer_self], ?_, by rw [hl]; rfl, hh, ?_⟩
    · exact hn ▸ streamInv_created (Or.inr hsize) hspan hcr
    · intro s hs
      rw [hl, List.mem_singleton] at hs
      subst hs
      exact ⟨le_rfl, p, by simp, hh⟩
  | offered g b b' _ hp hb hs =>
    rw [hh] at hp
    cases hp
    cases hl : ps.getLast? with
    | none =>
      rw [hl] at hbuf
      rw [← hn, hb] at hbuf
      cases hbuf
    | some last =>
      rw [hl] at hbuf
      obtain ⟨c, back, hcb, hi, hlast, hback, hmem⟩ := hbuf
      rw [← hn, hb] at hcb
      cases hcb
      have hoffer := hc.offer_iff hr hlt hl hback hh hi hlast hmem hs
      refine ⟨by simpa using hoffer.1, fun hv ↦ ⟨hest, hsize, ?_⟩⟩
      obtain ⟨hlt', rfl⟩ := hoffer.2 hv
      have hlist := Lib.Ring.toList_pushBack hi.nonempty h
      rw [List.getLast?_concat]
      refine ⟨_, h, by rw [← hn, withBuffer_self], hi.step hs hn hspan, ?_, hh, ?_⟩
      · rw [hlist, List.getLast?_concat]
      · intro s hsm
        rw [hlist, List.mem_append, List.mem_singleton] at hsm
        rcases hsm with hsm | rfl
        · obtain ⟨hle, q, hq, hqs⟩ := hmem s (b.retained_sublist.subset hsm)
          exact ⟨by omega, q, List.mem_append_left _ hq, hqs⟩
        · exact ⟨le_rfl, p, by simp, hh⟩

end Contiguous

end

section Runs

attribute [local instance] x86Platform

/-- Packets of three seconds at 100 Hz. -/
theorem contiguous_threeSeconds :
    Contiguous (ascii "UU.CTU.HHZ..01") 100
      [testPacket 1000000000 100 300, testPacket 1003000000 100 300,
        testPacket 1006000000 100 300, testPacket 1009000000 100 300] :=
  ⟨by decide +kernel, by decide +kernel, by decide +kernel, by decide +kernel, by decide +kernel⟩

/-- A period of slightly less than 1001.5 microseconds: double precision has 1001.5 for it. -/
example : 1000000 / (4391459322120819 / 4398046511104) < (1001.5 : ℚ) ∧
    dtMuSec (.finite (4391459322120819 / 4398046511104)) = 1002 := by decide +kernel

/-- Of two contiguous packets of one sample at 100 Hz the second passes for a duplicate. -/
example : ¬Lib.Along DuplicatePacketDetector.next (fun d p ↦ d.allows p) (fixedSize 15)
    [testPacket 1000000000 100 1, testPacket 1000010000 100 1] := by decide +kernel

end Runs
end ImportProxy.Detector
