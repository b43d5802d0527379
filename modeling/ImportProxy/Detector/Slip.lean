import ImportProxy.Detector.Invariant
import Mathlib.Data.List.Pairwise

/-!
# Timing slips

The slip test looks for an end point of the offered packet inside a buffered
interval (`src/duplicatePacketDetector.cpp:341–356`). It misses a packet that
encloses a buffered header. Along a run without such a packet the intervals of
each buffer stay disjoint, and a run with one accepts an overlap.
-/

namespace ImportProxy.Detector

open ImportProxy.Base

/-- The offered packet is neither equal to a buffered one nor has an end point in the interval
of one, but encloses one: the scan lets it pass. -/
def missesEnclosed (b : Lib.Ring DataPacketHeader) (h : DataPacketHeader) : Bool :=
  decide (findHeader b.toList h = .ok false) && !b.toList.any h.slips && b.toList.any h.encloses

/-- The intervals of the headers held for each stream are pairwise disjoint. -/
def BuffersDisjoint (d : DuplicatePacketDetector) : Prop :=
  ∀ name, (d.headers name).Pairwise fun a c ↦ Disjoint a.interval c.interval

section

variable [Platform]

/-- The packet is one that `missesEnclosed` describes for the buffer of its stream. -/
def enclosureMissed (d : DuplicatePacketDetector) (p : Packet) : Bool :=
  match DataPacketHeader.ofPacket p with
  | .error _ => false
  | .ok h =>
    match d.mCircularBuffers h.name with
    | none => false
    | some b => missesEnclosed b h

/-- The interval of the packet shares an instant with a header held for its stream. -/
def SharesInstant (d : DuplicatePacketDetector) (p : Packet) : Prop :=
  ∃ h, DataPacketHeader.ofPacket p = .ok h ∧
    ∃ s ∈ d.headers h.name, ¬Disjoint h.interval s.interval

end

/-- The intervals of one buffer are pairwise disjoint. -/
def DisjointBuffer (b : Lib.Ring DataPacketHeader) : Prop :=
  b.toList.Pairwise fun a c ↦ Disjoint a.interval c.interval

instance : Std.Symm fun a c : DataPacketHeader ↦ Disjoint a.interval c.interval :=
  ⟨fun _ _ h ↦ h.symm⟩

theorem missesEnclosed_iff (b : Lib.Ring DataPacketHeader) (h : DataPacketHeader) :
    missesEnclosed b h = true ↔ findHeader b.toList h = .ok false ∧
      (∀ s ∈ b.toList, h.slips s = false) ∧ ∃ s ∈ b.toList, h.encloses s = true := by
  simp only [missesEnclosed, Bool.and_eq_true, decide_eq_true_eq, Bool.not_eq_true',
    List.any_eq_false, Bool.not_eq_true, List.any_eq_true, and_assoc]

namespace StreamInv

variable {name : Bytes} {b b' : Lib.Ring DataPacketHeader} {h : DataPacketHeader}

/-- A header that passes the slip test and encloses nothing is disjoint from every other. -/
theorem disjoint_of_passed (hi : StreamInv name b) (hspan : h.startTime ≤ h.endTime)
    (hs : ∀ s ∈ b.toList, h.slips s = false) (he : ∀ s ∈ b.toList, h.encloses s = false) :
    ∀ s ∈ b.toList, Disjoint h.interval s.interval := by
  intro s hm
  by_contra hd
  rcases (DataPacketHeader.not_disjoint_interval_iff hspan (hi.spans s hm)).mp hd with hx | hx
  · exact Bool.noConfusion ((hs s hm).symm.trans hx)
  · exact Bool.noConfusion ((he s hm).symm.trans hx)

/-- A header that passes the slip test without a missed enclosure is disjoint from every other. -/
theorem disjoint_of_notMissed (hi : StreamInv name b) (hspan : h.startTime ≤ h.endTime)
    (hmiss : missesEnclosed b h = false) (hf : findHeader b.toList h = .ok false)
    (hs : ∀ s ∈ b.toList, h.slips s = false) :
    ∀ s ∈ b.toList, Disjoint h.interval s.interval := by
  apply hi.disjoint_of_passed hspan hs
  intro s hm
  by_contra hx
  have hall := (missesEnclosed_iff b h).mpr ⟨hf, hs, s, hm, by simpa using hx⟩
  exact Bool.noConfusion (hmiss.symm.trans hall)

/-- In a disjoint buffer an earlier start means an earlier end. -/
theorem endTime_lt (hi : StreamInv name b) (hd : DisjointBuffer b) {a c : DataPacketHeader}
    (ha : a ∈ b.toList) (hc : c ∈ b.toList) (hlt : a.startTime < c.startTime) :
    a.endTime < c.startTime := by
  have hne : a ≠ c := fun he ↦ absurd hlt (he ▸ lt_irrefl _)
  have hdis := hd.forall ha hc hne
  have hsc := hi.spans c hc
  rcases (DataPacketHeader.disjoint_interval_iff (hi.spans a ha) hsc).mp hdis with hx | hx
  · exact hx
  · omega

/-- In a disjoint buffer the back ends last. -/
theorem endTime_le_back (hi : StreamInv name b) (hd : DisjointBuffer b) {back : DataPacketHeader}
    (hback : b.toList.getLast? = some back) : ∀ s ∈ b.toList, s.endTime ≤ back.endTime := by
  intro s hs
  have hmem := List.mem_of_getLast? hback
  by_cases he : s = back
  · rw [he]
  · have hlt : s.startTime < back.startTime := by
      apply lt_of_le_of_ne (hi.ascending.le_getLast hback s hs)
      exact fun hk ↦ he (hi.ascending.key_inj hs hmem hk)
    have hend := hi.endTime_lt hd hs hmem hlt
    have hspan := hi.spans back hmem
    omega

/-- A header after the back is disjoint from the whole buffer. -/
theorem disjoint_of_back (hi : StreamInv name b) (hd : DisjointBuffer b)
    (hspan : h.startTime ≤ h.endTime) {back : DataPacketHeader}
    (hback : b.toList.getLast? = some back) (hlt : back.endTime < h.startTime) :
    ∀ s ∈ b.toList, Disjoint h.interval s.interval := by
  intro s hs
  have hle := hi.endTime_le_back hd hback s hs
  exact (DataPacketHeader.disjoint_interval_iff hspan (hi.spans s hs)).mpr (Or.inr (by omega))

/-- A header before the front is disjoint from the whole buffer. -/
theorem disjoint_of_front (hi : StreamInv name b) (hspan : h.startTime ≤ h.endTime)
    {front : DataPacketHeader} (hfront : b.toList.head? = some front)
    (hlt : h.endTime < front.startTime) :
    ∀ s ∈ b.toList, Disjoint h.interval s.interval := by
  intro s hs
  have hend := hi.endTime_lt_of_front hfront hlt s hs
  exact (DataPacketHeader.disjoint_interval_iff hspan (hi.spans s hs)).mpr (Or.inl hend)

/-- A buffer that loses elements and gains a disjoint one stays disjoint. -/
theorem disjointBuffer_of_perm {l kept : List DataPacketHeader} (hd : DisjointBuffer b)
    (hp : l.Perm (h :: kept)) (hk : kept.Sublist b.toList)
    (hh : ∀ s ∈ b.toList, Disjoint h.interval s.interval) :
    l.Pairwise fun a c ↦ Disjoint a.interval c.interval := by
  refine (hp.pairwise_iff fun hx ↦ hx.symm).mpr (List.pairwise_cons.mpr ⟨?_, hd.sublist hk⟩)
  exact fun s hs ↦ hh s (hk.subset hs)

/-- A call keeps a buffer disjoint when the scan misses no enclosure. -/
theorem disjoint_step {v : Except AllowError Bool} (hi : StreamInv name b)
    (hd : DisjointBuffer b) (hspan : h.startTime ≤ h.endTime)
    (hmiss : missesEnclosed b h = false) (hstep : OfferStep b h v b') : DisjointBuffer b' := by
  cases hstep with
  | compareThrew e hf => exact hd
  | duplicate hf => exact hd
  | appended back hf hback hlt =>
    apply disjointBuffer_of_perm hd _ b.retained_sublist
      (hi.disjoint_of_back hd hspan hback hlt)
    rw [Lib.Ring.toList_pushBack hi.nonempty]
    exact List.perm_append_singleton h b.retained
  | frontInserted front hf hfront hlt hroom =>
    apply disjointBuffer_of_perm hd _ (List.Sublist.refl _)
      (hi.disjoint_of_front hspan hfront hlt)
    rw [Lib.Ring.toList_pushFront_of_not_full hroom]
  | expired front hf hfront hlt hfull => exact hd
  | slipped hf hs => exact hd
  | backFilled back front hf hback hfront hle hge hs =>
    apply disjointBuffer_of_perm hd _ b.retained_sublist
      (hi.disjoint_of_notMissed hspan hmiss hf hs)
    rw [hi.toList_backFill hs]
    exact List.perm_orderedInsert _ _ _
  | empty hempty => exact hd

/-- A packet that the scan misses is accepted. -/
theorem ok_of_missed {v : Except AllowError Bool} (hi : StreamInv name b)
    (hmiss : missesEnclosed b h = true) (hstep : OfferStep b h v b') : v = .ok true := by
  obtain ⟨hf, hs, s, hm, he⟩ := (missesEnclosed_iff b h).mp hmiss
  obtain ⟨-, hend⟩ := (DataPacketHeader.encloses_iff h s).mp he
  have hspan := hi.spans s hm
  -- The enclosed header ends before the packet does, so the packet is not before the front.
  have front_absurd {front : DataPacketHeader} (hfront : b.toList.head? = some front)
      (hlt : h.endTime < front.startTime) : False := by
    have := hi.endTime_lt_of_front hfront hlt s hm
    omega
  cases hstep with
  | compareThrew e hf' => rw [hf] at hf'; cases hf'
  | duplicate hf' => rw [hf] at hf'; cases hf'
  | appended => rfl
  | frontInserted front hf' hfront hlt => exact (front_absurd hfront hlt).elim
  | expired front hf' hfront hlt => exact (front_absurd hfront hlt).elim
  | slipped hf' hs' =>
    obtain ⟨x, hx, hslip⟩ := hs'
    exact Bool.noConfusion ((hs x hx).symm.trans hslip)
  | backFilled => rfl
  | empty hempty => exact (hi.nonempty hempty).elim

/-- An accepted packet that shares an instant with the buffer is one that the scan misses. -/
theorem missed_of_ok (hi : StreamInv name b) (hd : DisjointBuffer b)
    (hspan : h.startTime ≤ h.endTime) (hshare : ∃ s ∈ b.toList, ¬Disjoint h.interval s.interval)
    (hstep : OfferStep b h (.ok true) b') : missesEnclosed b h = true := by
  obtain ⟨s, hm, hs⟩ := hshare
  cases hstep with
  | appended back hf hback hlt => exact absurd (hi.disjoint_of_back hd hspan hback hlt s hm) hs
  | backFilled back front hf hback hfront hle hge hpass =>
    refine (missesEnclosed_iff b h).mpr ⟨hf, hpass, s, hm, ?_⟩
    have hcase := (DataPacketHeader.not_disjoint_interval_iff hspan (hi.spans s hm)).mp hs
    exact hcase.resolve_left (by simp [hpass s hm])

end StreamInv

section

variable [Platform]

omit [Platform] in
/-- Disjointness, stream by stream. -/
theorem buffersDisjoint_iff (d : DuplicatePacketDetector) :
    BuffersDisjoint d ↔ ∀ name b, d.mCircularBuffers name = some b → DisjointBuffer b := by
  unfold BuffersDisjoint DuplicatePacketDetector.headers DisjointBuffer
  constructor
  · intro h name b hb
    simpa only [hb] using h name
  · intro h name
    cases hb : d.mCircularBuffers name with
    | none => exact List.Pairwise.nil
    | some b => exact h name b hb

omit [Platform] in
/-- A detector without streams holds no overlap. -/
theorem buffersDisjoint_new {options : DuplicatePacketDetectorOptions}
    {d : DuplicatePacketDetector} (h : DuplicatePacketDetector.new options = .ok d) :
    BuffersDisjoint d := by
  rw [buffersDisjoint_iff, new_buffers h]
  intro name b hb
  cases hb

omit [Platform] in
/-- Replacing one buffer by a disjoint one keeps all buffers disjoint. -/
theorem BuffersDisjoint.withBuffer {d : DuplicatePacketDetector} {name : Bytes}
    {b : Lib.Ring DataPacketHeader} (hd : BuffersDisjoint d) (hb : DisjointBuffer b) :
    BuffersDisjoint (d.withBuffer name b) := by
  rw [buffersDisjoint_iff] at hd ⊢
  exact forall_withBuffer hd hb

/-- What `enclosureMissed` says when the header and the buffer are known. -/
theorem enclosureMissed_eq {d : DuplicatePacketDetector} {p : Packet} {h : DataPacketHeader}
    {b : Lib.Ring DataPacketHeader} (hp : DataPacketHeader.ofPacket p = .ok h)
    (hb : d.mCircularBuffers h.name = some b) : enclosureMissed d p = missesEnclosed b h := by
  simp only [enclosureMissed, hp, hb]

/-- One call keeps all buffers disjoint when the scan misses no enclosure. -/
theorem BuffersDisjoint.step {d d' : DuplicatePacketDetector} {p : Packet}
    {v : Except AllowError Bool} (hd : BuffersDisjoint d) (hi : Inv d) (hr : EndTimeInRange p)
    (hmiss : enclosureMissed d p = false) (hstep : CallStep d p v d') : BuffersDisjoint d' := by
  cases hstep with
  | unpackFailed e hp => exact hd
  | createFailed h e hp hb hc => exact hd
  | created h b hp hb hc =>
    apply hd.withBuffer
    rw [DisjointBuffer, toList_created hi.configured hc]
    exact List.pairwise_singleton _ _
  | offered h b b' _ hp hb hs =>
    apply hd.withBuffer
    rw [enclosureMissed_eq hp hb] at hmiss
    exact (hi.stream h.name b hb).disjoint_step ((buffersDisjoint_iff d).mp hd h.name b hb)
      (DataPacketHeader.startTime_le_endTime hp hr) hmiss hs

/-- In a disjoint state a call accepts a packet that shares an instant with its stream's
buffer exactly when the scan misses an enclosure. -/
theorem allows_and_shares_iff {d : DuplicatePacketDetector} {p : Packet} (hi : Inv d)
    (hd : BuffersDisjoint d) (hr : EndTimeInRange p) :
    d.allows p ∧ SharesInstant d p ↔ enclosureMissed d p = true := by
  have hstep := call_step d p
  constructor
  · rintro ⟨hv, h, hp, s, hs, hshare⟩
    unfold DuplicatePacketDetector.allows at hv
    rw [hv] at hstep
    unfold DuplicatePacketDetector.headers at hs
    generalize d.next p = d' at hstep
    cases hstep with
    | created h' b hp' hb hc =>
      rw [hp] at hp'
      cases hp'
      rw [hb] at hs
      exact absurd hs List.not_mem_nil
    | offered h' b b' _ hp' hb hstep =>
      rw [hp] at hp'
      cases hp'
      rw [hb] at hs
      rw [enclosureMissed_eq hp hb]
      exact (hi.stream h.name b hb).missed_of_ok ((buffersDisjoint_iff d).mp hd h.name b hb)
        (DataPacketHeader.startTime_le_endTime hp hr) ⟨s, hs, hshare⟩ hstep
  · intro hmiss
    cases hp : DataPacketHeader.ofPacket p with
    | error e => simp [enclosureMissed, hp] at hmiss
    | ok h =>
      cases hb : d.mCircularBuffers h.name with
      | none => simp [enclosureMissed, hp, hb] at hmiss
      | some b =>
        rw [enclosureMissed_eq hp hb] at hmiss
        have hsi := hi.stream h.name b hb
        have hspan := DataPacketHeader.startTime_le_endTime hp hr
        constructor
        · unfold DuplicatePacketDetector.allows DuplicatePacketDetector.allow
            DuplicatePacketDetector.allowHeader
          simp only [hp, hb]
          exact hsi.ok_of_missed hmiss (offer_step b h)
        · obtain ⟨-, -, s, hm, he⟩ := (missesEnclosed_iff b h).mp hmiss
          refine ⟨h, hp, s, ?_, ?_⟩
          · simpa only [DuplicatePacketDetector.headers, hb] using hm
          · exact (DataPacketHeader.not_disjoint_interval_iff hspan (hsi.spans s hm)).mpr
              (Or.inr he)

/-- The state that a run reaches when its packets are in range and the scan misses no
enclosure at any step. -/
theorem disjoint_after {d : DuplicatePacketDetector} {ps : List Packet} (hi : Inv d)
    (hd : BuffersDisjoint d) (hr : ∀ p ∈ ps, EndTimeInRange p)
    (hmiss : Lib.Along DuplicatePacketDetector.next (fun d p ↦ enclosureMissed d p = false) d ps) :
    Inv (d.after ps) ∧ BuffersDisjoint (d.after ps) := by
  apply (hmiss.and (Lib.along_of_forall hr)).invariant (fun d ↦ Inv d ∧ BuffersDisjoint d)
    ⟨hi, hd⟩
  rintro d p ⟨hi, hd⟩ ⟨hm, hp⟩
  exact ⟨hi.next hp, hd.step hi hp hm (call_step d p)⟩

/-- Along the run the buffers stay disjoint, and no packet that shares an instant with its
stream's buffer is accepted. -/
def NoAcceptedOverlap (d : DuplicatePacketDetector) (ps : List Packet) : Prop :=
  (∀ before rest, ps = before ++ rest → BuffersDisjoint (d.after before)) ∧
    Lib.Along DuplicatePacketDetector.next (fun d p ↦ SharesInstant d p → ¬d.allows p) d ps

/-- A run accepts no overlap exactly when no packet of it encloses a buffered header that the
scan of the end points misses. -/
theorem noAcceptedOverlap_iff {options : DuplicatePacketDetectorOptions}
    {d : DuplicatePacketDetector} {ps : List Packet}
    (hnew : DuplicatePacketDetector.new options = .ok d) (hr : ∀ p ∈ ps, EndTimeInRange p) :
    NoAcceptedOverlap d ps ↔
      Lib.Along DuplicatePacketDetector.next (fun d p ↦ enclosureMissed d p = false) d ps := by
  constructor
  · rintro ⟨hdis, hshare⟩
    rw [Lib.along_iff] at hshare ⊢
    intro before p rest he
    have hi : Inv (d.after before) :=
      (inv_new hnew).after fun x hx ↦ hr x (by rw [he]; exact List.mem_append_left _ hx)
    by_contra hmiss
    have hboth := (allows_and_shares_iff hi (hdis before (p :: rest) he)
      (hr p (by rw [he]; simp))).mpr (Bool.not_eq_false _ ▸ hmiss)
    exact hshare before p rest he hboth.2 hboth.1
  · intro hmiss
    have state (before rest : List Packet) (he : ps = before ++ rest) :
        Inv (d.after before) ∧ BuffersDisjoint (d.after before) := by
      apply disjoint_after (inv_new hnew) (buffersDisjoint_new hnew)
      · exact fun x hx ↦ hr x (by rw [he]; exact List.mem_append_left _ hx)
      · rw [he, Lib.along_append] at hmiss
        exact hmiss.1
    refine ⟨fun before rest he ↦ (state before rest he).2, ?_⟩
    rw [Lib.along_iff] at hmiss ⊢
    intro before p rest he hs hv
    obtain ⟨hi, hd⟩ := state before (p :: rest) he
    have hm := (allows_and_shares_iff hi hd (hr p (by rw [he]; simp))).mp ⟨hv, hs⟩
    exact Bool.noConfusion ((hmiss before p rest he).symm.trans hm)

end

section Runs

attribute [local instance] x86Platform

/-- Two packets of one second each, and one of two hundred seconds around the first. -/
def enclosingRun : List Packet :=
  [testPacket 1000000000 100 100, testPacket 2000000000 100 100, testPacket 900000000 100 20001]

/-- Packets in order meet the condition. -/
theorem noAcceptedOverlap_inOrder : NoAcceptedOverlap (fixedSize 3) (enclosingRun.take 2) :=
  (noAcceptedOverlap_iff (new_fixedSize (by decide)) (by decide +kernel)).mpr (by decide +kernel)

/-- The third packet of `enclosingRun` is accepted, and overlaps the first. -/
theorem enclosingRun_overlaps :
    DuplicatePacketDetector.new (fixedSizeOptions 3) = .ok (fixedSize 3) ∧
      (∀ p ∈ enclosingRun, EndTimeInRange p) ∧ ¬NoAcceptedOverlap (fixedSize 3) enclosingRun := by
  have hnew := new_fixedSize (show (0 : Int) < 3 by decide)
  have hr : ∀ p ∈ enclosingRun, EndTimeInRange p := by decide +kernel
  refine ⟨hnew, hr, fun h ↦ ?_⟩
  have hi := (inv_new hnew).after fun p hp ↦ hr p (List.mem_of_mem_take (i := 2) hp)
  have hboth := (allows_and_shares_iff (p := testPacket 900000000 100 20001) hi
    (h.1 _ (enclosingRun.drop 2) rfl) (by decide +kernel)).mpr (by decide +kernel)
  exact Lib.along_iff.mp h.2 (enclosingRun.take 2) _ [] rfl hboth.2 hboth.1

end Runs
end ImportProxy.Detector
