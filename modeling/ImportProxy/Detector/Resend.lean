import ImportProxy.Detector.Slip

/-!
# Resent packets

A packet that was accepted is refused when it is offered again, for as long as
it is buffered and after it was evicted: along a run in which the slip scan
misses no enclosure, an evicted header ends before everything that is still
held, and the buffer stays full.
-/

namespace ImportProxy.Detector

open ImportProxy.Base

/-- The buffer still knows a header that it accepted: it holds it, or it is full of headers
that start after its end. -/
def Remembers (b : Lib.Ring DataPacketHeader) (h : DataPacketHeader) : Prop :=
  h ∈ b.toList ∨ b.full = true ∧ ∀ s ∈ b.toList, h.endTime < s.startTime

namespace StreamInv

variable {name : Bytes} {b b' : Lib.Ring DataPacketHeader} {g h : DataPacketHeader}

/-- An append or a back-fill of a later header evicts only what ends before all that is kept. -/
theorem remembers_push (hi : StreamInv name b) (hd : DisjointBuffer b) (hm : Remembers b h)
    (hcap : b'.capacity = b.capacity) (hp : b'.toList.Perm (g :: b.retained))
    (hg : ∀ front, b.toList.head? = some front → b.full = true → front.endTime < g.startTime) :
    Remembers b' h := by
  cases hf : b.full with
  | false =>
    rw [Lib.Ring.retained_of_not_full hf] at hp
    rcases hm with hm | ⟨hx, -⟩
    · exact Or.inl (hp.mem_iff.mpr (List.mem_cons_of_mem g hm))
    · rw [hf] at hx
      exact Bool.noConfusion hx
  | true =>
    rw [Lib.Ring.retained_of_full hf] at hp
    obtain ⟨front, rest, hl⟩ := List.exists_cons_of_ne_nil hi.nonempty
    have hfront : b.toList.head? = some front := by rw [hl, List.head?_cons]
    have hasc : Lib.Ascending DataPacketHeader.startTime (front :: rest) := hl ▸ hi.ascending
    have hmem : front ∈ b.toList := hl ▸ List.mem_cons_self
    have hlate := hg front hfront hf
    rw [hl, List.tail_cons] at hp
    have hfull' : b'.full = true := by
      have hlen := hp.length_eq
      rw [List.length_cons] at hlen
      have hold := (Lib.Ring.full_iff b).mp hf
      rw [hl, List.length_cons] at hold
      exact (Lib.Ring.full_iff b').mpr (by omega)
    -- Whatever ends no later than the front does ends before all that the push leaves.
    have later {e : Int} (he : e ≤ front.endTime) : ∀ s ∈ b'.toList, e < s.startTime := by
      intro s hs
      rcases List.mem_cons.mp (hp.mem_iff.mp hs) with rfl | hs
      · omega
      · have hs' : s ∈ b.toList := hl ▸ List.mem_cons_of_mem front hs
        have := hi.endTime_lt hd hmem hs' (hasc.head_lt s hs)
        omega
    rcases hm with hm | ⟨-, hm⟩
    · rw [hl] at hm
      rcases List.mem_cons.mp hm with rfl | hm
      · exact Or.inr ⟨hfull', later le_rfl⟩
      · exact Or.inl (hp.mem_iff.mpr (List.mem_cons_of_mem g hm))
    · have hbefore := hm front hmem
      have hspan := hi.spans front hmem
      exact Or.inr ⟨hfull', later (by omega)⟩

/-- A call keeps what the buffer remembers when the scan misses no enclosure. -/
theorem remembers_step {v : Except AllowError Bool} (hi : StreamInv name b)
    (hd : DisjointBuffer b) (hspan : g.startTime ≤ g.endTime)
    (hmiss : missesEnclosed b g = false) (hm : Remembers b h) (hstep : OfferStep b g v b') :
    Remembers b' h := by
  cases hstep with
  | compareThrew e hf => exact hm
  | duplicate hf => exact hm
  | appended back hf hback hlt =>
    apply hi.remembers_push hd hm (Lib.Ring.capacity_pushBack b g)
    · rw [Lib.Ring.toList_pushBack hi.nonempty]
      exact List.perm_append_singleton g b.retained
    · intro front hfront _
      have := hi.endTime_le_back hd hback front (List.mem_of_head? hfront)
      omega
  | frontInserted front hf hfront hlt hroom =>
    rcases hm with hm | ⟨hfull, -⟩
    · apply Or.inl
      rw [Lib.Ring.toList_pushFront_of_not_full hroom]
      exact List.mem_cons_of_mem g hm
    · rw [hroom] at hfull
      exact Bool.noConfusion hfull
  | expired front hf hfront hlt hfull => exact hm
  | slipped hf hs => exact hm
  | backFilled back front hf hback hfront hle hge hs =>
    apply hi.remembers_push hd hm (by simp)
    · rw [hi.toList_backFill hs]
      exact List.perm_orderedInsert _ _ _
    · intro front' hfront' _
      rw [hfront] at hfront'
      cases hfront'
      have hmem := List.mem_of_head? hfront
      have hdis := hi.disjoint_of_notMissed hspan hmiss hf hs front hmem
      rcases (DataPacketHeader.disjoint_interval_iff hspan (hi.spans front hmem)).mp hdis
        with hx | hx
      · omega
      · exact hx
  | empty hempty => exact hm

/-- What an accepting call leaves holds the accepted header. -/
theorem mem_of_ok (hi : StreamInv name b) (hstep : OfferStep b h (.ok true) b') :
    h ∈ b'.toList := by
  cases hstep with
  | appended back hf hback hlt =>
    rw [Lib.Ring.toList_pushBack hi.nonempty]
    simp
  | backFilled back front hf hback hfront hle hge hs =>
    rw [hi.toList_backFill hs]
    exact Lib.mem_insertByKey.mpr (Or.inl rfl)

/-- A remembered header is not accepted. -/
theorem not_ok_of_remembers (hi : StreamInv name b) (hspan : h.startTime ≤ h.endTime)
    (hm : Remembers b h) : ¬OfferStep b h (.ok true) b' := by
  intro hstep
  have hfind : findHeader b.toList h = .ok false := by
    cases hstep <;> assumption
  rcases hm with hm | ⟨-, hm⟩
  · exact findHeader_ne_false_of_mem hm hfind
  · cases hstep with
    | appended back hf hback hlt =>
      have hmem := List.mem_of_getLast? hback
      have := hm back hmem
      have := hi.spans back hmem
      omega
    | backFilled back front hf hback hfront hle hge hs =>
      have := hm front (List.mem_of_head? hfront)
      omega

end StreamInv

section

variable [Platform]

/-- The packets agree in all that the detector's verdict can depend on. -/
structure SamePacket (p q : Packet) : Prop where
  name : toName p.streamIdentifier = toName q.streamIdentifier
  startTime : Platform.timestampToMicroseconds p.startTime =
    Platform.timestampToMicroseconds q.startTime
  samplingRate : p.samplingRate = q.samplingRate
  numberOfSamples : p.numberOfSamples = q.numberOfSamples

/-- Such packets have the same header. -/
theorem SamePacket.ofPacket_eq {p q : Packet} (h : SamePacket p q) :
    DataPacketHeader.ofPacket p = DataPacketHeader.ofPacket q := by
  unfold DataPacketHeader.ofPacket getEndTimeInMicroSeconds
  rw [h.name, h.startTime, h.samplingRate, h.numberOfSamples]

/-- The detector remembers a header in the buffer of its stream. -/
def RemembersHeader (d : DuplicatePacketDetector) (h : DataPacketHeader) : Prop :=
  ∃ b, d.mCircularBuffers h.name = some b ∧ Remembers b h

/-- One call keeps what the detector remembers when the scan misses no enclosure. -/
theorem RemembersHeader.step {d d' : DuplicatePacketDetector} {p : Packet} {h : DataPacketHeader}
    {v : Except AllowError Bool} (hm : RemembersHeader d h) (hi : Inv d)
    (hd : BuffersDisjoint d) (hr : EndTimeInRange p) (hmiss : enclosureMissed d p = false)
    (hstep : CallStep d p v d') : RemembersHeader d' h := by
  obtain ⟨b, hb, hmem⟩ := hm
  cases hstep with
  | unpackFailed e hp => exact ⟨b, hb, hmem⟩
  | createFailed g e hp hnone hc => exact ⟨b, hb, hmem⟩
  | created g c hp hnone hc =>
    have hne : h.name ≠ g.name := fun he ↦ by rw [he, hnone] at hb; cases hb
    exact ⟨b, by rw [withBuffer_of_ne _ hne]; exact hb, hmem⟩
  | offered g c c' _ hp hc hs =>
    by_cases hne : h.name = g.name
    · rw [hne, hc] at hb
      cases hb
      rw [enclosureMissed_eq hp hc] at hmiss
      refine ⟨c', by rw [hne, withBuffer_self], ?_⟩
      exact (hi.stream g.name _ hc).remembers_step ((buffersDisjoint_iff d).mp hd g.name _ hc)
        (DataPacketHeader.startTime_le_endTime hp hr) hmiss hmem hs
    · exact ⟨b, by rw [withBuffer_of_ne _ hne]; exact hb, hmem⟩

/-- A call that returns true has a header, and leaves a state that remembers it. -/
theorem remembersHeader_of_ok {d d' : DuplicatePacketDetector} {p : Packet} (hi : Inv d)
    (hstep : CallStep d p (.ok true) d') :
    ∃ h, DataPacketHeader.ofPacket p = .ok h ∧ RemembersHeader d' h := by
  cases hstep with
  | created h b hp hb hc =>
    refine ⟨h, hp, b.pushBack h, withBuffer_self _ _ _, Or.inl ?_⟩
    rw [toList_created hi.configured hc]
    exact List.mem_singleton_self h
  | offered h b b' _ hp hb hs =>
    exact ⟨h, hp, b', withBuffer_self _ _ _, Or.inl ((hi.stream h.name b hb).mem_of_ok hs)⟩

/-- A call on a packet whose header is remembered does not return true. -/
theorem not_ok_of_remembersHeader {d d' : DuplicatePacketDetector} {p : Packet}
    {h : DataPacketHeader} (hi : Inv d) (hr : EndTimeInRange p)
    (hp : DataPacketHeader.ofPacket p = .ok h) (hm : RemembersHeader d h) :
    ¬CallStep d p (.ok true) d' := by
  obtain ⟨b, hb, hmem⟩ := hm
  intro hstep
  cases hstep with
  | created g c hp' hnone hc =>
    rw [hp] at hp'
    cases hp'
    rw [hb] at hnone
    cases hnone
  | offered g c c' _ hp' hc hs =>
    rw [hp] at hp'
    cases hp'
    rw [hb] at hc
    cases hc
    exact (hi.stream h.name b hb).not_ok_of_remembers
      (DataPacketHeader.startTime_le_endTime hp hr) hmem hs

/-- In the run, no call on a packet returns true after one on the same packet did. -/
def AtMostOnce (d : DuplicatePacketDetector) (ps : List Packet) : Prop :=
  ∀ before p between q rest, ps = before ++ p :: (between ++ q :: rest) → SamePacket p q →
    (d.after before).allows p → ¬(d.after (before ++ p :: between)).allows q

/-- A run accepts every packet at most once when no packet of it encloses a buffered header
that the slip scan misses. -/
theorem atMostOnce_of_noEnclosureMissed {options : DuplicatePacketDetectorOptions}
    {d : DuplicatePacketDetector} {ps : List Packet}
    (hnew : DuplicatePacketDetector.new options = .ok d) (hr : ∀ p ∈ ps, EndTimeInRange p)
    (hmiss : Lib.Along DuplicatePacketDetector.next (fun d p ↦ enclosureMissed d p = false) d ps) :
    AtMostOnce d ps := by
  rintro before p between q rest rfl hsame hp hq
  rw [Lib.along_append] at hmiss
  obtain ⟨hbefore, hmissp, hrest⟩ := hmiss
  rw [Lib.along_append] at hrest
  have hrp : EndTimeInRange p := hr p (by simp)
  have hrq : EndTimeInRange q := hr q (by simp)
  obtain ⟨hi, hd⟩ := disjoint_after (inv_new hnew) (buffersDisjoint_new hnew)
    (fun x hx ↦ hr x (by simp [hx])) hbefore
  have hstep := call_step (d.after before) p
  rw [show ((d.after before).allow p).1 = .ok true from hp] at hstep
  obtain ⟨h, hph, hm⟩ := remembersHeader_of_ok hi hstep
  -- Every step between the two calls keeps the header remembered.
  have hbetween := (hrest.1.and (Lib.along_of_forall (p := EndTimeInRange)
    fun x hx ↦ hr x (by simp [hx]))).invariant
      (fun d ↦ Inv d ∧ BuffersDisjoint d ∧ RemembersHeader d h)
      ⟨hi.next hrp, hd.step hi hrp hmissp (call_step _ p), hm⟩
      (fun d x ⟨hi, hd, hm⟩ ⟨hx, hrx⟩ ↦ ⟨hi.next hrx, hd.step hi hrx hx (call_step d x),
        hm.step hi hd hrx hx (call_step d x)⟩)
  obtain ⟨hi', -, hm'⟩ := hbetween
  have hlast := call_step (d.after (before ++ p :: between)) q
  rw [show ((d.after (before ++ p :: between)).allow q).1 = .ok true from hq] at hlast
  have hst : d.after (before ++ p :: between) =
      between.foldl DuplicatePacketDetector.next ((d.after before).next p) := by
    unfold DuplicatePacketDetector.after
    rw [List.foldl_append, List.foldl_cons]
  rw [hst] at hlast
  exact not_ok_of_remembersHeader hi' hrq (hsame.ofPacket_eq ▸ hph) hm' hlast

end

section Runs

attribute [local instance] x86Platform

/-- Each of two packets twice, the second pair after the first. -/
theorem atMostOnce_everyOther :
    AtMostOnce (fixedSize 1) [testPacket 1000000000 100 100, testPacket 1000000000 100 100,
      testPacket 1001000000 100 100, testPacket 1001000000 100 100] :=
  atMostOnce_of_noEnclosureMissed (new_fixedSize (by decide)) (by decide +kernel)
    (by decide +kernel)

/-- `enclosingRun`, a later packet that evicts the enclosing one, and the enclosing one again. -/
def resendRun : List Packet :=
  enclosingRun ++ [testPacket 3000000000 100 100, testPacket 900000000 100 20001]

/-- The third packet of `resendRun` is accepted again after it was evicted. -/
theorem resendRun_accepted_twice :
    DuplicatePacketDetector.new (fixedSizeOptions 3) = .ok (fixedSize 3) ∧
      (∀ p ∈ resendRun, EndTimeInRange p) ∧ ¬AtMostOnce (fixedSize 3) resendRun := by
  refine ⟨new_fixedSize (by decide), by decide +kernel, fun h ↦ ?_⟩
  exact h (resendRun.take 2) (testPacket 900000000 100 20001) [testPacket 3000000000 100 100]
    (testPacket 900000000 100 20001) [] rfl ⟨rfl, rfl, rfl, rfl⟩ (by decide +kernel)
    (by decide +kernel)

end Runs
end ImportProxy.Detector
