import ImportProxy.Detector.Memory

/-!
# Out of order delivery

A list of packets that fits into the buffer of its stream, offered in any order
to a fresh detector. Because a front insertion is refused, every packet is
allowed exactly when the first one offered is the earliest.
-/

namespace ImportProxy.Detector

open ImportProxy.Base

section

variable [Platform] {name : Bytes} {rate : Int} {family : Set Packet} {size : Int}

/-- While there is room, a new member is allowed exactly when it is the first or comes after
an earlier-starting one. -/
theorem PacketFamily.allows_after (hF : PacketFamily name rate family) {before : List Packet}
    {p : Packet} (hbefore : ∀ q ∈ before, q ∈ family) (hp : p ∈ family) (hnew : p ∉ before)
    (hroom : before.length < size.toNat) :
    ((fixedSize size).after before).allows p ↔
      before = [] ∨ ∃ q ∈ before, startMuSec q < startMuSec p := by
  obtain ⟨hw, hc⟩ := hF.window_after (show 0 < size by omega) hbefore
  obtain ⟨h, hh, hph, hstart⟩ := hF.headerOf_eq_some hp
  obtain ⟨-, -, hv⟩ := hw.next hF.headerFamily (fun s hs ↦ mem_of_mem_filterMap hbefore hs)
    hph ⟨p, hp, hph⟩
  -- Nothing has been evicted yet.
  have hheld (s : DataPacketHeader) : s ∈ ((fixedSize size).after before).headers name ↔
      ∃ q ∈ before, headerOf q = some s := by
    have hle := (List.length_filterMap_le headerOf before)
    have hdup := (List.dedup_sublist (before.filterMap headerOf)).length_le
    rw [hw.headers_eq, hc, Lib.latest_of_length_le, Lib.mem_ranked, List.mem_filterMap]
    rw [Lib.length_ranked]
    omega
  have hout : h ∉ ((fixedSize size).after before).headers name := by
    rw [hheld]
    rintro ⟨q, hq, hqh⟩
    obtain ⟨g, hg, -, hgs⟩ := hF.headerOf_eq_some (hbefore q hq)
    rw [hqh] at hg
    cases hg
    have he : q = p := hF.startMuSec_inj (hbefore q hq) hp (by rw [← hgs, ← hstart])
    exact hnew (he ▸ hq)
  have hempty : before.filterMap headerOf = [] ↔ before = [] := by
    cases before with
    | nil => simp
    | cons q before =>
      obtain ⟨g, hg, -⟩ := hF.headerOf_eq_some (hbefore q List.mem_cons_self)
      simp [hg]
  rw [hv, hempty, hstart]
  apply or_congr_right
  constructor
  · rintro ⟨-, s, hs, hlt⟩
    obtain ⟨q, hq, hqs⟩ := (hheld s).mp hs
    obtain ⟨g, hg, -, hgs⟩ := hF.headerOf_eq_some (hbefore q hq)
    rw [hqs] at hg
    cases hg
    exact ⟨q, hq, hgs ▸ hlt⟩
  · rintro ⟨q, hq, hlt⟩
    obtain ⟨g, hg, -, hgs⟩ := hF.headerOf_eq_some (hbefore q hq)
    exact ⟨hout, g, (hheld g).mpr ⟨q, hq, hg⟩, by rw [hgs]; exact hlt⟩

/-- Members that fit into the buffer are all allowed, in a given order, exactly when the first
one offered starts earliest. -/
theorem allows_all_iff_head_earliest {ps qs : List Packet}
    (hF : PacketFamily name rate {p | p ∈ ps}) (hnodup : ps.Nodup) (hfit : ps.length ≤ size)
    (horder : qs.Perm ps) :
    Lib.Along DuplicatePacketDetector.next (fun d p ↦ d.allows p) (fixedSize size) qs ↔
      ∀ first ∈ qs.head?, ∀ p ∈ qs, startMuSec first ≤ startMuSec p := by
  have hmem : ∀ q ∈ qs, q ∈ ps := fun q hq ↦ horder.mem_iff.mp hq
  have hnd : qs.Nodup := horder.nodup_iff.mpr hnodup
  have hdiff : qs.Pairwise fun p q ↦ startMuSec p ≠ startMuSec q := by
    refine hnd.imp_of_mem ?_
    intro p q hp hq hne he
    exact hne (hF.startMuSec_inj (hmem p hp) (hmem q hq) he)
  rw [Lib.along_iff, ← Lib.preceded_iff_head_le hdiff]
  apply forall_congr'
  intro before
  apply forall_congr'
  intro p
  apply forall_congr'
  intro rest
  apply imp_congr_right
  rintro rfl
  have hlen := horder.length_eq
  rw [List.length_append, List.length_cons] at hlen
  have hnew : p ∉ before := by
    intro hp
    exact (List.nodup_append.mp hnd).2.2 p hp p (by simp) rfl
  exact hF.allows_after (fun q hq ↦ hmem q (by simp [hq])) (hmem p (by simp)) hnew (by omega)

end

section Runs

attribute [local instance] x86Platform

/-- Three packets that fit, the earliest of them first. -/
theorem allows_all_earliestFirst :
    Lib.Along DuplicatePacketDetector.next (fun d p ↦ d.allows p) (fixedSize 3)
      [testPacket 1000000000 100 100, testPacket 1002000000 100 100,
        testPacket 1001000000 100 100] :=
  (allows_all_iff_head_earliest packetFamily_threePackets (by decide +kernel) (by decide)
    (by decide +kernel)).mpr (by decide +kernel)

/-- Two packets that fit, the newer one first: the older one is refused. -/
theorem twoPackets_newerFirst_refused :
    PacketFamily (ascii "UU.CTU.HHZ..01") 100
        {p | p ∈ [testPacket 1000000000 100 100, testPacket 1001000000 100 100]} ∧
      ¬Lib.Along DuplicatePacketDetector.next (fun d p ↦ d.allows p) (fixedSize 2)
        [testPacket 1001000000 100 100, testPacket 1000000000 100 100] := by
  refine ⟨packetFamily_of_list (by decide) (by decide +kernel) (by decide +kernel), ?_⟩
  decide +kernel

end Runs
end ImportProxy.Detector
