import ImportProxy.Detector.Invariant
import Mathlib.Data.List.Induction

/-!
# Verdicts and memory

A call that returns true enters the packet's header in its stream's buffer, and
any other call leaves every buffer as it was, with one exception: a packet older
than everything in a buffer with room is entered and yet refused
(`src/duplicatePacketDetector.cpp:319–339`).
-/

namespace ImportProxy.Detector

open ImportProxy.Base

/-- The new list is the old one with the header, without the earliest-starting old header
when the buffer was full. -/
def Entered (old : Option (Lib.Ring DataPacketHeader)) (h : DataPacketHeader)
    (new : List DataPacketHeader) : Prop :=
  match old with
  | none => new = [h]
  | some b =>
    if b.full then
      ∃ e ∈ b.toList, (∀ s ∈ b.toList, e.startTime ≤ s.startTime) ∧ (e :: new).Perm (h :: b.toList)
    else new.Perm (h :: b.toList)

/-- The header is older than the front of a buffer that has room and holds no equal one. -/
def insertsAtFront (b : Lib.Ring DataPacketHeader) (h : DataPacketHeader) : Bool :=
  decide (findHeader b.toList h = .ok false) && !b.full &&
    b.toList.head?.any fun front ↦ decide (h.endTime < front.startTime)

section

variable [Platform]

/-- The packet is one that `insertsAtFront` describes for the buffer of its stream. -/
def frontInsertion (d : DuplicatePacketDetector) (p : Packet) : Bool :=
  match DataPacketHeader.ofPacket p with
  | .error _ => false
  | .ok h =>
    match d.mCircularBuffers h.name with
    | none => false
    | some b => insertsAtFront b h

/-- Either the call returns true, enters the header of the packet in the buffer of its stream
and leaves the other streams, or it leaves every buffer as it was. -/
def AllOrNothing (d : DuplicatePacketDetector) (p : Packet) : Prop :=
  (d.allows p ∧ ∃ h, DataPacketHeader.ofPacket p = .ok h ∧
    Entered (d.mCircularBuffers h.name) h ((d.next p).headers h.name) ∧
    ∀ name, name ≠ h.name → (d.next p).mCircularBuffers name = d.mCircularBuffers name) ∨
  (¬d.allows p ∧ (d.next p).mCircularBuffers = d.mCircularBuffers)

/-- Every header held after the run was offered by a call that returned true. -/
def OnlyAccepted (d : DuplicatePacketDetector) (ps : List Packet) : Prop :=
  ∀ name, ∀ s ∈ (d.after ps).headers name, ∃ before p rest, ps = before ++ p :: rest ∧
    DataPacketHeader.ofPacket p = .ok s ∧ (d.after before).allows p

end

theorem insertsAtFront_iff (b : Lib.Ring DataPacketHeader) (h : DataPacketHeader) :
    insertsAtFront b h = true ↔ findHeader b.toList h = .ok false ∧ b.full = false ∧
      ∃ front, b.toList.head? = some front ∧ h.endTime < front.startTime := by
  simp only [insertsAtFront, Bool.and_eq_true, decide_eq_true_eq, Bool.not_eq_true',
    Option.any_eq_true, and_assoc]

namespace StreamInv

variable {name : Bytes} {b b' : Lib.Ring DataPacketHeader} {h : DataPacketHeader}

/-- Adding the header to what an append retains enters it. -/
theorem entered_of_perm (hi : StreamInv name b) {new : List DataPacketHeader}
    (hp : new.Perm (h :: b.retained)) : Entered (some b) h new := by
  cases hf : b.full with
  | false =>
    rw [Lib.Ring.retained_of_not_full hf] at hp
    simpa only [Entered, hf, Bool.false_eq_true, if_false] using hp
  | true =>
    obtain ⟨front, rest, hl⟩ := List.exists_cons_of_ne_nil hi.nonempty
    rw [Lib.Ring.retained_of_full hf, hl, List.tail_cons] at hp
    simp only [Entered, hf, if_true]
    refine ⟨front, hl ▸ List.mem_cons_self, ?_, ?_⟩
    · exact hi.ascending.head_le (by rw [hl, List.head?_cons])
    · rw [hl]
      exact (hp.cons front).trans (List.Perm.swap h front rest)

/-- An exit that is not a front insertion enters the header exactly when it returns true. -/
theorem entered_or_unchanged {v : Except AllowError Bool} (hi : StreamInv name b)
    (hfront : insertsAtFront b h = false) (hstep : OfferStep b h v b') :
    v = .ok true ∧ Entered (some b) h b'.toList ∨ v ≠ .ok true ∧ b' = b := by
  cases hstep with
  | compareThrew e hf => exact Or.inr ⟨nofun, rfl⟩
  | duplicate hf => exact Or.inr ⟨nofun, rfl⟩
  | appended back hf hback hlt =>
    refine Or.inl ⟨rfl, hi.entered_of_perm ?_⟩
    rw [Lib.Ring.toList_pushBack hi.nonempty]
    exact List.perm_append_singleton h b.retained
  | frontInserted front hf hhead hlt hroom =>
    have hx := (insertsAtFront_iff b h).mpr ⟨hf, hroom, front, hhead, hlt⟩
    exact Bool.noConfusion (hfront.symm.trans hx)
  | expired front hf hhead hlt hfull => exact Or.inr ⟨nofun, rfl⟩
  | slipped hf hs => exact Or.inr ⟨nofun, rfl⟩
  | backFilled back front hf hback hhead hle hge hs =>
    refine Or.inl ⟨rfl, hi.entered_of_perm ?_⟩
    rw [hi.toList_backFill hs]
    exact List.perm_orderedInsert _ _ _
  | empty hempty => exact Or.inr ⟨nofun, rfl⟩

/-- A front insertion returns false and changes the buffer. -/
theorem refused_and_changed {v : Except AllowError Bool} (hi : StreamInv name b)
    (hspan : h.startTime ≤ h.endTime) (hfront : insertsAtFront b h = true)
    (hstep : OfferStep b h v b') : v = .ok false ∧ b' ≠ b := by
  obtain ⟨hf, hroom, front, hhead, hlt⟩ := (insertsAtFront_iff b h).mp hfront
  have hbefore := hi.endTime_lt_of_front hhead hlt
  cases hstep with
  | compareThrew e hf' => rw [hf] at hf'; cases hf'
  | duplicate hf' => rw [hf] at hf'; cases hf'
  | appended back hf' hback hlt' =>
    have hmem := List.mem_of_getLast? hback
    have := hbefore back hmem
    have := hi.spans back hmem
    omega
  | frontInserted front' hf' hhead' hlt' hroom' =>
    refine ⟨rfl, fun he ↦ ?_⟩
    have hl := congrArg (fun r ↦ r.toList.length) he
    simp only [Lib.Ring.toList_pushFront_of_not_full hroom, List.length_cons] at hl
    omega
  | expired front' hf' hhead' hlt' hfull =>
    rw [hroom] at hfull
    exact Bool.noConfusion hfull
  | slipped hf' hs =>
    obtain ⟨s, hm, hslip⟩ := hs
    have := hbefore s hm
    simp only [DataPacketHeader.slips, Bool.or_eq_true, Bool.and_eq_true, decide_eq_true_eq]
      at hslip
    omega
  | backFilled back front' hf' hback hhead' hle hge hs =>
    have := hbefore front' (List.mem_of_head? hhead')
    omega
  | empty hempty => exact (hi.nonempty hempty).elim

end StreamInv

section

variable [Platform]

omit [Platform] in
/-- Storing a buffer that is already there changes nothing. -/
theorem withBuffer_same {d : DuplicatePacketDetector} {name : Bytes}
    {b : Lib.Ring DataPacketHeader} (hb : d.mCircularBuffers name = some b) :
    (d.withBuffer name b).mCircularBuffers = d.mCircularBuffers := by
  rw [DuplicatePacketDetector.withBuffer, ← hb]
  exact Function.update_eq_self _ _

omit [Platform] in
@[simp] theorem headers_withBuffer_self (d : DuplicatePacketDetector) (name : Bytes)
    (b : Lib.Ring DataPacketHeader) : (d.withBuffer name b).headers name = b.toList := by
  rw [DuplicatePacketDetector.headers, withBuffer_self]

omit [Platform] in
theorem headers_congr {d d' : DuplicatePacketDetector} {name : Bytes}
    (h : d'.mCircularBuffers name = d.mCircularBuffers name) :
    d'.headers name = d.headers name := by
  rw [DuplicatePacketDetector.headers, h, DuplicatePacketDetector.headers]

/-- A call leaves the buffers of other streams as they were. -/
theorem next_of_other {d d' : DuplicatePacketDetector} {p : Packet} {v : Except AllowError Bool}
    (hstep : CallStep d p v d') {name : Bytes}
    (hn : ∀ h, DataPacketHeader.ofPacket p = .ok h → name ≠ h.name) :
    d'.mCircularBuffers name = d.mCircularBuffers name := by
  cases hstep with
  | unpackFailed e hp => rfl
  | createFailed h e hp hb hc => rfl
  | created h b hp hb hc => exact withBuffer_of_ne _ (hn h hp)
  | offered h b b' _ hp hb hs => exact withBuffer_of_ne _ (hn h hp)

/-- In a reachable state a call is all or nothing exactly when it is no front insertion. -/
theorem allOrNothing_of_inv {d : DuplicatePacketDetector} {p : Packet} (hi : Inv d)
    (hr : EndTimeInRange p) : AllOrNothing d p ↔ frontInsertion d p = false := by
  have hstep := call_step d p
  unfold AllOrNothing DuplicatePacketDetector.allows
  generalize (d.allow p).1 = v at hstep ⊢
  generalize d.next p = d' at hstep ⊢
  cases hstep with
  | unpackFailed e hp => simp [frontInsertion, hp]
  | createFailed h e hp hb hc => simp [frontInsertion, hp, hb]
  | created h b hp hb hc =>
    have hentered : Entered none h ((d.withBuffer h.name (b.pushBack h)).headers h.name) := by
      rw [headers_withBuffer_self]
      exact toList_created hi.configured hc
    have hno : frontInsertion d p = false := by simp only [frontInsertion, hp, hb]
    refine iff_of_true (Or.inl ⟨rfl, h, hp, ?_, fun name hn ↦ withBuffer_of_ne _ hn⟩) hno
    rw [hb]
    exact hentered
  | offered h b b' _ hp hb hs =>
    have hsi := hi.stream h.name b hb
    have hfi : frontInsertion d p = insertsAtFront b h := by simp only [frontInsertion, hp, hb]
    rw [hfi]
    constructor
    · intro hall
      by_contra hx
      have hfront : insertsAtFront b h = true := Bool.not_eq_false _ ▸ hx
      obtain ⟨rfl, hne⟩ :=
        hsi.refused_and_changed (DataPacketHeader.startTime_le_endTime hp hr) hfront hs
      rcases hall with ⟨hv, -⟩ | ⟨-, hsame⟩
      · cases hv
      · have hat := congrFun hsame h.name
        rw [withBuffer_self, hb] at hat
        exact hne (Option.some.inj hat)
    · intro hfront
      rcases hsi.entered_or_unchanged hfront hs with ⟨hv, hent⟩ | ⟨hv, rfl⟩
      · refine Or.inl ⟨hv, h, hp, ?_, fun name hn ↦ withBuffer_of_ne _ hn⟩
        rw [headers_withBuffer_self, hb]
        exact hent
      · exact Or.inr ⟨hv, withBuffer_same hb⟩

omit [Platform] in
/-- What is entered is the header or was there before. -/
theorem mem_of_entered {old : Option (Lib.Ring DataPacketHeader)} {h s : DataPacketHeader}
    {new : List DataPacketHeader} (he : Entered old h new) (hs : s ∈ new) :
    s = h ∨ ∃ b, old = some b ∧ s ∈ b.toList := by
  cases old with
  | none =>
    rw [Entered] at he
    rw [he] at hs
    exact Or.inl (List.mem_singleton.mp hs)
  | some b =>
    have hmem : s ∈ h :: b.toList := by
      unfold Entered at he
      dsimp only at he
      split at he
      · obtain ⟨e, -, -, hp⟩ := he
        exact hp.mem_iff.mp (List.mem_cons_of_mem e hs)
      · exact he.mem_iff.mp hs
    rcases List.mem_cons.mp hmem with rfl | hm
    · exact Or.inl rfl
    · exact Or.inr ⟨b, rfl, hm⟩

/-- Along a run without front insertions only accepted headers are held. -/
theorem onlyAccepted_of_along {d : DuplicatePacketDetector} {ps : List Packet} (hi : Inv d)
    (hempty : d.mCircularBuffers = fun _ ↦ none) (hr : ∀ p ∈ ps, EndTimeInRange p)
    (hfront : Lib.Along DuplicatePacketDetector.next (fun d p ↦ frontInsertion d p = false) d ps) :
    OnlyAccepted d ps := by
  induction ps using List.reverseRecOn with
  | nil =>
    intro name s hs
    simp [DuplicatePacketDetector.after, DuplicatePacketDetector.headers, hempty] at hs
  | append_singleton ps p ih =>
    rw [Lib.along_append] at hfront
    have hr' : ∀ x ∈ ps, EndTimeInRange x := fun x hx ↦ hr x (List.mem_append_left _ hx)
    have hbefore := ih hr' hfront.1
    have hcall := (allOrNothing_of_inv (hi.after hr') (hr p (by simp))).mpr hfront.2.1
    -- A header held before the last call was offered by an earlier one.
    have earlier {name : Bytes} {s : DataPacketHeader} (hs : s ∈ (d.after ps).headers name) :
        ∃ before q rest, ps ++ [p] = before ++ q :: rest ∧
          DataPacketHeader.ofPacket q = .ok s ∧ (d.after before).allows q := by
      obtain ⟨before, q, rest, rfl, hq, hv⟩ := hbefore name s hs
      exact ⟨before, q, rest ++ [p], by simp, hq, hv⟩
    intro name s hs
    rw [DuplicatePacketDetector.after_concat] at hs
    rcases hcall with ⟨hv, h, hp, hent, hother⟩ | ⟨-, hsame⟩
    · by_cases hn : name = h.name
      · subst hn
        rcases mem_of_entered hent hs with rfl | ⟨b, hb, hm⟩
        · exact ⟨ps, p, [], rfl, hp, hv⟩
        · exact earlier (by rw [DuplicatePacketDetector.headers, hb]; exact hm)
      · rw [headers_congr (hother name hn)] at hs
        exact earlier hs
    · rw [headers_congr (congrFun hsame name)] at hs
      exact earlier hs

/-- A call in a reachable state is all or nothing exactly when it is no front insertion, it
never touches another stream, and without front insertions only accepted headers are held. -/
theorem allOrNothing_iff {options : DuplicatePacketDetectorOptions} {d : DuplicatePacketDetector}
    {ps : List Packet} {p : Packet} (hnew : DuplicatePacketDetector.new options = .ok d)
    (hr : ∀ x ∈ ps, EndTimeInRange x) (hp : EndTimeInRange p) :
    (AllOrNothing (d.after ps) p ↔ frontInsertion (d.after ps) p = false) ∧
    (∀ name, (∀ h, DataPacketHeader.ofPacket p = .ok h → name ≠ h.name) →
      ((d.after ps).next p).mCircularBuffers name = (d.after ps).mCircularBuffers name) ∧
    (Lib.Along DuplicatePacketDetector.next (fun d p ↦ frontInsertion d p = false) d ps →
      OnlyAccepted d ps) :=
  ⟨allOrNothing_of_inv ((inv_new hnew).after hr) hp,
    fun _ hn ↦ next_of_other (call_step _ p) hn,
    onlyAccepted_of_along (inv_new hnew) (new_buffers hnew) hr⟩

end

section Runs

attribute [local instance] x86Platform

/-- A packet in order. -/
theorem allOrNothing_inOrder :
    AllOrNothing ((fixedSize 2).after [testPacket 1000000000 100 100])
      (testPacket 1001000000 100 100) :=
  (allOrNothing_iff (new_fixedSize (by decide)) (by decide +kernel)
    (by decide +kernel)).1.mpr (by decide +kernel)

/-- A packet older than the only one held is refused and entered. -/
theorem frontInsertion_refused :
    DuplicatePacketDetector.new (fixedSizeOptions 2) = .ok (fixedSize 2) ∧
      EndTimeInRange (testPacket 1001000000 100 100) ∧
      EndTimeInRange (testPacket 1000000000 100 100) ∧
      ¬AllOrNothing ((fixedSize 2).after [testPacket 1001000000 100 100])
        (testPacket 1000000000 100 100) := by
  have hnew := new_fixedSize (show (0 : Int) < 2 by decide)
  have hr : ∀ p ∈ [testPacket 1001000000 100 100], EndTimeInRange p := by decide +kernel
  have hp : EndTimeInRange (testPacket 1000000000 100 100) := by decide +kernel
  refine ⟨hnew, hr _ (List.mem_singleton_self _), hp, fun h ↦ ?_⟩
  have hfront := (allOrNothing_of_inv ((inv_new hnew).after hr) hp).mp h
  exact absurd hfront (by decide +kernel)

end Runs
end ImportProxy.Detector
