import ImportProxy.Lib.Fifo
import ImportProxy.Lib.Pool

/-!
# The import queue

Calls of `addPacketCallback` as threads on the import queue, against the
propagator's removals: `src/proxy.cpp:76–110,126–127`. Each `size`, `try_pop`
and `try_push` is a step of its own, so the size that a call has read may be out
of date when the call acts on it. Where no such size is, every call inserts its
packet, and only the oldest packets of full queues are lost.
-/

namespace ImportProxy.Proxy

universe u

/-- Why an element left the queue: the propagator took it, or a call evicted it from a queue of
the given size. -/
inductive Removal where
  | propagated
  | evicted (size : Nat)
  deriving DecidableEq, Repr

/-- The import queue, with what was inserted into it and removed from it so far. -/
structure ImportQueue (π : Type u) where
  mImportExportQueue : Lib.Fifo π
  pushed : List π := []
  removed : List (π × Removal) := []
  deriving DecidableEq

/-- The next step of a call of `addPacketCallback`. -/
inductive AddStage where
  /-- Reads the size and compares it with the capacity. -/
  | readSize
  /-- Tries to remove the oldest packet. -/
  | evict
  /-- Tries to insert the packet. -/
  | push
  /-- Has returned; whether the insertion succeeded. -/
  | returned (pushed : Bool)
  deriving DecidableEq, Repr

/-- A call of `addPacketCallback`. -/
structure AddCall (π : Type u) where
  packet : π
  stage : AddStage := .readSize
  /-- The size that it has read last. -/
  approximateSize : Nat := 0
  deriving DecidableEq

variable {π : Type u}

/-- One step of `ProxyImpl::addPacketCallback`; `src/proxy.cpp:76–110`. -/
def addPacketStep (s : ImportQueue π) (call : AddCall π) : ImportQueue π × AddCall π :=
  match call.stage with
  | .readSize =>
    let approximateSize := s.mImportExportQueue.size
    if approximateSize ≥ s.mImportExportQueue.capacity then
      (s, { call with stage := .evict, approximateSize })
    else (s, { call with stage := .push, approximateSize })
  | .evict =>
    match s.mImportExportQueue.tryPop with
    | none => (s, { call with stage := .push })
    | some (workSpace, queue) =>
      ({ s with
          mImportExportQueue := queue
          removed := s.removed ++ [(workSpace, .evicted s.mImportExportQueue.size)] },
        { call with stage := .readSize })
  | .push =>
    match s.mImportExportQueue.tryPush call.packet with
    | none => (s, { call with stage := .returned false })
    | some queue =>
      ({ s with mImportExportQueue := queue, pushed := s.pushed ++ [call.packet] },
        { call with stage := .returned true })
  | .returned _ => (s, call)

/-- The propagator's `try_pop`; `src/proxy.cpp:126–127`. -/
def propagatorPop (s : ImportQueue π) : ImportQueue π :=
  match s.mImportExportQueue.tryPop with
  | none => s
  | some (packet, queue) =>
    { s with mImportExportQueue := queue, removed := s.removed ++ [(packet, .propagated)] }

/-- The steps of a call: what is known at the step, and what it leaves. -/
inductive AddStep (s : ImportQueue π) (call : AddCall π) : ImportQueue π → AddCall π → Prop
  | full (hs : call.stage = .readSize)
      (hfull : s.mImportExportQueue.size = s.mImportExportQueue.capacity) :
      AddStep s call s
        { call with stage := .evict, approximateSize := s.mImportExportQueue.size }
  | room (hs : call.stage = .readSize)
      (hroom : s.mImportExportQueue.size < s.mImportExportQueue.capacity) :
      AddStep s call s
        { call with stage := .push, approximateSize := s.mImportExportQueue.size }
  | evicted (hs : call.stage = .evict) (workSpace : π) (queue : Lib.Fifo π)
      (hpop : s.mImportExportQueue.toList = workSpace :: queue.toList)
      (hcap : queue.capacity = s.mImportExportQueue.capacity) :
      AddStep s call
        { s with
          mImportExportQueue := queue
          removed := s.removed ++ [(workSpace, .evicted s.mImportExportQueue.size)] }
        { call with stage := .readSize }
  | nothing (hs : call.stage = .evict) (hempty : s.mImportExportQueue.toList = []) :
      AddStep s call s { call with stage := .push }
  | pushed (hs : call.stage = .push) (queue : Lib.Fifo π)
      (hroom : s.mImportExportQueue.size < s.mImportExportQueue.capacity)
      (hpush : queue.toList = s.mImportExportQueue.toList ++ [call.packet])
      (hcap : queue.capacity = s.mImportExportQueue.capacity) :
      AddStep s call { s with mImportExportQueue := queue, pushed := s.pushed ++ [call.packet] }
        { call with stage := .returned true }
  | dropped (hs : call.stage = .push)
      (hfull : s.mImportExportQueue.size = s.mImportExportQueue.capacity) :
      AddStep s call s { call with stage := .returned false }
  | gone (pushed : Bool) (hs : call.stage = .returned pushed) : AddStep s call s call

/-- A step is one of the listed ones. -/
theorem add_step (s : ImportQueue π) (call : AddCall π) :
    AddStep s call (addPacketStep s call).1 (addPacketStep s call).2 := by
  unfold addPacketStep
  cases hs : call.stage with
  | readSize =>
    have hle := s.mImportExportQueue.size_le
    dsimp only
    split
    · next h => exact .full hs (by omega)
    · next h => exact .room hs (by omega)
  | evict =>
    dsimp only
    split
    · next h => exact .nothing hs (Lib.Fifo.tryPop_eq_none_iff.mp h)
    · next workSpace queue h =>
      obtain ⟨hpop, hcap⟩ := Lib.Fifo.tryPop_eq_some_iff.mp h
      exact .evicted hs workSpace queue hpop hcap
  | push =>
    dsimp only
    split
    · next h => exact .dropped hs (Lib.Fifo.tryPush_eq_none_iff.mp h)
    · next queue h =>
      obtain ⟨hroom, hpush, hcap⟩ := Lib.Fifo.tryPush_eq_some_iff.mp h
      exact .pushed hs queue hroom hpush hcap
  | returned pushed => exact .gone pushed hs

/-- A call that takes its next steps without interference. -/
def alone : Nat → ImportQueue π × AddCall π → ImportQueue π × AddCall π
  | 0, left => left
  | n + 1, left => alone n (addPacketStep left.1 left.2)

/-- A call that has returned stays as it is. -/
theorem alone_of_returned {s : ImportQueue π} {call : AddCall π} {pushed : Bool}
    (hs : call.stage = .returned pushed) (n : Nat) : alone n (s, call) = (s, call) := by
  induction n with
  | zero => rfl
  | succ n ih =>
    rw [alone, addPacketStep, hs]
    exact ih

/-- With room, a call without interference inserts its packet. -/
theorem alone_of_room {s : ImportQueue π} (packet : π) (n : Nat)
    (hroom : s.mImportExportQueue.size < s.mImportExportQueue.capacity) :
    (alone (n + 2) (s, { packet })).2.stage = .returned true ∧
      (alone (n + 2) (s, { packet })).1.mImportExportQueue.toList =
        s.mImportExportQueue.toList ++ [packet] := by
  cases hpush : s.mImportExportQueue.tryPush packet with
  | none =>
    rw [Lib.Fifo.tryPush_eq_none_iff] at hpush
    omega
  | some queue =>
    simp only [alone, addPacketStep, if_neg (not_le.mpr hroom), hpush]
    rw [alone_of_returned rfl]
    exact ⟨rfl, (Lib.Fifo.tryPush_eq_some_iff.mp hpush).2.1⟩

/-- Without interference a call inserts its packet, and evicts the oldest one of a full queue. -/
theorem call_alone (s : ImportQueue π) (packet : π) (hpos : 0 < s.mImportExportQueue.capacity) :
    (alone 4 (s, { packet })).2.stage = .returned true ∧
      (alone 4 (s, { packet })).1.mImportExportQueue.toList =
        (if s.mImportExportQueue.size = s.mImportExportQueue.capacity
          then s.mImportExportQueue.toList.tail else s.mImportExportQueue.toList) ++ [packet] := by
  have hle := s.mImportExportQueue.size_le
  by_cases hfull : s.mImportExportQueue.size = s.mImportExportQueue.capacity
  · obtain ⟨workSpace, queue, hpop, hl, hcap, hsize⟩ :=
      Lib.Fifo.exists_tryPop (hfull ▸ hpos)
    have hroom : queue.size < queue.capacity := by omega
    rw [if_pos hfull, hl, List.tail_cons, alone, alone]
    simp only [addPacketStep, hfull, ge_iff_le, Nat.le_refl, if_true, hpop]
    exact alone_of_room packet 0 hroom
  · rw [if_neg hfull]
    exact alone_of_room packet 2 (by omega)

/-- Any number of calls, each with its packet, against the propagator. -/
def importQueue : Lib.Program (ImportQueue π) (AddCall π) π Unit Unit where
  start packet := { packet }
  act s _ call _ := addPacketStep s call
  env s _ := propagatorPop s

/-- The empty queue before any call. -/
def emptyImportQueue (capacity : Nat) : Lib.Pool (ImportQueue π) (AddCall π) :=
  ⟨{ mImportExportQueue := Lib.Fifo.empty capacity }, []⟩

/-- The packet of a call that has returned. -/
def AddCall.handled (call : AddCall π) : List π :=
  match call.stage with
  | .returned _ => [call.packet]
  | .readSize | .evict | .push => []

/-- Every call that has returned has inserted its packet, and every packet that was evicted was
the oldest one of a full queue: packets leave in the order in which they were inserted. -/
structure OnlyOldestLost (s : Lib.Pool (ImportQueue π) (AddCall π)) : Prop where
  pushed : (s.threads.flatMap AddCall.handled).Perm s.shared.pushed
  evicted : ∀ packet size, (packet, Removal.evicted size) ∈ s.shared.removed →
    size = s.shared.mImportExportQueue.capacity
  inOrder : s.shared.pushed =
    s.shared.removed.map Prod.fst ++ s.shared.mImportExportQueue.toList

/-- The call that moves acts on a size that is out of date: since it has read the size, others have
taken packets from the queue that it is about to evict from, or have inserted packets into the one
that it is about to insert into. -/
def staleSize (s : Lib.Pool (ImportQueue π) (AddCall π)) : Lib.Move π Unit Unit → Bool
  | .run i _ =>
    match s.threads[i]? with
    | none => false
    | some call =>
      match call.stage with
      | .evict => s.shared.mImportExportQueue.size < call.approximateSize
      | .push => call.approximateSize < s.shared.mImportExportQueue.size
      | .readSize | .returned _ => false
  | .spawn _ | .env _ => false

/-- The import queue after a schedule. -/
def queueReached (capacity : Nat) (moves : List (Lib.Move π Unit Unit)) :
    Lib.Pool (ImportQueue π) (AddCall π) := importQueue.after (emptyImportQueue capacity) moves

/-- At every point of the run only the oldest packets have been lost. -/
def OldestLostThroughout (capacity : Nat) (moves : List (Lib.Move π Unit Unit)) : Prop :=
  ∀ before rest, moves = before ++ rest → OnlyOldestLost (queueReached capacity before)

/-- Packets leave the queue in the order in which they were inserted. -/
def InOrder (s : ImportQueue π) : Prop :=
  s.pushed = s.removed.map Prod.fst ++ s.mImportExportQueue.toList

/-- A step of a call keeps the order and the capacity. -/
theorem AddStep.inOrder {s s' : ImportQueue π} {call call' : AddCall π}
    (hstep : AddStep s call s' call') (h : InOrder s) :
    InOrder s' ∧ s'.mImportExportQueue.capacity = s.mImportExportQueue.capacity := by
  unfold InOrder at h ⊢
  cases hstep with
  | full | room | nothing | dropped | gone => exact ⟨h, rfl⟩
  | evicted hs workSpace queue hpop hcap =>
    rw [hpop] at h
    refine ⟨?_, hcap⟩
    rw [h, List.map_append, List.append_assoc]
    rfl
  | pushed hs queue hroom hpush hcap =>
    refine ⟨?_, hcap⟩
    rw [h, hpush, List.append_assoc]

/-- The propagator's removal keeps the order and the capacity, and evicts nothing. -/
theorem propagatorPop_spec (s : ImportQueue π) (h : InOrder s) :
    InOrder (propagatorPop s) ∧
      (propagatorPop s).mImportExportQueue.capacity = s.mImportExportQueue.capacity ∧
      ∀ packet size, (packet, Removal.evicted size) ∈ (propagatorPop s).removed ↔
        (packet, Removal.evicted size) ∈ s.removed := by
  unfold propagatorPop
  split
  · exact ⟨h, rfl, fun _ _ ↦ Iff.rfl⟩
  · next packet queue hpop =>
    obtain ⟨hl, hcap⟩ := Lib.Fifo.tryPop_eq_some_iff.mp hpop
    unfold InOrder at h ⊢
    rw [hl] at h
    refine ⟨?_, hcap, ?_⟩
    · rw [h, List.map_append, List.append_assoc]
      rfl
    · simp

theorem propagatorPop_pushed (s : ImportQueue π) : (propagatorPop s).pushed = s.pushed := by
  unfold propagatorPop
  split <;> rfl

/-- Evictions so far were from a full queue. -/
def EvictedFull (s : ImportQueue π) : Prop :=
  ∀ packet size, (packet, Removal.evicted size) ∈ s.removed →
    size = s.mImportExportQueue.capacity

/-- What a call knows of the size that it has read. -/
structure SizeRead (capacity : Nat) (call : AddCall π) : Prop where
  full : call.stage = .evict → capacity ≤ call.approximateSize
  room : call.stage = .push → call.approximateSize < capacity

/-- The size that the call has read is not out of date. -/
structure Fresh (s : ImportQueue π) (call : AddCall π) : Prop where
  evict : call.stage = .evict → call.approximateSize ≤ s.mImportExportQueue.size
  push : call.stage = .push → s.mImportExportQueue.size ≤ call.approximateSize

section Step

variable {s s' : ImportQueue π} {call call' : AddCall π}

/-- A call goes on to insert only when it has read that there is room. -/
theorem AddStep.sizeRead (hstep : AddStep s call s' call')
    (h : SizeRead s.mImportExportQueue.capacity call) (hfresh : Fresh s call)
    (hpos : 0 < s.mImportExportQueue.capacity) :
    SizeRead s.mImportExportQueue.capacity call' := by
  cases hstep with
  | full hs hfull => exact ⟨fun _ ↦ Nat.le_of_eq hfull.symm, nofun⟩
  | room hs hroom => exact ⟨nofun, fun _ ↦ hroom⟩
  | evicted | pushed | dropped => exact ⟨nofun, nofun⟩
  | gone => exact h
  | nothing hs hempty =>
    -- it has read a full queue, which would have been emptied since
    have hfull := h.full hs
    have hsince := hfresh.evict hs
    have hzero : s.mImportExportQueue.size = 0 := by simp [Lib.Fifo.size, hempty]
    omega

/-- A call that acts on a size that is not out of date evicts from a full queue only. -/
theorem AddStep.evictedFull (hstep : AddStep s call s' call') (h : EvictedFull s)
    (hread : SizeRead s.mImportExportQueue.capacity call) (hfresh : Fresh s call) :
    EvictedFull s' := by
  cases hstep with
  | full | room | nothing | dropped | gone => exact h
  | pushed hs queue hroom hpush hcap =>
    intro packet size hm
    exact (h packet size hm).trans hcap.symm
  | evicted hs workSpace queue hpop hcap =>
    intro packet size hm
    show size = queue.capacity
    rw [hcap]
    rcases List.mem_append.mp hm with hold | hnew
    · exact h packet size hold
    · cases List.mem_singleton.mp hnew
      have hfull := hread.full hs
      have hsince := hfresh.evict hs
      have hle := s.mImportExportQueue.size_le
      omega

/-- A call that acts on a size that is not out of date inserts its packet when it returns. -/
theorem AddStep.handled_eq (hstep : AddStep s call s' call')
    (hread : SizeRead s.mImportExportQueue.capacity call) (hfresh : Fresh s call) :
    (call' = call ∧ s'.pushed = s.pushed) ∨
      (call.handled = [] ∧ s'.pushed = s.pushed ++ call'.handled) := by
  cases hstep with
  | full hs | room hs | evicted hs | nothing hs =>
    right
    simp [AddCall.handled, hs]
  | pushed hs =>
    right
    simp [AddCall.handled, hs]
  | dropped hs hfull =>
    have hroom := hread.room hs
    have hsince := hfresh.push hs
    omega
  | gone => exact Or.inl ⟨rfl, rfl⟩

end Step

/-- The call that moves does not act on a stale size. -/
theorem fresh_of_not_stale {s : Lib.Pool (ImportQueue π) (AddCall π)} {i : Nat}
    {call : AddCall π} (h : s.threads[i]? = some call) (hok : staleSize s (.run i ()) = false) :
    Fresh s.shared call := by
  simp only [staleSize, h] at hok
  constructor
  · intro hs
    simpa [hs] using hok
  · intro hs
    simpa [hs] using hok

/-- Order is kept by every move. -/
theorem inOrder_step (s : Lib.Pool (ImportQueue π) (AddCall π)) (move : Lib.Move π Unit Unit)
    (h : InOrder s.shared) : InOrder (importQueue.step s move).shared := by
  cases move with
  | spawn packet => exact h
  | env _ => exact (propagatorPop_spec s.shared h).1
  | run i x =>
    cases ht : s.threads[i]? with
    | none => rwa [Lib.Program.step_run_none ht]
    | some call =>
      rw [Lib.Program.step_run ht]
      exact ((add_step s.shared call).inOrder h).1

/-- What holds of the import queue as long as no call acts on a stale size. -/
structure QueueInv (capacity : Nat) (s : Lib.Pool (ImportQueue π) (AddCall π)) : Prop where
  capacity_eq : s.shared.mImportExportQueue.capacity = capacity
  inOrder : InOrder s.shared
  read : ∀ call ∈ s.threads, SizeRead capacity call
  pushed : (s.threads.flatMap AddCall.handled).Perm s.shared.pushed
  evicted : EvictedFull s.shared

/-- A move whose call does not act on a stale size keeps it. -/
theorem QueueInv.step {capacity : Nat} {s : Lib.Pool (ImportQueue π) (AddCall π)}
    (h : QueueInv capacity s) (hpos : 0 < capacity) (move : Lib.Move π Unit Unit)
    (hok : staleSize s move = false) : QueueInv capacity (importQueue.step s move) := by
  have horder := inOrder_step s move h.inOrder
  cases move with
  | spawn packet =>
    refine ⟨h.capacity_eq, horder, ?_, ?_, h.evicted⟩
    · intro call hc
      rcases List.mem_append.mp hc with hc | hc
      · exact h.read call hc
      · rw [List.mem_singleton.mp hc]
        exact ⟨nofun, nofun⟩
    · show ((s.threads ++ [_]).flatMap AddCall.handled).Perm s.shared.pushed
      rw [List.flatMap_append]
      exact (List.append_nil _).symm ▸ h.pushed
  | env _ =>
    obtain ⟨-, hcap, hevicted⟩ := propagatorPop_spec s.shared h.inOrder
    refine ⟨hcap.trans h.capacity_eq, horder, h.read, ?_, ?_⟩
    · show (s.threads.flatMap AddCall.handled).Perm (propagatorPop s.shared).pushed
      rw [propagatorPop_pushed]
      exact h.pushed
    · intro packet size hm
      exact (h.evicted packet size ((hevicted packet size).mp hm)).trans hcap.symm
  | run i x =>
    cases ht : s.threads[i]? with
    | none =>
      rw [Lib.Program.step_run_none ht]
      exact h
    | some call =>
      have hstep := add_step s.shared call
      have hfresh := fresh_of_not_stale ht hok
      have hread := h.read call (List.mem_of_getElem? ht)
      rw [← h.capacity_eq] at hread hpos
      obtain ⟨-, hcap⟩ := hstep.inOrder h.inOrder
      rw [Lib.Program.step_run ht] at horder ⊢
      refine ⟨hcap.trans h.capacity_eq, horder, ?_, ?_, hstep.evictedFull h.evicted hread hfresh⟩
      · intro other hc
        rcases List.mem_or_eq_of_mem_set hc with hc | rfl
        · exact h.read other hc
        · exact h.capacity_eq ▸ hstep.sizeRead hread hfresh hpos
      · show ((s.threads.set i (addPacketStep s.shared call).2).flatMap AddCall.handled).Perm
          (addPacketStep s.shared call).1.pushed
        rcases hstep.handled_eq hread hfresh with ⟨hsame, hpushed⟩ | ⟨hnone, hpushed⟩
        · obtain ⟨hi, hcall⟩ := List.getElem?_eq_some_iff.mp ht
          rw [hsame, hpushed, ← hcall, List.set_getElem_self hi]
          exact h.pushed
        · rw [hpushed]
          exact (Lib.Program.perm_flatMap_set ht hnone).trans (h.pushed.append_right _)

/-- In every run in which no call acts on a stale size, every call inserts its packet, and only
the oldest packets of full queues are lost, in every state reached. -/
theorem onlyOldestLost_of_along {capacity : Nat} (hpos : 0 < capacity)
    {moves : List (Lib.Move π Unit Unit)}
    (h : Lib.Along importQueue.step (fun s move ↦ staleSize s move = false)
      (emptyImportQueue capacity) moves) : OldestLostThroughout capacity moves := by
  rintro before rest rfl
  have hempty : QueueInv capacity (emptyImportQueue (π := π) capacity) :=
    ⟨Lib.Fifo.capacity_empty capacity, rfl, nofun, List.Perm.refl _, nofun⟩
  have hinv : QueueInv capacity (queueReached capacity before) :=
    (Lib.along_append.mp h).1.invariant (QueueInv capacity) hempty
      fun _ move hs hok ↦ hs.step hpos move hok
  exact ⟨hinv.pushed, hinv.evicted, hinv.inOrder⟩

section Runs

/-- Two calls read the size of a queue with one place left; both insert. -/
def racingCalls : List (Lib.Move Nat Unit Unit) :=
  [.spawn 7, .spawn 8, .run 0 (), .run 1 (), .run 0 (), .run 1 ()]

/-- The second of the racing calls does not insert its packet. -/
theorem racingCalls_lose_newest : ¬OnlyOldestLost (queueReached 1 racingCalls) := by
  intro h
  exact absurd h.pushed.length_eq (by decide)

/-- A call fills the queue, the next one evicts its packet, and the propagator takes the other. -/
def callsInTurn : List (Lib.Move Nat Unit Unit) :=
  [.spawn 7, .run 0 (), .run 0 (), .spawn 8, .run 1 (), .run 1 (), .run 1 (), .run 1 (), .env ()]

theorem onlyOldestLost_callsInTurn : OldestLostThroughout 1 callsInTurn :=
  onlyOldestLost_of_along (by decide) (by decide)

/-- Between reading the size of a full queue and evicting from it, the propagator makes room: a
packet is evicted from a queue that is not full. -/
example : (queueReached 2 ([.spawn 7, .run 0 (), .run 0 (), .spawn 8, .run 1 (), .run 1 (),
    .spawn 9, .run 2 (), .env (), .run 2 ()] : List (Lib.Move Nat Unit Unit))).shared.removed =
      [(7, .propagated), (8, .evicted 1)] := by decide

end Runs
end ImportProxy.Proxy
