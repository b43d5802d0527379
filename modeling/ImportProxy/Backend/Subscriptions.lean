import ImportProxy.Base.Grpc
import ImportProxy.Lib.Fifo
import Std.Data.ExtTreeMap

/-!
# Subscriptions

The queue of one subscriber and the map of all subscribers:
`PacketStream` and `SubscriptionManager`, `src/backend.cpp:64–326`. Every section
that holds the mutex of the manager is one operation. The type of the packets is
a parameter.
-/

namespace ImportProxy.Backend

open ImportProxy.Base

/-- The default of `mMaximumNumberOfSubscribers`. -/
def defaultMaximumNumberOfSubscribers : AtLeast 1 := ⟨32, by decide⟩

/-- The default of `mQueueCapacity` of the backend. -/
def defaultStreamCapacity : AtLeast 1 := ⟨1024, by decide⟩

/-- `BackendOptions`, with what its setters check; `src/backendOptions.cpp:9–15`. -/
structure BackendOptions where
  mGRPCOptions : GRPCOptions := {}
  mMaximumNumberOfSubscribers : AtLeast 1 := defaultMaximumNumberOfSubscribers
  mQueueCapacity : AtLeast 1 := defaultStreamCapacity
  deriving DecidableEq, Repr

namespace BackendOptions

/-- `getMaximumNumberOfSubscribers`; `src/backendOptions.cpp:76–79`. -/
def getMaximumNumberOfSubscribers (options : BackendOptions) : Int :=
  options.mMaximumNumberOfSubscribers.value

/-- `setMaximumNumberOfSubscribers`, none for its exception; `src/backendOptions.cpp:66–74`. -/
def setMaximumNumberOfSubscribers (options : BackendOptions) (maxSubscribers : Int) :
    Option BackendOptions :=
  (AtLeast.check 1 maxSubscribers).map fun n ↦ { options with mMaximumNumberOfSubscribers := n }

/-- `getQueueCapacity`; `src/backendOptions.cpp:91–94`. -/
def getQueueCapacity (options : BackendOptions) : Int := options.mQueueCapacity.value

/-- `setQueueCapacity`, none for its exception; `src/backendOptions.cpp:82–89`. -/
def setQueueCapacity (options : BackendOptions) (capacity : Int) : Option BackendOptions :=
  (AtLeast.check 1 capacity).map fun n ↦ { options with mQueueCapacity := n }

end BackendOptions

universe u

variable {π : Type u}

/-- `PacketStream`: a queue whose capacity the constructor has checked;
`src/backend.cpp:64–127`. -/
structure PacketStream (π : Type u) where
  mQueue : Lib.Fifo π
  capacity_pos : 0 < mQueue.capacity
  deriving DecidableEq

/-- The loop of `PacketStream::enqueuePacket`: remove the oldest packets while the queue is full,
counting them; `src/backend.cpp:86–103`. -/
def makeRoom : Nat → Lib.Fifo π → Nat → Lib.Fifo π × Nat
  | 0, queue, packetsLost => (queue, packetsLost)
  | fuel + 1, queue, packetsLost =>
    if queue.size ≥ queue.capacity then
      match queue.tryPop with
      | none => (queue, packetsLost)
      | some (_, queue) => makeRoom fuel queue (packetsLost + 1)
    else (queue, packetsLost)

/-- A full queue loses its oldest packet, and any other queue nothing. -/
theorem makeRoom_eq {queue : Lib.Fifo π} (hpos : 0 < queue.capacity) (fuel : Nat) :
    (makeRoom (fuel + 2) queue 0).1.capacity = queue.capacity ∧
      (makeRoom (fuel + 2) queue 0).1.size < queue.capacity ∧
      ((makeRoom (fuel + 2) queue 0).1.toList, (makeRoom (fuel + 2) queue 0).2) =
        if queue.size = queue.capacity then (queue.toList.tail, 1) else (queue.toList, 0) := by
  have hle := queue.size_le
  by_cases hfull : queue.size = queue.capacity
  · obtain ⟨workSpace, rest, hpop, hl, hcap, hsize⟩ := Lib.Fifo.exists_tryPop (hfull ▸ hpos)
    have hstop : makeRoom (fuel + 1) rest 1 = (rest, 1) := by
      rw [makeRoom, if_neg (by omega)]
    rw [if_pos hfull, makeRoom, if_pos hfull.ge, hpop]
    dsimp only
    rw [hstop]
    refine ⟨hcap, ?_, by rw [hl, List.tail_cons]⟩
    show rest.size < queue.capacity
    omega
  · rw [makeRoom, if_neg (by omega), if_neg hfull]
    refine ⟨rfl, ?_, rfl⟩
    show queue.size < queue.capacity
    omega

namespace PacketStream

/-- The constructor, none for its exception; `src/backend.cpp:67–77`. -/
def new (queueCapacity : Int) : Option (PacketStream π) :=
  if h : queueCapacity < 1 then none
  else some ⟨Lib.Fifo.empty queueCapacity.toNat, by
    rw [Lib.Fifo.capacity_empty]
    omega⟩

/-- `enqueuePacket`, with the number of packets lost; `src/backend.cpp:83–110`. At most as many
removals succeed as the queue has packets. -/
def enqueuePacket (stream : PacketStream π) (packet : π) : PacketStream π × Nat :=
  match h : makeRoom (stream.mQueue.size + 2) stream.mQueue 0 with
  | (queue, packetsLost) =>
    match h' : queue.tryPush packet with
    | none => (⟨queue, by
        have hcap := (makeRoom_eq stream.capacity_pos stream.mQueue.size).1
        rw [h] at hcap
        exact hcap ▸ stream.capacity_pos⟩, packetsLost)
    | some queue' => (⟨queue', by
        have hcap := (makeRoom_eq stream.capacity_pos stream.mQueue.size).1
        rw [h] at hcap
        rw [(Lib.Fifo.tryPush_eq_some_iff.mp h').2.2, hcap]
        exact stream.capacity_pos⟩, packetsLost)

/-- `dequeuePacket`; `src/backend.cpp:111–123`. -/
def dequeuePacket (stream : PacketStream π) : Option (π × PacketStream π) :=
  match h : stream.mQueue.tryPop with
  | none => none
  | some (packet, queue) => some (packet, ⟨queue, by
      rw [(Lib.Fifo.tryPop_eq_some_iff.mp h).2]
      exact stream.capacity_pos⟩)

/-- A new packet becomes the newest; a full queue loses its oldest one. -/
theorem toList_enqueuePacket (stream : PacketStream π) (packet : π) :
    (stream.enqueuePacket packet).1.mQueue.toList =
      (if stream.mQueue.size = stream.mQueue.capacity then stream.mQueue.toList.tail
        else stream.mQueue.toList) ++ [packet] := by
  obtain ⟨hcap, hroom, hlist⟩ := makeRoom_eq stream.capacity_pos stream.mQueue.size
  unfold enqueuePacket
  split
  next queue packetsLost h =>
  rw [h] at hcap hroom hlist
  dsimp only at hcap hroom hlist
  have hl : queue.toList = if stream.mQueue.size = stream.mQueue.capacity
      then stream.mQueue.toList.tail else stream.mQueue.toList := by
    have hfst := congrArg Prod.fst hlist
    rw [apply_ite Prod.fst] at hfst
    exact hfst
  split
  · next h' =>
    rw [Lib.Fifo.tryPush_eq_none_iff] at h'
    omega
  · next queue' h' =>
    rw [(Lib.Fifo.tryPush_eq_some_iff.mp h').2.1, hl]

/-- What a new packet leaves of the queue, and the packet behind it. -/
theorem enqueuePacket_sublist (stream : PacketStream π) (packet : π) :
    ((stream.enqueuePacket packet).1.mQueue.toList).Sublist
      (stream.mQueue.toList ++ [packet]) := by
  rw [toList_enqueuePacket]
  apply List.Sublist.append_right
  split
  · exact List.tail_sublist _
  · exact List.Sublist.refl _

/-- A fetch takes the oldest packet. -/
theorem toList_of_dequeuePacket {stream stream' : PacketStream π} {packet : π}
    (h : stream.dequeuePacket = some (packet, stream')) :
    stream.mQueue.toList = packet :: stream'.mQueue.toList := by
  unfold dequeuePacket at h
  split at h
  · cases h
  · next hpop =>
    cases h
    exact (Lib.Fifo.tryPop_eq_some_iff.mp hpop).1

end PacketStream

/-- `SubscriptionManager`; `src/backend.cpp:129–326`. -/
structure SubscriptionManager (π : Type u) where
  mSubscribers : Std.ExtTreeMap Nat (PacketStream π) := ∅
  mQueueCapacity : Int
  mKeepRunning : Bool := true

namespace SubscriptionManager

/-- `getNumberOfSubscribers`; `src/backend.cpp:149–153`. -/
def getNumberOfSubscribers (manager : SubscriptionManager π) : Int := manager.mSubscribers.size

/-- The locked section of `unsubscribeAll`; `src/backend.cpp:160–163`. -/
def clear (manager : SubscriptionManager π) : SubscriptionManager π :=
  { manager with mSubscribers := ∅ }

/-- The locked section of `subscribe`, none for an exception; `src/backend.cpp:178–200`. -/
def subscribe (manager : SubscriptionManager π) (contextAddress : Nat) :
    Option (SubscriptionManager π) :=
  match manager.mSubscribers[contextAddress]? with
  | some _ => some manager
  | none =>
    match PacketStream.new manager.mQueueCapacity with
    | none => none
    | some packetStream =>
      some { manager with
        mSubscribers := manager.mSubscribers.insert contextAddress packetStream }

/-- The locked section of `unsubscribe`; `src/backend.cpp:221–224`. -/
def unsubscribe (manager : SubscriptionManager π) (contextAddress : Nat) :
    SubscriptionManager π :=
  { manager with mSubscribers := manager.mSubscribers.erase contextAddress }

/-- The locked section of `enqueuePacket`, with the number of packets lost;
`src/backend.cpp:247–267`. -/
def enqueuePacket (manager : SubscriptionManager π) (packet : π) :
    SubscriptionManager π × Nat :=
  ({ manager with
      mSubscribers := manager.mSubscribers.map fun _ stream ↦ (stream.enqueuePacket packet).1 },
    manager.mSubscribers.foldl (fun nPacketsLost _ stream ↦
      nPacketsLost + (stream.enqueuePacket packet).2) 0)

/-- The loop of `getNextPackets`; `src/backend.cpp:293–304`. -/
def takePackets : Nat → PacketStream π → List π × PacketStream π
  | 0, stream => ([], stream)
  | maxPackets + 1, stream =>
    match stream.dequeuePacket with
    | none => ([], stream)
    | some (packet, stream) =>
      let (result, stream) := takePackets maxPackets stream
      (packet :: result, stream)

/-- The locked section of `getNextPackets`, none for the exception of an unknown context;
`src/backend.cpp:287–316`. -/
def getNextPackets (manager : SubscriptionManager π) (contextAddress : Nat) (maxPackets : Nat) :
    Option (List π × SubscriptionManager π) :=
  match manager.mSubscribers[contextAddress]? with
  | none => none
  | some stream =>
    let (result, stream) := takePackets maxPackets stream
    some (result,
      { manager with mSubscribers := manager.mSubscribers.insert contextAddress stream })

/-- An insertion into the map leaves other addresses as they were. -/
theorem getElem?_insert_of_ne {streams : Std.ExtTreeMap Nat (PacketStream π)}
    {contextAddress a : Nat} (stream : PacketStream π) (ha : a ≠ contextAddress) :
    (streams.insert contextAddress stream)[a]? = streams[a]? := by
  rw [Std.ExtTreeMap.getElem?_insert]
  apply if_neg
  intro he
  exact ha (Std.LawfulEqOrd.compare_eq_iff_eq.mp he).symm

/-- The stream that a subscription of a new address adds: an empty one of its own. -/
theorem getElem?_subscribe_new {manager manager' : SubscriptionManager π} {contextAddress : Nat}
    (h : manager.subscribe contextAddress = some manager')
    (hnew : manager.mSubscribers[contextAddress]? = none) :
    ∃ packetStream, PacketStream.new manager.mQueueCapacity = some packetStream ∧
      manager'.mSubscribers[contextAddress]? = some packetStream ∧
      packetStream.mQueue.toList = [] := by
  unfold subscribe at h
  rw [hnew] at h
  dsimp only at h
  split at h
  · cases h
  · next packetStream hstream =>
    cases h
    refine ⟨packetStream, hstream, Std.ExtTreeMap.getElem?_insert_self, ?_⟩
    unfold PacketStream.new at hstream
    split at hstream
    · cases hstream
    · cases hstream
      rfl

/-- A subscription of an address that the map has changes nothing. -/
theorem subscribe_of_mem {manager : SubscriptionManager π} {contextAddress : Nat}
    {packetStream : PacketStream π}
    (h : manager.mSubscribers[contextAddress]? = some packetStream) :
    manager.subscribe contextAddress = some manager := by
  rw [subscribe, h]

/-- A subscription changes nothing but the map. -/
theorem subscribe_members {manager manager' : SubscriptionManager π} {contextAddress : Nat}
    (h : manager.subscribe contextAddress = some manager') :
    manager'.mKeepRunning = manager.mKeepRunning ∧
      manager'.mQueueCapacity = manager.mQueueCapacity := by
  unfold subscribe at h
  split at h
  · cases h
    exact ⟨rfl, rfl⟩
  · split at h
    · cases h
    · cases h
      exact ⟨rfl, rfl⟩

/-- A subscription touches no other stream. -/
theorem getElem?_subscribe_of_ne {manager manager' : SubscriptionManager π}
    {contextAddress a : Nat} (h : manager.subscribe contextAddress = some manager')
    (ha : a ≠ contextAddress) : manager'.mSubscribers[a]? = manager.mSubscribers[a]? := by
  unfold subscribe at h
  split at h
  · cases h
    rfl
  · split at h
    · cases h
    · cases h
      exact getElem?_insert_of_ne _ ha

/-- Leaving removes the stream of the context. -/
@[simp] theorem getElem?_unsubscribe_self (manager : SubscriptionManager π)
    (contextAddress : Nat) :
    (manager.unsubscribe contextAddress).mSubscribers[contextAddress]? = none :=
  Std.ExtTreeMap.getElem?_erase_self

/-- Leaving touches no other stream. -/
theorem getElem?_unsubscribe_of_ne (manager : SubscriptionManager π) {contextAddress a : Nat}
    (ha : a ≠ contextAddress) :
    (manager.unsubscribe contextAddress).mSubscribers[a]? = manager.mSubscribers[a]? := by
  unfold unsubscribe
  rw [Std.ExtTreeMap.getElem?_erase,
    if_neg fun he ↦ ha (Std.LawfulEqOrd.compare_eq_iff_eq.mp he).symm]

/-- A broadcast reaches every stream. -/
theorem getElem?_enqueuePacket (manager : SubscriptionManager π) (packet : π) (a : Nat) :
    (manager.enqueuePacket packet).1.mSubscribers[a]? =
      manager.mSubscribers[a]?.map fun stream ↦ (stream.enqueuePacket packet).1 :=
  Std.ExtTreeMap.getElem?_map

/-- A fetch takes from the stream of its context, and touches no other. -/
theorem getNextPackets_eq_some_iff {manager manager' : SubscriptionManager π}
    {contextAddress maxPackets : Nat} {result : List π} :
    manager.getNextPackets contextAddress maxPackets = some (result, manager') ↔
      ∃ stream, manager.mSubscribers[contextAddress]? = some stream ∧
        result = (takePackets maxPackets stream).1 ∧
        manager' = { manager with mSubscribers :=
          manager.mSubscribers.insert contextAddress (takePackets maxPackets stream).2 } := by
  unfold getNextPackets
  cases manager.mSubscribers[contextAddress]? with
  | none => simp
  | some stream => simp [eq_comm]

/-- The streams of other contexts do not change with a fetch. -/
theorem getElem?_getNextPackets_of_ne {manager manager' : SubscriptionManager π}
    {contextAddress maxPackets a : Nat} {result : List π}
    (h : manager.getNextPackets contextAddress maxPackets = some (result, manager'))
    (ha : a ≠ contextAddress) : manager'.mSubscribers[a]? = manager.mSubscribers[a]? := by
  obtain ⟨stream, -, -, rfl⟩ := getNextPackets_eq_some_iff.mp h
  exact getElem?_insert_of_ne _ ha

/-- A subscription adds its context to the map. -/
theorem contains_subscribe_iff {manager manager' : SubscriptionManager π} {contextAddress : Nat}
    (h : manager.subscribe contextAddress = some manager') (a : Nat) :
    manager'.mSubscribers.contains a = true ↔
      manager.mSubscribers.contains a = true ∨ a = contextAddress := by
  simp only [Std.ExtTreeMap.contains_eq_isSome_getElem?]
  by_cases ha : a = contextAddress
  · subst ha
    cases hold : manager.mSubscribers[a]? with
    | none =>
      obtain ⟨packetStream, -, hnew, -⟩ := getElem?_subscribe_new h hold
      simp [hnew]
    | some packetStream =>
      rw [subscribe_of_mem hold] at h
      cases h
      simp [hold]
  · rw [getElem?_subscribe_of_ne h ha]
    simp [ha]

/-- Leaving takes its context from the map. -/
theorem contains_unsubscribe_iff (manager : SubscriptionManager π) (contextAddress a : Nat) :
    (manager.unsubscribe contextAddress).mSubscribers.contains a = true ↔
      manager.mSubscribers.contains a = true ∧ a ≠ contextAddress := by
  simp only [Std.ExtTreeMap.contains_eq_isSome_getElem?]
  by_cases ha : a = contextAddress
  · subst ha
    simp
  · rw [getElem?_unsubscribe_of_ne manager ha]
    simp [ha]

/-- A fetch keeps the contexts of the map. -/
theorem contains_getNextPackets {manager manager' : SubscriptionManager π}
    {contextAddress maxPackets : Nat} {result : List π}
    (h : manager.getNextPackets contextAddress maxPackets = some (result, manager')) (a : Nat) :
    manager'.mSubscribers.contains a = manager.mSubscribers.contains a := by
  obtain ⟨stream, hstream, -, rfl⟩ := getNextPackets_eq_some_iff.mp h
  simp only [Std.ExtTreeMap.contains_eq_isSome_getElem?, Std.ExtTreeMap.getElem?_insert]
  split
  · next he =>
    rw [← Std.LawfulEqOrd.compare_eq_iff_eq.mp he, hstream]
    rfl
  · rfl

/-- A broadcast keeps the contexts of the map. -/
theorem contains_enqueuePacket (manager : SubscriptionManager π) (packet : π) (a : Nat) :
    (manager.enqueuePacket packet).1.mSubscribers.contains a =
      manager.mSubscribers.contains a := by
  simp only [Std.ExtTreeMap.contains_eq_isSome_getElem?, getElem?_enqueuePacket,
    Option.isSome_map]

/-- A subscription adds an entry only for an address that the map does not have. -/
theorem size_subscribe_le {manager manager' : SubscriptionManager π} {contextAddress : Nat}
    (h : manager.subscribe contextAddress = some manager') :
    manager'.mSubscribers.size ≤ manager.mSubscribers.size +
      if !manager.mSubscribers.contains contextAddress then 1 else 0 := by
  unfold subscribe at h
  rw [Std.ExtTreeMap.contains_eq_isSome_getElem?]
  split at h
  · cases h
    omega
  · next hnone =>
    rw [hnone]
    split at h
    · cases h
    · cases h
      exact Std.ExtTreeMap.size_insert_le

/-- Leaving adds no entry. -/
theorem size_unsubscribe_le (manager : SubscriptionManager π) (contextAddress : Nat) :
    (manager.unsubscribe contextAddress).mSubscribers.size ≤ manager.mSubscribers.size :=
  Std.ExtTreeMap.size_erase_le

/-- A broadcast keeps the number of entries. -/
theorem size_enqueuePacket (manager : SubscriptionManager π) (packet : π) :
    (manager.enqueuePacket packet).1.mSubscribers.size = manager.mSubscribers.size :=
  Std.ExtTreeMap.size_map

/-- A fetch keeps the number of entries. -/
theorem size_getNextPackets {manager manager' : SubscriptionManager π} {contextAddress : Nat}
    {maxPackets : Nat} {result : List π}
    (h : manager.getNextPackets contextAddress maxPackets = some (result, manager')) :
    manager'.mSubscribers.size = manager.mSubscribers.size := by
  obtain ⟨stream, hs, -, rfl⟩ := getNextPackets_eq_some_iff.mp h
  have hmem : manager.mSubscribers.contains contextAddress = true := by
    rw [Std.ExtTreeMap.contains_eq_isSome_getElem?, hs]
    rfl
  dsimp only
  rw [Std.ExtTreeMap.size_insert, if_pos hmem]

/-- A batch is the oldest part of the queue. -/
theorem toList_takePackets (maxPackets : Nat) (stream : PacketStream π) :
    (takePackets maxPackets stream).1 ++ (takePackets maxPackets stream).2.mQueue.toList =
      stream.mQueue.toList := by
  induction maxPackets generalizing stream with
  | zero => rfl
  | succ maxPackets ih =>
    unfold takePackets
    cases h : stream.dequeuePacket with
    | none => rfl
    | some taken =>
      obtain ⟨packet, rest⟩ := taken
      have hrest := ih rest
      rw [PacketStream.toList_of_dequeuePacket h]
      dsimp only
      rw [List.cons_append, hrest]

/-- A batch has at most as many packets as were asked for. -/
theorem length_takePackets_le (maxPackets : Nat) (stream : PacketStream π) :
    (takePackets maxPackets stream).1.length ≤ maxPackets := by
  induction maxPackets generalizing stream with
  | zero => exact Nat.le_refl _
  | succ maxPackets ih =>
    unfold takePackets
    cases stream.dequeuePacket with
    | none => exact Nat.zero_le _
    | some taken =>
      dsimp only
      rw [List.length_cons]
      exact Nat.succ_le_succ (ih taken.2)

/-- The packets that wait for a context, from oldest to newest. -/
def queueOf (manager : SubscriptionManager π) (contextAddress : Nat) : List π :=
  match manager.mSubscribers[contextAddress]? with
  | some stream => stream.mQueue.toList
  | none => []

/-- A new context starts with nothing waiting, and no other is touched. -/
theorem queueOf_subscribe {manager manager' : SubscriptionManager π} {contextAddress : Nat}
    (h : manager.subscribe contextAddress = some manager') (a : Nat) :
    manager'.queueOf a = manager.queueOf a := by
  by_cases ha : a = contextAddress
  · subst ha
    cases hs : manager.mSubscribers[a]? with
    | none =>
      obtain ⟨packetStream, -, hnew, hempty⟩ := getElem?_subscribe_new h hs
      unfold queueOf
      rw [hnew, hs]
      exact hempty
    | some packetStream =>
      rw [subscribe_of_mem hs] at h
      cases h
      rfl
  · unfold queueOf
    rw [getElem?_subscribe_of_ne h ha]

/-- Leaving drops what waits for the context, and touches no other. -/
theorem queueOf_unsubscribe_sublist (manager : SubscriptionManager π) (contextAddress a : Nat) :
    ((manager.unsubscribe contextAddress).queueOf a).Sublist (manager.queueOf a) := by
  unfold queueOf unsubscribe
  rw [Std.ExtTreeMap.getElem?_erase]
  by_cases ha : compare contextAddress a = .eq
  · rw [if_pos ha]
    exact List.nil_sublist _
  · rw [if_neg ha]

/-- A broadcast puts the packet behind what waits, or behind a part of it. -/
theorem queueOf_enqueuePacket_sublist (manager : SubscriptionManager π) (packet : π) (a : Nat) :
    ((manager.enqueuePacket packet).1.queueOf a).Sublist (manager.queueOf a ++ [packet]) := by
  unfold queueOf enqueuePacket
  rw [Std.ExtTreeMap.getElem?_map]
  cases manager.mSubscribers[a]? with
  | none => exact List.nil_sublist _
  | some stream => exact stream.enqueuePacket_sublist packet

/-- A fetch takes the oldest packets of its own context, and touches no other. -/
theorem queueOf_getNextPackets {manager manager' : SubscriptionManager π} {contextAddress : Nat}
    {maxPackets : Nat} {result : List π}
    (h : manager.getNextPackets contextAddress maxPackets = some (result, manager')) :
    manager.queueOf contextAddress = result ++ manager'.queueOf contextAddress ∧
      ∀ a, a ≠ contextAddress → manager'.queueOf a = manager.queueOf a := by
  constructor
  · obtain ⟨stream, hs, rfl, rfl⟩ := getNextPackets_eq_some_iff.mp h
    unfold queueOf
    rw [hs, Std.ExtTreeMap.getElem?_insert_self]
    exact (toList_takePackets maxPackets stream).symm
  · intro a ha
    unfold queueOf
    rw [getElem?_getNextPackets_of_ne h ha]

end SubscriptionManager
end ImportProxy.Backend
