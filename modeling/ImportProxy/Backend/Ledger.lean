import ImportProxy.Backend.Subscriptions
import ImportProxy.Lib.Interleaving
import ImportProxy.Lib.Machine

/-!
# Accounting of the streams

What becomes of each packet that is broadcast to a subscriber, for every sequence
of calls of a running `SubscriptionManager`: `src/backend.cpp:83–123,172–318`.
Next to the manager a ledger keeps, for each context, the packets that were
broadcast since its subscription, those that were returned to it and those that
`PacketStream::enqueuePacket` popped.
-/

namespace ImportProxy.Backend

open ImportProxy.Base

universe u

variable {π : Type u}

/-- The packets that the loop of `PacketStream::enqueuePacket` pops, in order;
`src/backend.cpp:86–103`. -/
def poppedFrom : Nat → Lib.Fifo π → List π
  | 0, _ => []
  | fuel + 1, queue =>
    if queue.size ≥ queue.capacity then
      match queue.tryPop with
      | none => []
      | some (workSpace, queue) => workSpace :: poppedFrom fuel queue
    else []

/-- The loop removes and counts the popped packets. -/
theorem makeRoom_poppedFrom (fuel : Nat) (queue : Lib.Fifo π) (packetsLost : Nat) :
    queue.toList = poppedFrom fuel queue ++ (makeRoom fuel queue packetsLost).1.toList ∧
      (makeRoom fuel queue packetsLost).2 = packetsLost + (poppedFrom fuel queue).length := by
  induction fuel generalizing queue packetsLost with
  | zero => exact ⟨rfl, rfl⟩
  | succ fuel ih =>
    unfold makeRoom poppedFrom
    by_cases hfull : queue.size ≥ queue.capacity
    · rw [if_pos hfull, if_pos hfull]
      cases hpop : queue.tryPop with
      | none => exact ⟨rfl, rfl⟩
      | some popped =>
        obtain ⟨workSpace, rest⟩ := popped
        obtain ⟨hrest, hcount⟩ := ih rest (packetsLost + 1)
        have hl := (Lib.Fifo.tryPop_eq_some_iff.mp hpop).1
        constructor
        · rw [hl, List.cons_append, ← hrest]
        · rw [hcount, List.length_cons]
          omega
    · rw [if_neg hfull, if_neg hfull]
      exact ⟨rfl, rfl⟩

namespace PacketStream

/-- The packets that the next `enqueuePacket` pops. -/
def popped (stream : PacketStream π) : List π :=
  poppedFrom (stream.mQueue.size + 2) stream.mQueue

/-- Only the oldest packet is popped, and only from a full queue. -/
theorem popped_eq (stream : PacketStream π) : stream.popped =
    if stream.mQueue.size = stream.mQueue.capacity then stream.mQueue.toList.take 1 else [] := by
  obtain ⟨-, -, hroom⟩ := makeRoom_eq stream.capacity_pos stream.mQueue.size
  obtain ⟨hlist, hcount⟩ := makeRoom_poppedFrom (stream.mQueue.size + 2) stream.mQueue 0
  unfold popped
  generalize makeRoom (stream.mQueue.size + 2) stream.mQueue 0 = made at hroom hlist hcount
  generalize poppedFrom (stream.mQueue.size + 2) stream.mQueue = gone at hlist hcount ⊢
  by_cases hfull : stream.mQueue.size = stream.mQueue.capacity
  · rw [if_pos hfull] at hroom ⊢
    rw [(Prod.mk.inj hroom).2] at hcount
    rw [hlist, List.take_append_of_le_length (by omega), List.take_of_length_le (by omega)]
  · rw [if_neg hfull] at hroom ⊢
    rw [(Prod.mk.inj hroom).2] at hcount
    exact List.eq_nil_of_length_eq_zero (by omega)

/-- Either nothing is popped, or the one oldest packet of a full queue. -/
theorem popped_cases (stream : PacketStream π) :
    stream.popped = [] ∨ stream.mQueue.size = stream.mQueue.capacity ∧
      ∃ oldest rest, stream.mQueue.toList = oldest :: rest ∧ stream.popped = [oldest] := by
  rw [popped_eq]
  by_cases hfull : stream.mQueue.size = stream.mQueue.capacity
  · rw [if_pos hfull]
    right
    refine ⟨hfull, ?_⟩
    cases hl : stream.mQueue.toList with
    | nil =>
      have hpos := stream.capacity_pos
      rw [← hfull, Lib.Fifo.size, hl] at hpos
      cases hpos
    | cons oldest rest => exact ⟨oldest, rest, rfl, rfl⟩
  · rw [if_neg hfull]
    exact Or.inl rfl

/-- What a new packet leaves: the popped packets are gone from the front, and it is at the end. -/
theorem popped_append_enqueuePacket (stream : PacketStream π) (packet : π) :
    stream.popped ++ (stream.enqueuePacket packet).1.mQueue.toList =
      stream.mQueue.toList ++ [packet] := by
  rw [toList_enqueuePacket, popped_eq, ← List.append_assoc]
  split
  · rw [← List.drop_one, List.take_append_drop]
  · rw [List.nil_append]

/-- The packets lost are the popped ones. -/
theorem enqueuePacket_snd (stream : PacketStream π) (packet : π) :
    (stream.enqueuePacket packet).2 = stream.popped.length := by
  have hcount := (makeRoom_poppedFrom (stream.mQueue.size + 2) stream.mQueue 0).2
  rw [Nat.zero_add] at hcount
  unfold enqueuePacket popped
  split
  next queue packetsLost h =>
  rw [h] at hcount
  split <;> exact hcount

/-- A new packet keeps the capacity. -/
@[simp] theorem capacity_enqueuePacket (stream : PacketStream π) (packet : π) :
    (stream.enqueuePacket packet).1.mQueue.capacity = stream.mQueue.capacity := by
  have hcap := (makeRoom_eq stream.capacity_pos stream.mQueue.size).1
  unfold enqueuePacket
  split
  next queue packetsLost h =>
  rw [h] at hcap
  split
  · exact hcap
  · next queue' h' => exact (Lib.Fifo.tryPush_eq_some_iff.mp h').2.2.trans hcap

end PacketStream

namespace SubscriptionManager

/-- A batch keeps the capacity. -/
@[simp] theorem capacity_takePackets (maxPackets : Nat) (stream : PacketStream π) :
    (takePackets maxPackets stream).2.mQueue.capacity = stream.mQueue.capacity := by
  induction maxPackets generalizing stream with
  | zero => rfl
  | succ maxPackets ih =>
    unfold takePackets
    cases h : stream.dequeuePacket with
    | none => rfl
    | some taken =>
      obtain ⟨packet, rest⟩ := taken
      have hrest : rest.mQueue.capacity = stream.mQueue.capacity := by
        unfold PacketStream.dequeuePacket at h
        split at h
        · cases h
        · next hpop =>
          cases h
          exact (Lib.Fifo.tryPop_eq_some_iff.mp hpop).2
      exact (ih rest).trans hrest

end SubscriptionManager

/-- The calls of a `SubscriptionManager`. -/
inductive ManagerCall (π : Type u) where
  | subscribe (contextAddress : Nat)
  | unsubscribe (contextAddress : Nat)
  | enqueuePacket (packet : π)
  | getNextPackets (contextAddress : Nat) (maxPackets : Int)

/-- What a call returns. -/
inductive ManagerResult (π : Type u) where
  | returned
  | packetsLost (nPacketsLost : Nat)
  | packets (result : List π)
  | threw

/-- The calls that concern the subscriber at an address: the broadcasts and its own. -/
def ManagerCall.concerns (a : Nat) : ManagerCall π → Bool
  | enqueuePacket _ => true
  | subscribe contextAddress | unsubscribe contextAddress | getNextPackets contextAddress _ =>
    contextAddress == a

namespace SubscriptionManager

/-- One call, with the load of `mKeepRunning` that it begins with. -/
def call (manager : SubscriptionManager π) :
    ManagerCall π → SubscriptionManager π × ManagerResult π
  | .subscribe contextAddress =>
    if !manager.mKeepRunning then (manager, .returned)
    else match manager.subscribe contextAddress with
      | none => (manager, .threw)
      | some manager => (manager, .returned)
  | .unsubscribe contextAddress =>
    if !manager.mKeepRunning then (manager, .returned)
    else (manager.unsubscribe contextAddress, .returned)
  | .enqueuePacket packet =>
    if !manager.mKeepRunning then (manager, .packetsLost 0)
    else
      let (manager, nPacketsLost) := manager.enqueuePacket packet
      (manager, .packetsLost nPacketsLost)
  | .getNextPackets contextAddress maxPackets =>
    if !manager.mKeepRunning then (manager, .packets [])
    else match manager.getNextPackets contextAddress maxPackets.toNat with
      | none => (manager, .threw)
      | some (result, manager) => (manager, .packets result)

end SubscriptionManager

/-- The account of one subscriber: the packets that were broadcast since it subscribed, those that
were returned to it, and those that its stream popped. -/
structure Account (π : Type u) where
  broadcast : List π := []
  returned : List π := []
  popped : List π := []
  deriving DecidableEq

/-- A manager with the accounts of its subscribers. -/
structure Ledger (π : Type u) where
  manager : SubscriptionManager π
  accounts : Nat → Account π := fun _ ↦ {}

namespace Ledger

/-- What a call leaves of the account at an address. Without a stream it is empty. -/
def account (ledger : Ledger π) (a : Nat) (call : ManagerCall π) : Account π :=
  match ledger.manager.mSubscribers[a]? with
  | none => {}
  | some stream =>
    let account := ledger.accounts a
    match call with
    | .subscribe _ => account
    | .unsubscribe contextAddress => if contextAddress = a then {} else account
    | .enqueuePacket packet =>
      { account with
        broadcast := account.broadcast ++ [packet]
        popped := account.popped ++ stream.popped }
    | .getNextPackets contextAddress maxPackets =>
      if contextAddress = a then
        match (ledger.manager.call (.getNextPackets contextAddress maxPackets)).2 with
        | .packets result => { account with returned := account.returned ++ result }
        | _ => account
      else account

/-- One call of the manager. -/
def call (ledger : Ledger π) (call : ManagerCall π) : Ledger π where
  manager := (ledger.manager.call call).1
  accounts a := ledger.account a call

/-- The ledger after a sequence of calls. -/
def after (ledger : Ledger π) (calls : List (ManagerCall π)) : Ledger π :=
  calls.foldl Ledger.call ledger

theorem after_concat (ledger : Ledger π) (calls : List (ManagerCall π)) (call : ManagerCall π) :
    ledger.after (calls ++ [call]) = (ledger.after calls).call call := by
  unfold after
  rw [List.foldl_append, List.foldl_cons, List.foldl_nil]

/-- The manager that the constructor of the backend makes; `src/backend.cpp:603–605`. -/
def opened (options : BackendOptions) : Ledger π where
  manager := { mQueueCapacity := options.getQueueCapacity }

/-- The stream at an address with its account. -/
def view (ledger : Ledger π) (a : Nat) : Option (PacketStream π) × Account π :=
  (ledger.manager.mSubscribers[a]?, ledger.accounts a)

/-- A running manager of streams of one capacity, where only subscribers have an account. -/
structure Open (queueCapacity : Int) (ledger : Ledger π) : Prop where
  running : ledger.manager.mKeepRunning = true
  queueCapacity : ledger.manager.mQueueCapacity = queueCapacity
  closed : ∀ a, ledger.manager.mSubscribers[a]? = none → ledger.accounts a = {}

end Ledger

/-- One stream by itself: what the calls that concern it do to it and to its account. -/
def streamCall (queueCapacity : Int) : Option (PacketStream π) × Account π → ManagerCall π →
    Option (PacketStream π) × Account π
  | (none, _), .subscribe _ => (PacketStream.new queueCapacity, {})
  | (none, account), .unsubscribe _ | (none, account), .enqueuePacket _
  | (none, account), .getNextPackets _ _ => (none, account)
  | (some stream, account), .subscribe _ => (some stream, account)
  | (some _, _), .unsubscribe _ => (none, {})
  | (some stream, account), .enqueuePacket packet =>
    (some (stream.enqueuePacket packet).1,
      { account with
        broadcast := account.broadcast ++ [packet]
        popped := account.popped ++ stream.popped })
  | (some stream, account), .getNextPackets _ maxPackets =>
    let (result, stream) := SubscriptionManager.takePackets maxPackets.toNat stream
    (some stream, { account with returned := account.returned ++ result })

namespace SubscriptionManager

variable {manager : SubscriptionManager π}

/-- A call that does not concern an address leaves its stream as it is. -/
theorem getElem?_call_of_not_concerns {call : ManagerCall π} {a : Nat}
    (h : call.concerns a = false) :
    (manager.call call).1.mSubscribers[a]? = manager.mSubscribers[a]? := by
  cases call with
  | subscribe contextAddress =>
    have ha : a ≠ contextAddress := fun he ↦ by simp [ManagerCall.concerns, he] at h
    simp only [SubscriptionManager.call]
    split
    · rfl
    · split
      · rfl
      · next hm => exact getElem?_subscribe_of_ne hm ha
  | unsubscribe contextAddress =>
    have ha : a ≠ contextAddress := fun he ↦ by simp [ManagerCall.concerns, he] at h
    simp only [SubscriptionManager.call]
    split
    · rfl
    · exact getElem?_unsubscribe_of_ne manager ha
  | enqueuePacket packet => cases h
  | getNextPackets contextAddress maxPackets =>
    have ha : a ≠ contextAddress := fun he ↦ by simp [ManagerCall.concerns, he] at h
    simp only [SubscriptionManager.call]
    split
    · rfl
    · split
      · rfl
      · next hm => exact getElem?_getNextPackets_of_ne hm ha

/-- A call changes nothing but the map. -/
theorem call_members (manager : SubscriptionManager π) (call : ManagerCall π) :
    (manager.call call).1.mKeepRunning = manager.mKeepRunning ∧
      (manager.call call).1.mQueueCapacity = manager.mQueueCapacity := by
  cases call with
  | subscribe contextAddress =>
    simp only [SubscriptionManager.call]
    split
    · exact ⟨rfl, rfl⟩
    · split
      · exact ⟨rfl, rfl⟩
      · next hm => exact subscribe_members hm
  | unsubscribe contextAddress =>
    simp only [SubscriptionManager.call]
    split <;> exact ⟨rfl, rfl⟩
  | enqueuePacket packet =>
    simp only [SubscriptionManager.call]
    split <;> exact ⟨rfl, rfl⟩
  | getNextPackets contextAddress maxPackets =>
    simp only [SubscriptionManager.call]
    split
    · exact ⟨rfl, rfl⟩
    · split
      · exact ⟨rfl, rfl⟩
      · next hm =>
        obtain ⟨stream, -, -, rfl⟩ := getNextPackets_eq_some_iff.mp hm
        exact ⟨rfl, rfl⟩

/-- A running manager adds a stream for a new address. -/
theorem getElem?_call_subscribe (hrun : manager.mKeepRunning = true) (a : Nat) :
    (manager.call (.subscribe a)).1.mSubscribers[a]? =
      manager.mSubscribers[a]?.or (PacketStream.new manager.mQueueCapacity) := by
  simp only [SubscriptionManager.call, hrun, Bool.not_true, Bool.false_eq_true, if_false]
  cases hs : manager.mSubscribers[a]? with
  | some stream =>
    rw [subscribe_of_mem hs]
    exact hs
  | none =>
    cases hm : manager.subscribe a with
    | none =>
      have hnew : PacketStream.new (π := π) manager.mQueueCapacity = none := by
        rw [subscribe, hs] at hm
        dsimp only at hm
        split at hm
        · next hnew => exact hnew
        · cases hm
      rw [hnew]
      exact hs
    | some manager' =>
      obtain ⟨stream, hnew, hget, -⟩ := getElem?_subscribe_new hm hs
      rw [hnew]
      exact hget

end SubscriptionManager

namespace Ledger

variable {ledger : Ledger π} {queueCapacity : Int}

/-- Seen from an address, a call that does not concern it is none. -/
theorem Open.view_of_not_concerns (h : Open queueCapacity ledger) {call : ManagerCall π} {a : Nat}
    (hc : call.concerns a = false) : (ledger.call call).view a = ledger.view a := by
  have haccount : ledger.account a call = ledger.accounts a := by
    unfold account
    cases hs : ledger.manager.mSubscribers[a]? with
    | none => exact (h.closed a hs).symm
    | some stream =>
      cases call with
      | subscribe contextAddress => rfl
      | unsubscribe contextAddress | getNextPackets contextAddress maxPackets =>
        exact if_neg (by simpa [ManagerCall.concerns] using hc)
      | enqueuePacket packet => cases hc
  exact Prod.ext (SubscriptionManager.getElem?_call_of_not_concerns hc) haccount

/-- Seen from an address, a call that concerns it is one of its stream alone. -/
theorem Open.view_of_concerns (h : Open queueCapacity ledger) {call : ManagerCall π} {a : Nat}
    (hc : call.concerns a = true) :
    (ledger.call call).view a = streamCall queueCapacity (ledger.view a) call := by
  have hclosed := h.closed a
  change ((ledger.manager.call call).1.mSubscribers[a]?, ledger.account a call) =
    streamCall queueCapacity (ledger.manager.mSubscribers[a]?, ledger.accounts a) call
  cases call with
  | subscribe contextAddress =>
    have ha : contextAddress = a := by simpa [ManagerCall.concerns] using hc
    subst ha
    rw [SubscriptionManager.getElem?_call_subscribe h.running, h.queueCapacity, account]
    cases ledger.manager.mSubscribers[contextAddress]? with
    | none => rfl
    | some stream => rfl
  | unsubscribe contextAddress =>
    have ha : contextAddress = a := by simpa [ManagerCall.concerns] using hc
    subst ha
    simp only [SubscriptionManager.call, h.running, Bool.not_true, Bool.false_eq_true, if_false,
      SubscriptionManager.getElem?_unsubscribe_self, account, if_true]
    cases hs : ledger.manager.mSubscribers[contextAddress]? with
    | none => rw [hclosed hs, streamCall]
    | some stream => rfl
  | enqueuePacket packet =>
    simp only [SubscriptionManager.call, h.running, Bool.not_true, Bool.false_eq_true, if_false,
      SubscriptionManager.getElem?_enqueuePacket, account]
    cases hs : ledger.manager.mSubscribers[a]? with
    | none => rw [hclosed hs, streamCall, Option.map_none]
    | some stream => rfl
  | getNextPackets contextAddress maxPackets =>
    have ha : contextAddress = a := by simpa [ManagerCall.concerns] using hc
    subst ha
    simp only [SubscriptionManager.call, h.running, Bool.not_true, Bool.false_eq_true, if_false,
      if_true, SubscriptionManager.getNextPackets, account]
    cases hs : ledger.manager.mSubscribers[contextAddress]? with
    | none => simp only [hs, hclosed hs, streamCall]
    | some stream => simp only [streamCall, Std.ExtTreeMap.getElem?_insert_self]

end Ledger

/-- Without a stream there is no account. -/
theorem streamCall_closed {queueCapacity : Int} {view : Option (PacketStream π) × Account π}
    (h : view.1 = none → view.2 = {}) (call : ManagerCall π)
    (hnone : (streamCall queueCapacity view call).1 = none) :
    (streamCall queueCapacity view call).2 = {} := by
  obtain ⟨stream, account⟩ := view
  cases stream with
  | none =>
    cases call with
    | subscribe contextAddress => rfl
    | unsubscribe contextAddress => exact h rfl
    | enqueuePacket packet => exact h rfl
    | getNextPackets contextAddress maxPackets => exact h rfl
  | some stream =>
    cases call with
    | unsubscribe contextAddress => rfl
    | subscribe contextAddress => cases hnone
    | enqueuePacket packet => cases hnone
    | getNextPackets contextAddress maxPackets => cases hnone

/-- A stream of the given capacity that has accounted for everything since its subscription: what
left the queue was returned or popped, and the rest is in the queue. -/
structure Balanced (queueCapacity : Int) (stream : PacketStream π) (account : Account π) :
    Prop where
  capacity : (stream.mQueue.capacity : Int) = queueCapacity
  departed : ∃ departed, Lib.Interleaved account.returned account.popped departed ∧
    account.broadcast = departed ++ stream.mQueue.toList

/-- A call on a stream keeps the balance. -/
theorem Balanced.streamCall {queueCapacity : Int}
    {view : Option (PacketStream π) × Account π}
    (h : ∀ stream, view.1 = some stream → Balanced queueCapacity stream view.2)
    (call : ManagerCall π) :
    ∀ stream, (Backend.streamCall queueCapacity view call).1 = some stream →
      Balanced queueCapacity stream (Backend.streamCall queueCapacity view call).2 := by
  obtain ⟨stream, account⟩ := view
  intro stream' hs
  cases stream with
  | none =>
    cases call with
    | subscribe contextAddress =>
      have hnew : PacketStream.new queueCapacity = some stream' := hs
      unfold PacketStream.new at hnew
      split at hnew
      · cases hnew
      · cases hnew
        refine ⟨?_, [], .nil, rfl⟩
        dsimp only
        rw [Lib.Fifo.capacity_empty]
        omega
    | unsubscribe contextAddress => cases hs
    | enqueuePacket packet => cases hs
    | getNextPackets contextAddress maxPackets => cases hs
  | some stream =>
    obtain ⟨hcap, departed, hinter, hall⟩ := h stream rfl
    cases call with
    | subscribe contextAddress =>
      cases hs
      exact ⟨hcap, departed, hinter, hall⟩
    | unsubscribe contextAddress => cases hs
    | enqueuePacket packet =>
      cases hs
      refine ⟨by rw [PacketStream.capacity_enqueuePacket, hcap], departed ++ stream.popped,
        hinter.append_dropped _, ?_⟩
      show account.broadcast ++ [packet] = _
      rw [hall, List.append_assoc, List.append_assoc, stream.popped_append_enqueuePacket]
    | getNextPackets contextAddress maxPackets =>
      cases hs
      refine ⟨by rw [SubscriptionManager.capacity_takePackets, hcap],
        departed ++ (SubscriptionManager.takePackets maxPackets.toNat stream).1,
        hinter.append_kept _, ?_⟩
      show account.broadcast = _
      rw [hall, List.append_assoc, SubscriptionManager.toList_takePackets]

namespace Ledger

variable {ledger : Ledger π} {queueCapacity : Int}

/-- A call keeps the manager running. -/
theorem Open.call (h : Open queueCapacity ledger) (call : ManagerCall π) :
    Open queueCapacity (ledger.call call) := by
  obtain ⟨hrun, hcap⟩ := ledger.manager.call_members call
  refine ⟨hrun.trans h.running, hcap.trans h.queueCapacity, ?_⟩
  intro a hnone
  change ((ledger.call call).view a).1 = none at hnone
  change ((ledger.call call).view a).2 = {}
  cases hc : call.concerns a with
  | false =>
    rw [h.view_of_not_concerns hc] at hnone ⊢
    exact h.closed a hnone
  | true =>
    rw [h.view_of_concerns hc] at hnone ⊢
    exact streamCall_closed (h.closed a) call hnone

/-- After a broadcast the newest packet is at the end of every stream. -/
theorem Open.getLast?_enqueuePacket (h : Open queueCapacity ledger) {packet : π} {a : Nat}
    {stream : PacketStream π} {account : Account π}
    (hview : (ledger.call (.enqueuePacket packet)).view a = (some stream, account)) :
    stream.mQueue.toList.getLast? = some packet := by
  rw [h.view_of_concerns rfl] at hview
  generalize ledger.view a = view at hview
  obtain ⟨stream', account'⟩ := view
  cases stream' with
  | none => cases hview
  | some stream' =>
    cases hview
    rw [PacketStream.toList_enqueuePacket, List.getLast?_concat]

/-- The manager of a new backend runs. -/
theorem open_opened (options : BackendOptions) :
    Open options.getQueueCapacity (opened options : Ledger π) where
  running := rfl
  queueCapacity := rfl
  closed _ _ := rfl

/-- A sequence of calls keeps the manager running. -/
theorem Open.after (h : Open queueCapacity ledger) (calls : List (ManagerCall π)) :
    Open queueCapacity (ledger.after calls) :=
  Lib.run_invariant (Open queueCapacity) h fun _ call hopen ↦ hopen.call call

/-- Seen from one address, a sequence of calls is the sequence of those that concern it, on its
stream alone. -/
theorem Open.view_after (h : Open queueCapacity ledger) (calls : List (ManagerCall π)) (a : Nat) :
    (ledger.after calls).view a =
      (calls.filter (ManagerCall.concerns a)).foldl (streamCall queueCapacity) (ledger.view a) := by
  induction calls generalizing ledger with
  | nil => rfl
  | cons call calls ih =>
    have hrest := ih (h.call call)
    cases hc : call.concerns a with
    | false =>
      rw [List.filter_cons_of_neg (by simp [hc]), ← h.view_of_not_concerns hc]
      exact hrest
    | true =>
      rw [List.filter_cons_of_pos hc, List.foldl_cons, ← h.view_of_concerns hc]
      exact hrest

/-- Every stream of a new backend stays in balance. -/
theorem balanced_after (options : BackendOptions) (calls : List (ManagerCall π)) (a : Nat) :
    ∀ stream, (((opened options).after calls).view a).1 = some stream →
      Balanced options.getQueueCapacity stream (((opened options).after calls).view a).2 := by
  rw [(open_opened options).view_after]
  apply Lib.run_invariant (fun view : Option (PacketStream π) × Account π ↦
    ∀ stream, view.1 = some stream → Balanced options.getQueueCapacity stream view.2)
  · intro stream hs
    have hnone : ((opened options : Ledger π).view a).1 = none := Std.ExtTreeMap.getElem?_empty
    rw [hnone] at hs
    cases hs
  · exact fun view call h ↦ Balanced.streamCall h call

end Ledger

/-- What a sequence of calls leaves, and what the next broadcast does to it. -/
structure Accounted (options : BackendOptions) (calls : List (ManagerCall π)) : Prop where
  /-- What was broadcast to a subscriber is what was returned to it and then what is queued for it,
  but for the popped packets. -/
  balanced : ∀ a stream account,
    ((Ledger.opened options).after calls).view a = (some stream, account) →
      Lib.Interleaved (account.returned ++ stream.mQueue.toList) account.popped account.broadcast
  bounded : ∀ a stream account,
    ((Ledger.opened options).after calls).view a = (some stream, account) →
      (stream.mQueue.size : Int) ≤ options.getQueueCapacity
  /-- A broadcast pops the oldest packet of a full queue, and no other. -/
  popsOldest : ∀ a stream account,
    ((Ledger.opened options).after calls).view a = (some stream, account) →
      stream.popped = [] ∨ (stream.mQueue.size : Int) = options.getQueueCapacity ∧
        ∃ oldest rest, stream.mQueue.toList = oldest :: rest ∧ stream.popped = [oldest]
  keepsNewest : ∀ packet a stream account,
    ((Ledger.opened options).after (calls ++ [.enqueuePacket packet])).view a =
      (some stream, account) → stream.mQueue.toList.getLast? = some packet
  /-- A broadcast returns the number of packets that all streams popped. -/
  reported : ∀ packet,
    (((Ledger.opened options).after calls).manager.call (.enqueuePacket packet)).2 =
      .packetsLost (((Ledger.opened options).after calls).manager.mSubscribers.toList.map
        fun entry ↦ entry.2.popped.length).sum
  /-- Another subscriber's calls make no difference. -/
  independent : ∀ others a,
    others.filter (ManagerCall.concerns a) = calls.filter (ManagerCall.concerns a) →
      ((Ledger.opened options).after others).view a = ((Ledger.opened options).after calls).view a

/-- Every packet that was broadcast to a subscriber was returned, is queued, or was popped. -/
theorem Accounted.conserved {options : BackendOptions} {calls : List (ManagerCall π)}
    (h : Accounted options calls) {a : Nat} {stream : PacketStream π} {account : Account π}
    (hview : ((Ledger.opened options).after calls).view a = (some stream, account)) :
    account.broadcast.length =
      account.returned.length + stream.mQueue.size + account.popped.length := by
  rw [(h.balanced a stream account hview).length_eq, List.length_append, Lib.Fifo.size]

/-- A broadcast counts the packets that the streams pop. -/
theorem SubscriptionManager.enqueuePacket_snd (manager : SubscriptionManager π) (packet : π) :
    (manager.enqueuePacket packet).2 =
      (manager.mSubscribers.toList.map fun entry ↦ entry.2.popped.length).sum := by
  have hsum (l : List (Nat × PacketStream π)) (n : Nat) :
      l.foldl (fun nPacketsLost entry ↦ nPacketsLost + (entry.2.enqueuePacket packet).2) n =
        n + (l.map fun entry ↦ entry.2.popped.length).sum := by
    induction l generalizing n with
    | nil => rfl
    | cons entry l ih =>
      rw [List.foldl_cons, ih, List.map_cons, List.sum_cons, PacketStream.enqueuePacket_snd]
      omega
  unfold SubscriptionManager.enqueuePacket
  rw [Std.ExtTreeMap.foldl_eq_foldl_toList, hsum, Nat.zero_add]

end ImportProxy.Backend
