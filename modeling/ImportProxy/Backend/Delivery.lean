import ImportProxy.Backend.Writer

/-!
# Delivery to a subscriber

What a subscriber has been given, what its pump still holds and what waits in
its stream, taken together, only ever loses packets by the steps of the RPCs
and grows at its end by a broadcast.
-/

namespace ImportProxy.Backend

open ImportProxy.Base

universe u

variable {π : Type u} {options : BackendOptions} {s s' : BackendState π} {w w' : Writer π}
  {event : WriterEvent}

namespace Writer

/-- The packets that the pump may still give to `StartWrite`: all but the one in flight, and none
once the RPC is leaving. -/
def toSend (w : Writer π) : List π :=
  match w.stage with
  | .writing => w.mPacketsQueue.tail
  | .exchange _ | .unsubscribeRunning _ | .unsubscribe _ | .finished | .countDone | .deleted => []
  | .authenticate | .loadSize | .loadRunning | .subscribe | .storeSubscribed |
    .countSubscribers | .pump | .pumpCancelled | .stopCancelled | .fetchRunning | .fetch |
    .idle => w.mPacketsQueue

/-- The packets that were given to `StartWrite`, and behind them those that may still be. -/
def given (w : Writer π) : List π := w.written ++ w.toSend

@[simp] theorem given_finish (w : Writer π) (status : Status) :
    (w.finish status).given = w.written := List.append_nil _

@[simp] theorem given_leave (w : Writer π) (status : Option Status) :
    (w.leave status).given = w.written := by
  cases status <;> exact List.append_nil _

/-- The context of an RPC: its address and the metadata of its client. -/
def context (w : Writer π) : Nat × Metadata := (w.contextAddress, w.clientMetadata)

@[simp] theorem context_leave (w : Writer π) (status : Option Status) :
    (w.leave status).context = w.context := by
  cases status <;> rfl

@[simp] theorem context_send (w : Writer π) : w.send.context = w.context := by
  unfold send
  split <;> rfl

theorem written_sublist_given (w : Writer π) : w.written.Sublist w.given :=
  List.sublist_append_left _ _

/-- Starting a write moves the front packet. -/
theorem given_send (w : Writer π) : w.send.given = w.written ++ w.mPacketsQueue := by
  unfold send
  split
  · next hq => simp only [given, toSend]
  · next packet rest hq =>
    simp only [given, toSend, hq, List.tail_cons, List.append_assoc, List.singleton_append]

/-- The queue of the pump after a batch is a part of the queue and the batch. -/
theorem pushPackets_sublist (w : Writer π) (packetsBuffer : List π) :
    (w.pushPackets packetsBuffer).mPacketsQueue.Sublist (w.mPacketsQueue ++ packetsBuffer) := by
  unfold pushPackets
  dsimp only
  induction packetsBuffer generalizing w with
  | nil => rw [List.foldl_nil, List.append_nil]
  | cons packet packetsBuffer ih =>
    have hqueue : ((if w.mPacketsQueue.length > mMaximumWriteQueueSize then w.mPacketsQueue.tail
        else w.mPacketsQueue) ++ [packet]).Sublist (w.mPacketsQueue ++ [packet]) := by
      apply List.Sublist.append_right
      split
      · exact List.tail_sublist _
      · exact List.Sublist.refl _
    have hrest := ih { w with
      mPacketsQueue := (if w.mPacketsQueue.length > mMaximumWriteQueueSize
        then w.mPacketsQueue.tail else w.mPacketsQueue) ++ [packet] }
    rw [List.foldl_cons, List.append_cons w.mPacketsQueue]
    exact hrest.trans (hqueue.append_right packetsBuffer)

end Writer

/-- The packets that were given to the subscriber, those that its pump holds, and those that wait
for it. -/
def trail (s : BackendState π) (w : Writer π) : List π :=
  w.given ++ s.mSubscriptionManager.queueOf w.contextAddress

/-- No step of an RPC changes its context. -/
theorem WriterStep.context_eq (hstep : WriterStep options s w event s' w') :
    w'.context = w.context := by
  cases hstep with
  | sendsQueued | fetchesStopped | fetchFailed | fetched => exact Writer.context_send _
  | notSubscribed | unsubscribesStopped | unsubscribed => exact Writer.context_leave _ _
  | writeDone ok =>
    unfold onWriteDone
    split_ifs <;> rfl
  | refused | validated | exhausted | belowMaximum | subscribes | subscribesStopped | failed |
    subscribed | stored | counted | pumps | pumpsStopped | pumpsCancelled | queueEmpty | stops |
    fetches | alarm | takesSubscribed | unsubscribes | done | deleted | cancel | waits |
    notWriting => rfl

theorem WriterStep.contextAddress_eq (hstep : WriterStep options s w event s' w') :
    w'.contextAddress = w.contextAddress := congrArg Prod.fst hstep.context_eq

theorem WriterStep.clientMetadata_eq (hstep : WriterStep options s w event s' w') :
    w'.clientMetadata = w.clientMetadata := congrArg Prod.snd hstep.context_eq

/-- A step of an RPC adds nothing to what waits for any context. -/
theorem WriterStep.queueOf_sublist (hstep : WriterStep options s w event s' w') (a : Nat) :
    (s'.mSubscriptionManager.queueOf a).Sublist (s.mSubscriptionManager.queueOf a) := by
  cases hstep with
  | subscribed manager hs hm =>
    rw [SubscriptionManager.queueOf_subscribe hm a]
  | fetched packetsBuffer manager hs hm =>
    obtain ⟨hself, hother⟩ := SubscriptionManager.queueOf_getNextPackets hm
    by_cases ha : a = w.contextAddress
    · subst ha
      rw [hself]
      exact List.sublist_append_right _ _
    · rw [hother a ha]
  | unsubscribed status hs => exact SubscriptionManager.queueOf_unsubscribe_sublist _ _ a
  | refused | validated | exhausted | belowMaximum | subscribes | subscribesStopped | failed |
    stored | counted | pumps | pumpsStopped | pumpsCancelled | queueEmpty | sendsQueued | stops |
    fetches | fetchesStopped | fetchFailed | alarm | takesSubscribed | notSubscribed |
    unsubscribes | unsubscribesStopped | done | deleted | writeDone | cancel | waits |
    notWriting => exact List.Sublist.refl _

/-- A fetch moves packets from the stream of the subscriber to its pump. -/
theorem trail_fetched {packetsBuffer : List π} {manager : SubscriptionManager π}
    (hs : w.stage = .fetch)
    (hm : s.mSubscriptionManager.getNextPackets w.contextAddress mMaximumWriteQueueSize =
      some (packetsBuffer, manager)) :
    (trail { s with mSubscriptionManager := manager } (w.pushPackets packetsBuffer).send).Sublist
      (trail s w) := by
  have hself := (SubscriptionManager.queueOf_getNextPackets hm).1
  have hsend : (w.pushPackets packetsBuffer).send.contextAddress = w.contextAddress :=
    congrArg Prod.fst (Writer.context_send _)
  have hgiven : w.given = w.written ++ w.mPacketsQueue := by
    simp only [Writer.given, Writer.toSend, hs]
  unfold trail
  rw [Writer.given_send, hsend, hself, hgiven, List.append_assoc, List.append_assoc]
  apply List.Sublist.append_left
  rw [← List.append_assoc]
  exact (w.pushPackets_sublist packetsBuffer).append_right _

/-- A step of an RPC adds nothing to its trail. -/
theorem WriterStep.trail_sublist (hstep : WriterStep options s w event s' w') :
    (trail s' w').Sublist (trail s w) := by
  have haddr := hstep.contextAddress_eq
  have hqueue := hstep.queueOf_sublist w.contextAddress
  have of_given (hgiven : w'.given.Sublist w.given) : (trail s' w').Sublist (trail s w) := by
    unfold trail
    rw [haddr]
    exact hgiven.append hqueue
  cases hstep with
  | fetched packetsBuffer manager hs hm => exact trail_fetched hs hm
  | refused | exhausted | failed =>
    apply of_given
    rw [Writer.given_finish]
    exact w.written_sublist_given
  | notSubscribed | unsubscribesStopped | unsubscribed =>
    apply of_given
    rw [Writer.given_leave]
    exact w.written_sublist_given
  | sendsQueued hs | fetchesStopped hs | fetchFailed hs =>
    apply of_given
    rw [Writer.given_send]
    simp only [Writer.given, Writer.toSend, hs]
    exact List.Sublist.refl _
  | stops hs | takesSubscribed _ hs | unsubscribes _ hs | done hs | deleted hs =>
    apply of_given
    show (w.written ++ []).Sublist _
    rw [List.append_nil]
    exact w.written_sublist_given
  | validated hs | belowMaximum hs | subscribes hs | subscribesStopped hs | subscribed _ hs
  | stored hs | counted hs | pumps hs | pumpsStopped hs | pumpsCancelled hs | queueEmpty hs
  | fetches hs | alarm hs =>
    apply of_given
    simp only [Writer.given, Writer.toSend, hs]
    exact List.Sublist.refl _
  | writeDone ok hs =>
    apply of_given
    simp only [Writer.given, Writer.toSend, hs]
    unfold onWriteDone
    split_ifs
    · exact List.Sublist.refl _
    · exact (List.Sublist.refl _).append (List.nil_sublist _)
    · exact (List.Sublist.refl _).append (List.nil_sublist _)
  | cancel | waits | notWriting => exact of_given (List.Sublist.refl _)

end ImportProxy.Backend
