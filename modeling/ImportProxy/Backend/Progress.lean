import ImportProxy.Backend.Lifecycle
import ImportProxy.Backend.WindDown

/-!
# The progress of a subscription

A pump fetches batches from the stream of its subscriber, and writes them packet by packet:
`src/backend.cpp:433–451,487–566`. As long as packets wait for the subscriber and the RPC is not
about to end, every step that it waits for brings it nearer to its next write; and its steps lose
nothing of what waits.
-/

namespace ImportProxy.Backend

open ImportProxy.Base

universe u

variable {π : Type u}

/-- The packets that wait for the subscriber: those that its pump holds, and behind them those in
its stream. -/
def backlog (s : BackendState π) (w : Writer π) : List π :=
  w.toSend ++ s.mSubscriptionManager.queueOf w.contextAddress

/-- The RPC is about to end. -/
def Ends (s : BackendState π) (w : Writer π) : Prop :=
  Told s w ∨ w.stage.leaving = true ∨ w.stage = .stopCancelled

/-- The steps of a subscribed RPC before it starts its next write, when there are packets to
write. -/
def Writer.turns (w : Writer π) : Nat :=
  match w.stage with
  | .storeSubscribed => 8
  | .countSubscribers => 7
  | .writing | .idle => 6
  | .pump => 5
  | .pumpCancelled => 4
  | .fetchRunning => 3
  | .fetch => 2
  | .authenticate | .loadSize | .loadRunning | .subscribe | .stopCancelled | .exchange _
  | .unsubscribeRunning _ | .unsubscribe _ | .finished | .countDone | .deleted => 0

variable {options : BackendOptions} {s s' : BackendState π} {w w' : Writer π}
  {event : WriterEvent} {log : List (WriterEffect π)} {a : Nat}

theorem trail_eq (s : BackendState π) (w : Writer π) :
    trail s w = w.written ++ backlog s w := List.append_assoc _ _ _

/-- An RPC that is about to end goes on to its end. -/
theorem WriterStep.ends (hstep : WriterStep options s w event s' w') (h : Ends s w) :
    Ends s' w' := by
  rcases h with htold | hleaving | hstop
  · exact Or.inl (hstep.told htold)
  · right
    left
    cases hstep with
    | refused hs | validated hs | exhausted hs | belowMaximum hs | subscribes hs
    | subscribesStopped hs | failed hs | subscribed _ hs | stored hs | counted hs | pumps hs
    | pumpsStopped hs | pumpsCancelled hs | queueEmpty hs | sendsQueued hs | stops hs | fetches hs
    | fetchesStopped hs | fetchFailed hs | fetched _ _ hs | alarm hs | writeDone _ hs =>
      rw [hs] at hleaving
      cases hleaving
    | notSubscribed status | unsubscribesStopped status | unsubscribed status =>
      cases status <;> rfl
    | takesSubscribed | unsubscribes | done | deleted => rfl
    | cancel | waits | notWriting => exact hleaving
  · cases hstep with
    | refused hs | validated hs | exhausted hs | belowMaximum hs | subscribes hs
    | subscribesStopped hs | failed hs | subscribed _ hs | stored hs | counted hs | pumps hs
    | pumpsStopped hs | pumpsCancelled hs | queueEmpty hs | sendsQueued hs | fetches hs
    | fetchesStopped hs | fetchFailed hs | fetched _ _ hs | alarm hs | writeDone _ hs
    | notSubscribed _ hs | unsubscribesStopped _ hs | unsubscribed _ hs | takesSubscribed _ hs
    | unsubscribes _ hs | done hs | deleted hs =>
      rw [hstop] at hs
      cases hs
    | stops => exact Or.inr (Or.inl rfl)
    | cancel | waits | notWriting => exact Or.inr (Or.inr hstop)

/-- Packets that were given to `StartWrite` are not taken back. -/
theorem WriterStep.written_prefix (hstep : WriterStep options s w event s' w') :
    w.written <+: w'.written := by
  have send (v : Writer π) : v.written <+: v.send.written := by
    unfold Writer.send
    split
    · exact List.prefix_rfl
    · exact List.prefix_append _ _
  cases hstep with
  | sendsQueued | fetchesStopped | fetchFailed => exact send w
  | fetched packetsBuffer => exact send (w.pushPackets packetsBuffer)
  | notSubscribed status | unsubscribesStopped status | unsubscribed status =>
    cases status <;> exact List.prefix_rfl
  | writeDone ok hs =>
    unfold onWriteDone
    split_ifs <;> exact List.prefix_rfl
  | refused | validated | exhausted | belowMaximum | subscribes | subscribesStopped | failed
  | subscribed | stored | counted | pumps | pumpsStopped | pumpsCancelled | queueEmpty | stops
  | fetches | alarm | takesSubscribed | unsubscribes | done | deleted | cancel | waits
  | notWriting => exact List.prefix_rfl

/-- A step of an RPC adds nothing to what waits for it, and takes what it writes from there. -/
theorem WriterStep.length_backlog_le (hstep : WriterStep options s w event s' w') :
    w'.written.length + (backlog s' w').length ≤ w.written.length + (backlog s w).length := by
  have hle := hstep.trail_sublist.length_le
  rwa [trail_eq, trail_eq, List.length_append, List.length_append] at hle

/-- A fetch from a stream that has packets brings packets. -/
theorem getNextPackets_ne_nil {manager manager' : SubscriptionManager π} {result : List π}
    {maxPackets : Nat} (hpos : 0 < maxPackets)
    (hm : manager.getNextPackets a maxPackets = some (result, manager'))
    (hwaits : manager.queueOf a ≠ []) : result ≠ [] := by
  obtain ⟨stream, hstream, rfl, -⟩ := SubscriptionManager.getNextPackets_eq_some_iff.mp hm
  unfold SubscriptionManager.queueOf at hwaits
  rw [hstream] at hwaits
  obtain ⟨n, rfl⟩ := Nat.exists_eq_succ_of_ne_zero (Nat.ne_of_gt hpos)
  unfold SubscriptionManager.takePackets PacketStream.dequeuePacket
  split
  · next hnone =>
    split at hnone
    · next hpop => exact absurd (Lib.Fifo.tryPop_eq_none_iff.mp hpop) hwaits
    · cases hnone
  · exact List.cons_ne_nil _ _

/-- Without a stream there is nothing to fetch. -/
theorem queueOf_eq_nil_of_getNextPackets {manager : SubscriptionManager π} {maxPackets : Nat}
    (hm : manager.getNextPackets a maxPackets = none) : manager.queueOf a = [] := by
  unfold SubscriptionManager.getNextPackets at hm
  unfold SubscriptionManager.queueOf
  cases hs : manager.mSubscribers[a]? with
  | none => rfl
  | some stream =>
    rw [hs] at hm
    cases hm

/-- `send` starts a write when there is a packet to write. -/
theorem send_of_ne_nil (hqueue : w.mPacketsQueue ≠ []) :
    w.send.stage = .writing ∧ w.send.written.length = w.written.length + 1 := by
  unfold Writer.send
  split
  · next hnil => exact absurd hnil hqueue
  · exact ⟨rfl, List.length_append⟩

/-- While packets wait, every step that the RPC waits for starts a write, or brings the next one
nearer, or leads to the end. -/
theorem WriterStep.progress (hstep : WriterStep options s w event s' w') (hpump : PumpInv w log)
    (hflags : StopInv s) (hentry : w.stage.beforeEntry = false) (hends : ¬Ends s w)
    (hwaits : backlog s w ≠ []) (hresumes : w.resumes event = true) :
    Ends s' w' ∨ (w'.written.length = w.written.length + 1 ∧ w'.turns = 6) ∨
      w'.turns < w.turns := by
  have hrunning : s.mKeepRunning = true := by
    by_contra hstop
    exact hends (Or.inl (Or.inl (by simpa using hstop)))
  have hmanager : s.mSubscriptionManager.mKeepRunning = true := by
    rw [hflags.managerRunning]
    rw [hflags.running] at hrunning
    cases hs : s.stopStage <;> simp_all [StopStage.managerStopped]
  have hnot (hleaving : w.stage.leaving = true) : False := hends (Or.inr (Or.inl hleaving))
  -- a write that starts
  have starts {v : Writer π} (hwritten : v.written = w.written) (hqueue : v.mPacketsQueue ≠ []) :
      v.send.written.length = w.written.length + 1 ∧ v.send.turns = 6 := by
    obtain ⟨hstage, hlen⟩ := send_of_ne_nil hqueue
    refine ⟨by rw [hlen, hwritten], ?_⟩
    simp only [Writer.turns, hstage]
  cases hstep with
  | refused hs | validated hs | exhausted hs | belowMaximum hs | subscribes hs
  | subscribesStopped hs | failed hs | subscribed _ hs =>
    rw [hs] at hentry
    cases hentry
  | stored hs | counted hs | pumps hs | queueEmpty hs | fetches hs | alarm hs =>
    right
    right
    simp [Writer.turns, hs]
  | pumpsStopped hs hstop =>
    rw [hrunning] at hstop
    cases hstop
  | pumpsCancelled hs hc => exact absurd (Or.inl (Or.inr hc)) hends
  | stops hs => exact absurd (Or.inr (Or.inr hs)) hends
  | sendsQueued hs hc hq => exact Or.inr (Or.inl (starts rfl hq))
  | fetchesStopped hs hstop =>
    rw [hmanager] at hstop
    cases hstop
  | fetchFailed hs hm =>
    have hqueue : w.mPacketsQueue = [] := hpump.packets.empty (Or.inr (Or.inl hs))
    have hnone := queueOf_eq_nil_of_getNextPackets hm
    refine absurd ?_ hwaits
    simp only [backlog, Writer.toSend, hs, hqueue, hnone, List.append_nil]
  | fetched packetsBuffer manager hs hm =>
    have hqueue : w.mPacketsQueue = [] := hpump.packets.empty (Or.inr (Or.inl hs))
    have hpush := (hpump.packets.pushPackets_eq hs hm).1
    have hstream : s.mSubscriptionManager.queueOf w.contextAddress ≠ [] := by
      simpa only [backlog, Writer.toSend, hs, hqueue, List.nil_append, ne_eq] using hwaits
    have hne := getNextPackets_ne_nil (by decide) hm hstream
    exact Or.inr (Or.inl (starts rfl (by rwa [hpush])))
  | writeDone ok hs =>
    unfold onWriteDone
    split_ifs
    · right
      right
      simp [Writer.turns, hs]
    · exact Or.inl (Or.inr (Or.inl rfl))
    · exact Or.inl (Or.inr (Or.inl rfl))
  | takesSubscribed _ hs | notSubscribed _ hs | unsubscribes _ hs | unsubscribesStopped _ hs
  | unsubscribed _ hs | done hs | deleted hs => exact (hnot (by rw [hs]; rfl)).elim
  | cancel => cases hresumes
  | waits hs =>
    rcases hs with hs | hs
    · simp [Writer.resumes, hs] at hresumes
    · exact (hnot (by rw [hs]; rfl)).elim
  | notWriting ok hs => simp [Writer.resumes, hs] at hresumes

/-- An event that the RPC does not wait for leaves its stage. -/
theorem WriterStep.stage_eq_of_not_resumes (hstep : WriterStep options s w event s' w')
    (h : w.resumes event = false) : w'.stage = w.stage := by
  cases event with
  | cancel =>
    cases hstep
    rfl
  | writeDone ok =>
    cases hstep with
    | writeDone ok hs => simp [Writer.resumes, hs] at h
    | notWriting => rfl
  | proceed =>
    have hs : w.stage = .writing := by simpa [Writer.resumes] using h
    cases hstep with
    | waits => rfl
    | refused h | validated h | exhausted h | belowMaximum h | subscribes h | subscribesStopped h
    | failed h | subscribed _ h | stored h | counted h | pumps h | pumpsStopped h
    | pumpsCancelled h | queueEmpty h | sendsQueued h | stops h | fetches h | fetchesStopped h
    | fetchFailed h | fetched _ _ h | alarm h | takesSubscribed _ h | notSubscribed _ h
    | unsubscribes _ h | unsubscribesStopped _ h | unsubscribed _ h | done h | deleted h =>
      rw [hs] at h
      cases h

/-- An RPC that has subscribed stays behind its subscription. -/
theorem WriterStep.beforeEntry_eq (hstep : WriterStep options s w event s' w')
    (h : w.stage.beforeEntry = false) : w'.stage.beforeEntry = false := by
  cases hstep with
  | refused hs | validated hs | exhausted hs | belowMaximum hs | subscribes hs
  | subscribesStopped hs | failed hs | subscribed _ hs =>
    rw [hs] at h
    cases h
  | sendsQueued | fetchesStopped | fetchFailed | fetched =>
    unfold Writer.send
    split <;> rfl
  | notSubscribed status | unsubscribesStopped status | unsubscribed status =>
    cases status <;> rfl
  | writeDone ok hs =>
    unfold onWriteDone
    split_ifs <;> rfl
  | stored | counted | pumps | pumpsStopped | pumpsCancelled | queueEmpty | stops | fetches
  | alarm | takesSubscribed | unsubscribes | done | deleted => rfl
  | cancel | waits | notWriting => exact h

/-- The steps of an RPC that is not about to end lose nothing of what was given to it and what waits
for it. -/
theorem WriterStep.trail_eq (hstep : WriterStep options s w event s' w') (hpump : PumpInv w log)
    (hends : ¬Ends s' w') : trail s' w' = trail s w := by
  have haddr := hstep.contextAddress_eq
  have hnot (hleaving : w'.stage.leaving = true) : False := hends (Or.inr (Or.inl hleaving))
  have of_given (hgiven : w'.given = w.given)
      (hqueue : s'.mSubscriptionManager.queueOf w.contextAddress =
        s.mSubscriptionManager.queueOf w.contextAddress) : trail s' w' = trail s w := by
    unfold trail
    rw [haddr, hgiven, hqueue]
  cases hstep with
  | refused | exhausted | failed => exact (hnot rfl).elim
  | notSubscribed status | unsubscribesStopped status | unsubscribed status =>
    cases status <;> exact (hnot rfl).elim
  | stops | takesSubscribed | unsubscribes | done | deleted => exact (hnot rfl).elim
  | pumpsStopped | pumpsCancelled => exact absurd (Or.inr (Or.inr rfl)) hends
  | sendsQueued hs | fetchesStopped hs | fetchFailed hs =>
    apply of_given
    · rw [Writer.given_send]
      simp only [Writer.given, Writer.toSend, hs]
    · rfl
  | validated hs | belowMaximum hs | subscribes hs | subscribesStopped hs | stored hs | counted hs
  | pumps hs | queueEmpty hs | fetches hs | alarm hs =>
    apply of_given
    · simp only [Writer.given, Writer.toSend, hs]
    · rfl
  | subscribed manager hs hm =>
    apply of_given
    · simp only [Writer.given, Writer.toSend, hs]
    · exact SubscriptionManager.queueOf_subscribe hm w.contextAddress
  | fetched packetsBuffer manager hs hm =>
    have hqueue : w.mPacketsQueue = [] := hpump.packets.empty (Or.inr (Or.inl hs))
    have hpush := (hpump.packets.pushPackets_eq hs hm).1
    have hself := (SubscriptionManager.queueOf_getNextPackets hm).1
    unfold trail
    rw [haddr, Writer.given_send, hpush, hself]
    simp only [Writer.given, Writer.toSend, hs, hqueue, List.append_nil, Writer.pushPackets,
      List.append_assoc]
  | writeDone ok hs =>
    unfold onWriteDone at hnot haddr of_given ⊢
    split_ifs at hnot haddr of_given ⊢
    · apply of_given
      · simp only [Writer.given, Writer.toSend, hs]
      · rfl
    · exact (hnot rfl).elim
    · exact (hnot rfl).elim
  | cancel | waits | notWriting => exact of_given rfl rfl

/-- A step of another RPC leaves what waits for a context. -/
theorem WriterStep.queueOf_eq_of_ne (hstep : WriterStep options s w event s' w')
    (ha : a ≠ w.contextAddress) :
    s'.mSubscriptionManager.queueOf a = s.mSubscriptionManager.queueOf a := by
  cases hstep with
  | subscribed manager hs hm => exact SubscriptionManager.queueOf_subscribe hm a
  | fetched packetsBuffer manager hs hm =>
    exact (SubscriptionManager.queueOf_getNextPackets hm).2 a ha
  | unsubscribed status hs =>
    unfold SubscriptionManager.queueOf
    dsimp only
    rw [SubscriptionManager.getElem?_unsubscribe_of_ne _ ha]
  | refused | validated | exhausted | belowMaximum | subscribes | subscribesStopped | failed
  | stored | counted | pumps | pumpsStopped | pumpsCancelled | queueEmpty | sendsQueued | stops
  | fetches | fetchesStopped | fetchFailed | alarm | takesSubscribed | notSubscribed
  | unsubscribes | unsubscribesStopped | done | deleted | writeDone | cancel | waits
  | notWriting => rfl

end ImportProxy.Backend
