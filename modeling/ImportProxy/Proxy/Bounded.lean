import ImportProxy.Proxy.Room

/-!
# What the proxy holds is bounded

However slow the subscribers are and however much is published, the proxy holds no more packets than
its queues have room for: those in the import queue, the one of the propagator, one in each call of
a publisher, and a stream and a write queue for each subscriber. No stream is left that is not one
of a subscriber.
-/

namespace ImportProxy.Proxy

open ImportProxy.Base
open ImportProxy.Backend (BackendState PumpInv Writer WriterEvent WriterStep stopStep)

/-- The packets that are held for a client: the one of its call, or those that wait for it. -/
def Client.holds (backend : BackendState Tagged) : Client → List Tagged
  | .connected (.publisher publisher) => inCall (some (.publisher publisher))
  | .connected (.subscriber writer) =>
    writer.mPacketsQueue ++ backend.mSubscriptionManager.queueOf writer.contextAddress
  | .connecting _ => []

/-- How many there is room for. -/
def Client.room (options : ProxyOptions) : Client → Nat
  | .connected (.publisher _) => 1
  | .connected (.subscriber _) =>
    Backend.mMaximumWriteQueueSize + options.getBackendOptions.getQueueCapacity.toNat
  | .connecting _ => 0

/-- The packets that the proxy holds. -/
def heldPackets (s : Lib.Pool ServiceState Client) : List Tagged :=
  s.shared.onTheWay ++ s.threads.flatMap (Client.holds s.shared.proxy.backend)

/-- Every stream is one of a subscriber. -/
def Owned (s : Lib.Pool ServiceState Client) : Prop :=
  ∀ a, s.shared.proxy.backend.mSubscriptionManager.mSubscribers.contains a = true →
    ∃ (k : Nat) (u : Writer Tagged),
      s.threads[k]? = some (.connected (.subscriber u)) ∧ u.contextAddress = a

/-- Every stream is one of a subscriber, and the proxy holds no more packets than there is room
for. -/
structure HoldsWithin (options : ProxyOptions) (s : Lib.Pool ServiceState Client) : Prop where
  owned : Owned s
  length_le : (heldPackets s).length ≤
    options.getQueueCapacity.toNat + 1 + (s.threads.map (Client.room options)).sum

variable {options : ProxyOptions} {s s' : Lib.Pool ServiceState Client}
  {move : Lib.Move Arrival PartyEvent ServiceEvent}

/-- A step of a call keeps the capacity. -/
theorem AddStep.capacity_eq {queue queue' : ImportQueue Tagged} {call call' : AddCall Tagged}
    (hstep : AddStep queue call queue' call') :
    queue'.mImportExportQueue.capacity = queue.mImportExportQueue.capacity := by
  cases hstep with
  | evicted hs workSpace queue hpop hcap => exact hcap
  | pushed hs queue hroom hpush hcap => exact hcap
  | full | room | nothing | dropped | gone => rfl

theorem capacity_propagatorPop (queue : ImportQueue Tagged) :
    (propagatorPop queue).mImportExportQueue.capacity = queue.mImportExportQueue.capacity := by
  unfold propagatorPop
  split
  · rfl
  · next hpop => exact (Lib.Fifo.tryPop_eq_some_iff.mp hpop).2

/-- A step of an RPC adds no stream but its own. -/
theorem contains_of_writerStep {backendOptions : Backend.BackendOptions}
    {state state' : BackendState Tagged} {w w' : Writer Tagged} {event : WriterEvent}
    (hstep : WriterStep backendOptions state w event state' w') {a : Nat}
    (ha : state'.mSubscriptionManager.mSubscribers.contains a = true) :
    state.mSubscriptionManager.mSubscribers.contains a = true ∨ a = w.contextAddress := by
  cases hstep with
  | subscribed manager hs hm =>
    exact (Backend.SubscriptionManager.contains_subscribe_iff hm a).mp ha
  | fetched packetsBuffer manager hs hm =>
    have hsame := Backend.SubscriptionManager.contains_getNextPackets hm a
    exact Or.inl (hsame.symm.trans ha)
  | unsubscribed status hs =>
    exact Or.inl ((Backend.SubscriptionManager.contains_unsubscribe_iff _ _ a).mp ha).1
  | _ => exact Or.inl ha

theorem contains_of_stopStep {state : BackendState Tagged} {a : Nat}
    (ha : (stopStep state).mSubscriptionManager.mSubscribers.contains a = true) :
    state.mSubscriptionManager.mSubscribers.contains a = true := by
  unfold stopStep at ha
  cases hs : state.stopStage with
  | notCalled | storedManager | cleared | storedRunning =>
    simp only [hs] at ha
    exact ha
  | counted =>
    simp only [hs] at ha
    have hempty : (∅ : Std.ExtTreeMap Nat (Backend.PacketStream Tagged)).contains a = true := ha
    simp at hempty

/-- A move adds no stream but the one of a subscriber that takes its step. -/
theorem BackendMove.contains (h : BackendMove options s s' move) {a : Nat}
    (ha : s'.shared.proxy.backend.mSubscriptionManager.mSubscribers.contains a = true) :
    s.shared.proxy.backend.mSubscriptionManager.mSubscribers.contains a = true ∨
      ∃ (k : Nat) (u : Writer Tagged),
        s.threads[k]? = some (.connected (.subscriber u)) ∧ u.contextAddress = a := by
  cases h with
  | subscriber j u u' event hj hthreads hstep hbroadcast =>
    exact (contains_of_writerStep hstep ha).imp id fun hown ↦ ⟨j, u, hj, hown.symm⟩
  | broadcasts packet hworks hs hthreads hbackend hbroadcast =>
    rw [hbackend] at ha
    have hsame := Backend.SubscriptionManager.contains_enqueuePacket
      s.shared.proxy.backend.mSubscriptionManager packet a
    exact Or.inl (hsame.symm.trans ha)
  | stops hthreads hbackend hbroadcast =>
    rw [hbackend] at ha
    exact Or.inl (contains_of_stopStep ha)
  | clears step hcleared hthreads hbackend hbroadcast =>
    rw [hbackend] at ha
    have hempty : (∅ : Std.ExtTreeMap Nat (Backend.PacketStream Tagged)).contains a = true := ha
    simp at hempty
  | keeps move hother hbackend hbroadcast =>
    rw [hbackend] at ha
    exact Or.inl ha

/-- What is held for a client fits in its room. -/
theorem Client.length_holds_le {client : Client} {backend : BackendState Tagged}
    (hsized : Sized options.getBackendOptions.getQueueCapacity backend.mSubscriptionManager)
    (hpumps : ∀ u, client = .connected (.subscriber u) → ∃ log, PumpInv u log) :
    (client.holds backend).length ≤ client.room options := by
  cases client with
  | connecting arrival => exact Nat.le_refl 0
  | connected party =>
    cases party with
    | publisher publisher =>
      show ((publisher.call.map AddCall.pending).getD []).length ≤ 1
      cases publisher.call with
      | none => exact Nat.zero_le 1
      | some call =>
        obtain ⟨packet, stage⟩ := call
        cases stage <;> simp [AddCall.pending]
    | subscriber u =>
      obtain ⟨log, hpump⟩ := hpumps u rfl
      show (u.mPacketsQueue ++ backend.mSubscriptionManager.queueOf u.contextAddress).length ≤
        Backend.mMaximumWriteQueueSize + options.getBackendOptions.getQueueCapacity.toNat
      have hqueue := hpump.packets.bounded
      have hstream := hsized.length_queueOf_le u.contextAddress
      rw [List.length_append]
      omega

/-- The propagator holds one packet at most. -/
theorem PropagatorStage.length_le (stage : PropagatorStage) :
    stage.undelivered.length + stage.pending.length ≤ 1 := by
  cases stage <;> simp [PropagatorStage.undelivered, PropagatorStage.pending]

variable {state : ProxyState}

/-- The constructor makes no stream. -/
theorem owned_new (hnew : ProxyState.new options = .ok state) :
    Owned ⟨{ proxy := state }, []⟩ := by
  intro a ha
  have hcontains : state.backend.mSubscriptionManager.mSubscribers.contains a = true := ha
  rw [(new_members hnew).2] at hcontains
  have hempty : (∅ : Std.ExtTreeMap Nat (Backend.PacketStream Tagged)).contains a = true :=
    hcontains
  simp at hempty

section Runs

variable [Platform]

/-- The pump of every subscriber agrees with what it has started and received. -/
theorem stable_pumps (options : ProxyOptions) :
    Lib.Program.Stable (service options) (fun _ ↦ True) fun _ _ client ↦
      ∀ u, client = .connected (.subscriber u) → ∃ log, PumpInv u log where
  start s i arrival _ u hu := by cases hu
  act s i client event _ h :=
    ⟨trivial, fun u hu ↦ (client_step options s i client event).pumpInv h u hu⟩
  other s i t j client event _ _ _ h := h
  env s event _ := trivial
  envThread s event i client _ h := h

theorem Owned.step (h : Owned s) (hinv : ServiceInv s.shared) (options : ProxyOptions)
    (move : Lib.Move Arrival PartyEvent ServiceEvent) : Owned ((service options).step s move) := by
  intro a ha
  have howner : ∃ (k : Nat) (u : Writer Tagged),
      s.threads[k]? = some (.connected (.subscriber u)) ∧ u.contextAddress = a :=
    ((hinv.backendMove options move).contains ha).elim (h a) id
  obtain ⟨k, u, hk, hu⟩ := howner
  obtain ⟨u', hk', hmove⟩ := subscriberMove options hk move
  exact ⟨k, u', hk', hmove.contextAddress_eq.trans hu⟩

/-- Every move keeps the capacity of the import queue. -/
theorem capacity_step (hinv : ServiceInv s.shared) (options : ProxyOptions)
    (move : Lib.Move Arrival PartyEvent ServiceEvent) :
    ((service options).step s move).shared.proxy.importQueue.mImportExportQueue.capacity =
      s.shared.proxy.importQueue.mImportExportQueue.capacity := by
  by_cases hmove : move = .env .propagator
  · subst hmove
    show (threadStep s.shared).proxy.importQueue.mImportExportQueue.capacity =
      s.shared.proxy.importQueue.mImportExportQueue.capacity
    rcases importQueue_threadStep s.shared with hq | hq
    · rw [hq]
    · rw [hq]
      exact capacity_propagatorPop s.shared.proxy.importQueue
  · cases hinv.aside hmove with
    | adds call call' hadd hwork hthread => exact hadd.capacity_eq
    | keeps hqueue hwork hthread => rw [hqueue]

/-- In every run, with `start` and `stop` called at any time, every stream is one of a subscriber,
and the proxy holds no more packets than its queues and its clients have room for. -/
theorem holdsWithin_served (hnew : ProxyState.new options = .ok state)
    (moves : List (Lib.Move Arrival PartyEvent ServiceEvent)) :
    HoldsWithin options (served options state moves) := by
  have hrun : ServiceInv (served options state moves).shared ∧ Owned (served options state moves) ∧
      (served options state moves).shared.proxy.importQueue.mImportExportQueue.capacity =
        options.getQueueCapacity.toNat := by
    refine Lib.run_invariant (fun s : Lib.Pool ServiceState Client ↦ ServiceInv s.shared ∧
        Owned s ∧ s.shared.proxy.importQueue.mImportExportQueue.capacity =
          options.getQueueCapacity.toNat)
      ⟨serviceInv_new hnew, owned_new hnew, (new_members hnew).1⟩ ?_
    intro s move h
    exact ⟨h.1.step move, h.2.1.step h.1 options move, (capacity_step h.1 options move).trans h.2.2⟩
  have hpumps := (stable_pumps options).after
    (s := ⟨{ proxy := state }, []⟩) ⟨trivial, fun i t ht ↦ by cases ht⟩ moves
  obtain ⟨-, howned, hcapacity⟩ := hrun
  refine ⟨howned, ?_⟩
  have hqueue := (served options state moves).shared.proxy.importQueue.mImportExportQueue.length_le
  have hclients : ((served options state moves).threads.flatMap
      (Client.holds (served options state moves).shared.proxy.backend)).length ≤
        ((served options state moves).threads.map (Client.room options)).sum := by
    rw [List.length_flatMap]
    apply List.sum_le_sum
    intro client hmem
    exact Client.length_holds_le (sized_served hnew moves) (hpumps.of_mem hmem)
  have hpropagator := (served options state moves).shared.proxy.propagator.length_le
  unfold heldPackets ServiceState.onTheWay
  simp only [List.length_append]
  omega

end Runs

section Example

attribute [local instance] x86Platform

theorem holdsWithin_served_sent :
    HoldsWithin tenHeaders (served tenHeaders tenHeadersProxy (handsOn ++ sendsMessage)) :=
  holdsWithin_served rfl (handsOn ++ sendsMessage)

end Example
end ImportProxy.Proxy
