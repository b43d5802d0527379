import ImportProxy.Backend.Ledger
import ImportProxy.Proxy.Propagation
import ImportProxy.Proxy.Subscribed

/-!
# Streams with room

Every stream has the capacity that the options of the backend give it. While the publishers pause,
what is handed out to a stream was on its way before, so that a stream with room for everything that
is on its way does not overflow, however its subscriber and the propagator take turns.
-/

namespace ImportProxy.Proxy

open ImportProxy.Base
open ImportProxy.Backend (BackendState PacketStream SubscriptionManager WriterEvent Writer
  WriterStep stopStep)

/-- Every stream has the given capacity, as new ones have. -/
structure Sized (queueCapacity : Int) (manager : SubscriptionManager Tagged) : Prop where
  fresh : manager.mQueueCapacity = queueCapacity
  held : ∀ (a : Nat) (stream : PacketStream Tagged), manager.mSubscribers[a]? = some stream →
    (stream.mQueue.capacity : Int) = queueCapacity

/-- The stream of the context has room for everything that is on its way. -/
def Roomy (queueCapacity : Int) (contextAddress : Nat) (s : ServiceState) : Prop :=
  ((s.proxy.backend.mSubscriptionManager.queueOf contextAddress).length + s.onTheWay.length : Int) ≤
    queueCapacity

/-- A move that lets no publisher go on, and brings no new client. -/
def paused : Lib.Move Arrival PartyEvent ServiceEvent → Bool
  | .run _ (.subscriber _) | .env _ => true
  | .run _ (.publisher _) | .spawn _ => false

variable {queueCapacity : Int} {manager manager' : SubscriptionManager Tagged} {a : Nat}
  {options : ProxyOptions} {s s' : Lib.Pool ServiceState Client}
  {move : Lib.Move Arrival PartyEvent ServiceEvent}

theorem Sized.subscribe (h : Sized queueCapacity manager)
    (hm : manager.subscribe a = some manager') :
    Sized queueCapacity manager' := by
  refine ⟨(SubscriptionManager.subscribe_members hm).2.trans h.fresh, ?_⟩
  intro b stream hb
  by_cases hba : b = a
  · subst hba
    cases hold : manager.mSubscribers[b]? with
    | some old =>
      rw [SubscriptionManager.subscribe_of_mem hold] at hm
      cases hm
      exact h.held b stream hb
    | none =>
      obtain ⟨new, hnew, hfound, -⟩ := SubscriptionManager.getElem?_subscribe_new hm hold
      cases hfound.symm.trans hb
      rw [h.fresh] at hnew
      unfold PacketStream.new at hnew
      split at hnew
      · cases hnew
      · cases hnew
        dsimp only
        rw [Lib.Fifo.capacity_empty]
        omega
  · rw [SubscriptionManager.getElem?_subscribe_of_ne hm hba] at hb
    exact h.held b stream hb

theorem Sized.unsubscribe (h : Sized queueCapacity manager) (a : Nat) :
    Sized queueCapacity (manager.unsubscribe a) := by
  refine ⟨h.fresh, ?_⟩
  intro b stream hb
  by_cases hba : b = a
  · subst hba
    rw [SubscriptionManager.getElem?_unsubscribe_self] at hb
    cases hb
  · rw [SubscriptionManager.getElem?_unsubscribe_of_ne manager hba] at hb
    exact h.held b stream hb

theorem Sized.enqueuePacket (h : Sized queueCapacity manager) (packet : Tagged) :
    Sized queueCapacity (manager.enqueuePacket packet).1 := by
  refine ⟨h.fresh, ?_⟩
  intro b stream hb
  rw [SubscriptionManager.getElem?_enqueuePacket] at hb
  obtain ⟨old, hold, rfl⟩ := Option.map_eq_some_iff.mp hb
  rw [PacketStream.capacity_enqueuePacket]
  exact h.held b old hold

theorem Sized.getNextPackets (h : Sized queueCapacity manager) {maxPackets : Nat}
    {packets : List Tagged}
    (hm : manager.getNextPackets a maxPackets = some (packets, manager')) :
    Sized queueCapacity manager' := by
  obtain ⟨old, hold, -, rfl⟩ := SubscriptionManager.getNextPackets_eq_some_iff.mp hm
  refine ⟨h.fresh, ?_⟩
  intro b stream hb
  by_cases hba : b = a
  · subst hba
    rw [Std.ExtTreeMap.getElem?_insert_self] at hb
    cases hb
    rw [SubscriptionManager.capacity_takePackets]
    exact h.held b old hold
  · rw [SubscriptionManager.getElem?_insert_of_ne _ hba] at hb
    exact h.held b stream hb

theorem Sized.clear (h : Sized queueCapacity manager) : Sized queueCapacity manager.clear := by
  refine ⟨h.fresh, fun b stream hb ↦ ?_⟩
  have hnone : (∅ : Std.ExtTreeMap Nat (PacketStream Tagged))[b]? = some stream := hb
  rw [Std.ExtTreeMap.getElem?_empty] at hnone
  cases hnone

/-- A step of an RPC keeps the capacities. -/
theorem Sized.writerStep {backendOptions : Backend.BackendOptions}
    {state state' : BackendState Tagged} {w w' : Writer Tagged} {event : WriterEvent}
    (h : Sized queueCapacity state.mSubscriptionManager)
    (hstep : WriterStep backendOptions state w event state' w') :
    Sized queueCapacity state'.mSubscriptionManager := by
  cases hstep with
  | subscribed manager hs hm => exact h.subscribe hm
  | fetched packetsBuffer manager hs hm => exact h.getNextPackets hm
  | unsubscribed status hs => exact h.unsubscribe w.contextAddress
  | _ => exact h

/-- A step of `Backend::stop` keeps the capacities. -/
theorem Sized.stopStep {state : BackendState Tagged}
    (h : Sized queueCapacity state.mSubscriptionManager) :
    Sized queueCapacity (stopStep state).mSubscriptionManager := by
  unfold Backend.stopStep
  cases state.stopStage with
  | notCalled | storedManager | cleared => exact h
  | storedRunning => exact ⟨h.fresh, h.held⟩
  | counted => exact h.clear

/-- A move of the service keeps the capacities. -/
theorem BackendMove.sized (h : BackendMove options s s' move)
    (hsized : Sized queueCapacity s.shared.proxy.backend.mSubscriptionManager) :
    Sized queueCapacity s'.shared.proxy.backend.mSubscriptionManager := by
  cases h with
  | subscriber j u u' event hj hthreads hstep hbroadcast => exact hsized.writerStep hstep
  | broadcasts packet hworks hs hthreads hbackend hbroadcast =>
    rw [hbackend]
    exact hsized.enqueuePacket packet
  | stops hthreads hbackend hbroadcast =>
    rw [hbackend]
    exact hsized.stopStep
  | clears step hcleared hthreads hbackend hbroadcast =>
    rw [hbackend]
    exact hsized.clear
  | keeps move hother hbackend hbroadcast =>
    rw [hbackend]
    exact hsized

/-- The constructor makes an empty import queue of the given capacity, and a backend without
subscribers. -/
theorem new_members {state : ProxyState} (hnew : ProxyState.new options = .ok state) :
    state.importQueue.mImportExportQueue.capacity = options.getQueueCapacity.toNat ∧
      state.backend = (Backend.started options.getBackendOptions).shared := by
  unfold ProxyState.new at hnew
  dsimp only at hnew
  split at hnew
  · cases hnew
    exact ⟨rfl, rfl⟩
  · split at hnew <;> cases hnew
    exact ⟨rfl, rfl⟩

theorem sized_new {state : ProxyState} (hnew : ProxyState.new options = .ok state) :
    Sized options.getBackendOptions.getQueueCapacity state.backend.mSubscriptionManager := by
  rw [(new_members hnew).2]
  refine ⟨rfl, fun b stream hb ↦ ?_⟩
  have hnone : (∅ : Std.ExtTreeMap Nat (PacketStream Tagged))[b]? = some stream := hb
  rw [Std.ExtTreeMap.getElem?_empty] at hnone
  cases hnone

/-- No stream holds more than that. -/
theorem Sized.length_queueOf_le (h : Sized queueCapacity manager) (a : Nat) :
    (manager.queueOf a).length ≤ queueCapacity.toNat := by
  unfold SubscriptionManager.queueOf
  cases hstream : manager.mSubscribers[a]? with
  | none => exact Nat.zero_le _
  | some stream =>
    have hcapacity := h.held a stream hstream
    have hle := stream.mQueue.length_le
    dsimp only
    omega

/-- A stream with room for what the propagator holds does not overflow. -/
theorem Roomy.overflows_eq (h : Roomy queueCapacity a s.shared)
    (hsized : Sized queueCapacity s.shared.proxy.backend.mSubscriptionManager) :
    overflows a s move = false := by
  unfold overflows
  split
  · split
    · next packet stream hworks hholds hstream =>
      have hcapacity := hsized.held a stream hstream
      unfold Roomy SubscriptionManager.queueOf ServiceState.onTheWay at h
      rw [hstream, hholds] at h
      simp only [PropagatorStage.undelivered, List.length_append, List.length_singleton] at h
      simp only [beq_eq_false_iff_ne, Lib.Fifo.size]
      omega
    · rfl
  all_goals rfl

theorem freshContext_of_paused (h : paused move = true) : freshContext s move = true := by
  cases move with
  | spawn arrival => cases h
  | run j event => rfl
  | env event => rfl

/-- Accounts of the same insertions: what has met its fate and what is on its way trade places. -/
theorem Queued.length_onTheWay {t t' : ServiceState} (h : Queued t) (h' : Queued t')
    (hgrows : Grows t t') (hpushed : t'.proxy.importQueue.pushed = t.proxy.importQueue.pushed) :
    t'.onTheWay.length + t'.broadcast.length ≤ t.onTheWay.length + t.broadcast.length := by
  have hlen := h.accounted.length_eq
  have hlen' := h'.accounted.length_eq
  have hevicted : t.proxy.importQueue.evicted.length ≤ t'.proxy.importQueue.evicted.length :=
    (hgrows.removed.sublist.filterMap _).length_le
  have hdropped := hgrows.dropped.length_le
  rw [hpushed] at hlen'
  simp only [ServiceState.met, List.length_append] at hlen hlen'
  omega

section Runs

variable [Platform]

/-- Only the publishers insert packets. -/
theorem pushed_step_of_paused (options : ProxyOptions) (s : Lib.Pool ServiceState Client)
    (h : paused move = true) :
    ((service options).step s move).shared.proxy.importQueue.pushed =
      s.shared.proxy.importQueue.pushed := by
  cases move with
  | spawn arrival => cases h
  | run j event =>
    cases event with
    | publisher read => cases h
    | subscriber event =>
      cases hj : s.threads[j]? with
      | none => rw [Lib.Program.step_run_none hj]
      | some client =>
        rw [Lib.Program.step_run hj]
        show (clientStep options s.shared j client (.subscriber event)).1.proxy.importQueue.pushed =
          s.shared.proxy.importQueue.pushed
        cases client with
        | connecting arrival =>
          unfold clientStep
          dsimp only
          split <;> rfl
        | connected party =>
          cases party with
          | publisher publisher => rfl
          | subscriber u => rfl
  | env event =>
    cases event with
    | propagator =>
      show (threadStep s.shared).proxy.importQueue.pushed = s.shared.proxy.importQueue.pushed
      exact pushed_threadStep s.shared
    | start =>
      show (callStart s.shared).proxy.importQueue.pushed = s.shared.proxy.importQueue.pushed
      unfold callStart
      split <;> rfl
    | stop =>
      show (callStop s.shared).proxy.importQueue.pushed = s.shared.proxy.importQueue.pushed
      unfold callStop
      split <;> rfl
    | caller =>
      show (callerStep s.shared).proxy.importQueue.pushed = s.shared.proxy.importQueue.pushed
      rw [(interferes_callerStep s.shared).importQueue]
    | destructor step =>
      show (destructorStep s.shared step).proxy.importQueue.pushed = _
      rw [(interferes_destructorStep s.shared step).importQueue]

/-- While the publishers pause, a stream with room for everything on its way keeps it. -/
theorem Roomy.step (h : Roomy queueCapacity a s.shared) (hinv : ServiceInv s.shared)
    (hqueued : Queued s.shared) (options : ProxyOptions) (hpaused : paused move = true) :
    Roomy queueCapacity a ((service options).step s move).shared := by
  obtain ⟨hqueued', hgrows⟩ := hqueued.step hinv options move
  have hlen := hqueued.length_onTheWay hqueued' hgrows (pushed_step_of_paused options s hpaused)
  obtain ⟨new, hbroadcast, hqueue⟩ := (hinv.backendMove options move).queueOf_sublist a
  have hle := hqueue.length_le
  rw [hbroadcast, List.length_append] at hlen
  rw [List.length_append] at hle
  unfold Roomy at h ⊢
  omega

theorem sized_served {state : ProxyState} (hnew : ProxyState.new options = .ok state)
    (moves : List (Lib.Move Arrival PartyEvent ServiceEvent)) :
    Sized options.getBackendOptions.getQueueCapacity
      (served options state moves).shared.proxy.backend.mSubscriptionManager := by
  have hrun : ServiceInv (served options state moves).shared ∧
      Sized options.getBackendOptions.getQueueCapacity
        (served options state moves).shared.proxy.backend.mSubscriptionManager :=
    Lib.run_invariant (fun s : Lib.Pool ServiceState Client ↦ ServiceInv s.shared ∧
        Sized options.getBackendOptions.getQueueCapacity
          s.shared.proxy.backend.mSubscriptionManager)
      ⟨serviceInv_new hnew, sized_new hnew⟩
      fun s move h ↦ ⟨h.1.step move, (h.1.backendMove options move).sized h.2⟩
  exact hrun.2

end Runs
end ImportProxy.Proxy
