import ImportProxy.Backend.Progress
import ImportProxy.Proxy.Shutdown

/-!
# The subscribers of the service

What each move of the service does to the backend, and what a subscriber of a running service can
rely on: as long as the contexts of live RPCs have addresses of their own, a subscriber that is not
about to end has its own stream, and what is given to it and waits for it grows by exactly what is
handed out, unless its stream overflows.
-/

namespace ImportProxy.Proxy

open ImportProxy.Base
open ImportProxy.Backend (BackendState Ends PumpInv StopInv Writer WriterEvent WriterStep stopStep
  trail writerStep writer_step)

/-- The address of the context of a subscriber. -/
def Client.contextAddress : Client → Option Nat
  | .connecting (.subscribe contextAddress _) => some contextAddress
  | .connected (.subscriber writer) => some writer.contextAddress
  | .connecting (.publish _) | .connected (.publisher _) => none

/-- A subscriber whose `OnDone` has not returned. -/
def Client.live : Client → Bool
  | .connecting (.subscribe _ _) => true
  | .connected (.subscriber writer) => writer.live
  | .connecting (.publish _) | .connected (.publisher _) => false

/-- The move gives a new subscriber a context that no live one has. -/
def freshContext (s : Lib.Pool ServiceState Client) :
    Lib.Move Arrival PartyEvent ServiceEvent → Bool
  | .spawn (.subscribe contextAddress _) =>
    s.threads.all fun client ↦ !client.live || client.contextAddress != some contextAddress
  | .spawn (.publish _) | .run _ _ | .env _ => true

/-- The move hands a packet to a full stream, which loses its oldest one. -/
def overflows (contextAddress : Nat) (s : Lib.Pool ServiceState Client) :
    Lib.Move Arrival PartyEvent ServiceEvent → Bool
  | .env .propagator =>
    match s.shared.mProxyThread, s.shared.proxy.propagator,
        s.shared.proxy.backend.mSubscriptionManager.mSubscribers[contextAddress]? with
    | .working, .broadcast _, some stream => stream.mQueue.size == stream.mQueue.capacity
    | _, _, _ => false
  | .env .start | .env .stop | .env .caller | .env (.destructor _) | .spawn _ | .run _ _ => false

variable {s s' : Lib.Pool ServiceState Client} {options : ProxyOptions} {i : Nat}
  {w : Writer Tagged} {move : Lib.Move Arrival PartyEvent ServiceEvent}

/-- Only subscribers have an address. -/
theorem Client.live_of_contextAddress_eq_none {client : Client}
    (h : client.contextAddress = none) : client.live = false := by
  cases client with
  | connecting arrival =>
    cases arrival with
    | publish clientMetadata => rfl
    | subscribe contextAddress clientMetadata => cases h
  | connected party =>
    cases party with
    | publisher publisher => rfl
    | subscriber writer => cases h

/-- What a move of the service does to the backend: an RPC takes a step, a packet is handed out,
`Backend::stop` takes a step, the destructor clears the map of a stopped backend, or nothing. -/
inductive BackendMove (options : ProxyOptions) (s s' : Lib.Pool ServiceState Client) :
    Lib.Move Arrival PartyEvent ServiceEvent → Prop
  | subscriber (j : Nat) (u u' : Writer Tagged) (event : WriterEvent)
      (hj : s.threads[j]? = some (.connected (.subscriber u)))
      (hthreads : s'.threads = s.threads.set j (.connected (.subscriber u')))
      (hstep : WriterStep options.getBackendOptions s.shared.proxy.backend u event
        s'.shared.proxy.backend u')
      (hbroadcast : s'.shared.broadcast = s.shared.broadcast) :
      BackendMove options s s' (.run j (.subscriber event))
  | broadcasts (packet : Tagged) (hworks : s.shared.mProxyThread = .working)
      (hs : s.shared.proxy.propagator = .broadcast packet) (hthreads : s'.threads = s.threads)
      (hbackend : s'.shared.proxy.backend =
        Backend.backendEvent s.shared.proxy.backend (.enqueuePacket packet))
      (hbroadcast : s'.shared.broadcast = s.shared.broadcast ++ [packet]) :
      BackendMove options s s' (.env .propagator)
  | stops (hthreads : s'.threads = s.threads)
      (hbackend : s'.shared.proxy.backend = stopStep s.shared.proxy.backend)
      (hbroadcast : s'.shared.broadcast = s.shared.broadcast) :
      BackendMove options s s' (.env .caller)
  | clears (step : DestructorStep) (hcleared : s.shared.proxy.backend.stopStage = .cleared)
      (hthreads : s'.threads = s.threads)
      (hbackend : s'.shared.proxy.backend = { s.shared.proxy.backend with
        mSubscriptionManager := s.shared.proxy.backend.mSubscriptionManager.clear })
      (hbroadcast : s'.shared.broadcast = s.shared.broadcast) :
      BackendMove options s s' (.env (.destructor step))
  | keeps (move : Lib.Move Arrival PartyEvent ServiceEvent)
      (hother : ∀ j event u, move = .run j (.subscriber event) →
        s.threads[j]? ≠ some (.connected (.subscriber u)))
      (hbackend : s'.shared.proxy.backend = s.shared.proxy.backend)
      (hbroadcast : s'.shared.broadcast = s.shared.broadcast) :
      BackendMove options s s' move

/-- What a move makes of the subscriber at position `i`: it takes a step of its own, or stays. -/
inductive SubscriberMove (options : ProxyOptions) (i : Nat) (w : Writer Tagged)
    (s s' : Lib.Pool ServiceState Client) (move : Lib.Move Arrival PartyEvent ServiceEvent) :
    Writer Tagged → Prop
  | own (event : WriterEvent) (w' : Writer Tagged) (hmove : move = .run i (.subscriber event))
      (hstep : WriterStep options.getBackendOptions s.shared.proxy.backend w event
        s'.shared.proxy.backend w')
      (hbroadcast : s'.shared.broadcast = s.shared.broadcast) :
      SubscriberMove options i w s s' move w'
  | other (hmove : ∀ event, move ≠ .run i (.subscriber event)) :
      SubscriberMove options i w s s' move w

/-- The contexts of live subscribers have addresses of their own, and a subscriber that holds an
entry of a running manager has its stream. -/
structure Addressed (s : Lib.Pool ServiceState Client) : Prop where
  distinct : Lib.DistinctKeys Client.live Client.contextAddress s.threads
  pumps : ∀ (k : Nat) (u : Writer Tagged),
    s.threads[k]? = some (.connected (.subscriber u)) → ∃ log, PumpInv u log
  entries : ∀ (k : Nat) (u : Writer Tagged),
    s.threads[k]? = some (.connected (.subscriber u)) → u.stage.holdsEntry = true →
      s.shared.proxy.backend.mSubscriptionManager.mKeepRunning = true →
        s.shared.proxy.backend.mSubscriptionManager.mSubscribers.contains u.contextAddress = true

/-- A backend that was told to stop stays so. -/
theorem BackendMove.mKeepRunning_eq (h : BackendMove options s s' move)
    (hclear : s.shared.proxy.backend.mKeepRunning = false) :
    s'.shared.proxy.backend.mKeepRunning = false := by
  cases h with
  | subscriber j u u' event hj hthreads hstep => exact hstep.flags_eq.1.trans hclear
  | broadcasts packet hworks hs hthreads hbackend =>
    rw [hbackend]
    exact hclear
  | stops hthreads hbackend =>
    rw [hbackend]
    unfold stopStep
    cases s.shared.proxy.backend.stopStage with
    | notCalled => rfl
    | storedRunning | storedManager | counted | cleared => exact hclear
  | clears step hcleared hthreads hbackend =>
    rw [hbackend]
    exact hclear
  | keeps move hother hbackend =>
    rw [hbackend]
    exact hclear

/-- What waits for a context grows by what is handed out at most. -/
theorem BackendMove.queueOf_sublist (h : BackendMove options s s' move) (a : Nat) :
    ∃ new, s'.shared.broadcast = s.shared.broadcast ++ new ∧
      (s'.shared.proxy.backend.mSubscriptionManager.queueOf a).Sublist
        (s.shared.proxy.backend.mSubscriptionManager.queueOf a ++ new) := by
  cases h with
  | subscriber j u u' event hj hthreads hstep hbroadcast =>
    refine ⟨[], by rw [hbroadcast, List.append_nil], ?_⟩
    rw [List.append_nil]
    exact hstep.queueOf_sublist a
  | broadcasts packet hworks hs hthreads hbackend hbroadcast =>
    refine ⟨[packet], hbroadcast, ?_⟩
    rw [hbackend]
    exact Backend.SubscriptionManager.queueOf_enqueuePacket_sublist _ packet a
  | stops hthreads hbackend hbroadcast =>
    refine ⟨[], by rw [hbroadcast, List.append_nil], ?_⟩
    rw [List.append_nil, hbackend]
    exact queueOf_stopStep_sublist _ a
  | clears step hcleared hthreads hbackend hbroadcast =>
    refine ⟨[], by rw [hbroadcast, List.append_nil], ?_⟩
    rw [List.append_nil, hbackend]
    exact queueOf_clear_sublist _ a
  | keeps move hother hbackend hbroadcast =>
    refine ⟨[], by rw [hbroadcast, List.append_nil], ?_⟩
    rw [List.append_nil, hbackend]

theorem SubscriberMove.contextAddress_eq (h : SubscriberMove options i w s s' move w') :
    w'.contextAddress = w.contextAddress := by
  cases h with
  | own event _ hown hstep hbroadcast => exact hstep.contextAddress_eq
  | other hother => rfl

/-- A subscriber that is about to end goes on to its end. -/
theorem SubscriberMove.ends {w' : Writer Tagged} (h : SubscriberMove options i w s s' move w')
    (hmove : BackendMove options s s' move) (hends : Ends s.shared.proxy.backend w) :
    Ends s'.shared.proxy.backend w' := by
  cases h with
  | own event _ hown hstep hbroadcast => exact hstep.ends hends
  | other hother =>
    rcases hends with (hstop | hc) | hleaving
    · exact Or.inl (Or.inl (hmove.mKeepRunning_eq hstop))
    · exact Or.inl (Or.inr hc)
    · exact Or.inr hleaving

/-- A subscriber that has subscribed and is not about to end holds an entry. -/
theorem holdsEntry_of_not_ends {backend : BackendState Tagged}
    (hentry : w.stage.beforeEntry = false) (hends : ¬Ends backend w) :
    w.stage.holdsEntry = true := by
  have hleaving : w.stage.leaving = false := by
    by_contra hleaving
    exact hends (Or.inr (Or.inl (by simpa using hleaving)))
  cases hs : w.stage with
  | authenticate | loadSize | loadRunning | subscribe =>
    rw [hs] at hentry
    cases hentry
  | exchange | unsubscribeRunning | unsubscribe | finished | countDone | deleted =>
    rw [hs] at hleaving
    cases hleaving
  | storeSubscribed | countSubscribers | pump | pumpCancelled | stopCancelled | fetchRunning
  | fetch | writing | idle => rfl

/-- The steps of an RPC that is gone leave the backend. -/
theorem backend_eq_of_not_live {options : Backend.BackendOptions}
    {backend backend' : BackendState Tagged} {u u' : Writer Tagged} {event : WriterEvent}
    (hstep : WriterStep options backend u event backend' u') (hgone : u.live = false) :
    backend' = backend := by
  have hs : u.stage = .deleted := by simpa [Writer.live] using hgone
  cases hstep with
  | subscribed _ h | fetched _ _ h | unsubscribed _ h =>
    rw [hs] at h
    cases h
  | refused | validated | exhausted | belowMaximum | subscribes | subscribesStopped | failed
  | stored | counted | pumps | pumpsStopped | pumpsCancelled | queueEmpty | sendsQueued | stops
  | fetches | fetchesStopped | fetchFailed | alarm | takesSubscribed | notSubscribed
  | unsubscribes | unsubscribesStopped | done | deleted | writeDone | cancel | waits
  | notWriting => rfl

/-- A stream that is not full keeps what waits in it. -/
theorem queueOf_enqueuePacket_of_room {manager : Backend.SubscriptionManager Tagged}
    {packet : Tagged} {a : Nat} {stream : Backend.PacketStream Tagged}
    (hstream : manager.mSubscribers[a]? = some stream)
    (hroom : stream.mQueue.size ≠ stream.mQueue.capacity) :
    (manager.enqueuePacket packet).1.queueOf a = manager.queueOf a ++ [packet] := by
  unfold Backend.SubscriptionManager.queueOf
  rw [Backend.SubscriptionManager.getElem?_enqueuePacket, hstream]
  show (stream.enqueuePacket packet).1.mQueue.toList = stream.mQueue.toList ++ [packet]
  rw [Backend.PacketStream.toList_enqueuePacket, if_neg hroom]

/-- A move of another takes nothing from a subscriber with a stream that is not full, and hands out
to it what is handed out. -/
theorem Addressed.trail_other (h : Addressed s) (hinv : ServiceInv s.shared)
    (hw : s.threads[i]? = some (.connected (.subscriber w)))
    (hholds : w.stage.holdsEntry = true) (hroom : overflows w.contextAddress s move = false)
    (hmove : BackendMove options s s' move) (hother : ∀ event, move ≠ .run i (.subscriber event))
    (hends : ¬Ends s'.shared.proxy.backend w) :
    ∃ new, s'.shared.broadcast = s.shared.broadcast ++ new ∧
      trail s'.shared.proxy.backend w = trail s.shared.proxy.backend w ++ new := by
  unfold trail
  cases hmove with
  | subscriber j u u' event hj hthreads hstep hbroadcast =>
    refine ⟨[], by rw [hbroadcast, List.append_nil], ?_⟩
    rw [List.append_nil]
    by_cases hlive : u.live = true
    · have ha : w.contextAddress ≠ u.contextAddress := by
        intro ha
        have hij := h.distinct i j _ _ hw hj (Backend.live_of_holdsEntry hholds) hlive
          (congrArg some ha)
        subst hij
        exact hother event rfl
      rw [hstep.queueOf_eq_of_ne ha]
    · rw [backend_eq_of_not_live hstep (by simpa using hlive)]
  | broadcasts packet hworks hs hthreads hbackend hbroadcast =>
    have hrun := hinv.manager_running hworks
    have hcontains := h.entries i w hw hholds hrun
    rw [Std.ExtTreeMap.contains_eq_isSome_getElem?] at hcontains
    obtain ⟨stream, hstream⟩ := Option.isSome_iff_exists.mp hcontains
    simp only [overflows, hworks, hs, hstream, beq_eq_false_iff_ne] at hroom
    refine ⟨[packet], hbroadcast, ?_⟩
    rw [hbackend, List.append_assoc]
    exact congrArg _ (queueOf_enqueuePacket_of_room hstream hroom)
  | stops hthreads hbackend hbroadcast =>
    -- a step of `Backend::stop` has told the subscriber to end
    refine absurd (Or.inl (Or.inl ?_)) hends
    have hrunning := hinv.flags.running
    rw [hbackend]
    unfold stopStep
    cases hs : s.shared.proxy.backend.stopStage with
    | notCalled => rfl
    | storedRunning | storedManager | counted | cleared =>
      rw [hs] at hrunning
      exact hrunning
  | clears step hcleared hthreads hbackend hbroadcast =>
    refine absurd (Or.inl (Or.inl ?_)) hends
    have hrunning := hinv.flags.running
    rw [hcleared] at hrunning
    rw [hbackend]
    exact hrunning
  | keeps move hkeeps hbackend hbroadcast =>
    refine ⟨[], by rw [hbroadcast, List.append_nil], ?_⟩
    rw [hbackend, List.append_nil]

/-- What is given to a subscriber and waits for it grows by what is handed out, unless its stream
overflows or it is about to end. -/
theorem Addressed.trail_step {w' : Writer Tagged} (h : Addressed s) (hinv : ServiceInv s.shared)
    (hw : s.threads[i]? = some (.connected (.subscriber w)))
    (hentry : w.stage.beforeEntry = false) (hroom : overflows w.contextAddress s move = false)
    (hmove : BackendMove options s s' move) (hstep : SubscriberMove options i w s s' move w')
    (hends : ¬Ends s'.shared.proxy.backend w') :
    ∃ new, s'.shared.broadcast = s.shared.broadcast ++ new ∧
      trail s'.shared.proxy.backend w' = trail s.shared.proxy.backend w ++ new := by
  have hbefore : ¬Ends s.shared.proxy.backend w := fun he ↦ hends (hstep.ends hmove he)
  cases hstep with
  | own event _ hown hstep hbroadcast =>
    obtain ⟨log, hpump⟩ := h.pumps i w hw
    refine ⟨[], by rw [hbroadcast, List.append_nil], ?_⟩
    rw [List.append_nil]
    exact hstep.trail_eq hpump hends
  | other hother =>
    exact h.trail_other hinv hw (holdsEntry_of_not_ends hentry hbefore) hroom hmove hother hends

/-- A step of an RPC keeps the streams of those that hold an entry. -/
theorem Addressed.entries_subscriber (h : Addressed s) {j : Nat} {u u' : Writer Tagged}
    {event : WriterEvent} {backend : BackendState Tagged}
    (hj : s.threads[j]? = some (.connected (.subscriber u)))
    (hstep : WriterStep options.getBackendOptions s.shared.proxy.backend u event backend u')
    (hrun : s.shared.proxy.backend.mSubscriptionManager.mKeepRunning = true) {k : Nat}
    {v : Writer Tagged}
    (hk : (s.threads.set j (.connected (.subscriber u')))[k]? = some (.connected (.subscriber v)))
    (hholds : v.stage.holdsEntry = true) :
    backend.mSubscriptionManager.mSubscribers.contains v.contextAddress = true := by
  obtain ⟨log, hpump⟩ := h.pumps j u hj
  have haddr := hstep.contextAddress_eq
  have hchange := hstep.entryChange hpump.flag hrun
  by_cases hjk : j = k
  · subst hjk
    rw [List.getElem?_set_self (List.getElem?_eq_some_iff.mp hj).1] at hk
    cases hk
    rw [haddr]
    cases hchange with
    | keeps _ _ hsame _ hkeys =>
      rw [hkeys]
      exact h.entries j u hj (hsame ▸ hholds) hrun
    | acquires manager hs _ hm hs' =>
      rw [hs']
      exact (Backend.SubscriptionManager.contains_subscribe_iff hm _).mpr (Or.inr rfl)
    | releases status hs _ hs' hw' =>
      rw [hw'] at hholds
      cases hholds
  · rw [List.getElem?_set_ne hjk] at hk
    have hbefore := h.entries k v hk hholds hrun
    cases hchange with
    | keeps _ _ _ _ hkeys =>
      rw [hkeys]
      exact hbefore
    | acquires manager hs _ hm hs' =>
      rw [hs']
      exact (Backend.SubscriptionManager.contains_subscribe_iff hm _).mpr (Or.inl hbefore)
    | releases status hs _ hs' hw' =>
      rw [hs']
      refine (Backend.SubscriptionManager.contains_unsubscribe_iff _ _ _).mpr ⟨hbefore, ?_⟩
      intro ha
      have hlive : u.live = true := by
        unfold Writer.live
        rw [hs]
        rfl
      exact hjk (h.distinct j k _ _ hj hk hlive (Backend.live_of_holdsEntry hholds)
        (congrArg some ha.symm))

/-- A move keeps the streams of those that hold an entry. -/
theorem Addressed.entries_step (h : Addressed s) (hinv : ServiceInv s.shared)
    (hmove : BackendMove options s s' move)
    (hkept : ∀ (k : Nat) (u : Writer Tagged),
      s'.threads[k]? = some (.connected (.subscriber u)) → u.stage.holdsEntry = true →
        (∀ event v, move = .run k (.subscriber event) →
          s.threads[k]? ≠ some (.connected (.subscriber v))) →
        s.threads[k]? = some (.connected (.subscriber u)))
    (k : Nat) (u : Writer Tagged) (hk : s'.threads[k]? = some (.connected (.subscriber u)))
    (hholds : u.stage.holdsEntry = true)
    (hrun : s'.shared.proxy.backend.mSubscriptionManager.mKeepRunning = true) :
    s'.shared.proxy.backend.mSubscriptionManager.mSubscribers.contains u.contextAddress =
      true := by
  cases hmove with
  | subscriber j v v' event hj hthreads hstep hbroadcast =>
    rw [hthreads] at hk
    exact h.entries_subscriber hj hstep (hstep.flags_eq.2.2.symm.trans hrun) hk hholds
  | broadcasts packet hworks hs hthreads hbackend hbroadcast =>
    rw [hthreads] at hk
    rw [hbackend] at hrun ⊢
    exact (Backend.SubscriptionManager.contains_enqueuePacket _ packet _).trans
      (h.entries k u hk hholds hrun)
  | stops hthreads hbackend hbroadcast =>
    rw [hthreads] at hk
    rw [hbackend] at hrun ⊢
    have hmanager := hinv.flags.managerRunning
    unfold stopStep at hrun ⊢
    cases hs : s.shared.proxy.backend.stopStage with
    | notCalled =>
      rw [hs] at hrun
      exact h.entries k u hk hholds hrun
    | storedRunning =>
      rw [hs] at hrun
      cases hrun
    | storedManager | counted | cleared =>
      -- the manager is not running any more
      rw [hs] at hrun hmanager
      have hrun : s.shared.proxy.backend.mSubscriptionManager.mKeepRunning = true := hrun
      rw [hmanager] at hrun
      cases hrun
  | clears step hcleared hthreads hbackend hbroadcast =>
    have hmanager := hinv.flags.managerRunning
    rw [hcleared] at hmanager
    rw [hbackend] at hrun
    exact absurd (hmanager.symm.trans hrun) Bool.false_ne_true
  | keeps move hother hbackend hbroadcast =>
    rw [hbackend] at hrun ⊢
    exact h.entries k u (hkept k u hk hholds (hother k)) hholds hrun

/-- A step of a publisher hands nothing out. -/
theorem partyStep_publisher_backend (options : ProxyOptions) (proxy : ProxyState) (i : Nat)
    (publisher : Publisher) (event : PartyEvent) :
    (partyStep options proxy i (.publisher publisher) event).1.backend = proxy.backend := by
  cases event with
  | publisher read => exact (publisher_step options proxy i publisher read).control_eq.2.2
  | subscriber event => rfl

/-- The calling thread takes a step of `Backend::stop`, or leaves the backend. -/
theorem ServiceInv.callerStep_backend {s : ServiceState} (h : ServiceInv s) :
    ((callerStep s).proxy.backend = stopStep s.proxy.backend ∨
      (callerStep s).proxy.backend = s.proxy.backend) ∧
    (callerStep s).broadcast = s.broadcast := by
  have hbroadcast : (callerStep s).broadcast = s.broadcast :=
    congrArg (fun output ↦ output.2.1) (callerStep_output s)
  refine ⟨?_, hbroadcast⟩
  have hk := h.control.knows
  cases hc : s.caller with
  | stopBackend =>
    left
    simp only [callerStep, hc]
  | storeManager | storeBackend =>
    -- the stores of `start` find the flags set
    simp only [Knows, ServiceState.control, hc] at hk
    rw [h.callerStep_start hk (by simp [hc])]
    exact Or.inr rfl
  | loadFrontend | shutdown | awaitPublishers | join | loadBackend =>
    right
    simp only [callerStep, hc]
    split <;> rfl
  | constructed | storeRunning | startThread | buildBackend | storeFrontend | storeCounter
  | buildFrontend | running | clearFrontend | clearCounter | clearRunning | stopped =>
    right
    simp only [callerStep, hc]

section Runs

variable [Platform]

/-- The propagator's thread hands a packet out, or leaves the backend. -/
theorem threadStep_backend (s : ServiceState) :
    (∃ packet, s.mProxyThread = .working ∧ s.proxy.propagator = .broadcast packet ∧
      (threadStep s).proxy.backend =
        Backend.backendEvent s.proxy.backend (.enqueuePacket packet) ∧
      (threadStep s).broadcast = s.broadcast ++ [packet]) ∨
    ((threadStep s).proxy.backend = s.proxy.backend ∧ (threadStep s).broadcast = s.broadcast) := by
  unfold threadStep
  cases ht : s.mProxyThread with
  | notStarted | exited | loadRunning => exact Or.inr ⟨rfl, rfl⟩
  | working =>
    have hstep := propagator_step s.proxy
    dsimp only
    generalize propagatorStep s.proxy = proxy at hstep
    cases hstep with
    | broadcasts packet hs =>
      left
      refine ⟨packet, rfl, hs, rfl, ?_⟩
      rw [hs]
      rfl
    | sleeps hs | pops _ _ hs | unchecked _ hs | allowed _ _ hs | dropped _ _ hs | enqueues _ hs
    | enqueuesStopped _ hs =>
      right
      refine ⟨rfl, ?_⟩
      rw [hs]
      exact List.append_nil _

/-- A move does one of the listed things to the backend. -/
theorem ServiceInv.backendMove (h : ServiceInv s.shared) (options : ProxyOptions)
    (move : Lib.Move Arrival PartyEvent ServiceEvent) :
    BackendMove options s ((service options).step s move) move := by
  cases move with
  | spawn arrival => exact .keeps _ (by simp) rfl rfl
  | run j event =>
    cases hj : s.threads[j]? with
    | none =>
      rw [Lib.Program.step_run_none hj]
      refine .keeps _ ?_ rfl rfl
      rintro _ _ u ⟨⟩
      rw [hj]
      simp
    | some client =>
      rw [Lib.Program.step_run hj]
      cases client with
      | connecting arrival =>
        have hsame : (clientStep options s.shared j (.connecting arrival) event).1.proxy =
              s.shared.proxy ∧
            (clientStep options s.shared j (.connecting arrival) event).1.broadcast =
              s.shared.broadcast := by
          unfold clientStep
          dsimp only
          split <;> exact ⟨rfl, rfl⟩
        refine .keeps _ ?_ (congrArg ProxyState.backend hsame.1) hsame.2
        rintro _ _ u ⟨⟩
        rw [hj]
        simp
      | connected party =>
        cases party with
        | publisher publisher =>
          refine .keeps _ ?_ (partyStep_publisher_backend options _ j publisher event) rfl
          rintro _ _ u ⟨⟩
          rw [hj]
          simp
        | subscriber u =>
          cases event with
          | publisher read => exact .keeps _ (by simp) rfl rfl
          | subscriber event =>
            exact .subscriber j u _ event hj rfl
              (writer_step options.getBackendOptions s.shared.proxy.backend u event) rfl
  | env event =>
    cases event with
    | propagator =>
      rcases threadStep_backend s.shared with ⟨packet, hworks, hs, hbackend, hbroadcast⟩ | hsame
      · exact .broadcasts packet hworks hs rfl hbackend hbroadcast
      · exact .keeps _ (by simp) hsame.1 hsame.2
    | start =>
      refine .keeps _ (by simp) (congrArg ProxyState.backend (callStart_proxy s.shared)) ?_
      show (callStart s.shared).broadcast = s.shared.broadcast
      unfold callStart
      split <;> rfl
    | stop =>
      refine .keeps _ (by simp) (congrArg ProxyState.backend (callStop_proxy s.shared)) ?_
      show (callStop s.shared).broadcast = s.shared.broadcast
      unfold callStop
      split <;> rfl
    | caller =>
      obtain ⟨hbackend | hbackend, hbroadcast⟩ := h.callerStep_backend
      · exact .stops rfl hbackend hbroadcast
      · exact .keeps _ (by simp) hbackend hbroadcast
    | destructor step =>
      exact destructorStep_cases
        (motive := fun s' ↦ BackendMove options s ⟨s', s.threads⟩ (.env (.destructor step)))
        s.shared step (.keeps _ (by simp) rfl rfl)
        (fun hc ↦ .clears step (h.control.knows_stopped hc).2 rfl rfl rfl)
        fun _ ↦ .keeps _ (by simp) rfl rfl

/-- A move takes the subscriber at position `i` one step of its own further, or leaves it. -/
theorem subscriberMove (options : ProxyOptions)
    (hw : s.threads[i]? = some (.connected (.subscriber w)))
    (move : Lib.Move Arrival PartyEvent ServiceEvent) :
    ∃ w', ((service options).step s move).threads[i]? = some (.connected (.subscriber w')) ∧
      SubscriberMove options i w s ((service options).step s move) move w' := by
  by_cases hown : ∃ event, move = .run i (.subscriber event)
  · obtain ⟨event, he⟩ := hown
    subst he
    have hstep := writer_step options.getBackendOptions s.shared.proxy.backend w event
    refine ⟨(writerStep options.getBackendOptions s.shared.proxy.backend w event).2, ?_, ?_⟩
    · exact Lib.Program.getElem?_step_run hw _
    · refine .own event _ rfl ?_ ?_
      · rw [Lib.Program.step_run hw]
        exact hstep
      · rw [Lib.Program.step_run hw]
        rfl
  · have hother (event : WriterEvent) : move ≠ .run i (.subscriber event) :=
      fun he ↦ hown ⟨event, he⟩
    refine ⟨w, ?_, .other hother⟩
    by_cases hrun : ∃ event, move = .run i event
    · obtain ⟨event, he⟩ := hrun
      subst he
      cases event with
      | subscriber event => exact absurd rfl (hother event)
      | publisher read => exact Lib.Program.getElem?_step_run hw _
    · exact Lib.Program.getElem?_step_of_ne hw fun event he ↦ hrun ⟨event, he⟩

/-- A step of a client keeps the address of its context, and does not bring it back to life. -/
theorem ClientStep.key_eq {s s' : ServiceState} {client client' : Client} {event : PartyEvent}
    (hstep : ClientStep options s i client event s' client') :
    client'.contextAddress = client.contextAddress ∧
      (client'.live = true → client.live = true) := by
  cases hstep with
  | waits => exact ⟨rfl, id⟩
  | connects arrival event hl =>
    cases arrival with
    | publish clientMetadata => exact ⟨rfl, id⟩
    | subscribe contextAddress clientMetadata => exact ⟨rfl, fun _ ↦ rfl⟩
  | steps party party' event proxy hstep =>
    cases party with
    | publisher publisher => cases event <;> (cases hstep; exact ⟨rfl, id⟩)
    | subscriber u =>
      cases event with
      | publisher read =>
        cases hstep
        exact ⟨rfl, id⟩
      | subscriber event =>
        cases hstep
        have hwriter := writer_step options.getBackendOptions s.proxy.backend u event
        exact ⟨congrArg some hwriter.contextAddress_eq, hwriter.live_of_live⟩

/-- A step of a client keeps the logs of the subscribers. -/
theorem ClientStep.pumpInv {s s' : ServiceState} {client client' : Client} {event : PartyEvent}
    (hstep : ClientStep options s i client event s' client')
    (h : ∀ u, client = .connected (.subscriber u) → ∃ log, PumpInv u log) (u' : Writer Tagged)
    (hu' : client' = .connected (.subscriber u')) : ∃ log, PumpInv u' log := by
  cases hstep with
  | waits => cases hu'
  | connects arrival event hl =>
    cases arrival with
    | publish clientMetadata => cases hu'
    | subscribe contextAddress clientMetadata =>
      cases hu'
      exact ⟨[], Backend.pumpInv_start options.getBackendOptions (contextAddress, clientMetadata)⟩
  | steps party party' event proxy hstep =>
    cases hu'
    cases party with
    | publisher publisher => cases event <;> cases hstep
    | subscriber u =>
      obtain ⟨log, hpump⟩ := h u rfl
      cases event with
      | publisher read =>
        cases hstep
        exact ⟨log, hpump⟩
      | subscriber event =>
        cases hstep
        exact ⟨_, hpump.step
          (writer_step options.getBackendOptions s.proxy.backend u event)⟩

/-- A client that holds an entry, and has taken no step of its RPC, has held it before. -/
theorem ClientStep.subscriber_eq {s s' : ServiceState} {client client' : Client}
    {event : PartyEvent} (hstep : ClientStep options s i client event s' client')
    {u' : Writer Tagged} (hu' : client' = .connected (.subscriber u'))
    (hholds : u'.stage.holdsEntry = true)
    (hother : ∀ event' u, event = .subscriber event' → client ≠ .connected (.subscriber u)) :
    client = .connected (.subscriber u') := by
  cases hstep with
  | waits => cases hu'
  | connects arrival event hl =>
    cases arrival with
    | publish clientMetadata => cases hu'
    | subscribe contextAddress clientMetadata =>
      cases hu'
      cases hholds
  | steps party party' event proxy hstep =>
    cases hu'
    cases party with
    | publisher publisher => cases event <;> cases hstep
    | subscriber u =>
      cases event with
      | publisher read =>
        cases hstep
        rfl
      | subscriber event => exact absurd rfl (hother event u rfl)

/-- A move that gives no context of a live subscriber to a new one keeps the streams in agreement
with the subscribers. -/
theorem Addressed.step (h : Addressed s) (hinv : ServiceInv s.shared) (options : ProxyOptions)
    (hfresh : freshContext s move = true) : Addressed ((service options).step s move) := by
  cases move with
  | spawn arrival =>
    have hold {k : Nat} {u : Writer Tagged}
        (hk : (s.threads ++ [Client.connecting arrival])[k]? = some (.connected (.subscriber u))) :
        s.threads[k]? = some (.connected (.subscriber u)) := by
      by_cases hlt : k < s.threads.length
      · rwa [List.getElem?_append_left hlt] at hk
      · rw [List.getElem?_append_right (by omega)] at hk
        cases List.mem_singleton.mp (List.mem_of_getElem? hk)
    refine ⟨?_, fun k u hk ↦ h.pumps k u (hold hk), fun k u hk ↦ h.entries k u (hold hk)⟩
    apply h.distinct.append
    intro client hmem hlive hkey
    cases arrival with
    | publish clientMetadata =>
      rw [Client.live_of_contextAddress_eq_none hkey] at hlive
      cases hlive
    | subscribe contextAddress clientMetadata =>
      have hne := List.all_eq_true.mp hfresh client hmem
      simp only [hlive, Bool.not_true, Bool.false_or, bne_iff_ne] at hne
      exact hne hkey
  | run j event =>
    cases hj : s.threads[j]? with
    | none =>
      rw [Lib.Program.step_run_none hj]
      exact h
    | some client =>
      have hclient := client_step options s.shared j client event
      have hbackend := hinv.backendMove options (.run j event)
      rw [Lib.Program.step_run hj] at hbackend ⊢
      have hleft : (service options).act s.shared j client event =
        clientStep options s.shared j client event := rfl
      rw [hleft] at hbackend ⊢
      generalize (clientStep options s.shared j client event).1 = shared at hclient hbackend ⊢
      generalize (clientStep options s.shared j client event).2 = client' at hclient hbackend ⊢
      obtain ⟨hkey, hlive⟩ := hclient.key_eq
      refine ⟨h.distinct.set hj hkey hlive, ?_, h.entries_step hinv hbackend ?_⟩
      · intro k u hk
        by_cases hjk : j = k
        · subst hjk
          rw [List.getElem?_set_self (List.getElem?_eq_some_iff.mp hj).1] at hk
          refine hclient.pumpInv ?_ u (Option.some.inj hk)
          intro v hv
          subst hv
          exact h.pumps j v hj
        · rw [List.getElem?_set_ne hjk] at hk
          exact h.pumps k u hk
      · intro k u hk hholds hother
        by_cases hjk : j = k
        · subst hjk
          rw [List.getElem?_set_self (List.getElem?_eq_some_iff.mp hj).1] at hk
          rw [hj]
          refine congrArg some (hclient.subscriber_eq (Option.some.inj hk) hholds ?_)
          intro event' v he hv
          subst he
          subst hv
          exact hother event' v rfl hj
        · rwa [List.getElem?_set_ne hjk] at hk
  | env event =>
    have hbackend := hinv.backendMove options (.env event)
    exact ⟨h.distinct, h.pumps, h.entries_step hinv hbackend fun _ _ hk _ _ ↦ hk⟩

end Runs
end ImportProxy.Proxy
