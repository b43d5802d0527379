import ImportProxy.Lib.Noninterference
import ImportProxy.Proxy.Service

/-!
# Subscribers hold nothing back

What the subscribers of a proxy do, and how slowly they do it, changes nothing but their own RPCs
and streams: without their steps every publisher, the import queue, the detector, the propagator,
and the calls of `start` and `stop` go through the same states, and the same packets are handed out.
-/

namespace ImportProxy.Proxy

open ImportProxy.Base
open ImportProxy.Backend (BackendState SubscriptionManager Writer WriterEvent WriterStep stopStep
  writerStep writer_step)

/-- A client of the backend, connected or not. -/
def Client.forBackend : Client → Bool
  | .connecting (.subscribe _ _) | .connected (.subscriber _) => true
  | .connecting (.publish _) | .connected (.publisher _) => false

/-- What others see of a client: nothing of a subscriber. -/
def Client.view (client : Client) : Option Client :=
  if client.forBackend then none else some client

/-- What others see of the backend: everything but the streams. -/
def backendView (backend : BackendState Tagged) : BackendState Tagged :=
  { backend with
    mSubscriptionManager := { backend.mSubscriptionManager with mSubscribers := ∅ } }

/-- What others see of the proxy. -/
def ProxyState.view (proxy : ProxyState) : ProxyState :=
  { proxy with backend := backendView proxy.backend }

/-- The metrics less the number of packets sent. -/
def Metrics.view (metrics : Metrics) : Metrics := { metrics with mSentPacketsCounter := 0 }

/-- What others than the subscribers see of the service: everything but the streams, and the number
of packets sent. -/
def ServiceState.view (s : ServiceState) : ServiceState :=
  { s with
    proxy := s.proxy.view
    metrics := s.metrics.view }

/-- The service with its clients, less what belongs to the subscribers. -/
def poolView (s : Lib.Pool ServiceState Client) : ServiceState × List (Option Client) :=
  (s.shared.view, s.threads.map Client.view)

/-- A move of anyone but a subscriber. -/
def othersMove (s : Lib.Pool ServiceState Client) :
    Lib.Move Arrival PartyEvent ServiceEvent → Bool
  | .run i _ => s.threads[i]?.all fun client ↦ !client.forBackend
  | .spawn _ | .env _ => true

@[simp] theorem ProxyState.view_view (proxy : ProxyState) : proxy.view.view = proxy.view := rfl

@[simp] theorem Metrics.view_view (metrics : Metrics) : metrics.view.view = metrics.view := rfl

/-- A step of a subscriber changes nothing of the backend but the streams. -/
theorem backendView_eq {backendOptions : Backend.BackendOptions}
    {state state' : BackendState Tagged} {w w' : Writer Tagged} {event : WriterEvent}
    (hstep : WriterStep backendOptions state w event state' w') :
    backendView state' = backendView state := by
  cases hstep with
  | subscribed manager hs hm =>
    obtain ⟨hrun, hcapacity⟩ := SubscriptionManager.subscribe_members hm
    simp only [backendView, hrun, hcapacity]
  | fetched packetsBuffer manager hs hm =>
    obtain ⟨stream, -, -, rfl⟩ := SubscriptionManager.getNextPackets_eq_some_iff.mp hm
    rfl
  | _ => rfl

/-- What a step counts beside the packets sent is not up to what was sent before. -/
theorem Metrics.view_observe (metrics : Metrics) (before after : Party) (event : PartyEvent) :
    (metrics.view.observe before after event).view = (metrics.observe before after event).view := by
  unfold Metrics.observe
  dsimp only
  split <;> split <;> rfl

/-- Of a step of a subscriber only a packet that is sent is counted. -/
theorem Metrics.view_observe_subscriber (metrics : Metrics) (w : Writer Tagged) (after : Party)
    (event : PartyEvent) : (metrics.observe (.subscriber w) after event).view = metrics.view := by
  unfold Metrics.observe
  dsimp only [Party.receives]
  split <;> rfl

/-- A step of a subscriber shows nowhere. -/
theorem clientStep_unseen [Platform] (options : ProxyOptions) (s : ServiceState) (i : Nat)
    {client : Client} (hclient : client.forBackend = true) (event : PartyEvent) :
    (clientStep options s i client event).1.view = s.view ∧
      (clientStep options s i client event).2.forBackend = true := by
  cases client with
  | connecting arrival =>
    cases arrival with
    | publish clientMetadata => cases hclient
    | subscribe contextAddress clientMetadata =>
      unfold clientStep
      dsimp only
      split
      · refine ⟨?_, rfl⟩
        simp [ServiceState.view, proxy, Party.outstanding]
      · exact ⟨rfl, rfl⟩
  | connected party =>
    cases party with
    | publisher publisher => cases hclient
    | subscriber w =>
      cases event with
      | publisher read =>
        refine ⟨?_, rfl⟩
        simp [clientStep, partyStep, ServiceState.view, Party.outstanding, Party.refusal,
          Metrics.view_observe_subscriber]
      | subscriber event =>
        have hbackend := backendView_eq
          (writer_step options.getBackendOptions s.proxy.backend w event)
        have hview : ({ s.proxy with
            backend := (writerStep options.getBackendOptions s.proxy.backend w event).1 } :
              ProxyState).view = s.proxy.view := by
          simp only [ProxyState.view, hbackend]
        refine ⟨?_, rfl⟩
        simp [clientStep, partyStep, ServiceState.view, Party.outstanding, Party.refusal,
          Metrics.view_observe_subscriber, hview]

/-- A publisher neither reads nor changes the backend. -/
theorem Publisher.step_backend (options : ProxyOptions) (proxy : ProxyState)
    (backend : BackendState Tagged) (i : Nat) (publisher : Publisher) (read : ReadDone) :
    publisher.step options { proxy with backend } i read =
      ({ (publisher.step options proxy i read).1 with backend },
        (publisher.step options proxy i read).2) := by
  unfold Publisher.step
  cases publisher.call with
  | some call =>
    dsimp only
    split <;> rfl
  | none =>
    dsimp only
    split
    · cases read with
      | endOfStream => rfl
      | message message =>
        dsimp only
        split <;> rfl
    · rfl

/-- What the others see decides what a step of a publisher does to the proxy. -/
theorem partyStep_view (options : ProxyOptions) (proxy : ProxyState) (i : Nat)
    (publisher : Publisher) (event : PartyEvent) :
    (partyStep options proxy.view i (.publisher publisher) event).1.view =
        (partyStep options proxy i (.publisher publisher) event).1.view ∧
      (partyStep options proxy.view i (.publisher publisher) event).2 =
        (partyStep options proxy i (.publisher publisher) event).2 := by
  cases event with
  | subscriber event => exact ⟨rfl, rfl⟩
  | publisher read =>
    have hview : publisher.step options proxy.view i read =
        ({ (publisher.step options proxy i read).1 with backend := backendView proxy.backend },
          (publisher.step options proxy i read).2) :=
      Publisher.step_backend options proxy (backendView proxy.backend) i publisher read
    have hsame : (publisher.step options proxy i read).1.backend = proxy.backend :=
      congrArg (fun left ↦ left.1.backend)
        (Publisher.step_backend options proxy proxy.backend i publisher read)
    show (publisher.step options proxy.view i read).1.view =
        (publisher.step options proxy i read).1.view ∧
      Party.publisher (publisher.step options proxy.view i read).2 =
        Party.publisher (publisher.step options proxy i read).2
    rw [hview]
    refine ⟨?_, rfl⟩
    simp only [ProxyState.view, hsame]
    rfl

/-- What the others see decides their steps. -/
theorem clientStep_view [Platform] (options : ProxyOptions) (s : ServiceState) (i : Nat)
    {client : Client} (hclient : client.forBackend = false) (event : PartyEvent) :
    (clientStep options s.view i client event).1.view =
        (clientStep options s i client event).1.view ∧
      (clientStep options s.view i client event).2 = (clientStep options s i client event).2 := by
  cases client with
  | connecting arrival =>
    cases arrival with
    | subscribe contextAddress clientMetadata => cases hclient
    | publish clientMetadata =>
      by_cases hl : s.frontendServer = .listening
      · simp [clientStep, ServiceState.serverOf, ServiceState.view, hl]
      · simp [clientStep, ServiceState.serverOf, ServiceState.view, hl]
  | connected party =>
    cases party with
    | subscriber w => cases hclient
    | publisher publisher =>
      have hleft := partyStep_view options s.proxy i publisher event
      have hproxy : s.view.proxy = s.proxy.view := rfl
      unfold clientStep
      dsimp only
      rw [hproxy]
      generalize partyStep options s.proxy.view i (.publisher publisher) event = left' at hleft ⊢
      generalize partyStep options s.proxy i (.publisher publisher) event = left at hleft ⊢
      obtain ⟨proxy', party'⟩ := left'
      obtain ⟨proxy, party⟩ := left
      obtain ⟨hview, hparty⟩ := hleft
      dsimp only at hview hparty ⊢
      rw [hparty]
      refine ⟨?_, rfl⟩
      simp only [ServiceState.view, Metrics.view_observe, hview]

/-- What the others see decides the step of the propagator. -/
theorem propagatorStep_view [Platform] (proxy : ProxyState) :
    (propagatorStep proxy.view).view = (propagatorStep proxy).view := by
  obtain ⟨frontend, importQueue, propagator, mDuplicateDetector, backend, enqueued⟩ := proxy
  unfold propagatorStep
  cases propagator with
  | tryPop =>
    dsimp only [ProxyState.view]
    split <;> rfl
  | check packet =>
    dsimp only [ProxyState.view]
    split <;> rfl
  | enqueue packet => rfl
  | broadcast packet => rfl

theorem threadStep_view [Platform] (s : ServiceState) :
    (threadStep s.view).view = (threadStep s).view := by
  have hstep := propagatorStep_view s.proxy
  have hpropagator :
      (propagatorStep s.proxy.view).propagator = (propagatorStep s.proxy).propagator :=
    show (propagatorStep s.proxy.view).view.propagator =
        (propagatorStep s.proxy).view.propagator from
      congrArg ProxyState.propagator hstep
  unfold threadStep
  cases ht : s.mProxyThread with
  | notStarted | exited | loadRunning => simp only [ServiceState.view, ht, ProxyState.view_view,
      Metrics.view_view]
  | working =>
    simp only [ServiceState.view, ht, hstep, hpropagator]
    rfl

theorem stopStep_view (backend : BackendState Tagged) :
    backendView (stopStep (backendView backend)) = backendView (stopStep backend) ∧
      (stopStep (backendView backend)).stopStage = (stopStep backend).stopStage := by
  obtain ⟨manager, mKeepRunning, stopStage⟩ := backend
  cases stopStage <;> exact ⟨rfl, rfl⟩

/-- What the others see decides the steps of `start` and `stop`. -/
theorem callerStep_view (s : ServiceState) : (callerStep s.view).view = (callerStep s).view := by
  unfold callerStep
  cases hc : s.caller with
  | loadFrontend | shutdown | awaitPublishers | join | loadBackend =>
    simp only [ServiceState.view, hc]
    split <;> simp_all [ProxyState.view, backendView]
  | stopBackend =>
    obtain ⟨hbackend, hstage⟩ := stopStep_view s.proxy.backend
    have hsame : s.proxy.view.backend = backendView s.proxy.backend := rfl
    simp only [ServiceState.view, hc, hsame, hstage]
    simp only [ProxyState.view, hbackend, Metrics.view_view]
  | constructed | running | stopped | storeRunning | startThread | storeManager | storeBackend
  | buildBackend | storeFrontend | storeCounter | buildFrontend | clearFrontend | clearCounter
  | clearRunning =>
    simp only [ServiceState.view, hc]
    rfl

/-- What the others see decides the steps of the destructor. -/
theorem destructorStep_view (s : ServiceState) (step : DestructorStep) :
    (destructorStep s.view step).view = (destructorStep s step).view := by
  unfold destructorStep
  by_cases hc : s.caller = .stopped
  · rw [if_pos hc, if_pos (show s.view.caller = .stopped from hc)]
    cases step with
    | unsubscribeAll => rfl
    | shutdown =>
      have hserver : s.view.backendServer = s.backendServer := rfl
      dsimp only
      rw [hserver]
      split <;> rfl
  · rw [if_neg hc, if_neg (show ¬s.view.caller = .stopped from hc)]
    rfl

/-- A client that shows is the same from both sides. -/
theorem Client.view_eq_some_iff {client client' : Client} :
    client.view = some client' ↔ client.forBackend = false ∧ client = client' := by
  unfold Client.view
  cases client.forBackend <;> simp

theorem Client.view_of_forBackend {client : Client} (h : client.forBackend = true) :
    client.view = none := if_pos h

variable [Platform] {s s' : Lib.Pool ServiceState Client}
  {move : Lib.Move Arrival PartyEvent ServiceEvent}

/-- What the others see decides what the environment of the clients does. -/
theorem env_view (options : ProxyOptions) (s : ServiceState) (event : ServiceEvent) :
    ((service options).env s.view event).view = ((service options).env s event).view := by
  cases event with
  | propagator => exact threadStep_view s
  | caller => exact callerStep_view s
  | destructor step => exact destructorStep_view s step
  | start =>
    show (callStart s.view).view = (callStart s).view
    unfold callStart
    by_cases hc : s.caller = .constructed
    · simp [ServiceState.view, hc]
    · simp [ServiceState.view, hc]
  | stop =>
    show (callStop s.view).view = (callStop s).view
    unfold callStop
    by_cases hc : s.caller = .constructed ∨ s.caller = .running ∨ s.caller = .stopped
    · simp [ServiceState.view, hc]
    · simp [ServiceState.view, hc]

/-- A move of the others does the same in states that look the same to them. -/
theorem poolView_step_same (options : ProxyOptions) (hvisible : othersMove s move = true)
    (hview : poolView s = poolView s') :
    poolView ((service options).step s move) = poolView ((service options).step s' move) := by
  have hshared : s.shared.view = s'.shared.view := congrArg Prod.fst hview
  have hthreads : s.threads.map Client.view = s'.threads.map Client.view :=
    congrArg Prod.snd hview
  cases move with
  | spawn arrival =>
    unfold poolView
    simp only [Lib.Program.step, List.map_append, hshared, hthreads]
  | env event =>
    have hsame : ((service options).env s.shared event).view =
        ((service options).env s'.shared event).view := by
      rw [← env_view, hshared, env_view]
    exact Prod.ext hsame hthreads
  | run i event =>
    have hat : s.threads[i]?.map Client.view = s'.threads[i]?.map Client.view := by
      rw [← List.getElem?_map, hthreads, List.getElem?_map]
    cases hi : s.threads[i]? with
    | none =>
      rw [hi] at hat
      have hi' : s'.threads[i]? = none := Option.map_eq_none_iff.mp hat.symm
      rw [Lib.Program.step_run_none hi, Lib.Program.step_run_none hi']
      exact hview
    | some client =>
      have hclient : client.forBackend = false := by simpa [othersMove, hi] using hvisible
      have hseen : client.view = some client := Client.view_eq_some_iff.mpr ⟨hclient, rfl⟩
      rw [hi, Option.map_some, hseen] at hat
      obtain ⟨client', hi', hat'⟩ := Option.map_eq_some_iff.mp hat.symm
      obtain ⟨-, rfl⟩ := Client.view_eq_some_iff.mp hat'
      obtain ⟨hleft, hparty⟩ := clientStep_view options s.shared i hclient event
      obtain ⟨hleft', hparty'⟩ := clientStep_view options s'.shared i hclient event
      rw [Lib.Program.step_run hi, Lib.Program.step_run hi']
      refine Prod.ext ?_ ?_
      · show (clientStep options s.shared i client' event).1.view =
          (clientStep options s'.shared i client' event).1.view
        rw [← hleft, hshared, hleft']
      · show (s.threads.set i (clientStep options s.shared i client' event).2).map Client.view =
          (s'.threads.set i (clientStep options s'.shared i client' event).2).map Client.view
        rw [List.map_set, List.map_set, hthreads, ← hparty, hshared, hparty']

/-- A move of a subscriber shows nowhere. -/
theorem poolView_step_unseen (options : ProxyOptions) (hhidden : othersMove s move = false) :
    poolView ((service options).step s move) = poolView s := by
  cases move with
  | spawn arrival => cases hhidden
  | env event => cases hhidden
  | run i event =>
    cases hi : s.threads[i]? with
    | none => rw [Lib.Program.step_run_none hi]
    | some client =>
      have hclient : client.forBackend = true := by simpa [othersMove, hi] using hhidden
      obtain ⟨hshared, hstays⟩ := clientStep_unseen options s.shared i hclient event
      rw [Lib.Program.step_run hi]
      refine Prod.ext hshared ?_
      show (s.threads.set i (clientStep options s.shared i client event).2).map Client.view =
        s.threads.map Client.view
      rw [List.map_set, Client.view_of_forBackend hstays]
      ext j : 1
      by_cases hj : i = j
      · subst hj
        have hlt := (List.getElem?_eq_some_iff.mp hi).1
        rw [List.getElem?_set_self (by rwa [List.length_map]), List.getElem?_map, hi,
          Option.map_some, Client.view_of_forBackend hclient]
      · rw [List.getElem?_set_ne hj]

theorem oblivious (options : ProxyOptions) :
    Lib.Oblivious (service options).step othersMove poolView where
  same _ _ _ hvisible hview := poolView_step_same options hvisible hview
  unseen _ _ hhidden := poolView_step_unseen options hhidden

/-- The moves of a schedule without those of the subscribers. -/
def withoutSubscribers (options : ProxyOptions) (state : ProxyState)
    (moves : List (Lib.Move Arrival PartyEvent ServiceEvent)) :
    List (Lib.Move Arrival PartyEvent ServiceEvent) :=
  Lib.visibleInputs (service options).step othersMove ⟨{ proxy := state }, []⟩ moves

/-- In every run, what the subscribers do and how slowly they do it shows nowhere else: without
their steps every publisher and the calls of `start` and `stop` get as far, the import queue, the
detector and the propagator are in the same state, and the same packets have been handed out, in the
same order. -/
theorem subscribers_unseen (options : ProxyOptions) (state : ProxyState)
    (moves : List (Lib.Move Arrival PartyEvent ServiceEvent)) :
    poolView (served options state moves) =
      poolView (served options state (withoutSubscribers options state moves)) :=
  (oblivious options).view_foldl rfl moves

end ImportProxy.Proxy
