import ImportProxy.Lib.Embedding
import ImportProxy.Proxy.Order

/-!
# Start and stop

The proxy from its construction to its end: `ProxyImpl::start` and `stop` with what they
call on both ends, the thread of the propagator, the servers that accept the RPCs, and the
destructor: `src/proxy.cpp:71–224`, `src/frontend.cpp:361–444`, `src/backend.cpp:608–697`.
Every store and load of a flag is a step of its own. The thread that calls `start` and `stop`
is a part of the environment. A proxy is started at most once, as `start` asserts, and
before it is stopped.
-/

namespace ImportProxy.Proxy

open ImportProxy.Base
open ImportProxy.Backend (stopStep)

/-- A server of gRPC: it hands RPCs over from `BuildAndStart` on and until `Shutdown`. -/
inductive ServerStage where
  | notBuilt
  | listening
  | shutDown
  deriving DecidableEq, Repr

/-- `mProxyThread`: the loop of `propagatePacketToBackend`; `src/proxy.cpp:119–167`. -/
inductive ThreadStage where
  | notStarted
  /-- Loads `mKeepRunning`. -/
  | loadRunning
  /-- Is in the body of the loop. -/
  | working
  | exited
  deriving DecidableEq, Repr

/-- The next step of the thread that calls `start` and `stop`. -/
inductive CallerStage where
  | constructed
  /-- `start` stores `mKeepRunning` of the proxy. -/
  | storeRunning
  /-- `start` starts the propagator. -/
  | startThread
  /-- `Backend::start` stores `mKeepRunning` of the manager. -/
  | storeManager
  /-- `Backend::start` stores `mKeepRunning`. -/
  | storeBackend
  /-- `Backend::start` builds its server. -/
  | buildBackend
  /-- `Frontend::start` stores `mKeepRunning`. -/
  | storeFrontend
  /-- `Frontend::start` stores the number of publishers. -/
  | storeCounter
  /-- `Frontend::start` builds its server. -/
  | buildFrontend
  | running
  /-- `stop` asks whether the frontend is running. -/
  | loadFrontend
  /-- `Frontend::stop` clears `mKeepRunning`. -/
  | clearFrontend
  /-- `Frontend::stop` calls `Shutdown` of its server. -/
  | shutdown
  /-- `Shutdown` waits for the RPCs. -/
  | awaitPublishers
  /-- `Frontend::stop` clears the number of publishers. -/
  | clearCounter
  /-- `stop` clears `mKeepRunning` of the proxy. -/
  | clearRunning
  /-- `stop` joins the propagator. -/
  | join
  /-- `stop` asks whether the backend is running. -/
  | loadBackend
  /-- `Backend::stop` takes its next step. -/
  | stopBackend
  | stopped
  deriving DecidableEq, Repr

/-- `MetricsSingleton` without its utilizations; `src/modules/metrics.cppm:204–262`. -/
structure Metrics where
  mReceivedPacketsCounter : Int64 := 0
  mSentPacketsCounter : Int64 := 0
  deriving DecidableEq

/-- `incrementReceivedPacketsCounter`; `src/modules/metrics.cppm:214–217`. -/
def Metrics.incrementReceivedPacketsCounter (metrics : Metrics) : Metrics :=
  { metrics with mReceivedPacketsCounter := metrics.mReceivedPacketsCounter + 1 }

/-- `incrementSentPacketsCounter`; `src/modules/metrics.cppm:222–225`. -/
def Metrics.incrementSentPacketsCounter (metrics : Metrics) : Metrics :=
  { metrics with mSentPacketsCounter := metrics.mSentPacketsCounter + 1 }

/-- The whole of a proxy, with what became of its packets: those that a full import queue
refused, that the detector dropped, and that the manager handed to every subscriber. -/
structure ServiceState where
  proxy : ProxyState
  mKeepRunning : Bool := true
  mProxyThread : ThreadStage := .notStarted
  frontendServer : ServerStage := .notBuilt
  backendServer : ServerStage := .notBuilt
  /-- The `Publish` RPCs that the server has handed over and whose `OnDone` has not returned. -/
  outstanding : Int := 0
  caller : CallerStage := .constructed
  metrics : Metrics := {}
  refused : List Tagged := []
  dropped : List Tagged := []
  broadcast : List Tagged := []

/-- The next step of `start` or `stop`; `src/proxy.cpp:171–224`. -/
def callerStep (s : ServiceState) : ServiceState :=
  match s.caller with
  | .constructed | .running | .stopped => s
  | .storeRunning => { s with mKeepRunning := true, caller := .startThread }
  | .startThread => { s with mProxyThread := .loadRunning, caller := .storeManager }
  | .storeManager =>
    { s with
      proxy.backend.mSubscriptionManager.mKeepRunning := true
      caller := .storeBackend }
  | .storeBackend =>
    { s with
      proxy.backend.mKeepRunning := true
      proxy.backend.stopStage := .notCalled
      caller := .buildBackend }
  | .buildBackend => { s with backendServer := .listening, caller := .storeFrontend }
  | .storeFrontend => { s with proxy.frontend.mKeepRunning := true, caller := .storeCounter }
  | .storeCounter => { s with proxy.frontend.mNumberOfPublishers := 0, caller := .buildFrontend }
  | .buildFrontend => { s with frontendServer := .listening, caller := .running }
  | .loadFrontend =>
    if s.proxy.frontend.mKeepRunning then { s with caller := .clearFrontend }
    else { s with caller := .clearRunning }
  | .clearFrontend => { s with proxy.frontend.mKeepRunning := false, caller := .shutdown }
  | .shutdown =>
    if s.frontendServer = .notBuilt then { s with caller := .clearCounter }
    else { s with frontendServer := .shutDown, caller := .awaitPublishers }
  | .awaitPublishers => if s.outstanding = 0 then { s with caller := .clearCounter } else s
  | .clearCounter => { s with proxy.frontend.mNumberOfPublishers := 0, caller := .clearRunning }
  | .clearRunning => { s with mKeepRunning := false, caller := .join }
  | .join =>
    -- A thread that was never started is not joinable.
    if s.mProxyThread = .notStarted ∨ s.mProxyThread = .exited then
      { s with caller := .loadBackend }
    else s
  | .loadBackend =>
    if s.proxy.backend.mKeepRunning then { s with caller := .stopBackend }
    else { s with caller := .stopped }
  | .stopBackend =>
    { s with
      proxy.backend := stopStep s.proxy.backend
      caller := if (stopStep s.proxy.backend).stopStage = .cleared then .stopped
        else .stopBackend }

/-- A call of `start` or `stop`, which returns before the next one. -/
def callStart (s : ServiceState) : ServiceState :=
  if s.caller = .constructed then { s with caller := .storeRunning } else s

/-- A call of `stop`, from the program or from the destructor. -/
def callStop (s : ServiceState) : ServiceState :=
  if s.caller = .constructed ∨ s.caller = .running ∨ s.caller = .stopped then
    { s with caller := .loadFrontend }
  else s

/-- The steps of `~BackendImpl`, to which the second `stop` has left nothing else. -/
inductive DestructorStep where
  /-- Clears the map of subscribers once more. -/
  | unsubscribeAll
  /-- Calls `Shutdown` of its server. -/
  | shutdown
  deriving DecidableEq, Repr

/-- A step of `~BackendImpl`, behind the `stop` of `~ProxyImpl`; `src/proxy.cpp:71–74`,
`src/backend.cpp:671–697`. The flags have been stored before. `~FrontendImpl` comes first, and
finds its server shut down. -/
def destructorStep (s : ServiceState) (step : DestructorStep) : ServiceState :=
  if s.caller = .stopped then
    match step with
    | .unsubscribeAll =>
      { s with
        proxy.backend.mSubscriptionManager := s.proxy.backend.mSubscriptionManager.clear }
    | .shutdown =>
      if s.backendServer = .notBuilt then s else { s with backendServer := .shutDown }
  else s

/-- The next step of the propagator's thread. -/
def threadStep [Platform] (s : ServiceState) : ServiceState :=
  match s.mProxyThread with
  | .notStarted | .exited => s
  | .loadRunning => { s with mProxyThread := if s.mKeepRunning then .working else .exited }
  | .working =>
    let proxy := propagatorStep s.proxy
    { s with
      proxy
      mProxyThread := if proxy.propagator = .tryPop then .loadRunning else .working
      dropped := s.dropped ++
        match s.proxy.propagator, proxy.propagator with
        | .check packet, .tryPop => [packet]
        | _, _ => []
      broadcast := s.broadcast ++ s.proxy.propagator.undelivered }

/-- A client: its RPC is on its way to the server, or has been handed over. -/
inductive Client where
  | connecting (arrival : Arrival)
  | connected (party : Party)
  deriving DecidableEq

namespace Party

/-- A `Publish` RPC whose `OnDone` has not returned. -/
def outstanding : Party → Bool
  | .publisher p => p.rpc.stage != .deleted
  | .subscriber _ => false

/-- The step is an `OnReadDone` with a message. -/
def receives : Party → PartyEvent → Bool
  | .publisher p, .publisher (.message _) => p.call.isNone && p.rpc.stage == .reading
  | _, _ => false

/-- The step from one to the other is a `StartWrite`. -/
def startsWrite : Party → Party → Bool
  | .subscriber w, .subscriber w' => w.stage != .writing && w'.stage == .writing
  | _, _ => false

/-- The packet whose insertion the step tries, and which the import queue does not take. -/
def refusal : Party → Party → List Tagged
  | .publisher p, .publisher p' =>
    match p.call, p'.call with
    | some ⟨packet, .push, _⟩, some ⟨_, .returned false, _⟩ => [packet]
    | _, _ => []
  | _, _ => []

end Party

/-- The metrics after a step of a party. -/
def Metrics.observe (metrics : Metrics) (before after : Party) (event : PartyEvent) : Metrics :=
  let metrics :=
    if before.receives event then metrics.incrementReceivedPacketsCounter else metrics
  if before.startsWrite after then metrics.incrementSentPacketsCounter else metrics

section Program

variable [Platform] (options : ProxyOptions)

/-- The server that an RPC is on its way to. -/
def ServiceState.serverOf (s : ServiceState) : Arrival → ServerStage
  | .publish _ => s.frontendServer
  | .subscribe _ _ => s.backendServer

/-- One step of the client at position `i`. -/
def clientStep (s : ServiceState) (i : Nat) : Client → PartyEvent → ServiceState × Client
  | .connecting arrival, _ =>
    if s.serverOf arrival = .listening then
      let party := (proxy options).start arrival
      ({ s with outstanding := s.outstanding + if party.outstanding then 1 else 0 },
        .connected party)
    else (s, .connecting arrival)
  | .connected party, event =>
    let left := partyStep options s.proxy i party event
    ({ s with
        proxy := left.1
        outstanding :=
          s.outstanding - (if party.outstanding then 1 else 0) +
            if left.2.outstanding then 1 else 0
        metrics := s.metrics.observe party left.2 event
        refused := s.refused ++ party.refusal left.2 },
      .connected left.2)

/-- What the environment of the clients does. -/
inductive ServiceEvent where
  | propagator
  | start
  | stop
  /-- The call of `start` or `stop` goes on. -/
  | caller
  /-- The destructor goes on. -/
  | destructor (step : DestructorStep)
  deriving DecidableEq, Repr

/-- The proxy from its construction on, with any number of clients. -/
def service : Lib.Program ServiceState Client Arrival PartyEvent ServiceEvent where
  start := .connecting
  act := clientStep options
  env s
    | .propagator => threadStep s
    | .start => callStart s
    | .stop => callStop s
    | .caller => callerStep s
    | .destructor step => destructorStep s step

/-- The proxy after its construction and a schedule. -/
def served (state : ProxyState) (moves : List (Lib.Move Arrival PartyEvent ServiceEvent)) :
    Lib.Pool ServiceState Client :=
  (service options).after ⟨{ proxy := state }, []⟩ moves

/-- The steps of a client: what is known at the step, and what it leaves. -/
inductive ClientStep (s : ServiceState) (i : Nat) :
    Client → PartyEvent → ServiceState → Client → Prop
  | waits (arrival : Arrival) (event : PartyEvent) (hl : s.serverOf arrival ≠ .listening) :
      ClientStep s i (.connecting arrival) event s (.connecting arrival)
  | connects (arrival : Arrival) (event : PartyEvent) (hl : s.serverOf arrival = .listening) :
      ClientStep s i (.connecting arrival) event
        { s with outstanding :=
            s.outstanding + if ((proxy options).start arrival).outstanding then 1 else 0 }
        (.connected ((proxy options).start arrival))
  | steps (party party' : Party) (event : PartyEvent) (proxy : ProxyState)
      (hstep : partyStep options s.proxy i party event = (proxy, party')) :
      ClientStep s i (.connected party) event
        { s with
          proxy
          outstanding :=
            s.outstanding - (if party.outstanding then 1 else 0) +
              if party'.outstanding then 1 else 0
          metrics := s.metrics.observe party party' event
          refused := s.refused ++ party.refusal party' }
        (.connected party')

/-- A step of a client is one of the listed ones. -/
theorem client_step (s : ServiceState) (i : Nat) (client : Client) (event : PartyEvent) :
    ClientStep options s i client event (clientStep options s i client event).1
      (clientStep options s i client event).2 := by
  cases client with
  | connected party => exact .steps party _ event _ rfl
  | connecting arrival =>
    unfold clientStep
    dsimp only
    split
    · next hl => exact .connects arrival event hl
    · next hl => exact .waits arrival event hl

/-- The party that a client is, or will be. -/
def Client.party : Client → Party
  | .connecting arrival => (proxy options).start arrival
  | .connected party => party

end Program

/-- What holds of a state and does not depend on the map of a stopped backend, nor on its server,
holds behind a step of the destructor. -/
@[elab_as_elim]
theorem destructorStep_cases {motive : ServiceState → Prop} (s : ServiceState)
    (step : DestructorStep) (same : motive s)
    (cleared : s.caller = .stopped → motive { s with
      proxy.backend.mSubscriptionManager := s.proxy.backend.mSubscriptionManager.clear })
    (shutDown : s.caller = .stopped → motive { s with backendServer := .shutDown }) :
    motive (destructorStep s step) := by
  unfold destructorStep
  split
  · next hc =>
    cases step with
    | unsubscribeAll => exact cleared hc
    | shutdown =>
      dsimp only
      split
      · exact same
      · exact shutDown hc
  · exact same

/-- What `start`, `stop` and the destructor do to the proxy: they take packets from the subscribers
at most. -/
structure Interferes (s s' : ProxyState) : Prop where
  importQueue : s'.importQueue = s.importQueue
  propagator : s'.propagator = s.propagator
  mDuplicateDetector : s'.mDuplicateDetector = s.mDuplicateDetector
  enqueued : s'.enqueued = s.enqueued
  queueOf : ∀ a, (s'.backend.mSubscriptionManager.queueOf a).Sublist
    (s.backend.mSubscriptionManager.queueOf a)

theorem Interferes.refl (s : ProxyState) : Interferes s s :=
  ⟨rfl, rfl, rfl, rfl, fun _ ↦ List.Sublist.refl _⟩

theorem queueOf_clear_sublist (manager : Backend.SubscriptionManager Tagged) (a : Nat) :
    (manager.clear.queueOf a).Sublist (manager.queueOf a) := by
  have hclear : manager.clear.queueOf a = [] := by
    unfold Backend.SubscriptionManager.queueOf Backend.SubscriptionManager.clear
    rw [Std.ExtTreeMap.getElem?_empty]
  rw [hclear]
  exact List.nil_sublist _

/-- A step of `Backend::stop` adds nothing to what waits for a subscriber. -/
theorem queueOf_stopStep_sublist (s : Backend.BackendState Tagged) (a : Nat) :
    ((stopStep s).mSubscriptionManager.queueOf a).Sublist (s.mSubscriptionManager.queueOf a) := by
  unfold stopStep
  cases s.stopStage with
  | counted => exact queueOf_clear_sublist s.mSubscriptionManager a
  | notCalled | storedRunning | storedManager | cleared => exact List.Sublist.refl _

/-- The steps of `start` and `stop` interfere, and do nothing else to the proxy. -/
theorem interferes_callerStep (s : ServiceState) : Interferes s.proxy (callerStep s).proxy := by
  unfold callerStep
  cases s.caller with
  | stopBackend => exact ⟨rfl, rfl, rfl, rfl, queueOf_stopStep_sublist s.proxy.backend⟩
  | loadFrontend | shutdown | awaitPublishers | join | loadBackend =>
    dsimp only
    split <;> exact Interferes.refl _
  | constructed | storeRunning | startThread | storeManager | storeBackend | buildBackend
  | storeFrontend | storeCounter | buildFrontend | running | clearFrontend | clearCounter
  | clearRunning | stopped =>
    exact ⟨rfl, rfl, rfl, rfl, fun _ ↦ List.Sublist.refl _⟩

/-- So does the destructor. -/
theorem interferes_destructorStep (s : ServiceState) (step : DestructorStep) :
    Interferes s.proxy (destructorStep s step).proxy :=
  destructorStep_cases s step (Interferes.refl _)
    (fun _ ↦ ⟨rfl, rfl, rfl, rfl, queueOf_clear_sublist s.proxy.backend.mSubscriptionManager⟩)
    fun _ ↦ Interferes.refl _

/-- The calls themselves only move the calling thread. -/
theorem callStart_proxy (s : ServiceState) : (callStart s).proxy = s.proxy := by
  unfold callStart
  split <;> rfl

theorem callStop_proxy (s : ServiceState) : (callStop s).proxy = s.proxy := by
  unfold callStop
  split <;> rfl

variable [Platform] {options : ProxyOptions}

/-- A client takes a step of its party, or gets connected. -/
theorem ClientStep.party_step {s s' : ServiceState} {i : Nat} {client client' : Client}
    {event : PartyEvent} (hstep : ClientStep options s i client event s' client') :
    (s'.proxy = (partyStep options s.proxy i (client.party options) event).1 ∧
      client'.party options = (partyStep options s.proxy i (client.party options) event).2) ∨
    (s'.proxy = s.proxy ∧ client'.party options = client.party options) := by
  cases hstep with
  | waits | connects => exact Or.inr ⟨rfl, rfl⟩
  | steps party party' event proxy hstep =>
    show (proxy = (partyStep options s.proxy i party event).1 ∧
      party' = (partyStep options s.proxy i party event).2) ∨ _
    rw [hstep]
    exact Or.inl ⟨rfl, rfl⟩

/-- The propagator's thread takes a step of the propagator, or is outside the body of its loop. -/
theorem threadStep_proxy (s : ServiceState) :
    (threadStep s).proxy = propagatorStep s.proxy ∨ (threadStep s).proxy = s.proxy := by
  unfold threadStep
  cases s.mProxyThread with
  | working => exact Or.inl rfl
  | notStarted | loadRunning | exited => exact Or.inr rfl

/-- The service runs the proxy, and interferes with it by `start` and `stop` only. -/
theorem embeds_service (options : ProxyOptions) :
    (service options).Embeds (proxy options) ServiceState.proxy (Client.party options)
      Interferes where
  start _ := rfl
  act s i client event := (client_step options s i client event).party_step
  env s event := by
    have same {s' : ServiceState} (he : s'.proxy = s.proxy) : Interferes s.proxy s'.proxy :=
      he ▸ Interferes.refl s.proxy
    cases event with
    | start => exact Or.inr (same (callStart_proxy s))
    | stop => exact Or.inr (same (callStop_proxy s))
    | caller => exact Or.inr (interferes_callerStep s)
    | destructor step => exact Or.inr (interferes_destructorStep s step)
    | propagator =>
      rcases threadStep_proxy s with he | he
      · exact Or.inl ⟨(), he⟩
      · exact Or.inr (same he)

end ImportProxy.Proxy
