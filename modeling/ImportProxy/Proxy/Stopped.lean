import ImportProxy.Proxy.Fates

/-!
# The stopped proxy

`Shutdown` of the frontend's server waits for the RPCs of the publishers. The number that
it waits for is the number of publishers whose `OnDone` has not returned; when it is zero, and
the server takes no more RPCs, no publisher takes another step. So when `stop` returns, no
call is under way, and nothing before the backend ever changes again.
-/

namespace ImportProxy.Proxy

open ImportProxy.Base
open ImportProxy.Frontend (forwarded)

variable {s s' : ServiceState} {options : ProxyOptions} {i : Nat}

/-- A client with a `Publish` RPC whose `OnDone` has not returned. -/
def Client.outstanding : Client → Bool
  | .connecting _ => false
  | .connected party => party.outstanding

/-- What a client adds to the number that `Shutdown` waits for. -/
def Client.weight (client : Client) : Int := if client.outstanding then 1 else 0

/-- The server of the frontend has no RPCs, and takes none. -/
def Closed (s : ServiceState) : Prop :=
  s.frontendServer = .notBuilt ∨
    (s.frontendServer = .shutDown ∧ s.caller ≠ .shutdown ∧ s.caller ≠ .awaitPublishers)

/-- No RPC of a publisher is left in a closed frontend, and its counter is cleared next, or has
been. -/
def ClosedInv (s : ServiceState) : Prop :=
  Closed s → s.outstanding = 0 ∧
    (s.caller ≠ .clearCounter → s.proxy.frontend.mNumberOfPublishers = 0)

/-- A publisher is in a call only while it handles a message. -/
def CallsReading (party : Party) : Prop :=
  ∀ publisher call, party = .publisher publisher → publisher.call = some call →
    publisher.rpc.stage = .reading

/-- A publisher that is gone stays as it is. -/
theorem Publisher.step_of_deleted {publisher : Publisher} (hs : publisher.rpc.stage = .deleted)
    (hc : publisher.call = none) (proxy : ProxyState) (read : ReadDone) :
    publisher.step options proxy i read = (proxy, publisher) := by
  unfold Publisher.step
  rw [hc]
  dsimp only
  rw [if_neg (by simp [hs])]
  unfold Publisher.rpcStep Frontend.publishStep
  rw [hs]

theorem Party.outstanding_publisher {publisher : Publisher} :
    Party.outstanding (.publisher publisher) = false ↔ publisher.rpc.stage = .deleted := by
  simp [Party.outstanding]

/-- A call starts with a message, and ends before the next step of the RPC. -/
theorem PublisherStep.callsReading {proxy proxy' : ProxyState} {publisher publisher' : Publisher}
    {read : ReadDone} (hstep : PublisherStep options proxy i publisher read proxy' publisher')
    (h : CallsReading (.publisher publisher)) : CallsReading (.publisher publisher') := by
  intro publisher'' call' he hcall
  cases he
  cases hstep with
  | adds _ call call'' importQueue hc hs hadd => exact h publisher call rfl hc
  | calls message packet hc hs hf => exact hs
  | resumes | rejects | ends => cases hcall
  | proceeds _ frontend rpc hc hs hrpc =>
    rw [hc] at hcall
    cases hcall

theorem CallsReading.partyStep {party : Party} (h : CallsReading party) (options : ProxyOptions)
    (proxy : ProxyState) (i : Nat) (event : PartyEvent) :
    CallsReading (partyStep options proxy i party event).2 := by
  cases party with
  | publisher publisher =>
    cases event with
    | publisher read => exact (publisher_step options proxy i publisher read).callsReading h
    | subscriber event => exact h
  | subscriber writer =>
    intro publisher call he
    cases event <;> cases he

/-- A publisher that is gone is in no call. -/
theorem CallsReading.call_eq_none {publisher : Publisher}
    (h : CallsReading (.publisher publisher)) (hs : publisher.rpc.stage = .deleted) :
    publisher.call = none := by
  by_contra hcall
  obtain ⟨call, hcall⟩ := Option.ne_none_iff_exists'.mp hcall
  have hreading := h publisher call rfl hcall
  rw [hs] at hreading
  cases hreading

/-- The steps of a publisher that is gone change nothing. -/
theorem partyStep_of_deleted {publisher : Publisher} (hcalls : CallsReading (.publisher publisher))
    (hs : publisher.rpc.stage = .deleted) (options : ProxyOptions) (proxy : ProxyState) (i : Nat)
    (event : PartyEvent) :
    partyStep options proxy i (.publisher publisher) event = (proxy, .publisher publisher) := by
  cases event with
  | publisher read => rw [partyStep, Publisher.step_of_deleted hs (hcalls.call_eq_none hs)]
  | subscriber event => rfl

/-- The step of a party whose RPC has ended, or that is a subscriber. -/
theorem partyStep_of_not_outstanding {party : Party} (hcalls : CallsReading party)
    (h : party.outstanding = false) (options : ProxyOptions) (proxy : ProxyState) (i : Nat)
    (event : PartyEvent) :
    (partyStep options proxy i party event).1.frontend = proxy.frontend ∧
      (partyStep options proxy i party event).2.outstanding = false := by
  cases party with
  | publisher publisher =>
    rw [partyStep_of_deleted hcalls (Party.outstanding_publisher.mp h)]
    exact ⟨rfl, h⟩
  | subscriber writer => cases event <;> exact ⟨rfl, rfl⟩

/-- The steps of `start` and `stop` close the frontend only when it has no RPC. -/
theorem ClosedInv.caller_step (h : ClosedInv s) : ClosedInv (callerStep s) := by
  unfold callerStep
  cases hc : s.caller with
  | constructed | running | stopped => exact h
  | storeRunning | startThread | storeManager | storeBackend | buildBackend | storeFrontend
  | clearFrontend | clearRunning =>
    intro hclosed
    have hbefore : Closed s := hclosed.imp id fun hdown ↦ ⟨hdown.1, by simp [hc], by simp [hc]⟩
    exact ⟨(h hbefore).1, fun _ ↦ (h hbefore).2 (by simp [hc])⟩
  | storeCounter | clearCounter =>
    intro hclosed
    have hbefore : Closed s := hclosed.imp id fun hdown ↦ ⟨hdown.1, by simp [hc], by simp [hc]⟩
    exact ⟨(h hbefore).1, fun _ ↦ rfl⟩
  | buildFrontend =>
    intro hclosed
    rcases hclosed with hserver | ⟨hserver, -⟩ <;> cases hserver
  | loadFrontend | join | loadBackend =>
    have hbefore (hclosed : s.frontendServer = .notBuilt ∨ s.frontendServer = .shutDown) :
        Closed s := hclosed.imp id fun hdown ↦ ⟨hdown, by simp [hc], by simp [hc]⟩
    dsimp only
    split
    · intro hclosed
      have hzero := h (hbefore (hclosed.imp id And.left))
      exact ⟨hzero.1, fun _ ↦ hzero.2 (by simp [hc])⟩
    · intro hclosed
      have hzero := h (hbefore (hclosed.imp id And.left))
      exact ⟨hzero.1, fun _ ↦ hzero.2 (by simp [hc])⟩
  | shutdown =>
    dsimp only
    split
    · next hserver =>
      intro _
      exact ⟨(h (Or.inl hserver)).1, fun hne ↦ absurd rfl hne⟩
    · intro hclosed
      rcases hclosed with hserver | ⟨-, -, hne⟩
      · cases hserver
      · exact absurd rfl hne
  | awaitPublishers =>
    dsimp only
    split
    · next hzero => exact fun _ ↦ ⟨hzero, fun hne ↦ absurd rfl hne⟩
    · exact h
  | stopBackend =>
    intro hclosed
    have hbefore : Closed s := hclosed.imp id fun hdown ↦ ⟨hdown.1, by simp [hc], by simp [hc]⟩
    exact ⟨(h hbefore).1, fun _ ↦ (h hbefore).2 (by simp [hc])⟩

/-- The constructor leaves the frontend as it is declared. -/
theorem frontend_new {state : ProxyState} (hnew : ProxyState.new options = .ok state) :
    state.frontend = {} := by
  unfold ProxyState.new at hnew
  dsimp only at hnew
  split at hnew
  · cases hnew
    rfl
  · split at hnew
    · cases hnew
    · cases hnew
      rfl

/-- `stop` has returned, or has been called again. -/
def Settled (c : Control) : Prop :=
  PropagatorOver c ∧ c.stopStage = .cleared ∧
    (c.caller = .stopped ∨ c.caller = .loadFrontend ∨ c.caller = .clearRunning ∨
      c.caller = .join ∨ c.caller = .loadBackend)

theorem Settled.closed (h : Settled s.control) : Closed s := by
  obtain ⟨⟨⟨-, hserver⟩, -⟩, -, hcaller⟩ := h
  have hserver : s.frontendServer ≠ .listening := hserver
  have hcaller : s.caller = .stopped ∨ s.caller = .loadFrontend ∨ s.caller = .clearRunning ∨
    s.caller = .join ∨ s.caller = .loadBackend := hcaller
  cases hs : s.frontendServer with
  | notBuilt => exact Or.inl hs
  | listening => exact absurd hs hserver
  | shutDown =>
    refine Or.inr ⟨hs, ?_, ?_⟩
    · rcases hcaller with hc | hc | hc | hc | hc <;> simp [hc]
    · rcases hcaller with hc | hc | hc | hc | hc <;> simp [hc]

/-- A proxy that has been stopped is settled. -/
theorem ServiceInv.settled (h : ServiceInv s) (hc : s.caller = .stopped) : Settled s.control := by
  obtain ⟨hover, hstage⟩ := h.control.knows_stopped hc
  exact ⟨hover, hstage, Or.inl hc⟩

/-- Everything before the backend, with what became of the packets. -/
structure Upstream where
  frontend : Frontend.FrontendState
  importQueue : ImportQueue Tagged
  propagator : PropagatorStage
  mDuplicateDetector : Option Detector.DuplicatePacketDetector
  enqueued : List Tagged
  mKeepRunning : Bool
  mProxyThread : ThreadStage
  frontendServer : ServerStage
  outstanding : Int
  refused : List Tagged
  dropped : List Tagged
  broadcast : List Tagged

def ServiceState.upstream (s : ServiceState) : Upstream where
  frontend := s.proxy.frontend
  importQueue := s.proxy.importQueue
  propagator := s.proxy.propagator
  mDuplicateDetector := s.proxy.mDuplicateDetector
  enqueued := s.proxy.enqueued
  mKeepRunning := s.mKeepRunning
  mProxyThread := s.mProxyThread
  frontendServer := s.frontendServer
  outstanding := s.outstanding
  refused := s.refused
  dropped := s.dropped
  broadcast := s.broadcast

/-- A further call of `stop` only moves the calling thread. -/
theorem ServiceInv.settled_caller_step (h : ServiceInv s) (hs : Settled s.control) :
    Settled (callerStep s).control ∧ (callerStep s).upstream = s.upstream := by
  obtain ⟨hover, hstage, hcaller⟩ := hs
  have hstage : s.proxy.backend.stopStage = .cleared := hstage
  have hrun : s.proxy.frontend.mKeepRunning = false := hover.1.1
  have hkeep : s.mKeepRunning = false := hover.2.1
  have hthread : s.mProxyThread = .notStarted ∨ s.mProxyThread = .exited := hover.2.2
  have hbackend : s.proxy.backend.mKeepRunning = false := by
    rw [h.flags.running, hstage]
    rfl
  have hcaller : s.caller = .stopped ∨ s.caller = .loadFrontend ∨ s.caller = .clearRunning ∨
    s.caller = .join ∨ s.caller = .loadBackend := hcaller
  unfold callerStep
  rcases hcaller with hc | hc | hc | hc | hc
  · rw [hc]
    exact ⟨⟨hover, hstage, Or.inl hc⟩, rfl⟩
  · simp only [hc, hrun]
    exact ⟨⟨hover, hstage, Or.inr (Or.inr (Or.inl rfl))⟩, rfl⟩
  · simp only [hc]
    refine ⟨⟨⟨hover.1, rfl, hthread⟩, hstage, Or.inr (Or.inr (Or.inr (Or.inl rfl)))⟩, ?_⟩
    unfold ServiceState.upstream
    rw [hkeep]
  · simp only [hc, if_pos hthread]
    exact ⟨⟨hover, hstage, Or.inr (Or.inr (Or.inr (Or.inr rfl)))⟩, rfl⟩
  · simp only [hc, hbackend]
    exact ⟨⟨hover, hstage, Or.inl rfl⟩, rfl⟩

/-- Once the proxy is settled, a call of `stop` only moves the calling thread. -/
theorem settled_callStop (hs : Settled s.control) :
    Settled (callStop s).control ∧ (callStop s).upstream = s.upstream := by
  unfold callStop
  split
  · exact ⟨⟨hs.1, hs.2.1, Or.inr (Or.inl rfl)⟩, rfl⟩
  · exact ⟨hs, rfl⟩

section Runs

variable [Platform]

/-- The number that `Shutdown` waits for is that of the publishers whose `OnDone` has not
returned. -/
theorem weighs_outstanding (options : ProxyOptions) :
    (service options).Weighs (fun _ ↦ True) (fun _ _ _ ↦ True) ServiceState.outstanding
      Client.weight where
  start _ _ _ _ := trivial
  act _ _ _ _ _ _ := ⟨trivial, trivial⟩
  other _ _ _ _ _ _ _ _ _ _ := trivial
  env _ _ _ := trivial
  envThread _ _ _ _ _ _ := trivial
  weight_start _ := rfl
  weight_act s i client event _ _ := by
    show (clientStep options s i client event).1.outstanding - s.outstanding =
      (clientStep options s i client event).2.weight - client.weight
    have hstep := client_step options s i client event
    generalize (clientStep options s i client event).1 = s' at hstep
    generalize (clientStep options s i client event).2 = client' at hstep
    cases hstep with
    | waits arrival event hl => simp
    | connects arrival event hl =>
      show s.outstanding + Client.weight (.connected ((proxy options).start arrival)) -
        s.outstanding = _ - 0
      ring
    | steps party party' event proxy hstep =>
      show s.outstanding - Client.weight (.connected party) +
        Client.weight (.connected party') - s.outstanding = _
      ring
  weight_env s event _ := by
    cases event with
    | propagator =>
      show (threadStep s).outstanding = s.outstanding
      unfold threadStep
      cases s.mProxyThread <;> rfl
    | start =>
      show (callStart s).outstanding = s.outstanding
      unfold callStart
      split <;> rfl
    | stop =>
      show (callStop s).outstanding = s.outstanding
      unfold callStop
      split <;> rfl
    | caller =>
      show (callerStep s).outstanding = s.outstanding
      unfold callerStep
      cases s.caller with
      | loadFrontend | shutdown | awaitPublishers | join | loadBackend =>
        dsimp only
        split <;> rfl
      | constructed | storeRunning | startThread | storeManager | storeBackend | buildBackend
      | storeFrontend | storeCounter | buildFrontend | running | clearFrontend | clearCounter
      | clearRunning | stopBackend | stopped => rfl
    | destructor step =>
      exact destructorStep_cases (motive := fun s' ↦ s'.outstanding = s.outstanding) s step rfl
        (fun _ ↦ rfl) fun _ ↦ rfl

/-- A client without a `Publish` RPC leaves a closed frontend as it is. -/
theorem ClosedInv.client_step {client client' : Client} {event : PartyEvent} (h : ClosedInv s)
    (hcalls : CallsReading (client.party options)) (hgone : Closed s → client.outstanding = false)
    (hstep : ClientStep options s i client event s' client') : ClosedInv s' := by
  cases hstep with
  | waits arrival event hl => exact h
  | connects arrival event hl =>
    intro hclosed
    have hclosed : Closed s := hclosed
    obtain ⟨hzero, hcounter⟩ := h hclosed
    refine ⟨?_, hcounter⟩
    cases arrival with
    | publish clientMetadata =>
      have hlistening : s.frontendServer = .listening := hl
      unfold Closed at hclosed
      rw [hlistening] at hclosed
      rcases hclosed with hserver | ⟨hserver, -⟩ <;> cases hserver
    | subscribe contextAddress clientMetadata =>
      show s.outstanding + 0 = 0
      rw [hzero]
      rfl
  | steps party party' event proxy hstep =>
    intro hclosed
    have hclosed : Closed s := hclosed
    obtain ⟨hzero, hcounter⟩ := h hclosed
    have hparty : party.outstanding = false := hgone hclosed
    have hcalls : CallsReading party := hcalls
    obtain ⟨hfrontend, hparty'⟩ :=
      partyStep_of_not_outstanding hcalls hparty options s.proxy i event
    rw [hstep] at hfrontend hparty'
    dsimp only at hfrontend hparty'
    constructor
    · show s.outstanding - (if party.outstanding then 1 else 0) +
        (if party'.outstanding then 1 else 0) = 0
      rw [hzero, hparty, hparty']
      rfl
    · intro hne
      show proxy.frontend.mNumberOfPublishers = 0
      rw [hfrontend]
      exact hcounter hne

/-- The environment closes the frontend only when it has no RPC. -/
theorem ClosedInv.env (h : ClosedInv s) (options : ProxyOptions) (event : ServiceEvent) :
    ClosedInv ((service options).env s event) := by
  cases event with
  | propagator =>
    show ClosedInv (threadStep s)
    unfold threadStep
    cases s.mProxyThread with
    | notStarted | exited | loadRunning => exact h
    | working =>
      intro hclosed
      obtain ⟨hzero, hcounter⟩ := h hclosed
      refine ⟨hzero, fun hne ↦ ?_⟩
      show (propagatorStep s.proxy).frontend.mNumberOfPublishers = 0
      rw [(propagator_step s.proxy).ends_eq.1]
      exact hcounter hne
  | start =>
    show ClosedInv (callStart s)
    unfold callStart
    split
    · next hc =>
      intro hclosed
      have hbefore : Closed s := hclosed.imp id fun hdown ↦ ⟨hdown.1, by simp [hc], by simp [hc]⟩
      exact ⟨(h hbefore).1, fun _ ↦ (h hbefore).2 (by simp [hc])⟩
    · exact h
  | stop =>
    show ClosedInv (callStop s)
    unfold callStop
    split
    · next hc =>
      have hother : s.caller ≠ .shutdown ∧ s.caller ≠ .awaitPublishers ∧
          s.caller ≠ .clearCounter := by
        rcases hc with hc | hc | hc <;> simp [hc]
      intro hclosed
      have hbefore : Closed s := hclosed.imp id fun hdown ↦ ⟨hdown.1, hother.1, hother.2.1⟩
      exact ⟨(h hbefore).1, fun _ ↦ (h hbefore).2 hother.2.2⟩
    · exact h
  | caller => exact h.caller_step
  | destructor step =>
    exact destructorStep_cases (motive := ClosedInv) s step h (fun _ ↦ h) fun _ ↦ h

/-- What the pool of clients tells of a closed frontend. -/
structure PoolInv (options : ProxyOptions) (s : Lib.Pool ServiceState Client) : Prop where
  counted : s.shared.outstanding = (s.threads.map Client.weight).sum
  calls : ∀ client ∈ s.threads, CallsReading (client.party options)
  closed : ClosedInv s.shared

/-- A closed frontend has no clients with a `Publish` RPC. -/
theorem PoolInv.gone {s : Lib.Pool ServiceState Client} (h : PoolInv options s)
    (hclosed : Closed s.shared) {client : Client} (hmem : client ∈ s.threads) :
    client.outstanding = false := by
  have hcount : (s.threads.map Client.weight).sum = s.threads.countP Client.outstanding :=
    Lib.Program.sum_map_eq_countP fun _ _ ↦ rfl
  have hzero := h.counted
  rw [(h.closed hclosed).1, hcount] at hzero
  have hnone : s.threads.countP Client.outstanding = 0 := by omega
  have hnot := List.countP_eq_zero.mp hnone client hmem
  simpa using hnot

/-- A client that has not been connected is in no call. -/
theorem callsReading_start (options : ProxyOptions) (arrival : Arrival) :
    CallsReading ((proxy options).start arrival) := by
  intro publisher call he hcall
  cases arrival with
  | publish clientMetadata =>
    cases he
    cases hcall
  | subscribe contextAddress clientMetadata => cases he

/-- A step of a client takes it into a call only with a message. -/
theorem ClientStep.callsReading {client client' : Client} {event : PartyEvent}
    (hstep : ClientStep options s i client event s' client')
    (h : CallsReading (client.party options)) : CallsReading (client'.party options) := by
  rcases hstep.party_step with ⟨-, hparty⟩ | ⟨-, hparty⟩
  · rw [hparty]
    exact h.partyStep options s.proxy i event
  · rw [hparty]
    exact h

/-- Every move keeps what the pool tells. -/
theorem PoolInv.step {s : Lib.Pool ServiceState Client} (h : PoolInv options s)
    (move : Lib.Move Arrival PartyEvent ServiceEvent) :
    PoolInv options ((service options).step s move) := by
  have hcounted : ((service options).step s move).shared.outstanding =
      (((service options).step s move).threads.map Client.weight).sum := by
    have hsum := (weighs_outstanding options).sum_step (s := s) ⟨trivial, fun _ _ _ ↦ trivial⟩ move
    have hbefore := h.counted
    omega
  cases move with
  | spawn arrival =>
    refine ⟨hcounted, ?_, h.closed⟩
    intro client hmem
    rcases List.mem_append.mp hmem with hold | hnew
    · exact h.calls client hold
    · rw [List.mem_singleton.mp hnew]
      exact callsReading_start options arrival
  | env event => exact ⟨hcounted, h.calls, h.closed.env options event⟩
  | run i event =>
    cases ht : s.threads[i]? with
    | none =>
      rw [Lib.Program.step_run_none ht]
      exact h
    | some client =>
      have hmem : client ∈ s.threads := List.mem_of_getElem? ht
      have hstep := client_step options s.shared i client event
      rw [Lib.Program.step_run ht] at hcounted ⊢
      refine ⟨hcounted, ?_, ?_⟩
      · intro other hother
        rcases List.mem_or_eq_of_mem_set hother with hold | hnew
        · exact h.calls other hold
        · rw [hnew]
          exact hstep.callsReading (h.calls client hmem)
      · exact h.closed.client_step (h.calls client hmem) (fun hclosed ↦ h.gone hclosed hmem) hstep

variable {state : ProxyState}

/-- The constructor leaves the counter at zero. -/
theorem poolInv_served (hnew : ProxyState.new options = .ok state)
    (moves : List (Lib.Move Arrival PartyEvent ServiceEvent)) :
    PoolInv options (served options state moves) := by
  apply Lib.run_invariant (PoolInv options) ?_ fun s move h ↦ h.step move
  refine ⟨rfl, fun client hmem ↦ absurd hmem (by simp), fun _ ↦ ⟨rfl, fun _ ↦ ?_⟩⟩
  show state.frontend.mNumberOfPublishers = 0
  rw [frontend_new hnew]

/-- What is true when `stop` has returned. -/
structure Drained (options : ProxyOptions) (s : Lib.Pool ServiceState Client) : Prop where
  counter : s.shared.proxy.frontend.mNumberOfPublishers = 0
  /-- The `OnDone` of every publisher has returned, and none is in a call of the proxy. -/
  gone : ∀ publisher, Client.connected (.publisher publisher) ∈ s.threads →
    publisher.rpc.stage = .deleted ∧ publisher.call = none
  /-- Each message that the reader has let through has met one fate, or is left in the queue. -/
  accounted : ∀ i, (ofPublisher i (s.shared.fates ++
      s.shared.proxy.importQueue.mImportExportQueue.toList)).Perm
    ((sentBy (partyAt options s i)).filterMap forwarded)

/-- The propagator is over. -/
theorem settled_threadStep (hs : Settled s.control) : threadStep s = s := by
  have hthread : s.mProxyThread = .notStarted ∨ s.mProxyThread = .exited := hs.1.2.2
  unfold threadStep
  rcases hthread with ht | ht <;> rw [ht]

/-- Once the proxy is settled, the environment only moves the calling thread. -/
theorem ServiceInv.settled_env (h : ServiceInv s) (hs : Settled s.control)
    (options : ProxyOptions) (event : ServiceEvent) :
    Settled ((service options).env s event).control ∧
      ((service options).env s event).upstream = s.upstream := by
  cases event with
  | propagator =>
    show Settled (threadStep s).control ∧ (threadStep s).upstream = s.upstream
    rw [settled_threadStep hs]
    exact ⟨hs, rfl⟩
  | start =>
    show Settled (callStart s).control ∧ (callStart s).upstream = s.upstream
    unfold callStart
    split
    · next hc =>
      have hcaller := hs.2.2
      simp only [ServiceState.control, hc] at hcaller
      simp at hcaller
    · exact ⟨hs, rfl⟩
  | stop => exact settled_callStop hs
  | caller => exact h.settled_caller_step hs
  | destructor step =>
    exact destructorStep_cases
      (motive := fun s' ↦ Settled s'.control ∧ s'.upstream = s.upstream) s step ⟨hs, rfl⟩
      (fun _ ↦ ⟨hs, rfl⟩) fun _ ↦ ⟨hs, rfl⟩

/-- A client whose RPC has ended, or that subscribes, changes nothing before the backend, and no
publisher gets connected to a closed frontend. -/
theorem ClientStep.settled {client client' : Client} {event : PartyEvent}
    (hserver : s.frontendServer ≠ .listening) (hcalls : CallsReading (client.party options))
    (hgone : client.outstanding = false) (hstep : ClientStep options s i client event s' client') :
    s'.upstream = s.upstream ∧ ∀ publisher, client' = .connected (.publisher publisher) ↔
      client = .connected (.publisher publisher) := by
  cases hstep with
  | waits arrival event hl => exact ⟨rfl, fun _ ↦ Iff.rfl⟩
  | connects arrival event hl =>
    cases arrival with
    | publish clientMetadata => exact absurd hl hserver
    | subscribe contextAddress clientMetadata =>
      refine ⟨?_, fun publisher ↦ ?_⟩
      · simp [ServiceState.upstream, proxy, Party.outstanding]
      · simp [proxy]
  | steps party party' event proxy hstep =>
    have hgone : party.outstanding = false := hgone
    have hcalls : CallsReading party := hcalls
    cases party with
    | publisher publisher =>
      have hs := Party.outstanding_publisher.mp hgone
      rw [partyStep_of_deleted hcalls hs] at hstep
      cases hstep
      have hrefusal : Party.refusal (.publisher publisher) (.publisher publisher) = [] :=
        Party.refusal_of_call_eq_none (Or.inl (hcalls.call_eq_none hs))
      refine ⟨?_, fun _ ↦ Iff.rfl⟩
      simp [ServiceState.upstream, hgone, hrefusal]
    | subscriber writer =>
      cases event with
      | publisher read =>
        cases hstep
        refine ⟨?_, fun _ ↦ Iff.rfl⟩
        simp [ServiceState.upstream, Party.outstanding, Party.refusal_subscriber]
      | subscriber event =>
        cases hstep
        refine ⟨?_, fun _ ↦ by simp⟩
        simp [ServiceState.upstream, Party.outstanding, Party.refusal_subscriber]

/-- A publisher of a closed frontend is gone, and its position has nothing in a call. -/
theorem PoolInv.publisher_gone {s : Lib.Pool ServiceState Client} (h : PoolInv options s)
    (hclosed : Closed s.shared) {publisher : Publisher}
    (hmem : Client.connected (.publisher publisher) ∈ s.threads) :
    publisher.rpc.stage = .deleted ∧ publisher.call = none := by
  have hs := Party.outstanding_publisher.mp (h.gone hclosed hmem)
  have hcalls : CallsReading (.publisher publisher) := h.calls _ hmem
  exact ⟨hs, hcalls.call_eq_none hs⟩

theorem PoolInv.inCall_eq_nil {s : Lib.Pool ServiceState Client} (h : PoolInv options s)
    (hclosed : Closed s.shared) (i : Nat) : inCall (partyAt options s i) = [] := by
  have hnone : callOf (partyAt options s i) = none := by
    unfold partyAt
    cases hi : s.threads[i]? with
    | none => rfl
    | some client =>
      have hmem : client ∈ s.threads := List.mem_of_getElem? hi
      cases client with
      | connecting arrival => cases arrival <;> rfl
      | connected party =>
        cases party with
        | publisher publisher => exact (h.publisher_gone hclosed hmem).2
        | subscriber writer => rfl
  rw [inCall, hnone]
  rfl

/-- A settled proxy is drained. -/
theorem drained_of_settled (hnew : ProxyState.new options = .ok state)
    (moves : List (Lib.Move Arrival PartyEvent ServiceEvent))
    (hs : Settled (served options state moves).shared.control) :
    Drained options (served options state moves) := by
  have hpool := poolInv_served hnew moves
  have hinv := serviceInv_served hnew moves
  have hclosed := hs.closed
  constructor
  · apply (hpool.closed hclosed).2
    intro hc
    have hcaller := hs.2.2
    simp only [ServiceState.control, hc] at hcaller
    simp at hcaller
  · exact fun publisher hmem ↦ hpool.publisher_gone hclosed hmem
  · intro i
    have htry : (served options state moves).shared.proxy.propagator = .tryPop :=
      hinv.control.over_emptyHanded hs.1
    have hperm := (accounted_served hnew moves i).each
    rw [hpool.inCall_eq_nil hclosed, ServiceState.held, ServiceState.onTheWay, htry,
      List.append_nil] at hperm
    exact hperm

/-- When `stop` has returned, in any run, every publisher is gone, the counter is zero, and each
message that the reader has let through was refused, evicted, dropped or handed to every
subscriber, or is left in the import queue. -/
theorem stopped_drained (hnew : ProxyState.new options = .ok state)
    (moves : List (Lib.Move Arrival PartyEvent ServiceEvent))
    (hc : (served options state moves).shared.caller = .stopped) :
    Drained options (served options state moves) :=
  drained_of_settled hnew moves ((serviceInv_served hnew moves).settled hc)

/-- From a settled state on, what lies before the backend stays as it was. -/
structure Frozen (options : ProxyOptions) (upstream : Upstream)
    (publisherAt : Nat → Publisher → Prop) (s : Lib.Pool ServiceState Client) : Prop where
  inv : ServiceInv s.shared
  pool : PoolInv options s
  settled : Settled s.shared.control
  same : s.shared.upstream = upstream
  publishers : ∀ i publisher,
    s.threads[i]? = some (.connected (.publisher publisher)) ↔ publisherAt i publisher

theorem Frozen.step {upstream : Upstream} {publisherAt : Nat → Publisher → Prop}
    {s : Lib.Pool ServiceState Client} (h : Frozen options upstream publisherAt s)
    (move : Lib.Move Arrival PartyEvent ServiceEvent) :
    Frozen options upstream publisherAt ((service options).step s move) := by
  cases move with
  | spawn arrival =>
    refine ⟨h.inv, h.pool.step _, h.settled, h.same, fun i publisher ↦ ?_⟩
    rw [← h.publishers i publisher]
    show (s.threads ++ [Client.connecting arrival])[i]? = _ ↔ _
    rw [List.getElem?_append]
    split
    · exact Iff.rfl
    · next hge =>
      rw [List.getElem?_eq_none (l := s.threads) (by omega), List.getElem?_singleton]
      split <;> simp
  | env event =>
    obtain ⟨hsettled, hsame⟩ := h.inv.settled_env h.settled options event
    have hinv : ServiceInv ((service options).env s.shared event) := h.inv.env event
    exact ⟨hinv, h.pool.step _, hsettled, hsame.trans h.same, h.publishers⟩
  | run i event =>
    cases ht : s.threads[i]? with
    | none =>
      rw [Lib.Program.step_run_none ht]
      exact h
    | some client =>
      have hmem : client ∈ s.threads := List.mem_of_getElem? ht
      have hclosed := h.settled.closed
      have hserver : s.shared.frontendServer ≠ .listening := h.settled.1.1.2
      have hstep := client_step options s.shared i client event
      have hpool := h.pool.step (.run i event)
      obtain ⟨hinv, hcontrol⟩ := h.inv.client hstep
      obtain ⟨hsame, hkeeps⟩ :=
        hstep.settled hserver (h.pool.calls client hmem) (h.pool.gone hclosed hmem)
      rw [Lib.Program.step_run ht] at hpool ⊢
      refine ⟨hinv, hpool, ?_, hsame.trans h.same, fun j publisher ↦ ?_⟩
      · show Settled (clientStep options s.shared i client event).1.control
        rw [hcontrol]
        exact h.settled
      · rw [← h.publishers j publisher]
        show (s.threads.set i (clientStep options s.shared i client event).2)[j]? = _ ↔ _
        by_cases hij : i = j
        · subst hij
          rw [List.getElem?_set_self (List.getElem?_eq_some_iff.mp ht).1, ht, Option.some.injEq,
            Option.some.injEq]
          exact hkeeps publisher
        · rw [List.getElem?_set_ne hij]

theorem Frozen.after {upstream : Upstream} {publisherAt : Nat → Publisher → Prop}
    {s : Lib.Pool ServiceState Client} (h : Frozen options upstream publisherAt s)
    (moves : List (Lib.Move Arrival PartyEvent ServiceEvent)) :
    Frozen options upstream publisherAt ((service options).after s moves) :=
  Lib.run_invariant (Frozen options upstream publisherAt) h fun _ move h ↦ h.step move

/-- When `stop` has returned, no later move, nor a further `stop`, changes anything before the
backend: not the import queue, the detector or the counter, not what became of the packets, and
no publisher gets connected or takes another step. -/
theorem stopped_final (hnew : ProxyState.new options = .ok state)
    (moves moves' : List (Lib.Move Arrival PartyEvent ServiceEvent))
    (hc : (served options state moves).shared.caller = .stopped) :
    (served options state (moves ++ moves')).shared.upstream =
        (served options state moves).shared.upstream ∧
      ∀ (i : Nat) (publisher : Publisher),
        (served options state (moves ++ moves')).threads[i]? =
            some (Client.connected (.publisher publisher)) ↔
          (served options state moves).threads[i]? =
            some (Client.connected (.publisher publisher)) := by
  have hinv := serviceInv_served hnew moves
  have hinit : Frozen options (served options state moves).shared.upstream
      (fun i publisher ↦ (served options state moves).threads[i]? =
        some (Client.connected (.publisher publisher))) (served options state moves) :=
    ⟨hinv, poolInv_served hnew moves, hinv.settled hc, rfl, fun _ _ ↦ Iff.rfl⟩
  have hafter : served options state (moves ++ moves') =
      (service options).after (served options state moves) moves' :=
    Lib.Program.after_append moves moves'
  have hfrozen := hinit.after moves'
  rw [hafter]
  exact ⟨hfrozen.same, hfrozen.publishers⟩

end Runs

section Example

attribute [local instance] x86Platform

theorem stopped_drained_started :
    Drained tenHeaders
      (served tenHeaders tenHeadersProxy (handsOn ++ stopsFrontend ++ stopsRest)) :=
  stopped_drained rfl (handsOn ++ stopsFrontend ++ stopsRest) (by decide +kernel)

theorem stopped_final_started :
    (served tenHeaders tenHeadersProxy (handsOn ++ stopsFrontend ++ stopsRest ++ handsOn)
        ).shared.upstream =
      (served tenHeaders tenHeadersProxy (handsOn ++ stopsFrontend ++ stopsRest)
        ).shared.upstream ∧
    ∀ (i : Nat) (publisher : Publisher),
      (served tenHeaders tenHeadersProxy (handsOn ++ stopsFrontend ++ stopsRest ++ handsOn)
          ).threads[i]? = some (Client.connected (.publisher publisher)) ↔
        (served tenHeaders tenHeadersProxy (handsOn ++ stopsFrontend ++ stopsRest)
          ).threads[i]? = some (Client.connected (.publisher publisher)) :=
  stopped_final rfl (handsOn ++ stopsFrontend ++ stopsRest) handsOn (by decide +kernel)

end Example
end ImportProxy.Proxy
