import ImportProxy.Backend.Stop
import ImportProxy.Proxy.Service

/-!
# The control of the service

`stop` ends the frontend, then the propagator, then the backend. The flags, the servers and
the stages of the two threads make up the control of the service. One invariant of it says
what the calling thread knows at each of its steps, and with it what is over when a flag
of the backend is cleared.
-/

namespace ImportProxy.Proxy

open ImportProxy.Base
open ImportProxy.Backend (StopInv StopStage stopStep writer_step)
open ImportProxy.Frontend (publish_step)

/-- The flags, the servers, and the stages of the calling thread and of the propagator. -/
structure Control where
  caller : CallerStage
  mKeepRunning : Bool
  mProxyThread : ThreadStage
  propagator : PropagatorStage
  frontendServer : ServerStage
  frontendRunning : Bool
  stopStage : StopStage
  deriving DecidableEq

/-- The control of a service. -/
def ServiceState.control (s : ServiceState) : Control where
  caller := s.caller
  mKeepRunning := s.mKeepRunning
  mProxyThread := s.mProxyThread
  propagator := s.proxy.propagator
  frontendServer := s.frontendServer
  frontendRunning := s.proxy.frontend.mKeepRunning
  stopStage := s.proxy.backend.stopStage

/-- The frontend has been told to stop, and its server takes no more RPCs. -/
def FrontendStopped (c : Control) : Prop :=
  c.frontendRunning = false ∧ c.frontendServer ≠ .listening

/-- Behind a stopped frontend the propagator has left its loop, or has never entered it. -/
def PropagatorOver (c : Control) : Prop :=
  FrontendStopped c ∧ c.mKeepRunning = false ∧
    (c.mProxyThread = .notStarted ∨ c.mProxyThread = .exited)

/-- What the calling thread knows at each of its steps. -/
def Knows (c : Control) : Prop :=
  match c.caller with
  | .constructed | .storeRunning | .startThread =>
    c.frontendRunning = true ∧ c.mProxyThread = .notStarted
  | .storeManager | .storeBackend | .buildBackend | .storeFrontend | .storeCounter
  | .buildFrontend | .running | .clearFrontend => c.frontendRunning = true
  | .loadFrontend => c.frontendRunning = true ∨ (PropagatorOver c ∧ c.stopStage = .cleared)
  | .shutdown => c.frontendRunning = false
  | .awaitPublishers | .clearCounter | .clearRunning => FrontendStopped c
  | .join => FrontendStopped c ∧ c.mKeepRunning = false
  | .loadBackend | .stopBackend => PropagatorOver c
  | .stopped => PropagatorOver c ∧ c.stopStage = .cleared

/-- What holds of the control throughout. -/
structure ControlInv (c : Control) : Prop where
  knows : Knows c
  /-- The propagator is told to stop behind a stopped frontend. -/
  cleared : c.mKeepRunning = false → FrontendStopped c
  exited : c.mProxyThread = .exited → c.mKeepRunning = false
  /-- Outside the body of its loop the propagator holds no packet. -/
  emptyHanded : c.mProxyThread ≠ .working → c.propagator = .tryPop
  /-- The backend is told to stop behind a propagator that is over. -/
  told : c.stopStage ≠ .notCalled → PropagatorOver c
  /-- No step of `Backend::stop` is left undone outside its call. -/
  whole : c.caller ≠ .stopBackend → c.stopStage = .notCalled ∨ c.stopStage = .cleared

/-- What holds of a service throughout. -/
structure ServiceInv (s : ServiceState) : Prop where
  control : ControlInv s.control
  flags : StopInv s.proxy.backend

variable {c : Control} {s s' : ServiceState}

/-- A step of the calling thread that touches nothing else. -/
theorem ControlInv.goTo (h : ControlInv c) {caller : CallerStage}
    (hknows : Knows { c with caller })
    (hwhole : caller ≠ .stopBackend → c.stopStage = .notCalled ∨ c.stopStage = .cleared) :
    ControlInv { c with caller } :=
  ⟨hknows, h.cleared, h.exited, h.emptyHanded, h.told, hwhole⟩

/-- While the frontend is running, nothing has been told to stop. -/
theorem ControlInv.running (h : ControlInv c) (hrun : c.frontendRunning = true) :
    c.mKeepRunning = true ∧ c.stopStage = .notCalled := by
  constructor
  · by_contra hclear
    have hstopped := (h.cleared (by simpa using hclear)).1
    rw [hrun] at hstopped
    cases hstopped
  · by_contra hcalled
    have hstopped := (h.told hcalled).1.1
    rw [hrun] at hstopped
    cases hstopped

/-- The flags of the backend while nothing has been told to stop. -/
theorem ServiceInv.backend_running (h : ServiceInv s)
    (hrun : s.proxy.frontend.mKeepRunning = true) :
    s.proxy.backend.mKeepRunning = true ∧
      s.proxy.backend.mSubscriptionManager.mKeepRunning = true ∧
      s.proxy.backend.stopStage = .notCalled := by
  have hstage : s.proxy.backend.stopStage = .notCalled := (h.control.running hrun).2
  refine ⟨?_, ?_, hstage⟩
  · rw [h.flags.running, hstage]
    rfl
  · rw [h.flags.managerRunning, hstage]
    rfl

/-- A step of the calling thread that leaves the rest of the control. -/
theorem ServiceInv.goTo (h : ServiceInv s) {caller : CallerStage}
    (hcontrol : s'.control = { s.control with caller }) (hflags : StopInv s'.proxy.backend)
    (hknows : Knows { s.control with caller })
    (hwhole : caller ≠ .stopBackend →
      s.proxy.backend.stopStage = .notCalled ∨ s.proxy.backend.stopStage = .cleared) :
    ServiceInv s' where
  control := hcontrol ▸ h.control.goTo hknows hwhole
  flags := hflags

/-- The stores of `start` find the flags set. -/
theorem ServiceInv.callerStep_start (h : ServiceInv s) (hrun : s.proxy.frontend.mKeepRunning = true)
    (hc : s.caller = .storeRunning ∨ s.caller = .storeManager ∨ s.caller = .storeBackend ∨
      s.caller = .storeFrontend) :
    callerStep s = { s with caller := (callerStep s).caller } := by
  obtain ⟨hbackend, hmanager, hstage⟩ := h.backend_running hrun
  have hkeep : s.mKeepRunning = true := (h.control.running hrun).1
  unfold callerStep
  rcases hc with hc | hc | hc | hc
  · simp only [hc]
    rw [← hkeep]
  · simp only [hc]
    rw [← hmanager]
  · simp only [hc]
    rw [← hbackend, ← hstage]
  · simp only [hc]
    rw [← hrun]

/-- The steps of `start` keep the invariant. -/
theorem ServiceInv.starting (h : ServiceInv s) (hrun : s.proxy.frontend.mKeepRunning = true)
    (hc : s.caller = .storeRunning ∨ s.caller = .startThread ∨ s.caller = .storeManager ∨
      s.caller = .storeBackend ∨ s.caller = .buildBackend ∨ s.caller = .storeFrontend ∨
      s.caller = .storeCounter ∨ s.caller = .buildFrontend) :
    ServiceInv (callerStep s) := by
  have hk := h.control.knows
  obtain ⟨hkeep, hstage⟩ := h.control.running hrun
  rcases hc with hc | hc | hc | hc | hc | hc | hc | hc
  · rw [h.callerStep_start hrun (Or.inl hc)]
    simp only [Knows, ServiceState.control, hc] at hk
    simp only [callerStep, hc]
    exact h.goTo rfl h.flags hk fun _ ↦ Or.inl hstage
  · simp only [Knows, ServiceState.control, hc] at hk
    simp only [callerStep, hc]
    refine ⟨?_, h.flags⟩
    constructor
    · exact hrun
    · exact h.control.cleared
    · rintro ⟨⟩
    · intro _
      apply h.control.emptyHanded
      simp [ServiceState.control, hk.2]
    · exact fun hcalled ↦ absurd hstage hcalled
    · exact fun _ ↦ Or.inl hstage
  · rw [h.callerStep_start hrun (Or.inr (Or.inl hc))]
    simp only [callerStep, hc]
    exact h.goTo rfl h.flags hrun fun _ ↦ Or.inl hstage
  · rw [h.callerStep_start hrun (Or.inr (Or.inr (Or.inl hc)))]
    simp only [callerStep, hc]
    exact h.goTo rfl h.flags hrun fun _ ↦ Or.inl hstage
  · simp only [callerStep, hc]
    exact h.goTo rfl h.flags hrun fun _ ↦ Or.inl hstage
  · rw [h.callerStep_start hrun (Or.inr (Or.inr (Or.inr hc)))]
    simp only [callerStep, hc]
    exact h.goTo rfl h.flags hrun fun _ ↦ Or.inl hstage
  · simp only [callerStep, hc]
    exact h.goTo rfl h.flags hrun fun _ ↦ Or.inl hstage
  · simp only [callerStep, hc]
    refine ⟨?_, h.flags⟩
    constructor
    · exact hrun
    · intro hclear
      have hclear : s.mKeepRunning = false := hclear
      exact absurd (hclear.symm.trans hkeep) (by decide)
    · exact h.control.exited
    · exact h.control.emptyHanded
    · exact fun hcalled ↦ absurd hstage hcalled
    · exact fun _ ↦ Or.inl hstage

/-- A step of `start` or `stop` keeps the invariant. -/
theorem ServiceInv.caller_step (h : ServiceInv s) : ServiceInv (callerStep s) := by
  have hk := h.control.knows
  have hwhole (hne : s.caller ≠ .stopBackend) : s.proxy.backend.stopStage = .notCalled ∨
      s.proxy.backend.stopStage = .cleared := h.control.whole hne
  cases hc : s.caller with
  | constructed | running | stopped =>
    simp only [callerStep, hc]
    exact h
  | storeRunning | startThread =>
    simp only [Knows, ServiceState.control, hc] at hk
    exact h.starting hk.1 (by simp [hc])
  | storeManager | storeBackend | buildBackend | storeFrontend | storeCounter | buildFrontend =>
    simp only [Knows, ServiceState.control, hc] at hk
    exact h.starting hk (by simp [hc])
  | loadFrontend =>
    simp only [Knows, ServiceState.control, hc] at hk
    simp only [callerStep, hc]
    split
    · next hrun => exact h.goTo rfl h.flags hrun fun _ ↦ Or.inl (h.control.running hrun).2
    · next hrun =>
      have hover := hk.resolve_left hrun
      exact h.goTo rfl h.flags hover.1.1 fun _ ↦ Or.inr hover.2
  | clearFrontend =>
    simp only [Knows, ServiceState.control, hc] at hk
    obtain ⟨hkeep, hstage⟩ := h.control.running hk
    simp only [callerStep, hc]
    refine ⟨?_, h.flags⟩
    constructor
    · rfl
    · intro hclear
      have hclear : s.mKeepRunning = false := hclear
      exact absurd (hclear.symm.trans hkeep) (by decide)
    · exact h.control.exited
    · exact h.control.emptyHanded
    · exact fun hcalled ↦ absurd hstage hcalled
    · exact fun _ ↦ Or.inl hstage
  | shutdown =>
    simp only [Knows, ServiceState.control, hc] at hk
    simp only [callerStep, hc]
    split
    · next hserver =>
      refine h.goTo rfl h.flags ⟨hk, ?_⟩ ?_
      · simp [ServiceState.control, hserver]
      · exact fun _ ↦ hwhole (by simp [hc])
    · refine ⟨?_, h.flags⟩
      have hstopped : FrontendStopped { s.control with
          frontendServer := .shutDown, caller := .awaitPublishers } := ⟨hk, by simp⟩
      constructor
      · exact hstopped
      · exact fun _ ↦ hstopped
      · exact h.control.exited
      · exact h.control.emptyHanded
      · exact fun hcalled ↦ ⟨hstopped, (h.control.told hcalled).2⟩
      · exact fun _ ↦ hwhole (by simp [hc])
  | awaitPublishers =>
    simp only [Knows, ServiceState.control, hc] at hk
    simp only [callerStep, hc]
    split
    · exact h.goTo rfl h.flags hk fun _ ↦ hwhole (by simp [hc])
    · exact h
  | clearCounter =>
    simp only [Knows, ServiceState.control, hc] at hk
    simp only [callerStep, hc]
    exact h.goTo rfl h.flags hk fun _ ↦ hwhole (by simp [hc])
  | clearRunning =>
    simp only [Knows, ServiceState.control, hc] at hk
    simp only [callerStep, hc]
    refine ⟨?_, h.flags⟩
    constructor
    · exact ⟨hk, rfl⟩
    · exact fun _ ↦ hk
    · exact fun _ ↦ rfl
    · exact h.control.emptyHanded
    · exact fun hcalled ↦ ⟨hk, rfl, (h.control.told hcalled).2.2⟩
    · exact fun _ ↦ hwhole (by simp [hc])
  | join =>
    simp only [Knows, ServiceState.control, hc] at hk
    simp only [callerStep, hc]
    split
    · next hthread =>
      exact h.goTo rfl h.flags ⟨hk.1, hk.2, hthread⟩ fun _ ↦ hwhole (by simp [hc])
    · exact h
  | loadBackend =>
    simp only [Knows, ServiceState.control, hc] at hk
    simp only [callerStep, hc]
    split
    · exact h.goTo rfl h.flags hk fun hne ↦ absurd rfl hne
    · next hstopped =>
      have hstage : s.proxy.backend.stopStage = .cleared := by
        apply (hwhole (by simp [hc])).resolve_left
        intro hstage
        apply hstopped
        rw [h.flags.running, hstage]
        rfl
      exact h.goTo rfl h.flags ⟨hk, hstage⟩ fun _ ↦ Or.inr hstage
  | stopBackend =>
    simp only [Knows, ServiceState.control, hc] at hk
    simp only [callerStep, hc]
    refine ⟨?_, h.flags.backendEvent .stop⟩
    constructor
    · show Knows _
      unfold ServiceState.control Knows
      dsimp only
      split_ifs with hcleared
      · exact ⟨hk, hcleared⟩
      · exact hk
    · exact h.control.cleared
    · exact h.control.exited
    · exact h.control.emptyHanded
    · exact fun _ ↦ hk
    · intro hne
      unfold ServiceState.control at hne
      dsimp only at hne
      split_ifs at hne with hcleared
      · exact Or.inr hcleared
      · exact absurd rfl hne

/-- A step of a publisher touches only the import queue and the counter of the frontend. -/
theorem PublisherStep.control_eq {options : ProxyOptions} {s s' : ProxyState} {i : Nat}
    {publisher publisher' : Publisher} {read : ReadDone}
    (hstep : PublisherStep options s i publisher read s' publisher') :
    s'.propagator = s.propagator ∧ s'.frontend.mKeepRunning = s.frontend.mKeepRunning ∧
      s'.backend = s.backend := by
  cases hstep with
  | adds | calls => exact ⟨rfl, rfl, rfl⟩
  | resumes _ call pushed frontend rpc hc hs hrpc => exact ⟨rfl, hrpc.mKeepRunning_eq, rfl⟩
  | rejects message frontend rpc hc hs hf hrpc => exact ⟨rfl, hrpc.mKeepRunning_eq, rfl⟩
  | ends frontend rpc hc hs hrpc => exact ⟨rfl, hrpc.mKeepRunning_eq, rfl⟩
  | proceeds _ frontend rpc hc hs hrpc => exact ⟨rfl, hrpc.mKeepRunning_eq, rfl⟩

/-- A step of a party touches no flag. -/
theorem partyStep_control (options : ProxyOptions) (s : ProxyState) (i : Nat) (party : Party)
    (event : PartyEvent) :
    (partyStep options s i party event).1.propagator = s.propagator ∧
      (partyStep options s i party event).1.frontend.mKeepRunning = s.frontend.mKeepRunning ∧
      (partyStep options s i party event).1.backend.stopStage = s.backend.stopStage ∧
      (StopInv s.backend → StopInv (partyStep options s i party event).1.backend) := by
  cases party with
  | publisher publisher =>
    cases event with
    | publisher read =>
      obtain ⟨hpropagator, hrun, hbackend⟩ :=
        (publisher_step options s i publisher read).control_eq
      refine ⟨hpropagator, hrun, congrArg _ hbackend, ?_⟩
      exact fun hflags ↦ hbackend ▸ hflags
    | subscriber event => exact ⟨rfl, rfl, rfl, id⟩
  | subscriber writer =>
    cases event with
    | publisher read => exact ⟨rfl, rfl, rfl, id⟩
    | subscriber event =>
      have hstep := writer_step options.getBackendOptions s.backend writer event
      exact ⟨rfl, rfl, hstep.flags_eq.2.1, fun hflags ↦ hflags.step hstep⟩

/-- The calls of `start` and `stop` keep the invariant. -/
theorem ServiceInv.call_start (h : ServiceInv s) : ServiceInv (callStart s) := by
  unfold callStart
  split
  · next hc =>
    have hk := h.control.knows
    simp only [Knows, ServiceState.control, hc] at hk
    exact h.goTo rfl h.flags hk fun _ ↦ Or.inl (h.control.running hk.1).2
  · exact h

theorem ServiceInv.call_stop (h : ServiceInv s) : ServiceInv (callStop s) := by
  unfold callStop
  split
  · next hc =>
    have hk := h.control.knows
    have hknows : s.proxy.frontend.mKeepRunning = true ∨
        (PropagatorOver s.control ∧ s.proxy.backend.stopStage = .cleared) := by
      rcases hc with hc | hc | hc
      · simp only [Knows, ServiceState.control, hc] at hk
        exact Or.inl hk.1
      · simp only [Knows, ServiceState.control, hc] at hk
        exact Or.inl hk
      · simp only [Knows, ServiceState.control, hc] at hk
        exact Or.inr hk
    refine h.goTo rfl h.flags hknows fun _ ↦ h.control.whole ?_
    rcases hc with hc | hc | hc <;> simp [ServiceState.control, hc]
  · exact h

/-- While the propagator is in its loop, what the calling thread knows does not depend on where. -/
theorem Knows.inLoop (h : Knows c) (hover : ¬ PropagatorOver c)
    (hthread : c.mProxyThread ≠ .notStarted) (thread : ThreadStage)
    (propagator : PropagatorStage) :
    Knows { c with mProxyThread := thread, propagator } := by
  unfold Knows at h ⊢
  dsimp only
  cases hc : c.caller with
  | constructed | storeRunning | startThread =>
    rw [hc] at h
    exact absurd h.2 hthread
  | storeManager | storeBackend | buildBackend | storeFrontend | storeCounter | buildFrontend
  | running | clearFrontend | shutdown | awaitPublishers | clearCounter | clearRunning | join =>
    rw [hc] at h
    exact h
  | loadFrontend =>
    rw [hc] at h
    exact Or.inl (h.resolve_right fun hright ↦ hover hright.1)
  | loadBackend | stopBackend =>
    rw [hc] at h
    exact absurd h hover
  | stopped =>
    rw [hc] at h
    exact absurd h.1 hover

/-- The destructor leaves the control. -/
theorem destructorStep_control (s : ServiceState) (step : DestructorStep) :
    (destructorStep s step).control = s.control :=
  destructorStep_cases s step rfl (fun _ ↦ rfl) fun _ ↦ rfl

/-- A step of the destructor keeps the invariant. -/
theorem ServiceInv.destructor_step (h : ServiceInv s) (step : DestructorStep) :
    ServiceInv (destructorStep s step) :=
  destructorStep_cases s step h (fun _ ↦ ⟨h.control, h.flags.running, h.flags.managerRunning⟩)
    fun _ ↦ ⟨h.control, h.flags⟩

/-- A step of the propagator in its loop, which it leaves only when it is told to. -/
theorem ControlInv.inLoop (h : ControlInv c)
    (hthread : c.mProxyThread = .loadRunning ∨ c.mProxyThread = .working) (thread : ThreadStage)
    (propagator : PropagatorStage) (hexited : thread = .exited → c.mKeepRunning = false)
    (hempty : thread ≠ .working → propagator = .tryPop) :
    ControlInv { c with mProxyThread := thread, propagator } := by
  have hover : ¬ PropagatorOver c := by
    rintro ⟨-, -, hover⟩
    rcases hthread with ht | ht <;> simp [ht] at hover
  have hstarted : c.mProxyThread ≠ .notStarted := by
    rcases hthread with ht | ht <;> simp [ht]
  constructor
  · exact h.knows.inLoop hover hstarted thread propagator
  · exact h.cleared
  · exact hexited
  · exact hempty
  · exact fun hcalled ↦ absurd (h.told hcalled) hover
  · exact h.whole

/-- The constructor leaves the flags as they are declared. -/
theorem serviceInv_new {options : ProxyOptions} {state : ProxyState}
    (hnew : ProxyState.new options = .ok state) : ServiceInv { proxy := state } := by
  have hends : state.frontend = {} ∧ state.propagator = .tryPop ∧
      state.backend = (Backend.started options.getBackendOptions).shared := by
    unfold ProxyState.new at hnew
    dsimp only at hnew
    split at hnew
    · cases hnew
      exact ⟨rfl, rfl, rfl⟩
    · split at hnew
      · cases hnew
      · cases hnew
        exact ⟨rfl, rfl, rfl⟩
  obtain ⟨hfrontend, hpropagator, hbackend⟩ := hends
  constructor
  · simp only [ServiceState.control, hfrontend, hpropagator, hbackend]
    constructor
    · exact ⟨rfl, rfl⟩
    · simp
    · simp
    · simp
    · simp [Backend.started]
    · simp [Backend.started]
  · simp only [hbackend]
    exact ⟨rfl, rfl⟩

section Runs

variable [Platform] {options : ProxyOptions}

/-- A step of a client keeps the invariant. -/
theorem ServiceInv.client {i : Nat} {client client' : Client} {event : PartyEvent}
    (h : ServiceInv s) (hstep : ClientStep options s i client event s' client') :
    ServiceInv s' ∧ s'.control = s.control := by
  cases hstep with
  | waits arrival event hl => exact ⟨h, rfl⟩
  | connects arrival event hl => exact ⟨⟨h.control, h.flags⟩, rfl⟩
  | steps party party' event proxy hstep =>
    obtain ⟨hpropagator, hrun, hstage, hflags⟩ :=
      partyStep_control options s.proxy i party event
    rw [hstep] at hpropagator hrun hstage hflags
    have hcontrol : ServiceState.control { s with
        proxy
        outstanding :=
          s.outstanding - (if party.outstanding then 1 else 0) +
            if party'.outstanding then 1 else 0
        metrics := s.metrics.observe party party' event
        refused := s.refused ++ party.refusal party' } = s.control := by
      dsimp only at hpropagator hrun hstage
      simp only [ServiceState.control, hpropagator, hrun, hstage]
    exact ⟨⟨hcontrol ▸ h.control, hflags h.flags⟩, hcontrol⟩

/-- The propagator touches neither end but by its broadcasts. -/
theorem PropagatorStep.ends_eq {s s' : ProxyState} (hstep : PropagatorStep s s') :
    s'.frontend = s.frontend ∧ s'.backend.stopStage = s.backend.stopStage ∧
      (StopInv s.backend → StopInv s'.backend) := by
  cases hstep with
  | broadcasts packet hs =>
    exact ⟨rfl, rfl, fun hflags ↦ hflags.backendEvent (.enqueuePacket packet)⟩
  | sleeps | pops | unchecked | allowed | dropped | enqueues | enqueuesStopped =>
    exact ⟨rfl, rfl, id⟩

/-- A step of the propagator's thread keeps the invariant. -/
theorem ServiceInv.thread_step (h : ServiceInv s) : ServiceInv (threadStep s) := by
  unfold threadStep
  cases ht : s.mProxyThread with
  | notStarted | exited => exact h
  | loadRunning =>
    refine ⟨h.control.inLoop (Or.inl ht) _ _ ?_ ?_, h.flags⟩
    · intro he
      show s.mKeepRunning = false
      by_contra hrun
      rw [if_pos (by simpa using hrun)] at he
      cases he
    · exact fun _ ↦ h.control.emptyHanded (by simp [ServiceState.control, ht])
  | working =>
    obtain ⟨hfrontend, hstage, hflags⟩ := (propagator_step s.proxy).ends_eq
    have hcontrol := h.control.inLoop (Or.inr ht)
      (if (propagatorStep s.proxy).propagator = .tryPop then .loadRunning else .working)
      (propagatorStep s.proxy).propagator
      (by split_ifs <;> simp) (by split_ifs with htry <;> simp [htry])
    refine ⟨?_, hflags h.flags⟩
    simp only [ServiceState.control, hfrontend, hstage] at hcontrol ⊢
    exact hcontrol

/-- Every step of the environment keeps the invariant. -/
theorem ServiceInv.env (h : ServiceInv s) (event : ServiceEvent) :
    ServiceInv ((service options).env s event) := by
  cases event with
  | propagator => exact h.thread_step
  | start => exact h.call_start
  | stop => exact h.call_stop
  | caller => exact h.caller_step
  | destructor step => exact h.destructor_step step

/-- The invariant is stable, whatever the clients do. -/
theorem stable_serviceInv (options : ProxyOptions) :
    (service options).Stable ServiceInv fun _ _ _ ↦ True where
  start _ _ _ _ := trivial
  act s i client event h _ := ⟨(h.client (client_step options s i client event)).1, trivial⟩
  other _ _ _ _ _ _ _ _ _ _ := trivial
  env _ event h := h.env event
  envThread _ _ _ _ _ _ := trivial

/-- The invariant holds throughout. -/
theorem serviceInv_served {state : ProxyState} (hnew : ProxyState.new options = .ok state)
    (moves : List (Lib.Move Arrival PartyEvent ServiceEvent)) :
    ServiceInv (served options state moves).shared := by
  have hinit : Lib.Program.Holds ServiceInv (fun _ _ _ ↦ True)
      (⟨{ proxy := state }, []⟩ : Lib.Pool ServiceState Client) :=
    ⟨serviceInv_new hnew, fun _ _ _ ↦ trivial⟩
  exact ((stable_serviceInv options).after hinit moves).1

end Runs

end ImportProxy.Proxy
