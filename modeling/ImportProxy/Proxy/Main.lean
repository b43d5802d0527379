import ImportProxy.Proxy.Configuration
import ImportProxy.Proxy.Termination

/-!
# The program

`main` and its `ServerImpl`: `src/main.cpp:44–372`. The program reads its options, constructs
the proxy and starts it, and its main thread waits in a loop for a signal; then it stops the
proxy, and the destructors stop it once more and wait for the subscribers. The main thread is the
one that calls `start` and `stop`. A handler of a signal only stores a flag; a signal before the
handlers are installed ends the process, and with it the run. No future is ever put into
`mFutures`.
-/

namespace ImportProxy.Proxy

open ImportProxy.Base

/-- `getNumberOfPublishers`; `src/frontend.cpp:567–570`, `src/proxy.cpp:271–287`. -/
def ServiceState.getNumberOfPublishers (s : ServiceState) : Int :=
  max 0 s.proxy.frontend.mNumberOfPublishers

/-- `getNumberOfSubscribers`; `src/backend.cpp:737–740`, `src/proxy.cpp:290–306`. -/
def ServiceState.getNumberOfSubscribers (s : ServiceState) : Int :=
  max 0 s.proxy.backend.mSubscriptionManager.getNumberOfSubscribers

/-- The next step of the main thread, from the call of `ServerImpl::start` on. -/
inductive MainStage where
  /-- Calls `start` of the proxy. -/
  | start
  /-- Is in that call. -/
  | starting
  /-- Installs the handlers of the signals. -/
  | catchSignals
  /-- Enters the body of the loop, or leaves the loop. -/
  | loadStopRequested
  /-- Loads `mInterrupted`. -/
  | loadInterrupted
  /-- `printSummary` asks whether a summary is due. -/
  | readClock
  /-- `printSummary` asks for the number of publishers. -/
  | countPublishers
  /-- `printSummary` asks for the number of subscribers. -/
  | countSubscribers (nPublishers : Int)
  /-- `printSummary` loads the counter of the packets received. -/
  | loadReceived (nPublishers nSubscribers : Int)
  /-- `printSummary` loads the counter of the packets sent. -/
  | loadSent (nPublishers nSubscribers : Int) (nReceived : Int64)
  /-- Waits for 100 ms. -/
  | wait
  /-- Has left the loop, and calls `stop` of the proxy. -/
  | stop
  /-- Is in that call. -/
  | stopping
  /-- `ServerImpl::start` has returned; `~ProxyImpl` calls `stop`. -/
  | returned
  /-- Is in that call. -/
  | destroying
  /-- `~BackendImpl` clears the map of subscribers. -/
  | unsubscribeAll
  /-- `~BackendImpl` calls `Shutdown` of its server. -/
  | shutdown
  /-- `Shutdown` waits for the RPCs. -/
  | awaitSubscribers
  /-- `main` returns `EXIT_SUCCESS`. -/
  | exited
  deriving DecidableEq

/-- What `printSummary` logs: the time, the publishers and the subscribers, and with the metrics
the packets received and sent since the last summary. -/
structure Summary where
  now : Int
  nPublishers : Int
  nSubscribers : Int
  packets : Option (Int64 × Int64)
  deriving DecidableEq

/-- `ServerImpl` with `mInterrupted` and what it has logged; its own `mOptions` are not those that
it is constructed with. Times are in microseconds. `src/main.cpp:274–288`. -/
structure ServerImpl where
  mOptions : ProgramOptions := {}
  mProxy : ServiceState
  /-- The `Subscribe` RPCs that the server has handed over and whose `OnDone` has not returned. -/
  subscribing : Int := 0
  mLastPrintSummary : Int
  mReportNumberOfPacketsReceived : Int64 := 0
  mReportNumberOfPacketsSent : Int64 := 0
  mStopRequested : Bool := false
  mInterrupted : Bool := false
  /-- The handlers of the signals are installed. -/
  handled : Bool := false
  stage : MainStage := .start
  summaries : List Summary := []

namespace ServerImpl

/-- The summary is logged, and the loop goes on. -/
def print (s : ServerImpl) (nPublishers nSubscribers : Int) (packets : Option (Int64 × Int64)) :
    ServerImpl :=
  { s with
    summaries := s.summaries ++ [⟨s.mLastPrintSummary, nPublishers, nSubscribers, packets⟩]
    stage := .wait }

/-- `printSummary` up to its test of the clock; `src/main.cpp:163–172`. -/
def printSummary (s : ServerImpl) (now : Int) : ServerImpl :=
  if s.mOptions.printSummaryInterval ≤ 0 then { s with stage := .wait }
  else if now > s.mLastPrintSummary + 1000000 * s.mOptions.printSummaryInterval then
    { s with mLastPrintSummary := now, stage := .countPublishers }
  else { s with stage := .wait }

/-- The next step of the main thread, with the time that the clock shows;
`src/main.cpp:110–134,162–243`. The last ones are the destructors': `mFrontend` goes before
`mBackend`, and the deadline of `Shutdown` only cancels RPCs. -/
def step (s : ServerImpl) (now : Int) : ServerImpl :=
  match s.stage with
  | .start => { s with mProxy := callStart s.mProxy, stage := .starting }
  | .starting =>
    if s.mProxy.caller = .running then { s with stage := .catchSignals }
    else { s with mProxy := callerStep s.mProxy }
  | .catchSignals => { s with handled := true, stage := .loadStopRequested }
  | .loadStopRequested =>
    if s.mStopRequested then { s with stage := .stop } else { s with stage := .loadInterrupted }
  | .loadInterrupted =>
    if s.mInterrupted then { s with mStopRequested := true, stage := .stop }
    else { s with stage := .readClock }
  | .readClock => s.printSummary now
  | .countPublishers => { s with stage := .countSubscribers s.mProxy.getNumberOfPublishers }
  | .countSubscribers nPublishers =>
    if s.mOptions.exportMetrics then
      { s with stage := .loadReceived nPublishers s.mProxy.getNumberOfSubscribers }
    else s.print nPublishers s.mProxy.getNumberOfSubscribers none
  | .loadReceived nPublishers nSubscribers =>
    { s with
      stage := .loadSent nPublishers nSubscribers s.mProxy.metrics.mReceivedPacketsCounter }
  | .loadSent nPublishers nSubscribers nReceived =>
    let nSent := s.mProxy.metrics.mSentPacketsCounter
    let nPacketsReceived := nReceived - s.mReportNumberOfPacketsReceived
    let nPacketsSent := nSent - s.mReportNumberOfPacketsSent
    { s with
      mReportNumberOfPacketsReceived := nReceived
      mReportNumberOfPacketsSent := nSent }.print nPublishers nSubscribers
        (some (nPacketsReceived, nPacketsSent))
  | .wait => { s with stage := .loadStopRequested }
  | .stop =>
    if s.mStopRequested then { s with mProxy := callStop s.mProxy, stage := .stopping }
    else { s with stage := .returned }
  | .stopping =>
    if s.mProxy.caller = .stopped then { s with stage := .returned }
    else { s with mProxy := callerStep s.mProxy }
  | .returned => { s with mProxy := callStop s.mProxy, stage := .destroying }
  | .destroying =>
    if s.mProxy.caller = .stopped then { s with stage := .unsubscribeAll }
    else { s with mProxy := callerStep s.mProxy }
  | .unsubscribeAll =>
    { s with mProxy := destructorStep s.mProxy .unsubscribeAll, stage := .shutdown }
  | .shutdown =>
    { s with mProxy := destructorStep s.mProxy .shutdown, stage := .awaitSubscribers }
  | .awaitSubscribers => if s.subscribing = 0 then { s with stage := .exited } else s
  | .exited => s

/-- `signalHandler`, or the end of the process; `src/main.cpp:268–272`. -/
def signal (s : ServerImpl) : ServerImpl :=
  if s.handled then { s with mInterrupted := true } else s

/-- What the step of the main thread does to the proxy. -/
def drives (s : ServerImpl) : Option ServiceEvent :=
  match s.stage with
  | .start => some .start
  | .starting => if s.mProxy.caller = .running then none else some .caller
  | .stop => if s.mStopRequested then some .stop else none
  | .stopping | .destroying => if s.mProxy.caller = .stopped then none else some .caller
  | .returned => some .stop
  | .unsubscribeAll => some (.destructor .unsubscribeAll)
  | .shutdown => some (.destructor .shutdown)
  | .catchSignals | .loadStopRequested | .loadInterrupted | .readClock | .countPublishers
  | .countSubscribers _ | .loadReceived _ _ | .loadSent _ _ _ | .wait | .awaitSubscribers
  | .exited => none

end ServerImpl

/-- `main` up to the call of `ServerImpl::start`, none for `EXIT_FAILURE`: the options of the proxy
and the server. `src/main.cpp:293–358`. -/
def launch (withOTLPGRPC fileExists : Bool) (tree : Option IniFile) (metricsThrow : Bool)
    (now : Int) : Option (ProxyOptions × ServerImpl) :=
  match parseIniFile withOTLPGRPC fileExists tree with
  | .error _ => none
  | .ok options =>
    -- `Metrics::initialize` is only called when the metrics are exported.
    if options.exportMetrics && metricsThrow then none
    else
      match ProxyState.new options.proxyOptions.toProxyOptions with
      | .error _ => none
      | .ok state =>
        some (options.proxyOptions.toProxyOptions,
          { mProxy := { proxy := state }, mLastPrintSummary := now })

/-- What the environment of the clients does. -/
inductive MainEvent where
  | propagator
  | signal
  /-- The main thread takes its next step, at this time. -/
  | main (now : Int)
  deriving DecidableEq, Repr

namespace MainStage

/-- The handlers of the signals are not installed yet. -/
def launches : MainStage → Bool
  | .start | .starting | .catchSignals => true
  | _ => false

/-- `ServerImpl::start` has returned. -/
def hasReturned : MainStage → Bool
  | .returned | .destroying | .unsubscribeAll | .shutdown | .awaitSubscribers | .exited => true
  | _ => false

/-- The server of the backend has been shut down. -/
def awaits : MainStage → Bool
  | .awaitSubscribers | .exited => true
  | _ => false

/-- The loop of the main thread has been left. -/
def ends : MainStage → Bool
  | .stop | .stopping => true
  | stage => stage.hasReturned

/-- The main thread is in its loop. -/
def loops : MainStage → Bool
  | .loadStopRequested | .loadInterrupted | .readClock | .countPublishers | .countSubscribers _
  | .loadReceived _ _ | .loadSent _ _ _ | .wait => true
  | _ => false

end MainStage

/-- A call of `start` is under way. -/
def CallerStage.inStart : CallerStage → Bool
  | .storeRunning | .startThread | .storeManager | .storeBackend | .buildBackend | .storeFrontend
  | .storeCounter | .buildFrontend => true
  | _ => false

/-- What the main thread knows of the proxy at each of its steps. -/
def AtStage (stage : MainStage) (c : Control) : Prop :=
  match stage with
  | .start => c.caller = .constructed
  | .starting => c.caller.inStart = true ∨ c.caller = .running
  | .catchSignals | .loadStopRequested | .loadInterrupted | .readClock | .countPublishers
  | .countSubscribers _ | .loadReceived _ _ | .loadSent _ _ _ | .wait | .stop =>
    c.caller = .running
  | .stopping =>
    ((c.caller = .loadFrontend ∨ c.caller = .clearFrontend) ∧ c.frontendRunning = true) ∨
      (c.caller = .shutdown ∧ c.stopStage = .notCalled) ∨ Shutting c ∨
      (Settled c ∧ c.caller = .stopped)
  | .destroying => Settled c
  | .returned | .unsubscribeAll | .shutdown | .awaitSubscribers | .exited =>
    Settled c ∧ c.caller = .stopped

/-- What holds of the server throughout. -/
structure ServerInv (s : ServerImpl) : Prop where
  proxy : ServiceInv s.mProxy
  atStage : AtStage s.stage s.mProxy.control
  handled : s.handled = !s.stage.launches
  requested : s.mStopRequested = s.stage.ends
  /-- The loop is left in answer to a signal. -/
  interrupted : s.stage.ends = true → s.mInterrupted = true
  /-- A signal is noticed by a handler. -/
  noticed : s.mInterrupted = true → s.handled = true

variable {s s' : ServerImpl} {options : ProxyOptions}

/-- A step of `start` is followed by another one, or by its return. -/
theorem inStart_callerStep {proxy : ServiceState} (h : proxy.caller.inStart = true) :
    (callerStep proxy).caller.inStart = true ∨ (callerStep proxy).caller = .running := by
  unfold callerStep
  cases hc : proxy.caller <;> simp_all [CallerStage.inStart]

/-- Behind the step of `stop` that calls `Shutdown`, the shutdown is under way. -/
theorem shutting_callerStep {proxy : ServiceState} (hinv : ServiceInv proxy)
    (hc : proxy.caller = .shutdown) (hstage : proxy.proxy.backend.stopStage = .notCalled) :
    Shutting (callerStep proxy).control := by
  have hknows := hinv.control.knows
  simp only [Knows, ServiceState.control, hc] at hknows
  have hcleared : proxy.proxy.backend.stopStage ≠ .cleared := by simp [hstage]
  unfold callerStep
  simp only [hc]
  split
  · next hserver =>
    exact ⟨⟨hknows, by simp [ServiceState.control, hserver]⟩, hcleared, Or.inr (Or.inl rfl)⟩
  · exact ⟨⟨hknows, by simp [ServiceState.control]⟩, hcleared, Or.inl rfl⟩

/-- A step of `stop`. -/
theorem stopping_callerStep {proxy : ServiceState} (hinv : ServiceInv proxy)
    (h : AtStage .stopping proxy.control) :
    AtStage .stopping (callerStep proxy).control := by
  rcases h with ⟨hc, hrun⟩ | ⟨hc, hstage⟩ | hs | ⟨hs, hc⟩
  · have hrun : proxy.proxy.frontend.mKeepRunning = true := hrun
    have hstage : proxy.proxy.backend.stopStage = .notCalled := (hinv.control.running hrun).2
    have hc : proxy.caller = .loadFrontend ∨ proxy.caller = .clearFrontend := hc
    unfold callerStep
    rcases hc with hc | hc
    · simp only [hc, if_pos hrun]
      exact Or.inl ⟨Or.inr rfl, hrun⟩
    · simp only [hc]
      exact Or.inr (Or.inl ⟨rfl, hstage⟩)
  · exact Or.inr (Or.inr (Or.inl (shutting_callerStep hinv hc hstage)))
  · rcases hs.caller_step with hs | hc
    · exact Or.inr (Or.inr (Or.inl hs))
    · exact Or.inr (Or.inr (Or.inr ⟨hinv.caller_step.settled hc, hc⟩))
  · have hc : proxy.caller = .stopped := hc
    have hsame : callerStep proxy = proxy := by simp only [callerStep, hc]
    rw [hsame]
    exact Or.inr (Or.inr (Or.inr ⟨hs, hc⟩))

/-- A call of `stop` on a running proxy. -/
theorem stopping_callStop {proxy : ServiceState} (hinv : ServiceInv proxy)
    (hc : proxy.caller = .running) : AtStage .stopping (callStop proxy).control := by
  have hknows := hinv.control.knows
  simp only [Knows, ServiceState.control, hc] at hknows
  unfold callStop
  rw [if_pos (Or.inr (Or.inl hc))]
  exact Or.inl ⟨Or.inl rfl, hknows⟩

/-- In its loop the main thread knows that the proxy runs. -/
theorem atStage_of_loops {stage : MainStage} {c : Control} (h : stage.loops = true) :
    AtStage stage c ↔ c.caller = .running := by
  cases stage <;> first | exact Iff.rfl | cases h

theorem MainStage.hasReturned_of_awaits {stage : MainStage} (h : stage.awaits = true) :
    stage.hasReturned = true := by
  cases stage <;> first | rfl | cases h

theorem MainStage.ends_of_hasReturned {stage : MainStage} (h : stage.hasReturned = true) :
    stage.ends = true := by
  cases stage <;> first | rfl | cases h

theorem MainStage.sides_of_loops {stage : MainStage} (h : stage.loops = true) :
    stage.launches = false ∧ stage.ends = false := by
  cases stage <;> first | exact ⟨rfl, rfl⟩ | cases h

/-- What the loop of the main thread leaves as it is. -/
structure SameFlags (s s' : ServerImpl) : Prop where
  mProxy : s'.mProxy = s.mProxy
  mStopRequested : s'.mStopRequested = s.mStopRequested
  mInterrupted : s'.mInterrupted = s.mInterrupted
  handled : s'.handled = s.handled

/-- Without a signal the loop goes on, and a step in it changes no flag. -/
theorem step_of_loops (hloops : s.stage.loops = true) (hrequested : s.mStopRequested = false)
    (hno : s.stage = .loadInterrupted → s.mInterrupted = false) (now : Int) :
    (s.step now).stage.loops = true ∧ SameFlags s (s.step now) := by
  cases hs : s.stage with
  | loadStopRequested =>
    simp only [ServerImpl.step, hs]
    rw [if_neg (by simp [hrequested])]
    exact ⟨rfl, rfl, rfl, rfl, rfl⟩
  | loadInterrupted =>
    simp only [ServerImpl.step, hs]
    rw [if_neg (by simp [hno hs])]
    exact ⟨rfl, rfl, rfl, rfl, rfl⟩
  | readClock =>
    simp only [ServerImpl.step, hs, ServerImpl.printSummary]
    split_ifs <;> exact ⟨rfl, rfl, rfl, rfl, rfl⟩
  | countSubscribers nPublishers =>
    simp only [ServerImpl.step, hs, ServerImpl.print]
    split <;> exact ⟨rfl, rfl, rfl, rfl, rfl⟩
  | countPublishers | loadReceived nPublishers nSubscribers
  | loadSent nPublishers nSubscribers nReceived | wait =>
    simp only [ServerImpl.step, hs, ServerImpl.print]
    exact ⟨rfl, rfl, rfl, rfl, rfl⟩
  | start | starting | catchSignals | stop | stopping | returned | destroying | unsubscribeAll
  | shutdown | awaitSubscribers | exited =>
    rw [hs] at hloops
    cases hloops

namespace ServerInv

/-- What stays on the same side of the installation of the handlers and of the end of the loop. -/
theorem goTo (h : ServerInv s) (hproxy : ServiceInv s'.mProxy)
    (hat : AtStage s'.stage s'.mProxy.control)
    (hlaunches : s'.stage.launches = s.stage.launches) (hends : s'.stage.ends = s.stage.ends)
    (hhandled : s'.handled = s.handled) (hrequested : s'.mStopRequested = s.mStopRequested)
    (hinterrupted : s'.mInterrupted = s.mInterrupted) : ServerInv s' := by
  refine ⟨hproxy, hat, ?_, ?_, ?_, ?_⟩
  · rw [hhandled, hlaunches]
    exact h.handled
  · rw [hrequested, hends]
    exact h.requested
  · rw [hinterrupted, hends]
    exact h.interrupted
  · rw [hinterrupted, hhandled]
    exact h.noticed

/-- A step of the main thread in its loop keeps the invariant. -/
theorem step_loop (h : ServerInv s) (hloops : s.stage.loops = true) (now : Int) :
    ServerInv (s.step now) := by
  have hrunning := (atStage_of_loops hloops).mp h.atStage
  obtain ⟨hlaunches, hends⟩ := MainStage.sides_of_loops hloops
  by_cases hleaves : s.stage = .loadInterrupted ∧ s.mInterrupted = true
  · obtain ⟨hs, hint⟩ := hleaves
    simp only [ServerImpl.step, hs]
    rw [if_pos hint]
    refine ⟨h.proxy, hrunning, ?_, rfl, fun _ ↦ hint, h.noticed⟩
    rw [h.handled, hlaunches]
    rfl
  · obtain ⟨hloops', hsame⟩ := step_of_loops hloops (hends ▸ h.requested)
      (fun hs ↦ by simpa [hs] using hleaves) now
    obtain ⟨hlaunches', hends'⟩ := MainStage.sides_of_loops hloops'
    apply h.goTo
    · exact hsame.mProxy ▸ h.proxy
    · exact (atStage_of_loops hloops').mpr (hsame.mProxy ▸ hrunning)
    · rw [hlaunches', hlaunches]
    · rw [hends', hends]
    · exact hsame.handled
    · exact hsame.mStopRequested
    · exact hsame.mInterrupted

/-- A step of the main thread before its loop keeps the invariant. -/
theorem step_launch (h : ServerInv s) (hs : s.stage.launches = true) (now : Int) :
    ServerInv (s.step now) := by
  obtain ⟨hproxy, hat, hhandled, hrequested, hinterrupted, hnoticed⟩ := h
  unfold ServerImpl.step
  cases hstage : s.stage with
  | start =>
    rw [hstage] at hat hhandled hrequested hinterrupted
    have hc : s.mProxy.caller = .constructed := hat
    have hcall : (callStart s.mProxy).caller.inStart = true := by
      unfold callStart
      rw [if_pos hc]
      rfl
    exact ⟨hproxy.call_start, Or.inl hcall, hhandled, hrequested, hinterrupted, hnoticed⟩
  | starting =>
    rw [hstage] at hat hhandled hrequested hinterrupted
    dsimp only
    split
    · next hc => exact ⟨hproxy, hc, hhandled, hrequested, hinterrupted, hnoticed⟩
    · next hc =>
      have hstart := inStart_callerStep (hat.resolve_right hc)
      exact ⟨hproxy.caller_step, hstart, hhandled, hrequested, hinterrupted, hnoticed⟩
  | catchSignals =>
    rw [hstage] at hat hrequested hinterrupted
    exact ⟨hproxy, hat, rfl, hrequested, hinterrupted, fun _ ↦ rfl⟩
  | _ =>
    rw [hstage] at hs
    cases hs

/-- A step of the main thread behind its loop keeps the invariant. -/
theorem step_end (h : ServerInv s) (hs : s.stage.ends = true) (now : Int) :
    ServerInv (s.step now) := by
  obtain ⟨hproxy, hat, hhandled, hrequested, hinterrupted, hnoticed⟩ := h
  unfold ServerImpl.step
  cases hstage : s.stage with
  | stop =>
    rw [hstage] at hat hhandled hrequested hinterrupted
    have hyes : s.mStopRequested = true := hrequested
    dsimp only
    rw [if_pos hyes]
    exact ⟨hproxy.call_stop, stopping_callStop hproxy hat, hhandled, hrequested, hinterrupted,
      hnoticed⟩
  | stopping =>
    rw [hstage] at hat hhandled hrequested hinterrupted
    dsimp only
    split
    · next hc =>
      exact ⟨hproxy, ⟨hproxy.settled hc, hc⟩, hhandled, hrequested, hinterrupted, hnoticed⟩
    · next hc =>
      have hstopping := stopping_callerStep hproxy hat
      exact ⟨hproxy.caller_step, hstopping, hhandled, hrequested, hinterrupted, hnoticed⟩
  | returned =>
    rw [hstage] at hat hhandled hrequested hinterrupted
    have hsettled := (settled_callStop hat.1).1
    exact ⟨hproxy.call_stop, hsettled, hhandled, hrequested, hinterrupted, hnoticed⟩
  | destroying =>
    rw [hstage] at hat hhandled hrequested hinterrupted
    dsimp only
    split
    · next hc => exact ⟨hproxy, ⟨hat, hc⟩, hhandled, hrequested, hinterrupted, hnoticed⟩
    · next hc =>
      have hsettled := (hproxy.settled_caller_step hat).1
      exact ⟨hproxy.caller_step, hsettled, hhandled, hrequested, hinterrupted, hnoticed⟩
  | unsubscribeAll =>
    rw [hstage] at hat hhandled hrequested hinterrupted
    rw [← destructorStep_control s.mProxy .unsubscribeAll] at hat
    exact ⟨hproxy.destructor_step .unsubscribeAll, hat, hhandled, hrequested, hinterrupted,
      hnoticed⟩
  | shutdown =>
    rw [hstage] at hat hhandled hrequested hinterrupted
    rw [← destructorStep_control s.mProxy .shutdown] at hat
    exact ⟨hproxy.destructor_step .shutdown, hat, hhandled, hrequested, hinterrupted, hnoticed⟩
  | awaitSubscribers =>
    rw [hstage] at hat hhandled hrequested hinterrupted
    dsimp only
    split
    · exact ⟨hproxy, hat, hhandled, hrequested, hinterrupted, hnoticed⟩
    · exact ⟨hproxy, hstage ▸ hat, hstage ▸ hhandled, hstage ▸ hrequested,
        hstage ▸ hinterrupted, hnoticed⟩
  | exited => exact ⟨hproxy, hat, hhandled, hrequested, hinterrupted, hnoticed⟩
  | _ =>
    rw [hstage] at hs
    cases hs

/-- A step of the main thread keeps the invariant. -/
theorem step (h : ServerInv s) (now : Int) : ServerInv (s.step now) := by
  cases hs : s.stage with
  | start | starting | catchSignals => exact h.step_launch (by rw [hs]; rfl) now
  | loadStopRequested | loadInterrupted | readClock | countPublishers
  | countSubscribers nPublishers | loadReceived nPublishers nSubscribers
  | loadSent nPublishers nSubscribers nReceived | wait => exact h.step_loop (by rw [hs]; rfl) now
  | stop | stopping | returned | destroying | unsubscribeAll | shutdown | awaitSubscribers
  | exited => exact h.step_end (by rw [hs]; rfl) now

/-- A signal keeps the invariant. -/
theorem signal (h : ServerInv s) : ServerInv s.signal := by
  unfold ServerImpl.signal
  split
  · next hhandled =>
    exact ⟨h.proxy, h.atStage, h.handled, h.requested, fun _ ↦ rfl, fun _ ↦ hhandled⟩
  · exact h

/-- Until the loop is left the frontend has not been told to stop. -/
theorem frontend_running (h : ServerInv s) (hends : s.stage.ends = false) :
    s.mProxy.proxy.frontend.mKeepRunning = true := by
  have hknows := h.proxy.control.knows
  have hat := h.atStage
  unfold Knows ServiceState.control at hknows
  cases hs : s.stage with
  | start =>
    rw [hs] at hat
    have hc : s.mProxy.caller = .constructed := hat
    simp only [hc] at hknows
    exact hknows.1
  | starting =>
    rw [hs] at hat
    have hc : s.mProxy.caller.inStart = true ∨ s.mProxy.caller = .running := hat
    cases hcaller : s.mProxy.caller <;> simp_all [CallerStage.inStart]
  | catchSignals | loadStopRequested | loadInterrupted | readClock | countPublishers
  | countSubscribers | loadReceived | loadSent | wait =>
    rw [hs] at hat
    have hc : s.mProxy.caller = .running := hat
    simp only [hc] at hknows
    exact hknows
  | stop | stopping | returned | destroying | unsubscribeAll | shutdown | awaitSubscribers
  | exited =>
    rw [hs] at hends
    cases hends

/-- When `ServerImpl::start` has returned, the proxy has been stopped. -/
theorem settled_of_hasReturned (h : ServerInv s) (hreturned : s.stage.hasReturned = true) :
    Settled s.mProxy.control := by
  have hat := h.atStage
  cases hs : s.stage with
  | returned | unsubscribeAll | shutdown | awaitSubscribers | exited =>
    rw [hs] at hat
    exact hat.1
  | destroying =>
    rw [hs] at hat
    exact hat
  | _ =>
    rw [hs] at hreturned
    cases hreturned

end ServerInv

/-- A step of the main thread hands no RPC over, and does not touch the flag of the signals. -/
theorem step_kept (s : ServerImpl) (now : Int) :
    (s.step now).subscribing = s.subscribing ∧ (s.step now).mInterrupted = s.mInterrupted := by
  unfold ServerImpl.step
  cases hs : s.stage with
  | readClock =>
    simp only [ServerImpl.printSummary]
    split_ifs <;> exact ⟨rfl, rfl⟩
  | starting | loadStopRequested | loadInterrupted | countSubscribers | stop | stopping
  | destroying | awaitSubscribers =>
    dsimp only
    split_ifs <;> exact ⟨rfl, rfl⟩
  | start | catchSignals | countPublishers | loadReceived | loadSent | wait | returned
  | unsubscribeAll | shutdown | exited => exact ⟨rfl, rfl⟩

/-- The main thread shuts the server of the backend down before it waits. -/
def Closes (s : ServerImpl) : Prop :=
  s.stage.awaits = true → s.mProxy.backendServer ≠ .listening

/-- A step of the main thread keeps a server closed. -/
theorem Closes.step (h : Closes s) (hinv : ServerInv s) (now : Int) :
    Closes (s.step now) := by
  have hat := hinv.atStage
  have no {s' : ServerImpl} (hstage : s'.stage.awaits = false) : Closes s' := by
    intro hawaits
    rw [hstage] at hawaits
    cases hawaits
  unfold ServerImpl.step
  cases hs : s.stage with
  | shutdown =>
    rw [hs] at hat
    have hc : s.mProxy.caller = .stopped := hat.2
    intro _
    show (destructorStep s.mProxy .shutdown).backendServer ≠ .listening
    unfold destructorStep
    rw [if_pos hc]
    dsimp only
    split
    · next hnot => simp [hnot]
    · simp
  | awaitSubscribers =>
    have hserver := h (by rw [hs]; rfl)
    dsimp only
    split <;> exact fun _ ↦ hserver
  | exited => exact h
  | readClock =>
    simp only [ServerImpl.printSummary]
    split_ifs <;> exact no rfl
  | starting | loadStopRequested | loadInterrupted | countSubscribers | stop | stopping
  | destroying =>
    dsimp only
    split_ifs <;> exact no rfl
  | start | catchSignals | countPublishers | loadReceived | loadSent | wait | returned
  | unsubscribeAll => exact no rfl

/-- The server that is launched has a new proxy. -/
theorem launch_eq_some {withOTLPGRPC fileExists metricsThrow : Bool} {tree : Option IniFile}
    {now : Int} {server : ServerImpl}
    (h : launch withOTLPGRPC fileExists tree metricsThrow now = some (options, server)) :
    ∃ state, ProxyState.new options = .ok state ∧
      server = { mProxy := { proxy := state }, mLastPrintSummary := now } := by
  unfold launch at h
  cases hparse : parseIniFile withOTLPGRPC fileExists tree with
  | error error =>
    rw [hparse] at h
    cases h
  | ok settings =>
    rw [hparse] at h
    dsimp only at h
    split at h
    · cases h
    · obtain ⟨state, hnew⟩ := new_ok_of_parseIniFile hparse
      rw [hnew] at h
      cases h
      exact ⟨state, hnew, rfl⟩

/-- The program ends before it starts the proxy only when its initialization file is refused, or
when the export of its metrics fails. -/
theorem launch_eq_none {withOTLPGRPC fileExists metricsThrow : Bool} {tree : Option IniFile}
    {now : Int} : launch withOTLPGRPC fileExists tree metricsThrow now = none ↔
      ∀ settings, parseIniFile withOTLPGRPC fileExists tree = .ok settings →
        settings.exportMetrics = true ∧ metricsThrow = true := by
  unfold launch
  cases hparse : parseIniFile withOTLPGRPC fileExists tree with
  | error error => simp
  | ok settings =>
    obtain ⟨state, hnew⟩ := new_ok_of_parseIniFile hparse
    simp [hnew]

/-- The main thread makes up a summary. -/
def MainStage.counts : MainStage → Bool
  | .countPublishers | .countSubscribers _ => true
  | _ => false

/-- The main thread loads the counters of the packets. -/
def MainStage.loadsCounters : MainStage → Bool
  | .loadReceived _ _ | .loadSent _ _ _ => true
  | _ => false

/-- The times of the start and of the summaries. -/
def ServerImpl.times (s : ServerImpl) (start : Int) : List Int :=
  start :: s.summaries.map Summary.now

/-- What holds of the summaries throughout; 900 s are the default interval. -/
structure SummaryInv (start : Int) (s : ServerImpl) : Prop where
  options : s.mOptions = {}
  apart : (s.times start).Pairwise fun t t' ↦ t + 900000000 < t'
  before : ∀ t ∈ s.times start, t ≤ s.mLastPrintSummary
  due : s.stage.counts = true → ∀ t ∈ s.times start, t + 900000000 < s.mLastPrintSummary
  noCounters : s.stage.loadsCounters = false
  packets : ∀ summary ∈ s.summaries, summary.packets = none

/-- A step that makes up no summary. -/
theorem SummaryInv.goTo {start : Int} (h : SummaryInv start s) (hoptions : s'.mOptions = s.mOptions)
    (hlast : s'.mLastPrintSummary = s.mLastPrintSummary) (hsummaries : s'.summaries = s.summaries)
    (hcounts : s'.stage.counts = true → s.stage.counts = true)
    (hloads : s'.stage.loadsCounters = false) : SummaryInv start s' := by
  have htimes : s'.times start = s.times start := by rw [ServerImpl.times, hsummaries]; rfl
  constructor
  · rw [hoptions]
    exact h.options
  · rw [htimes]
    exact h.apart
  · rw [htimes, hlast]
    exact h.before
  · rw [htimes, hlast]
    exact fun hs ↦ h.due (hcounts hs)
  · exact hloads
  · rw [hsummaries]
    exact h.packets

/-- The summary that is printed is the latest one. -/
theorem SummaryInv.print {start : Int} (h : SummaryInv start s) (hs : s.stage.counts = true)
    (nPublishers nSubscribers : Int) :
    SummaryInv start (s.print nPublishers nSubscribers none) := by
  have htimes : (s.print nPublishers nSubscribers none).times start =
      s.times start ++ [s.mLastPrintSummary] := by
    simp [ServerImpl.times, ServerImpl.print]
  have hdue := h.due hs
  constructor
  · exact h.options
  · rw [htimes, List.pairwise_append]
    refine ⟨h.apart, List.pairwise_singleton _ _, ?_⟩
    intro t ht t' ht'
    rw [List.mem_singleton.mp ht']
    exact hdue t ht
  · rw [htimes]
    intro t ht
    rcases List.mem_append.mp ht with ht | ht
    · exact h.before t ht
    · rw [List.mem_singleton.mp ht]
      exact Int.le_refl _
  · intro hcounts
    cases hcounts
  · rfl
  · intro summary hmem
    rcases List.mem_append.mp hmem with hmem | hmem
    · exact h.packets summary hmem
    · rw [List.mem_singleton.mp hmem]

/-- Every step of the main thread keeps what holds of the summaries. -/
theorem SummaryInv.step {start : Int} (h : SummaryInv start s) (now : Int) :
    SummaryInv start (s.step now) := by
  have hexport : s.mOptions.exportMetrics = false := by
    rw [h.options]
  have hinterval : s.mOptions.printSummaryInterval = 900 := by
    rw [h.options]
  unfold ServerImpl.step
  cases hs : s.stage with
  | loadReceived nPublishers nSubscribers | loadSent nPublishers nSubscribers nReceived =>
    have hno := h.noCounters
    rw [hs] at hno
    cases hno
  | countPublishers =>
    exact h.goTo rfl rfl rfl (fun _ ↦ by rw [hs]; rfl) rfl
  | countSubscribers nPublishers =>
    dsimp only
    rw [if_neg (by simp [hexport])]
    exact h.print (by rw [hs]; rfl) _ _
  | readClock =>
    dsimp only
    unfold ServerImpl.printSummary
    rw [if_neg (by omega)]
    split
    · next hdue =>
      rw [hinterval] at hdue
      have hlater (t : Int) (ht : t ∈ s.times start) : t + 900000000 < now := by
        have hle := h.before t ht
        omega
      refine ⟨h.options, h.apart, ?_, fun _ ↦ hlater, rfl, h.packets⟩
      intro t ht
      have hlt := hlater t ht
      show t ≤ now
      omega
    · exact h.goTo rfl rfl rfl (fun hcounts ↦ by cases hcounts) rfl
  | starting | loadStopRequested | loadInterrupted | stop | stopping | destroying =>
    dsimp only
    split_ifs <;> exact h.goTo rfl rfl rfl (fun hcounts ↦ by cases hcounts) rfl
  | start | catchSignals | wait | returned | unsubscribeAll | shutdown =>
    exact h.goTo rfl rfl rfl (fun hcounts ↦ by cases hcounts) rfl
  | awaitSubscribers =>
    dsimp only
    split
    · exact h.goTo rfl rfl rfl (fun hcounts ↦ by cases hcounts) rfl
    · exact h
  | exited => exact h

/-- A `Subscribe` RPC that has been handed over and whose `OnDone` has not returned. -/
def Client.subscribing : Client → Bool
  | .connected (.subscriber w) => w.stage != .deleted
  | .connected (.publisher _) | .connecting _ => false

/-- What a client counts for. -/
def Client.subscription (client : Client) : Int := if client.subscribing then 1 else 0

section Program

variable [Platform] (options : ProxyOptions)

/-- The program with any number of clients. -/
def program : Lib.Program ServerImpl Client Arrival PartyEvent MainEvent where
  start := .connecting
  act s i client event :=
    let left := clientStep options s.mProxy i client event
    ({ s with
        mProxy := left.1
        subscribing := s.subscribing - client.subscription + left.2.subscription },
      left.2)
  env s
    | .propagator => { s with mProxy := threadStep s.mProxy }
    | .signal => s.signal
    | .main now => s.step now

/-- The program after a schedule. -/
def executed (server : ServerImpl) (moves : List (Lib.Move Arrival PartyEvent MainEvent)) :
    Lib.Pool ServerImpl Client :=
  (program options).after ⟨server, []⟩ moves

/-- What an event does to the proxy. -/
def driven (s : ServerImpl) : MainEvent → Option ServiceEvent
  | .propagator => some .propagator
  | .signal => none
  | .main _ => s.drives

end Program

section Runs

variable [Platform]

/-- A step of the main thread is a step of the calling thread of the proxy, a call, or none. -/
theorem step_mProxy (s : ServerImpl) (now : Int) (options : ProxyOptions) :
    (s.step now).mProxy = s.drives.elim s.mProxy ((service options).env s.mProxy) := by
  unfold ServerImpl.step ServerImpl.drives
  cases hs : s.stage with
  | start | returned | unsubscribeAll | shutdown => rfl
  | starting | stop | stopping | destroying | awaitSubscribers =>
    dsimp only
    split_ifs <;> rfl
  | readClock =>
    simp only [ServerImpl.printSummary]
    split_ifs <;> rfl
  | countSubscribers nPublishers =>
    dsimp only
    split <;> rfl
  | loadStopRequested | loadInterrupted =>
    dsimp only
    split <;> rfl
  | catchSignals | countPublishers | loadReceived | loadSent | wait | exited => rfl

/-- The program drives the service. -/
theorem drives_service (options : ProxyOptions) :
    (program options).Drives (service options) ServerImpl.mProxy driven where
  start _ := rfl
  shared _ _ _ _ := rfl
  thread _ _ _ _ := rfl
  env s event := by
    cases event with
    | propagator => rfl
    | main now => exact step_mProxy s now options
    | signal =>
      show s.signal.mProxy = s.mProxy
      unfold ServerImpl.signal
      split <;> rfl

/-- A step of the propagator moves nothing else in the control of a service. -/
theorem threadStep_control (s : ServiceState) : ∃ thread propagator,
    (threadStep s).control = { s.control with mProxyThread := thread, propagator } := by
  obtain ⟨hfrontend, hstage, -⟩ := (propagator_step s.proxy).ends_eq
  refine ⟨(threadStep s).mProxyThread, (threadStep s).proxy.propagator, ?_⟩
  unfold threadStep
  cases s.mProxyThread with
  | working => simp only [ServiceState.control, hfrontend, hstage]
  | notStarted | loadRunning | exited => rfl

/-- What the main thread knows does not depend on the propagator. -/
theorem AtStage.thread_step {stage : MainStage} {s : ServiceState} (h : AtStage stage s.control) :
    AtStage stage (threadStep s).control := by
  have hsettled (hs : Settled s.control) : Settled (threadStep s).control := by
    rw [settled_threadStep hs]
    exact hs
  obtain ⟨thread, propagator, hcontrol⟩ := threadStep_control s
  have hcaller : (threadStep s).control.caller = s.control.caller := by rw [hcontrol]
  cases stage with
  | start | catchSignals | loadStopRequested | loadInterrupted | readClock | countPublishers
  | countSubscribers | loadReceived | loadSent | wait | stop => exact hcaller.trans h
  | starting =>
    show (threadStep s).control.caller.inStart = true ∨ (threadStep s).control.caller = .running
    rw [hcaller]
    exact h
  | destroying => exact hsettled h
  | returned | unsubscribeAll | shutdown | awaitSubscribers | exited =>
    exact ⟨hsettled h.1, hcaller.trans h.2⟩
  | stopping =>
    rcases h with h | h | h | h
    · rw [hcontrol]
      exact Or.inl h
    · rw [hcontrol]
      exact Or.inr (Or.inl h)
    · refine Or.inr (Or.inr (Or.inl ?_))
      rw [hcontrol]
      exact h.congr rfl rfl rfl rfl
    · exact Or.inr (Or.inr (Or.inr ⟨hsettled h.1, hcaller.trans h.2⟩))

/-- A step of the propagator keeps the invariant of the server. -/
theorem ServerInv.thread_step {s : ServerImpl} (h : ServerInv s) :
    ServerInv { s with mProxy := threadStep s.mProxy } :=
  ⟨h.proxy.thread_step, h.atStage.thread_step, h.handled, h.requested, h.interrupted, h.noticed⟩

/-- The number that `~BackendImpl` waits for is that of the subscribers whose `OnDone` has not
returned. -/
theorem weighs_subscribing (options : ProxyOptions) :
    (program options).Weighs (fun _ ↦ True) (fun _ _ _ ↦ True) ServerImpl.subscribing
      Client.subscription where
  start _ _ _ _ := trivial
  act _ _ _ _ _ _ := ⟨trivial, trivial⟩
  other _ _ _ _ _ _ _ _ _ _ := trivial
  env _ _ _ := trivial
  envThread _ _ _ _ _ _ := trivial
  weight_start _ := rfl
  weight_act s i client event _ _ := by
    show s.subscribing - client.subscription +
      (clientStep options s.mProxy i client event).2.subscription - s.subscribing =
        (clientStep options s.mProxy i client event).2.subscription - client.subscription
    ring
  weight_env s event _ := by
    cases event with
    | propagator => rfl
    | main now => exact (step_kept s now).1
    | signal =>
      show s.signal.subscribing = s.subscribing
      unfold ServerImpl.signal
      split <;> rfl

/-- A client leaves the server of the backend. -/
theorem clientStep_backendServer (options : ProxyOptions) (s : ServiceState) (i : Nat)
    (client : Client) (event : PartyEvent) :
    (clientStep options s i client event).1.backendServer = s.backendServer := by
  have hstep := client_step options s i client event
  generalize (clientStep options s i client event).1 = s' at hstep
  generalize (clientStep options s i client event).2 = client' at hstep
  cases hstep <;> rfl

/-- What every step of the program keeps. -/
structure MainInv (options : ProxyOptions) (s : Lib.Pool ServerImpl Client) : Prop where
  server : ServerInv s.shared
  pool : PoolInv options (Lib.Program.mapShared ServerImpl.mProxy s)
  counted : s.shared.subscribing = (s.threads.map Client.subscription).sum
  closes : Closes s.shared

variable {options : ProxyOptions} {s : Lib.Pool ServerImpl Client}

/-- A client touches neither the control of the proxy nor the main thread. -/
theorem MainInv.run_step (h : MainInv options s) (i : Nat) (event : PartyEvent) :
    ServerInv ((program options).step s (.run i event)).shared ∧
      ((program options).step s (.run i event)).shared.mProxy.control =
        s.shared.mProxy.control := by
  cases ht : s.threads[i]? with
  | none =>
    rw [Lib.Program.step_run_none ht]
    exact ⟨h.server, rfl⟩
  | some client =>
    rw [Lib.Program.step_run ht]
    have hclient : ServiceInv (clientStep options s.shared.mProxy i client event).1 ∧
        (clientStep options s.shared.mProxy i client event).1.control =
          s.shared.mProxy.control :=
      h.server.proxy.client (client_step options s.shared.mProxy i client event)
    obtain ⟨hinv, hcontrol⟩ := hclient
    refine ⟨⟨hinv, ?_, h.server.handled, h.server.requested, h.server.interrupted,
      h.server.noticed⟩, hcontrol⟩
    show AtStage s.shared.stage (clientStep options s.shared.mProxy i client event).1.control
    rw [hcontrol]
    exact h.server.atStage

/-- Every move keeps a server closed. -/
theorem MainInv.closes_step (h : MainInv options s)
    (move : Lib.Move Arrival PartyEvent MainEvent) :
    Closes ((program options).step s move).shared := by
  cases move with
  | spawn arrival => exact h.closes
  | run i event =>
    cases ht : s.threads[i]? with
    | none =>
      rw [Lib.Program.step_run_none ht]
      exact h.closes
    | some client =>
      rw [Lib.Program.step_run ht]
      intro hawaits
      show (clientStep options s.shared.mProxy i client event).1.backendServer ≠ .listening
      rw [clientStep_backendServer]
      exact h.closes hawaits
  | env event =>
    cases event with
    | main now => exact h.closes.step h.server now
    | propagator =>
      have hserver : (threadStep s.shared.mProxy).backendServer =
          s.shared.mProxy.backendServer := by
        unfold threadStep
        cases s.shared.mProxy.mProxyThread <;> rfl
      intro hawaits
      show (threadStep s.shared.mProxy).backendServer ≠ .listening
      rw [hserver]
      exact h.closes hawaits
    | signal =>
      show Closes s.shared.signal
      unfold ServerImpl.signal
      split <;> exact h.closes

/-- Every step of the program keeps the invariant. -/
theorem MainInv.step (h : MainInv options s) (move : Lib.Move Arrival PartyEvent MainEvent) :
    MainInv options ((program options).step s move) := by
  refine ⟨?_, ?_, ?_, h.closes_step move⟩
  · cases move with
    | spawn arrival => exact h.server
    | run i event => exact (h.run_step i event).1
    | env event =>
      cases event with
      | propagator => exact h.server.thread_step
      | signal => exact h.server.signal
      | main now => exact h.server.step now
  · rw [(drives_service options).step]
    cases Lib.Program.drivenMove driven s move with
    | none => exact h.pool
    | some move' => exact h.pool.step move'
  · have hsum := (weighs_subscribing options).sum_step (s := s) ⟨trivial, fun _ _ _ ↦ trivial⟩ move
    have hbefore := h.counted
    omega

/-- A move that is not the main thread's leaves it where it is. -/
theorem MainInv.other_step (h : MainInv options s)
    {move : Lib.Move Arrival PartyEvent MainEvent} (hmove : ∀ now, move ≠ .env (.main now)) :
    ((program options).step s move).shared.stage = s.shared.stage ∧
      ((program options).step s move).shared.mProxy.caller = s.shared.mProxy.caller := by
  cases move with
  | spawn arrival => exact ⟨rfl, rfl⟩
  | run i event =>
    refine ⟨?_, congrArg Control.caller (h.run_step i event).2⟩
    cases ht : s.threads[i]? with
    | none => rw [Lib.Program.step_run_none ht]
    | some client =>
      rw [Lib.Program.step_run ht]
      rfl
  | env event =>
    cases event with
    | main now => exact absurd rfl (hmove now)
    | propagator =>
      obtain ⟨thread, propagator, hcontrol⟩ := threadStep_control s.shared.mProxy
      exact ⟨rfl, congrArg Control.caller hcontrol⟩
    | signal =>
      show s.shared.signal.stage = _ ∧ s.shared.signal.mProxy.caller = _
      unfold ServerImpl.signal
      split <;> exact ⟨rfl, rfl⟩

variable {state : ProxyState}

/-- The invariant holds when the server has been constructed. -/
theorem mainInv_new (hnew : ProxyState.new options = .ok state) (now : Int) :
    MainInv options ⟨{ mProxy := { proxy := state }, mLastPrintSummary := now }, []⟩ := by
  refine ⟨?_, poolInv_served hnew [], rfl, fun hawaits ↦ by cases hawaits⟩
  refine ⟨serviceInv_new hnew, rfl, rfl, rfl, ?_, ?_⟩
  · intro hends
    cases hends
  · intro hint
    cases hint

/-- The invariant holds throughout. -/
theorem mainInv_executed (hnew : ProxyState.new options = .ok state) (now : Int)
    (moves : List (Lib.Move Arrival PartyEvent MainEvent)) :
    MainInv options
      (executed options { mProxy := { proxy := state }, mLastPrintSummary := now } moves) :=
  Lib.run_invariant (MainInv options) (mainInv_new hnew now) fun _ move h ↦ h.step move

/-- Every run of the program is one of the service. -/
theorem exists_served (options : ProxyOptions) (state : ProxyState) (now : Int)
    (moves : List (Lib.Move Arrival PartyEvent MainEvent)) :
    ∃ moves', Lib.Program.mapShared ServerImpl.mProxy
      (executed options { mProxy := { proxy := state }, mLastPrintSummary := now } moves) =
        served options state moves' :=
  (drives_service options).after _ moves

/-- The proxy runs until a signal comes, and the program ends when it is drained. -/
structure Orderly (options : ProxyOptions) (s : Lib.Pool ServerImpl Client) : Prop where
  running : s.shared.mInterrupted = false →
    s.shared.mProxy.proxy.frontend.mKeepRunning = true ∧ s.shared.mProxy.mKeepRunning = true ∧
      s.shared.mProxy.proxy.backend.mKeepRunning = true ∧
      s.shared.mProxy.proxy.backend.mSubscriptionManager.mKeepRunning = true
  drained : s.shared.stage.hasReturned = true →
    s.shared.mInterrupted = true ∧ Drained options (Lib.Program.mapShared ServerImpl.mProxy s)

/-- In every run of the program, whatever its initialization file and its clients, the proxy is
stopped only in answer to a signal, and is drained when the main thread leaves
`ServerImpl::start`, and from then on. -/
theorem orderly {withOTLPGRPC fileExists metricsThrow : Bool} {tree : Option IniFile} {now : Int}
    {server : ServerImpl}
    (hlaunch : launch withOTLPGRPC fileExists tree metricsThrow now = some (options, server))
    (moves : List (Lib.Move Arrival PartyEvent MainEvent)) :
    Orderly options (executed options server moves) := by
  obtain ⟨state, hnew, rfl⟩ := launch_eq_some hlaunch
  have hinv := (mainInv_executed hnew now moves).server
  constructor
  · intro hno
    have hends : (executed options { mProxy := { proxy := state }, mLastPrintSummary := now }
        moves).shared.stage.ends = false := by
      by_contra hends
      have hyes := hinv.interrupted (by simpa using hends)
      rw [hno] at hyes
      cases hyes
    have hrun := hinv.frontend_running hends
    obtain ⟨hbackend, hmanager, -⟩ := hinv.proxy.backend_running hrun
    exact ⟨hrun, (hinv.proxy.control.running hrun).1, hbackend, hmanager⟩
  · intro hreturned
    have hsettled := hinv.settled_of_hasReturned hreturned
    refine ⟨hinv.interrupted (MainStage.ends_of_hasReturned hreturned), ?_⟩
    · obtain ⟨moves', hrun⟩ := exists_served options state now moves
      rw [hrun]
      apply drained_of_settled hnew
      rw [← hrun]
      exact hsettled

/-- A move that is no step of the main thread leaves the summaries. -/
theorem summaryInv_step {start : Int} (h : SummaryInv start s.shared)
    (move : Lib.Move Arrival PartyEvent MainEvent) :
    SummaryInv start ((program options).step s move).shared := by
  cases move with
  | spawn arrival => exact h
  | run i event =>
    cases ht : s.threads[i]? with
    | none =>
      rw [Lib.Program.step_run_none ht]
      exact h
    | some client =>
      rw [Lib.Program.step_run ht]
      exact h.goTo rfl rfl rfl id h.noCounters
  | env event =>
    cases event with
    | propagator => exact h.goTo rfl rfl rfl id h.noCounters
    | main now => exact h.step now
    | signal =>
      show SummaryInv start s.shared.signal
      unfold ServerImpl.signal
      split
      · exact h.goTo rfl rfl rfl id h.noCounters
      · exact h

/-- In every run of the program, whatever its initialization file says of the metrics and whatever
the clock shows, the summaries are more than fifteen minutes apart, the first one from the start,
and none tells of packets. -/
theorem summaries_apart {withOTLPGRPC fileExists metricsThrow : Bool} {tree : Option IniFile}
    {now : Int} {server : ServerImpl}
    (hlaunch : launch withOTLPGRPC fileExists tree metricsThrow now = some (options, server))
    (moves : List (Lib.Move Arrival PartyEvent MainEvent)) :
    ((executed options server moves).shared.times now).Pairwise (fun t t' ↦ t + 900000000 < t') ∧
      ∀ summary ∈ (executed options server moves).shared.summaries, summary.packets = none := by
  obtain ⟨state, -, rfl⟩ := launch_eq_some hlaunch
  have hinit : SummaryInv now { mProxy := { proxy := state }, mLastPrintSummary := now } := by
    refine ⟨rfl, List.pairwise_singleton _ _, ?_, ?_, rfl, ?_⟩
    · intro t ht
      rw [List.mem_singleton.mp ht]
    · intro hcounts
      cases hcounts
    · intro summary hmem
      cases hmem
  have hinv : SummaryInv now (executed options
      { mProxy := { proxy := state }, mLastPrintSummary := now } moves).shared :=
    Lib.run_invariant (fun s : Lib.Pool ServerImpl Client ↦ SummaryInv now s.shared) hinit
      fun _ move h ↦ summaryInv_step h move
  exact ⟨hinv.apart, hinv.packets⟩

end Runs

section Example

/-- The proxy that the initialization file above configures. -/
def sampleProxy : ProxyState where
  importQueue := { mImportExportQueue := Lib.Fifo.empty 8192 }
  mDuplicateDetector := some (Detector.fixedSize 60)
  backend := (Backend.started sampleOptions.proxyOptions.getBackendOptions).shared

/-- The server with that proxy, at the epoch. -/
def sampleServer : ServerImpl where
  mProxy := { proxy := sampleProxy }
  mLastPrintSummary := 0

theorem launch_sample : launch false true (some sampleIniFile) false 0 =
    some (sampleOptions.proxyOptions.toProxyOptions, sampleServer) := by
  have hparse : parseIniFile false true (some sampleIniFile) = .ok sampleOptions := by
    decide +kernel
  unfold launch
  rw [hparse]
  rfl

attribute [local instance] x86Platform

/-- The main thread takes so many steps in a row, at one time. -/
def mainSteps (n : Nat) (now : Int) : List (Lib.Move Arrival PartyEvent MainEvent) :=
  List.replicate n (.env (.main now))

/-- The program starts, a publisher is admitted, a summary is printed after an hour, a signal comes,
the publisher ends its stream, and the program ends. -/
def sampleRun : List (Lib.Move Arrival PartyEvent MainEvent) :=
  mainSteps 12 0 ++ [.spawn (.publish [])] ++ List.replicate 5 (.run 0 (.publisher .endOfStream)) ++
    [.env .propagator] ++ mainSteps 6 3600000000 ++ [.env .signal] ++ mainSteps 8 3600000000 ++
    List.replicate 4 (.run 0 (.publisher .endOfStream)) ++ mainSteps 4 3600000000 ++
    List.replicate 4 (.env .propagator) ++ mainSteps 20 3600000000

example : ((executed sampleOptions.proxyOptions.toProxyOptions sampleServer sampleRun).shared.stage,
    (executed sampleOptions.proxyOptions.toProxyOptions sampleServer sampleRun).shared.summaries) =
      (.exited, [⟨3600000000, 1, 0, none⟩]) := by decide +kernel

theorem orderly_sample : Orderly sampleOptions.proxyOptions.toProxyOptions
    (executed sampleOptions.proxyOptions.toProxyOptions sampleServer sampleRun) :=
  orderly launch_sample sampleRun

theorem summaries_apart_sample :
    ((executed sampleOptions.proxyOptions.toProxyOptions sampleServer sampleRun).shared.times
      0).Pairwise (fun t t' ↦ t + 900000000 < t') ∧
    ∀ summary ∈ (executed sampleOptions.proxyOptions.toProxyOptions sampleServer
      sampleRun).shared.summaries, summary.packets = none :=
  summaries_apart launch_sample sampleRun

end Example
end ImportProxy.Proxy
