import ImportProxy.Proxy.Departure

/-!
# The end of the program

A signal ends the program. The loop of the main thread notices it within a few steps, and calls
`stop`; the rank of the shutdown bounds how long `stop` takes; the second `stop`, by the
destructor, finds everything done; and the last subscribers wind down. Each of the four leads to
the next in every endless run in which the main thread, the propagator and the outstanding clients
have their turns.
-/

namespace ImportProxy.Proxy

open ImportProxy.Base

/-- The one who moves; the main thread is the caller. -/
def mainMover : Lib.Move Arrival PartyEvent MainEvent → Option Mover
  | .env (.main _) => some .caller
  | .env .propagator => some .propagator
  | .run i (.publisher _) => some (.publisher i)
  | .env .signal | .run _ (.subscriber _) | .spawn _ => none

theorem mainMover_eq_caller {move : Lib.Move Arrival PartyEvent MainEvent} :
    mainMover move = some .caller ↔ ∃ now, move = .env (.main now) := by
  cases move with
  | spawn arrival => simp [mainMover]
  | run i event => cases event <;> simp [mainMover]
  | env event => cases event <;> simp [mainMover]

/-- A round in which the main thread, the propagator and each client whose `OnDone` has not returned
have a step. A subscriber has one of its own, and a completion. -/
structure Attended (s : Lib.Pool ServerImpl Client)
    (round : List (Lib.Move Arrival PartyEvent MainEvent)) : Prop where
  main : ∃ now, .env (.main now) ∈ round
  propagator : .env .propagator ∈ round
  publisher : ∀ i < s.threads.length, s.threads[i]?.any Client.outstanding = true →
    ∃ read, .run i (.publisher read) ∈ round
  subscriber : ∀ i < s.threads.length, s.threads[i]?.any Client.subscribing = true →
    .run i (.subscriber .proceed) ∈ round ∧ ∃ ok, .run i (.subscriber (.writeDone ok)) ∈ round

/-- The steps that the calling thread has left before `Shutdown` is called. -/
def CallerStage.toShutdown : CallerStage → Nat
  | .loadFrontend => 3
  | .clearFrontend => 2
  | .shutdown => 1
  | _ => 0

/-- The steps that a second `stop` has left. -/
def CallerStage.toStopped : CallerStage → Nat
  | .loadFrontend => 4
  | .clearRunning => 3
  | .join => 2
  | .loadBackend => 1
  | _ => 0

/-- The steps that the main thread has left before `Shutdown` is called, once a signal has come. -/
def MainStage.toShutdown (caller : CallerStage) : MainStage → Nat
  | .stopping => caller.toShutdown
  | .stop => 4
  | .loadInterrupted => 5
  | .loadStopRequested => 6
  | .wait => 7
  | .loadSent _ _ _ => 8
  | .loadReceived _ _ => 9
  | .countSubscribers _ => 10
  | .countPublishers => 11
  | .readClock => 12
  | .start | .starting | .catchSignals | .returned | .destroying | .unsubscribeAll | .shutdown
  | .awaitSubscribers | .exited => 0

/-- The steps that the main thread has left behind the shutdown before it waits for the
subscribers. -/
def MainStage.toAwait (caller : CallerStage) : MainStage → Nat
  | .stopping => 9
  | .returned => 8
  | .destroying => caller.toStopped + 3
  | .unsubscribeAll => 2
  | .shutdown => 1
  | _ => 0

/-- The steps before `Shutdown`. -/
def ServerImpl.toShutdown (s : ServerImpl) : Nat := s.stage.toShutdown s.mProxy.caller

/-- The steps behind the shutdown. -/
def ServerImpl.toAwait (s : ServerImpl) : Nat := s.stage.toAwait s.mProxy.caller

/-- `Shutdown` has been called. -/
def Called (c : Control) : Prop := Shutting c ∨ Settled c

variable {s : ServerImpl} {options : ProxyOptions}

/-- Once a signal has come, every step of the main thread brings it nearer to `Shutdown`. -/
theorem ServerInv.toShutdown_step (h : ServerInv s) (hint : s.mInterrupted = true)
    (hnot : ¬Called s.mProxy.control) (now : Int) :
    Called (s.step now).mProxy.control ∨ (s.step now).toShutdown < s.toShutdown := by
  have hat := h.atStage
  have hrequested := h.requested
  have hhandled := h.handled
  rw [h.noticed hint] at hhandled
  unfold ServerImpl.toShutdown ServerImpl.step
  cases hs : s.stage with
  | start | starting | catchSignals =>
    rw [hs] at hhandled
    cases hhandled
  | loadStopRequested =>
    rw [hs] at hrequested
    right
    dsimp only
    rw [if_neg (by simp [hrequested, MainStage.ends, MainStage.hasReturned])]
    simp [MainStage.toShutdown]
  | loadInterrupted =>
    right
    dsimp only
    rw [if_pos hint]
    simp [MainStage.toShutdown]
  | readClock =>
    right
    simp only [ServerImpl.printSummary]
    split_ifs <;> simp [MainStage.toShutdown]
  | countPublishers | loadReceived | loadSent | wait =>
    right
    simp [MainStage.toShutdown, ServerImpl.print]
  | countSubscribers nPublishers =>
    right
    dsimp only
    split <;> simp [MainStage.toShutdown, ServerImpl.print]
  | stop =>
    rw [hs] at hat hrequested
    have hc : s.mProxy.caller = .running := hat
    have hcall : (callStop s.mProxy).caller = .loadFrontend := by
      unfold callStop
      rw [if_pos (Or.inr (Or.inl hc))]
    right
    dsimp only
    rw [if_pos (by simp [hrequested, MainStage.ends])]
    simp [MainStage.toShutdown, hcall, CallerStage.toShutdown]
  | stopping =>
    rw [hs] at hat
    rcases hat with ⟨hc, hrun⟩ | ⟨hc, hstage⟩ | hshutting | ⟨hsettled, -⟩
    · right
      have hrun : s.mProxy.proxy.frontend.mKeepRunning = true := hrun
      have hc : s.mProxy.caller = .loadFrontend ∨ s.mProxy.caller = .clearFrontend := hc
      rcases hc with hc | hc
      · have hnext : (callerStep s.mProxy).caller = .clearFrontend := by
          simp only [callerStep, hc, if_pos hrun]
        simp [hc, hnext, MainStage.toShutdown, CallerStage.toShutdown]
      · have hnext : (callerStep s.mProxy).caller = .shutdown := by
          simp only [callerStep, hc]
        simp [hc, hnext, MainStage.toShutdown, CallerStage.toShutdown]
    · have hc : s.mProxy.caller = .shutdown := hc
      left
      dsimp only
      rw [if_neg (by simp [hc])]
      exact Or.inl (shutting_callerStep h.proxy hc hstage)
    · exact absurd (Or.inl hshutting) hnot
    · exact absurd (Or.inr hsettled) hnot
  | returned | destroying | unsubscribeAll | shutdown | awaitSubscribers | exited =>
    exact absurd (Or.inr (h.settled_of_hasReturned (by rw [hs]; rfl))) hnot

/-- Every step of a second `stop` brings it nearer to its end. -/
theorem ServiceInv.toStopped_callerStep {proxy : ServiceState} (h : ServiceInv proxy)
    (hs : Settled proxy.control) (hne : proxy.caller ≠ .stopped) :
    (callerStep proxy).caller.toStopped < proxy.caller.toStopped := by
  obtain ⟨hover, hstage, hcaller⟩ := hs
  have hstage : proxy.proxy.backend.stopStage = .cleared := hstage
  have hrun : proxy.proxy.frontend.mKeepRunning = false := hover.1.1
  have hthread : proxy.mProxyThread = .notStarted ∨ proxy.mProxyThread = .exited := hover.2.2
  have hbackend : proxy.proxy.backend.mKeepRunning = false := by
    rw [h.flags.running, hstage]
    rfl
  have hcaller : proxy.caller = .stopped ∨ proxy.caller = .loadFrontend ∨
    proxy.caller = .clearRunning ∨ proxy.caller = .join ∨ proxy.caller = .loadBackend := hcaller
  unfold callerStep
  rcases hcaller with hc | hc | hc | hc | hc
  · exact absurd hc hne
  · simp [hc, hrun, CallerStage.toStopped]
  · simp [hc, CallerStage.toStopped]
  · simp only [hc, if_pos hthread]
    simp [CallerStage.toStopped]
  · simp [hc, hbackend, CallerStage.toStopped]

/-- Behind the shutdown every step of the main thread brings it nearer to the wait for the
subscribers. -/
theorem ServerInv.toAwait_step (h : ServerInv s) (hs : Settled s.mProxy.control)
    (hne : s.stage.awaits = false) (now : Int) : (s.step now).toAwait < s.toAwait := by
  have hat := h.atStage
  -- a settled proxy has been stopped, so that the loop has been left
  have hnot (hc : s.mProxy.caller = .constructed ∨ s.mProxy.caller.inStart = true ∨
      s.mProxy.caller = .running) : False := by
    have hcaller : s.mProxy.caller = .stopped ∨ s.mProxy.caller = .loadFrontend ∨
      s.mProxy.caller = .clearRunning ∨ s.mProxy.caller = .join ∨
        s.mProxy.caller = .loadBackend := hs.2.2
    rcases hcaller with hx | hx | hx | hx | hx <;> simp [hx, CallerStage.inStart] at hc
  unfold ServerImpl.toAwait ServerImpl.step
  cases hstage : s.stage with
  | start =>
    rw [hstage] at hat
    exact absurd (Or.inl hat) hnot
  | starting =>
    rw [hstage] at hat
    exact absurd (Or.inr hat) hnot
  | catchSignals | loadStopRequested | loadInterrupted | readClock | countPublishers
  | countSubscribers | loadReceived | loadSent | wait | stop =>
    rw [hstage] at hat
    exact absurd (Or.inr (Or.inr hat)) hnot
  | stopping =>
    rw [hstage] at hat
    have hc : s.mProxy.caller = .stopped := by
      rcases hat with ⟨-, hrun⟩ | ⟨-, hcalled⟩ | hshutting | ⟨-, hc⟩
      · rw [hs.1.1.1] at hrun
        cases hrun
      · rw [hs.2.1] at hcalled
        cases hcalled
      · exact absurd hs.2.1 hshutting.2.1
      · exact hc
    dsimp only
    rw [if_pos hc]
    simp [MainStage.toAwait]
  | returned =>
    rw [hstage] at hat
    have hc : s.mProxy.caller = .stopped := hat.2
    have hcall : (callStop s.mProxy).caller = .loadFrontend := by
      unfold callStop
      rw [if_pos (Or.inr (Or.inr hc))]
    simp [MainStage.toAwait, hcall, CallerStage.toStopped]
  | destroying =>
    dsimp only
    split
    · next hc => simp [MainStage.toAwait]
    · next hc =>
      have hlt := h.proxy.toStopped_callerStep hs hc
      simp only [MainStage.toAwait]
      omega
  | unsubscribeAll | shutdown => simp [MainStage.toAwait]
  | awaitSubscribers | exited =>
    rw [hstage] at hne
    cases hne

/-- While the shutdown is under way the main thread is in its call of `stop`. -/
theorem ServerInv.drives_of_shutting (h : ServerInv s) (hs : Shutting s.mProxy.control) :
    s.drives = some .caller := by
  have hat := h.atStage
  have hcaller : s.mProxy.caller = .awaitPublishers ∨ s.mProxy.caller = .clearCounter ∨
    s.mProxy.caller = .clearRunning ∨ s.mProxy.caller = .join ∨ s.mProxy.caller = .loadBackend ∨
      s.mProxy.caller = .stopBackend := hs.2.2
  have hnot (hc : s.mProxy.caller = .constructed ∨ s.mProxy.caller.inStart = true ∨
      s.mProxy.caller = .running ∨ s.mProxy.caller = .stopped) : False := by
    rcases hcaller with hx | hx | hx | hx | hx | hx <;> simp [hx, CallerStage.inStart] at hc
  unfold ServerImpl.drives
  cases hstage : s.stage with
  | start =>
    rw [hstage] at hat
    exact absurd (Or.inl hat) hnot
  | starting =>
    rw [hstage] at hat
    exact absurd (Or.inr (hat.imp id Or.inl)) hnot
  | catchSignals | loadStopRequested | loadInterrupted | readClock | countPublishers
  | countSubscribers | loadReceived | loadSent | wait | stop =>
    rw [hstage] at hat
    exact absurd (Or.inr (Or.inr (Or.inl hat))) hnot
  | stopping =>
    dsimp only
    rw [if_neg fun hc ↦ hnot (Or.inr (Or.inr (Or.inr hc)))]
  | returned | destroying | unsubscribeAll | shutdown | awaitSubscribers | exited =>
    have hsettled := h.settled_of_hasReturned (by rw [hstage]; rfl)
    exact absurd hsettled.2.1 hs.2.1

/-- In an attended round the one that helps has a step. -/
theorem Attended.exists_move {p : Lib.Pool ServerImpl Client}
    {round : List (Lib.Move Arrival PartyEvent MainEvent)} (h : Attended p round)
    {mover : Mover}
    (hmover : ∀ i, mover = .publisher i →
      Helps (Lib.Program.mapShared ServerImpl.mProxy p) (.publisher i)) :
    ∃ move ∈ round, mainMover move = some mover := by
  cases mover with
  | caller =>
    obtain ⟨now, hmain⟩ := h.main
    exact ⟨_, hmain, rfl⟩
  | propagator => exact ⟨_, h.propagator, rfl⟩
  | publisher i =>
    obtain ⟨-, client, hi, hout⟩ := hmover i rfl
    have hi : p.threads[i]? = some client := hi
    have hany : p.threads[i]?.any Client.outstanding = true := by
      rw [hi]
      exact hout
    obtain ⟨read, hread⟩ := h.publisher i (List.getElem?_eq_some_iff.mp hi).1 hany
    exact ⟨_, hread, rfl⟩

/-- So it has while the main thread waits for the subscribers. -/
theorem Attended.exists_awaitMover {p : Lib.Pool ServerImpl Client}
    {round : List (Lib.Move Arrival PartyEvent MainEvent)} (h : Attended p round)
    {mover : AwaitMover} (hhelps : AwaitHelps p mover) :
    ∃ move ∈ round, awaitMover move = some mover := by
  cases mover with
  | main =>
    obtain ⟨now, hmain⟩ := h.main
    exact ⟨_, hmain, rfl⟩
  | subscriber i wake =>
    obtain ⟨w, hi, hdeleted, -⟩ := hhelps
    have hany : p.threads[i]?.any Client.subscribing = true := by
      rw [hi]
      simpa [Client.subscribing] using hdeleted
    obtain ⟨hown, ok, hok⟩ := h.subscriber i (List.getElem?_eq_some_iff.mp hi).1 hany
    cases wake with
    | own => exact ⟨_, hown, rfl⟩
    | completion => exact ⟨_, hok, rfl⟩

section Runs

variable [Platform] {p : Lib.Pool ServerImpl Client}

/-- A signal that has come is not forgotten. -/
theorem interrupted_step (hint : p.shared.mInterrupted = true)
    (move : Lib.Move Arrival PartyEvent MainEvent) :
    ((program options).step p move).shared.mInterrupted = true := by
  cases move with
  | spawn arrival => exact hint
  | run i event =>
    cases ht : p.threads[i]? with
    | none =>
      rw [Lib.Program.step_run_none ht]
      exact hint
    | some client =>
      rw [Lib.Program.step_run ht]
      exact hint
  | env event =>
    cases event with
    | propagator => exact hint
    | main now => exact (step_kept p.shared now).2.trans hint
    | signal =>
      show p.shared.signal.mInterrupted = true
      unfold ServerImpl.signal
      split
      · rfl
      · exact hint

/-- Once `Shutdown` has been called, the service is on its way to the end of `stop`. -/
theorem MainInv.ending (h : MainInv options p) (hcalled : Called p.shared.mProxy.control) :
    Ending options (Lib.Program.mapShared ServerImpl.mProxy p) :=
  ⟨h.server.proxy, h.pool, hcalled⟩

/-- `Shutdown` is not taken back. -/
theorem MainInv.called_step (h : MainInv options p) (hcalled : Called p.shared.mProxy.control)
    (move : Lib.Move Arrival PartyEvent MainEvent) :
    Called ((program options).step p move).shared.mProxy.control := by
  have hstep := (drives_service options).step p move
  have hending : Ending options
      (Lib.Program.mapShared ServerImpl.mProxy ((program options).step p move)) := by
    rw [hstep]
    cases Lib.Program.drivenMove driven p move with
    | none => exact h.ending hcalled
    | some move' => exact (h.ending hcalled).step move'
  exact hending.called

/-- The loop of the main thread, once a signal has come. -/
theorem ranked_toShutdown (options : ProxyOptions) :
    Lib.Ranked (program options).step mainMover
      (fun p ↦ MainInv options p ∧ p.shared.mInterrupted = true)
      (fun p ↦ Called p.shared.mProxy.control) (fun _ mover ↦ mover = .caller)
      fun p ↦ p.shared.toShutdown := by
  apply Lib.Ranked.single
  · exact fun p move h ↦ ⟨h.1.step move, interrupted_step h.2 move⟩
  · exact fun p move h hcalled ↦ h.1.called_step hcalled move
  · intro p move h hnot hmove
    obtain ⟨now, rfl⟩ := mainMover_eq_caller.mp hmove
    exact h.1.server.toShutdown_step h.2 hnot now
  · intro p move h hnot hmove
    obtain ⟨hstage, hcaller⟩ := h.1.other_step fun now he ↦
      hmove (mainMover_eq_caller.mpr ⟨now, he⟩)
    right
    unfold ServerImpl.toShutdown
    rw [hstage, hcaller]

/-- The shutdown of the service, driven by the main thread. -/
theorem ranked_shutdown (options : ProxyOptions) :
    Lib.Ranked (program options).step mainMover
      (fun p ↦ MainInv options p ∧ Called p.shared.mProxy.control)
      (fun p ↦ Done (Lib.Program.mapShared ServerImpl.mProxy p))
      (fun p ↦ Helps (Lib.Program.mapShared ServerImpl.mProxy p))
      fun p ↦ left (Lib.Program.mapShared ServerImpl.mProxy p) := by
  apply (ranked options).lift
  · exact fun p h ↦ h.1.ending h.2
  · exact fun p move h ↦ ⟨h.1.step move, h.1.called_step h.2 move⟩
  · exact fun p move _ ↦ (drives_service options).step p move
  · intro p move h hnot
    have hshutting : Shutting p.shared.mProxy.control := h.2.resolve_right hnot
    cases move with
    | spawn arrival => rfl
    | run i event => cases event <;> rfl
    | env event =>
      cases event with
      | propagator | signal => rfl
      | main now =>
        show ((p.shared.drives).map Lib.Move.env).bind mover = some .caller
        rw [h.1.server.drives_of_shutting hshutting]
        rfl

/-- A settled service stays so. -/
theorem MainInv.settled_step (h : MainInv options p) (hs : Settled p.shared.mProxy.control)
    (move : Lib.Move Arrival PartyEvent MainEvent) :
    Settled ((program options).step p move).shared.mProxy.control :=
  (ranked_shutdown options).done_step p move ⟨h, Or.inr hs⟩ hs

/-- The rest of the main thread behind the shutdown, up to its wait for the subscribers. -/
theorem ranked_toAwait (options : ProxyOptions) :
    Lib.Ranked (program options).step mainMover
      (fun p ↦ MainInv options p ∧ Settled p.shared.mProxy.control)
      (fun p ↦ p.shared.stage.awaits = true) (fun _ mover ↦ mover = .caller)
      fun p ↦ p.shared.toAwait := by
  apply Lib.Ranked.single
  · exact fun p move h ↦ ⟨h.1.step move, h.1.settled_step h.2 move⟩
  · intro p move h hawaits
    have hdeparting : Departing options p := ⟨h.1, hawaits⟩
    exact (hdeparting.step move).awaits
  · intro p move h hnot hmove
    obtain ⟨now, rfl⟩ := mainMover_eq_caller.mp hmove
    exact Or.inr (h.1.server.toAwait_step h.2 (by simpa using hnot) now)
  · intro p move h hnot hmove
    obtain ⟨hstage, hcaller⟩ := h.1.other_step fun now he ↦
      hmove (mainMover_eq_caller.mpr ⟨now, he⟩)
    right
    unfold ServerImpl.toAwait
    rw [hstage, hcaller]

/-- A signal leads to the end of the program. -/
theorem interrupted_leadsTo_exited (options : ProxyOptions) :
    Lib.LeadsTo (program options).step Attended
      (fun p ↦ MainInv options p ∧ p.shared.mInterrupted = true)
      fun p ↦ p.shared.stage = .exited := by
  have hcalled := (ranked_toShutdown options).leadsTo
    fun p round mover _ _ (hround : Attended p round) hmover ↦ hround.exists_move fun i hi ↦ by
      rw [hi] at hmover
      cases hmover
  have hsettled := (ranked_shutdown options).leadsTo
    fun p round mover _ _ (hround : Attended p round) hmover ↦
      hround.exists_move fun i hi ↦ hi ▸ hmover
  have hawaits := (ranked_toAwait options).leadsTo
    fun p round mover _ _ (hround : Attended p round) hmover ↦ hround.exists_move fun i hi ↦ by
      rw [hi] at hmover
      cases hmover
  have hexited := (ranked_awaiting options).leadsTo
    fun p round mover _ _ (hround : Attended p round) hmover ↦ hround.exists_awaitMover hmover
  apply (hcalled.trans (.of_imp fun p h ↦ ?_)).trans
  · apply (hsettled.trans (.of_imp fun p h ↦ ?_)).trans
    · apply (hawaits.trans (.of_imp fun p h ↦ ?_)).trans
      · exact hexited.trans (.of_imp fun p h ↦ h.2)
      · exact ⟨h.1.1, h.2⟩
    · exact ⟨h.1.1, h.2⟩
  · exact ⟨h.1.1, h.2⟩

/-- Once a signal has come, the program ends, in every endless run in which the main thread, the
propagator and the clients whose `OnDone` has not returned have their steps in each round, whatever
the clients still send and however the steps are ordered. -/
theorem interrupted_exits {withOTLPGRPC fileExists metricsThrow : Bool} {tree : Option IniFile}
    {now : Int} {server : ServerImpl}
    (hlaunch : launch withOTLPGRPC fileExists tree metricsThrow now = some (options, server))
    (moves : List (Lib.Move Arrival PartyEvent MainEvent))
    (hint : (executed options server moves).shared.mInterrupted = true)
    (rounds : Nat → List (Lib.Move Arrival PartyEvent MainEvent))
    (hrounds : Lib.Rounds (program options).step Attended (executed options server moves) rounds) :
    ∃ n, (Lib.afterRounds (program options).step (executed options server moves) rounds
      n).shared.stage = .exited := by
  obtain ⟨state, hnew, rfl⟩ := launch_eq_some hlaunch
  exact interrupted_leadsTo_exited options _ rounds ⟨mainInv_executed hnew now moves, hint⟩ hrounds

end Runs

section Example

attribute [local instance] x86Platform

/-- A client ends its stream, or goes on with its subscription. -/
def clientTurn (i : Nat) : List (Lib.Move Arrival PartyEvent MainEvent) :=
  [.run i (.publisher .endOfStream), .run i (.subscriber .proceed),
    .run i (.subscriber (.writeDone true))]

/-- A round of the run. -/
def attendedRound : List (Lib.Move Arrival PartyEvent MainEvent) :=
  [.env (.main 0), .env .propagator] ++ clientTurn 0 ++ clientTurn 1

/-- A publisher is admitted, a subscriber waits for packets, and a signal comes. -/
def signalled : List (Lib.Move Arrival PartyEvent MainEvent) :=
  mainSteps 12 0 ++ [.spawn (.publish [])] ++ List.replicate 5 (.run 0 (.publisher .endOfStream)) ++
    [.spawn (.subscribe 1 [])] ++ List.replicate 12 (.run 1 (.subscriber .proceed)) ++
    [.env .signal]

/-- No client comes in these rounds, so that they are attended. -/
theorem rounds_signalled : Lib.Rounds (program sampleOptions.proxyOptions.toProxyOptions).step
    Attended (executed sampleOptions.proxyOptions.toProxyOptions sampleServer signalled)
      fun _ ↦ attendedRound := by
  intro n
  have htwo : (Lib.afterRounds (program sampleOptions.proxyOptions.toProxyOptions).step
      (executed sampleOptions.proxyOptions.toProxyOptions sampleServer signalled)
        (fun _ ↦ attendedRound) n).threads.length = 2 := by
    induction n with
    | zero => decide +kernel
    | succ n ih =>
      rw [Lib.afterRounds]
      simp only [attendedRound, clientTurn, List.cons_append, List.nil_append, List.foldl_cons,
        List.foldl_nil, Lib.Program.length_step_run]
      exact ih
  have turn {i : Nat} (hi : i < 2) {move : Lib.Move Arrival PartyEvent MainEvent}
      (hmove : move ∈ clientTurn i) : move ∈ attendedRound := by
    have hi : i = 0 ∨ i = 1 := by omega
    rcases hi with rfl | rfl
    · exact List.mem_append_left _ (List.mem_append_right _ hmove)
    · exact List.mem_append_right _ hmove
  refine ⟨⟨0, List.mem_cons_self⟩, by simp [attendedRound], ?_, ?_⟩
  · intro i hi _
    rw [htwo] at hi
    exact ⟨.endOfStream, turn hi (by simp [clientTurn])⟩
  · intro i hi _
    rw [htwo] at hi
    exact ⟨turn hi (by simp [clientTurn]), true, turn hi (by simp [clientTurn])⟩

theorem interrupted_exits_signalled : ∃ n,
    (Lib.afterRounds (program sampleOptions.proxyOptions.toProxyOptions).step
      (executed sampleOptions.proxyOptions.toProxyOptions sampleServer signalled)
        (fun _ ↦ attendedRound) n).shared.stage = .exited :=
  interrupted_exits launch_sample signalled (by decide +kernel) (fun _ ↦ attendedRound)
    rounds_signalled

end Example

end ImportProxy.Proxy
