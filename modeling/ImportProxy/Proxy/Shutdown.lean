import ImportProxy.Backend.Lifecycle
import ImportProxy.Proxy.Control

/-!
# What a shutdown keeps

Consequences of the order in which `stop` ends the parts of the proxy, for every schedule
from the constructor on, with `start` and `stop` called at any time: what the detector
lets through reaches every subscriber, a stream that the server completes is complete for
good, and no publisher sends more than the message whose read is outstanding.
-/

namespace ImportProxy.Proxy

open ImportProxy.Base
open ImportProxy.Backend (Writer WriterEvent WriterStep writer_step)
open ImportProxy.Frontend (PublishStep)

variable {s s' : ServiceState} {options : ProxyOptions}

/-- What the propagator has done so far, and the detector with which it goes on. -/
def ServiceState.output (s : ServiceState) :
    List Tagged × List Tagged × List Tagged × Option Detector.DuplicatePacketDetector :=
  (s.proxy.enqueued, s.broadcast, s.dropped, s.proxy.mDuplicateDetector)

/-- `start` and `stop` take no part in the work of the propagator. -/
theorem callerStep_output (s : ServiceState) : (callerStep s).output = s.output := by
  unfold callerStep
  cases s.caller with
  | loadFrontend | shutdown | awaitPublishers | join | loadBackend =>
    dsimp only
    split <;> rfl
  | constructed | storeRunning | startThread | storeManager | storeBackend | buildBackend
  | storeFrontend | storeCounter | buildFrontend | running | clearFrontend | clearCounter
  | clearRunning | stopBackend | stopped => rfl

/-- The destructor hands nothing out. -/
theorem destructorStep_output (s : ServiceState) (step : DestructorStep) :
    (destructorStep s step).output = s.output :=
  destructorStep_cases s step rfl (fun _ ↦ rfl) fun _ ↦ rfl

theorem PublisherStep.mDuplicateDetector_eq {s s' : ProxyState} {i : Nat}
    {publisher publisher' : Publisher} {read : ReadDone}
    (hstep : PublisherStep options s i publisher read s' publisher') :
    s'.mDuplicateDetector = s.mDuplicateDetector := by
  cases hstep <;> rfl

/-- A step of a party takes no part in the work of the propagator. -/
theorem partyStep_output (options : ProxyOptions) (s : ProxyState) (i : Nat) (party : Party)
    (event : PartyEvent) :
    (partyStep options s i party event).1.enqueued = s.enqueued ∧
      (partyStep options s i party event).1.mDuplicateDetector = s.mDuplicateDetector := by
  cases party with
  | publisher publisher =>
    cases event with
    | publisher read =>
      have hstep := publisher_step options s i publisher read
      exact ⟨hstep.enqueued_eq, hstep.mDuplicateDetector_eq⟩
    | subscriber event => exact ⟨rfl, rfl⟩
  | subscriber writer => cases event <;> exact ⟨rfl, rfl⟩

/-- Once the propagator is over, `start` and `stop` leave it so. -/
theorem ServiceInv.over_callerStep (h : ServiceInv s) (hover : PropagatorOver s.control) :
    PropagatorOver (callerStep s).control := by
  have hk := h.control.knows
  obtain ⟨⟨hrun, hserver⟩, hkeep, hthread⟩ := hover
  have notRunning : ¬ s.control.frontendRunning = true := by
    rw [hrun]
    simp
  unfold callerStep
  cases hc : s.caller with
  | constructed | storeRunning | startThread =>
    simp only [Knows, ServiceState.control, hc] at hk
    exact absurd hk.1 notRunning
  | storeManager | storeBackend | buildBackend | storeFrontend | storeCounter | buildFrontend
  | running | clearFrontend =>
    simp only [Knows, ServiceState.control, hc] at hk
    exact absurd hk notRunning
  | loadFrontend | awaitPublishers | join | loadBackend =>
    dsimp only
    split <;> exact ⟨⟨hrun, hserver⟩, hkeep, hthread⟩
  | shutdown =>
    dsimp only
    split
    · exact ⟨⟨hrun, hserver⟩, hkeep, hthread⟩
    · refine ⟨⟨hrun, ?_⟩, hkeep, hthread⟩
      simp [ServiceState.control]
  | clearRunning => exact ⟨⟨hrun, hserver⟩, rfl, hthread⟩
  | clearCounter | stopBackend | stopped => exact ⟨⟨hrun, hserver⟩, hkeep, hthread⟩

/-- `stop` returns behind a propagator that is over, with all its steps taken. -/
theorem ControlInv.knows_stopped {c : Control} (h : ControlInv c) (hc : c.caller = .stopped) :
    PropagatorOver c ∧ c.stopStage = .cleared := by
  have hk := h.knows
  unfold Knows at hk
  rw [hc] at hk
  exact hk

/-- A propagator that is over holds no packet. -/
theorem ControlInv.over_emptyHanded {c : Control} (h : ControlInv c) (hover : PropagatorOver c) :
    c.propagator = .tryPop := by
  apply h.emptyHanded
  intro hwork
  rcases hover.2.2 with ht | ht <;> simp [hwork] at ht

/-- While the propagator is in its loop, the manager takes packets. -/
theorem ServiceInv.manager_running (h : ServiceInv s) (hwork : s.mProxyThread = .working) :
    s.proxy.backend.mSubscriptionManager.mKeepRunning = true := by
  have hstage : s.proxy.backend.stopStage = .notCalled := by
    by_contra hcalled
    obtain ⟨-, -, hthread⟩ := h.control.told hcalled
    simp [ServiceState.control, hwork] at hthread
  rw [h.flags.managerRunning, hstage]
  rfl

/-- The server completes the stream, without an error or a cancellation. -/
def completes (w : Writer Tagged) : Prop :=
  w.status = some ⟨.ok, []⟩ ∨ w.stage.ending = some ⟨.ok, []⟩ ∨
    (w.stage = .stopCancelled ∧ w.cancelled = false)

/-- Outside the steps of leaving, only the status can tell of a completion. -/
theorem status_of_completes {w : Writer Tagged} (hw : completes w)
    (hending : w.stage.ending ≠ some ⟨.ok, []⟩) (hstage : w.stage ≠ .stopCancelled) :
    w.status = some ⟨.ok, []⟩ := by
  rcases hw with hw | hw | ⟨hw, -⟩
  · exact hw
  · exact absurd hw hending
  · exact absurd hw hstage

theorem completes_finish {w : Writer Tagged} {status : Status}
    (hw : completes (w.finish status)) : status = ⟨.ok, []⟩ :=
  Option.some.inj (status_of_completes hw (by simp [Writer.finish, Backend.WriterStage.ending])
    (by simp [Writer.finish]))

theorem completes_leave {w : Writer Tagged} {status : Option Status}
    (hw : completes (w.leave status)) : w.status = some ⟨.ok, []⟩ ∨ status = some ⟨.ok, []⟩ := by
  cases status with
  | none =>
    have hstatus := status_of_completes hw (by simp [Writer.leave, Backend.WriterStage.ending])
      (by simp [Writer.leave])
    exact Or.inl hstatus
  | some status => exact Or.inr (congrArg some (completes_finish hw))

theorem completes_send {w : Writer Tagged} (hw : completes w.send) :
    w.status = some ⟨.ok, []⟩ := by
  unfold Writer.send at hw
  split at hw
  · have hstatus := status_of_completes hw (by simp [Backend.WriterStage.ending]) (by simp)
    exact hstatus
  · have hstatus := status_of_completes hw (by simp [Backend.WriterStage.ending]) (by simp)
    exact hstatus

/-- An RPC gets to its completion only after the backend was told to stop. -/
theorem completes_of_writerStep {options : Backend.BackendOptions}
    {s s' : Backend.BackendState Tagged} {w w' : Writer Tagged} {event : WriterEvent}
    (hstep : WriterStep options s w event s' w') (hw : completes w') :
    completes w ∨ s.mKeepRunning = false := by
  cases hstep with
  | refused | exhausted | failed => exact absurd (completes_finish hw) (by decide)
  | validated | belowMaximum | subscribes | subscribesStopped | subscribed | stored | counted
  | pumps | queueEmpty | fetches | alarm | done | deleted =>
    have hstatus := status_of_completes hw (by simp [Backend.WriterStage.ending]) (by simp)
    exact Or.inl (Or.inl hstatus)
  | pumpsStopped hs hstop => exact Or.inr hstop
  | pumpsCancelled hs hc =>
    rcases hw with hw | hw | ⟨-, hw⟩
    · exact Or.inl (Or.inl hw)
    · cases hw
    · rw [hc] at hw
      cases hw
  | sendsQueued | fetchesStopped | fetchFailed => exact Or.inl (Or.inl (completes_send hw))
  | fetched packetsBuffer manager hs hm =>
    exact Or.inl (Or.inl (completes_send (w := w.pushPackets packetsBuffer) hw))
  | stops hs =>
    left
    rcases hw with hw | hw | ⟨hw, -⟩
    · exact Or.inl hw
    · by_cases hc : w.cancelled = true
      · rw [if_pos hc] at hw
        cases hw
      · exact Or.inr (Or.inr ⟨hs, by simpa using hc⟩)
    · cases hw
  | takesSubscribed status hs | unsubscribes status hs =>
    left
    rcases hw with hw | hw | ⟨hw, -⟩
    · exact Or.inl hw
    · exact Or.inr (Or.inl (by rw [hs]; exact hw))
    · cases hw
  | notSubscribed status hs | unsubscribesStopped status hs | unsubscribed status hs =>
    left
    rcases completes_leave hw with hw | hw
    · exact Or.inl hw
    · exact Or.inr (Or.inl (by rw [hs]; exact hw))
  | writeDone ok hs =>
    have hstatus : w.status = (Backend.onWriteDone w ok).status := by
      unfold Backend.onWriteDone
      split_ifs <;> rfl
    refine Or.inl (Or.inl (hstatus.trans (status_of_completes hw ?_ ?_)))
    · unfold Backend.onWriteDone
      split_ifs <;> simp [Backend.WriterStage.ending, Backend.unexpectedFailure]
    · unfold Backend.onWriteDone
      split_ifs <;> simp
  | cancel =>
    rcases hw with hw | hw | ⟨-, hw⟩
    · exact Or.inl (Or.inl hw)
    · exact Or.inl (Or.inr (Or.inl hw))
    · cases hw
  | waits | notWriting => exact Or.inl hw

/-- A subscriber is completed only behind a propagator that is over. -/
def CompletesOver (c : Control) (party : Party) : Prop :=
  ∀ writer, party = .subscriber writer → completes writer → PropagatorOver c

/-- The step of a party completes it only behind a propagator that is over. -/
theorem completesOver_partyStep (h : ServiceInv s) (i : Nat) {party : Party}
    (hparty : CompletesOver s.control party) (event : PartyEvent) :
    CompletesOver s.control (partyStep options s.proxy i party event).2 := by
  cases party with
  | publisher publisher =>
    intro writer he
    cases event <;> cases he
  | subscriber writer =>
    cases event with
    | publisher read => exact hparty
    | subscriber event =>
      intro writer' he hcompletes
      cases he
      rcases completes_of_writerStep
        (writer_step options.getBackendOptions s.proxy.backend writer event) hcompletes with
        hbefore | hstopped
      · exact hparty writer rfl hbefore
      · apply h.control.told
        intro hstage
        have hstage : s.proxy.backend.stopStage = .notCalled := hstage
        rw [h.flags.running, hstage] at hstopped
        cases hstopped

/-- The packets that were passed to the backend are those that were handed to the subscribers,
and the one that is about to be. -/
def AllBroadcast (s : ServiceState) : Prop :=
  s.proxy.enqueued = s.broadcast ++ s.proxy.propagator.undelivered

theorem AllBroadcast.congr (hall : AllBroadcast s) (houtput : s'.output = s.output)
    (hpropagator : s'.proxy.propagator = s.proxy.propagator) : AllBroadcast s' := by
  have henqueued : s'.proxy.enqueued = s.proxy.enqueued := congrArg Prod.fst houtput
  have hbroadcast : s'.broadcast = s.broadcast := congrArg (fun output ↦ output.2.1) houtput
  unfold AllBroadcast
  rw [henqueued, hbroadcast, hpropagator]
  exact hall

/-- A read of the publisher is outstanding. -/
def awaitsRead : Option Party → Bool
  | some (.publisher publisher) => publisher.call.isNone && publisher.rpc.stage == .reading
  | _ => false

/-- The messages of a position so far, and the one that its outstanding read may still bring. -/
def mayHaveSent (party : Option Party) : Nat :=
  (sentBy party).length + if awaitsRead party then 1 else 0

/-- A frontend that was told to stop starts no read. -/
theorem stage_ne_reading {options : Frontend.FrontendOptions} {s s' : Frontend.FrontendState}
    {rpc rpc' : Frontend.PublishRpc} (hstep : PublishStep options s rpc s' rpc')
    (hstop : s.mKeepRunning = false) : rpc'.stage ≠ .reading := by
  cases hstep with
  | reads hs hrun =>
    rw [hstop] at hrun
    cases hrun
  | gone hs => simp [hs]
  | belowMaximum | exhausted | validated | refused | registered | finishes | leaves
  | leavesStopped | released | reloaded => simp [Frontend.PublishRpc.finish]

/-- Once the frontend was told to stop, no step of a publisher adds to what it may send. -/
theorem PublisherStep.mayHaveSent_le {s s' : ProxyState} {i : Nat}
    {publisher publisher' : Publisher} {read : ReadDone}
    (hstep : PublisherStep options s i publisher read s' publisher')
    (hstop : s.frontend.mKeepRunning = false) :
    mayHaveSent (some (.publisher publisher')) ≤ mayHaveSent (some (.publisher publisher)) := by
  unfold mayHaveSent sentBy awaitsRead
  cases hstep with
  | adds _ call call' importQueue hc hs hadd => simp [hc]
  | resumes _ call pushed frontend rpc hc hs hrpc => simp [hc, stage_ne_reading hrpc hstop]
  | calls message packet hc hs hf => simp [hc, hs]
  | rejects message frontend rpc hc hs hf hrpc => simp [hc, hs, stage_ne_reading hrpc hstop]
  | ends frontend rpc hc hs hrpc => simp [hs, stage_ne_reading hrpc hstop]
  | proceeds _ frontend rpc hc hs hrpc => simp [stage_ne_reading hrpc hstop]

theorem mayHaveSent_partyStep_le (s : ProxyState) (hstop : s.frontend.mKeepRunning = false)
    (i : Nat) (party : Party) (event : PartyEvent) :
    mayHaveSent (some (partyStep options s i party event).2) ≤ mayHaveSent (some party) := by
  cases party with
  | publisher publisher =>
    cases event with
    | publisher read => exact (publisher_step options s i publisher read).mayHaveSent_le hstop
    | subscriber event => exact Nat.le_refl _
  | subscriber writer => cases event <;> exact Nat.le_refl _

/-- A frontend that was told to stop is not started again. -/
theorem ServiceInv.frontend_stays (h : ServiceInv s)
    (hstop : s.proxy.frontend.mKeepRunning = false) :
    (callerStep s).proxy.frontend.mKeepRunning = false := by
  have hk := h.control.knows
  unfold callerStep
  cases hc : s.caller with
  | storeFrontend =>
    simp only [Knows, ServiceState.control, hc, hstop] at hk
    cases hk
  | loadFrontend | shutdown | awaitPublishers | join | loadBackend =>
    dsimp only
    split <;> exact hstop
  | clearFrontend => rfl
  | constructed | storeRunning | startThread | storeManager | storeBackend | buildBackend
  | storeCounter | buildFrontend | running | clearCounter | clearRunning | stopBackend
  | stopped => exact hstop

section Runs

variable [Platform]

/-- A step of a client takes no part in the work of the propagator. -/
theorem ClientStep.output_eq {i : Nat} {client client' : Client} {event : PartyEvent}
    (hstep : ClientStep options s i client event s' client') : s'.output = s.output := by
  cases hstep with
  | waits | connects => rfl
  | steps party party' event proxy hstep =>
    obtain ⟨henqueued, hdetector⟩ := partyStep_output options s.proxy i party event
    rw [hstep] at henqueued hdetector
    dsimp only at henqueued hdetector
    simp only [ServiceState.output, henqueued, hdetector]

/-- Once the propagator is over, the environment leaves it so, and its work is done. -/
theorem ServiceInv.over_env (h : ServiceInv s) (hover : PropagatorOver s.control)
    (options : ProxyOptions) (event : ServiceEvent) :
    PropagatorOver ((service options).env s event).control ∧
      ((service options).env s event).output = s.output := by
  cases event with
  | propagator =>
    have hsame : threadStep s = s := by
      unfold threadStep
      rcases hover.2.2 with ht | ht
      · have ht : s.mProxyThread = .notStarted := ht
        rw [ht]
      · have ht : s.mProxyThread = .exited := ht
        rw [ht]
    show PropagatorOver (threadStep s).control ∧ (threadStep s).output = s.output
    rw [hsame]
    exact ⟨hover, rfl⟩
  | start =>
    show PropagatorOver (callStart s).control ∧ (callStart s).output = s.output
    unfold callStart
    split <;> exact ⟨hover, rfl⟩
  | stop =>
    show PropagatorOver (callStop s).control ∧ (callStop s).output = s.output
    unfold callStop
    split <;> exact ⟨hover, rfl⟩
  | caller => exact ⟨h.over_callerStep hover, callerStep_output s⟩
  | destructor step =>
    refine ⟨?_, destructorStep_output s step⟩
    show PropagatorOver (destructorStep s step).control
    rw [destructorStep_control]
    exact hover

/-- Once the propagator is over, it stays over, and its work is done. -/
theorem stable_over (options : ProxyOptions)
    (output : List Tagged × List Tagged × List Tagged × Option Detector.DuplicatePacketDetector) :
    (service options).Stable
      (fun s ↦ ServiceInv s ∧ PropagatorOver s.control ∧ s.output = output)
      fun _ _ _ ↦ True where
  start _ _ _ _ := trivial
  act s i client event hs _ := by
    obtain ⟨h, hover, houtput⟩ := hs
    have hstep := client_step options s i client event
    obtain ⟨hinv, hcontrol⟩ := h.client hstep
    refine ⟨⟨hinv, ?_, hstep.output_eq.trans houtput⟩, trivial⟩
    show PropagatorOver (clientStep options s i client event).1.control
    rw [hcontrol]
    exact hover
  other _ _ _ _ _ _ _ _ _ _ := trivial
  env s event hs := by
    obtain ⟨h, hover, houtput⟩ := hs
    obtain ⟨hover', houtput'⟩ := h.over_env hover options event
    exact ⟨h.env event, hover', houtput'.trans houtput⟩
  envThread _ _ _ _ _ _ := trivial

/-- Once the propagator is over, no move changes what it has done. -/
theorem output_after (options : ProxyOptions) {s : Lib.Pool ServiceState Client}
    (h : ServiceInv s.shared) (hover : PropagatorOver s.shared.control)
    (moves : List (Lib.Move Arrival PartyEvent ServiceEvent)) :
    ((service options).after s moves).shared.output = s.shared.output := by
  have hinit : Lib.Program.Holds (fun s' ↦ ServiceInv s' ∧ PropagatorOver s'.control ∧
      s'.output = s.shared.output) (fun _ _ _ ↦ True) s :=
    ⟨⟨h, hover, rfl⟩, fun _ _ _ ↦ trivial⟩
  exact ((stable_over options s.shared.output).after hinit moves).1.2.2

/-- Every step of the propagator's thread keeps the packets that were handed out up to date. -/
theorem AllBroadcast.thread_step (hall : AllBroadcast s) (h : ServiceInv s) :
    AllBroadcast (threadStep s) := by
  unfold threadStep
  cases ht : s.mProxyThread with
  | notStarted | exited | loadRunning => exact hall
  | working =>
    have hmanager := h.manager_running ht
    have hstep := propagator_step s.proxy
    unfold AllBroadcast at hall ⊢
    dsimp only
    generalize propagatorStep s.proxy = proxy at hstep
    cases hstep with
    | sleeps hs hempty =>
      rw [hs] at hall ⊢
      simpa [PropagatorStage.undelivered] using hall
    | pops packet importQueue hs | unchecked packet hs | allowed packet detector hs
    | dropped packet detector hs =>
      rw [hs] at hall ⊢
      simpa [PropagatorStage.undelivered] using hall
    | enqueues packet hs hrun =>
      rw [hs] at hall ⊢
      simp only [PropagatorStage.undelivered, List.append_nil] at hall ⊢
      rw [hall]
    | enqueuesStopped packet hs hstop =>
      rw [hmanager] at hstop
      cases hstop
    | broadcasts packet hs =>
      rw [hs] at hall ⊢
      simpa [PropagatorStage.undelivered] using hall

/-- The promises of a shutdown are stable. -/
theorem stable_shutdown (options : ProxyOptions) :
    (service options).Stable (fun s ↦ ServiceInv s ∧ AllBroadcast s)
      fun s _ client ↦ CompletesOver s.control (client.party options) where
  start s i arrival h writer he hcompletes := by
    cases arrival with
    | publish clientMetadata => cases he
    | subscribe contextAddress clientMetadata =>
      cases he
      rcases hcompletes with hw | hw | ⟨hw, -⟩ <;> cases hw
  act s i client event h hclient := by
    have hstep := client_step options s i client event
    obtain ⟨hinv, hcontrol⟩ := h.1.client hstep
    have hpropagator := congrArg Control.propagator hcontrol
    show (ServiceInv (clientStep options s i client event).1 ∧
      AllBroadcast (clientStep options s i client event).1) ∧
      CompletesOver (clientStep options s i client event).1.control _
    rw [hcontrol]
    refine ⟨⟨hinv, h.2.congr hstep.output_eq hpropagator⟩, ?_⟩
    rcases hstep.party_step with ⟨-, hparty⟩ | ⟨-, hparty⟩
    · show CompletesOver s.control ((clientStep options s i client event).2.party options)
      rw [hparty]
      exact completesOver_partyStep h.1 i hclient event
    · show CompletesOver s.control ((clientStep options s i client event).2.party options)
      rw [hparty]
      exact hclient
  other s i client j other event hij h hclient hother := by
    obtain ⟨-, hcontrol⟩ := h.1.client (client_step options s i client event)
    show CompletesOver (clientStep options s i client event).1.control _
    rw [hcontrol]
    exact hother
  env s event h := by
    refine ⟨h.1.env event, ?_⟩
    cases event with
    | propagator => exact h.2.thread_step h.1
    | start =>
      show AllBroadcast (callStart s)
      unfold callStart
      split <;> exact h.2
    | stop =>
      show AllBroadcast (callStop s)
      unfold callStop
      split <;> exact h.2
    | caller => exact h.2.congr (callerStep_output s) (interferes_callerStep s).propagator
    | destructor step =>
      exact h.2.congr (destructorStep_output s step) (interferes_destructorStep s step).propagator
  envThread s event i client h hclient writer he hcompletes :=
    (h.1.over_env (hclient writer he hcompletes) options event).1

/-- Once the frontend was told to stop, no position may send more than before. -/
theorem stableAt_mayHaveSent (options : ProxyOptions) (most : Nat → Nat) :
    (service options).StableAt
      (fun s ↦ ServiceInv s ∧ s.proxy.frontend.mKeepRunning = false)
      fun _ i client ↦ mayHaveSent (client.map (Client.party options)) ≤ most i where
  start s i arrival h hi := by
    have hnone : mayHaveSent (some ((proxy options).start arrival)) = 0 := by
      cases arrival <;> rfl
    show mayHaveSent (some ((proxy options).start arrival)) ≤ most i
    rw [hnone]
    exact Nat.zero_le _
  act s i client event h hi := by
    have hstep := client_step options s i client event
    obtain ⟨hinv, hcontrol⟩ := h.1.client hstep
    refine ⟨⟨hinv, (congrArg Control.frontendRunning hcontrol).trans h.2⟩, ?_⟩
    show mayHaveSent (some ((clientStep options s i client event).2.party options)) ≤ most i
    rcases hstep.party_step with ⟨-, hparty⟩ | ⟨-, hparty⟩
    · rw [hparty]
      exact (mayHaveSent_partyStep_le s.proxy h.2 i (client.party options) event).trans hi
    · rw [hparty]
      exact hi
  other _ _ _ _ _ _ _ _ _ hj := hj
  env s event h := by
    refine ⟨h.1.env event, ?_⟩
    cases event with
    | propagator =>
      show (threadStep s).proxy.frontend.mKeepRunning = false
      rcases threadStep_proxy s with he | he
      · rw [he, (propagator_step s.proxy).ends_eq.1]
        exact h.2
      · rw [he]
        exact h.2
    | start =>
      show (callStart s).proxy.frontend.mKeepRunning = false
      rw [callStart_proxy]
      exact h.2
    | stop =>
      show (callStop s).proxy.frontend.mKeepRunning = false
      rw [callStop_proxy]
      exact h.2
    | caller => exact h.1.frontend_stays h.2
    | destructor step =>
      exact (congrArg Control.frontendRunning (destructorStep_control s step)).trans h.2
  envThread _ _ _ _ _ hi := hi

variable {state : ProxyState}

/-- The promises of a shutdown hold throughout. -/
theorem holds_shutdown (hnew : ProxyState.new options = .ok state)
    (moves : List (Lib.Move Arrival PartyEvent ServiceEvent)) :
    Lib.Program.Holds (fun s ↦ ServiceInv s ∧ AllBroadcast s)
      (fun s _ client ↦ CompletesOver s.control (client.party options))
      (served options state moves) := by
  obtain ⟨henqueued, htry, -, -⟩ := ProxyState.new_spec hnew
  have hall : AllBroadcast { proxy := state } := by
    simp [AllBroadcast, henqueued, htry, PropagatorStage.undelivered]
  have hinit : Lib.Program.Holds (fun s ↦ ServiceInv s ∧ AllBroadcast s)
      (fun s _ client ↦ CompletesOver s.control (client.party options))
      (⟨{ proxy := state }, []⟩ : Lib.Pool ServiceState Client) :=
    ⟨⟨serviceInv_new hnew, hall⟩, fun i client hclient ↦ absurd hclient (by simp)⟩
  exact (stable_shutdown options).after hinit moves

/-- The service hands on what it lets through. -/
structure HandedOn (s : ServiceState) : Prop where
  /-- What was passed to the backend has reached every subscriber, but for the packet that the
  propagator is about to hand over. -/
  all : s.proxy.enqueued = s.broadcast ++ s.proxy.propagator.undelivered
  /-- The backend takes packets as long as the propagator holds one. -/
  running : s.proxy.propagator ≠ .tryPop →
    s.proxy.backend.mSubscriptionManager.mKeepRunning = true
  /-- When `stop` has returned, nothing is left in the hands of the propagator. -/
  stopped : s.caller = .stopped → s.proxy.enqueued = s.broadcast

/-- In every run, with `start` and `stop` called at any time, what the detector lets through is
handed to every subscriber. -/
theorem handedOn (hnew : ProxyState.new options = .ok state)
    (moves : List (Lib.Move Arrival PartyEvent ServiceEvent)) :
    HandedOn (served options state moves).shared := by
  obtain ⟨⟨hinv, hall⟩, -⟩ := holds_shutdown hnew moves
  constructor
  · exact hall
  · intro hholds
    apply hinv.manager_running
    by_contra hwork
    exact hholds (hinv.control.emptyHanded hwork)
  · intro hc
    have htry : (served options state moves).shared.proxy.propagator = .tryPop :=
      hinv.control.over_emptyHanded (hinv.control.knows_stopped hc).1
    unfold AllBroadcast at hall
    rw [hall, htry]
    exact List.append_nil _

/-- When the server has completed the stream of a subscriber, the sequence that its packets come
from is final: no later move hands anything to any subscriber. -/
theorem completed_final (hnew : ProxyState.new options = .ok state)
    (moves moves' : List (Lib.Move Arrival PartyEvent ServiceEvent)) (writer : Writer Tagged)
    (hmem : Client.connected (.subscriber writer) ∈ (served options state moves).threads)
    (hok : writer.status = some ⟨.ok, []⟩) :
    (served options state (moves ++ moves')).shared.broadcast =
        (served options state moves).shared.broadcast ∧
      (served options state (moves ++ moves')).shared.proxy.enqueued =
        (served options state moves).shared.proxy.enqueued := by
  have hholds := holds_shutdown hnew moves
  have hover : PropagatorOver (served options state moves).shared.control :=
    hholds.of_mem hmem writer rfl (Or.inl hok)
  have houtput := output_after options hholds.1.1 hover moves'
  have hafter : served options state (moves ++ moves') =
      (service options).after (served options state moves) moves' :=
    Lib.Program.after_append moves moves'
  rw [hafter]
  exact ⟨congrArg (fun output ↦ output.2.1) houtput, congrArg Prod.fst houtput⟩

/-- The party at a position, if a client has come there. -/
def partyAt (options : ProxyOptions) (s : Lib.Pool ServiceState Client) (i : Nat) :
    Option Party := s.threads[i]?.map (Client.party options)

/-- After `stop` has cleared `mKeepRunning` of the frontend, a publisher whose read is outstanding
sends one more message at most, and every other publisher, present or to come, sends none. -/
theorem lastMessages (hnew : ProxyState.new options = .ok state)
    (moves moves' : List (Lib.Move Arrival PartyEvent ServiceEvent))
    (hstop : (served options state moves).shared.proxy.frontend.mKeepRunning = false) (i : Nat) :
    (sentBy (partyAt options (served options state (moves ++ moves')) i)).length ≤
      (sentBy (partyAt options (served options state moves) i)).length +
        if awaitsRead (partyAt options (served options state moves) i) then 1 else 0 := by
  have hinit : Lib.Program.HoldsAt
      (fun s ↦ ServiceInv s ∧ s.proxy.frontend.mKeepRunning = false)
      (fun _ i client ↦ mayHaveSent (client.map (Client.party options)) ≤
        mayHaveSent (partyAt options (served options state moves) i))
      (served options state moves) :=
    ⟨⟨serviceInv_served hnew moves, hstop⟩, fun _ ↦ Nat.le_refl _⟩
  have hafter : served options state (moves ++ moves') =
      (service options).after (served options state moves) moves' :=
    Lib.Program.after_append moves moves'
  have hmost := ((stableAt_mayHaveSent options _).after hinit moves').2 i
  rw [← hafter] at hmost
  exact (Nat.le_add_right _ _).trans hmost

end Runs

section Example

attribute [local instance] x86Platform

/-- The publisher reads a message and calls back. -/
def sendsMessage : List (Lib.Move Arrival PartyEvent ServiceEvent) :=
  .run 0 (.publisher (.message (Detector.testPacket 0 100 100))) ::
    List.replicate 3 (.run 0 (.publisher .endOfStream))

/-- The proxy is started, a publisher and a subscriber connect, and a message is handed on. -/
def handsOn : List (Lib.Move Arrival PartyEvent ServiceEvent) :=
  [.env .start] ++ List.replicate 8 (.env .caller) ++
    [.spawn (.publish []), .spawn (.subscribe 1 [])] ++
    List.replicate 5 (.run 0 (.publisher .endOfStream)) ++
    List.replicate 7 (.run 1 (.subscriber .proceed)) ++
    sendsMessage ++ List.replicate 5 (.env .propagator)

/-- `stop` is called, and tells the frontend to stop. -/
def stopsFrontend : List (Lib.Move Arrival PartyEvent ServiceEvent) :=
  [.env .stop] ++ List.replicate 2 (.env .caller)

/-- The publisher ends its stream, `stop` returns, and the subscriber is completed. -/
def stopsRest : List (Lib.Move Arrival PartyEvent ServiceEvent) :=
  [.env .caller] ++ List.replicate 2 (.run 0 (.publisher .endOfStream)) ++
    List.replicate 3 (.env .caller) ++ List.replicate 2 (.env .propagator) ++
    List.replicate 6 (.env .caller) ++ List.replicate 4 (.run 1 (.subscriber .proceed))

theorem handedOn_stopped :
    HandedOn (served tenHeaders tenHeadersProxy (handsOn ++ stopsFrontend ++ stopsRest)).shared :=
  handedOn rfl (handsOn ++ stopsFrontend ++ stopsRest)

/-- The subscriber of the run above, completed by the server. -/
def completedSubscriber : Writer Tagged where
  contextAddress := 1
  clientMetadata := []
  stage := .finished
  status := some ⟨.ok, []⟩

theorem completed_final_stopped :
    (served tenHeaders tenHeadersProxy (handsOn ++ stopsFrontend ++ stopsRest ++ handsOn)
        ).shared.broadcast =
      (served tenHeaders tenHeadersProxy (handsOn ++ stopsFrontend ++ stopsRest)
        ).shared.broadcast ∧
    (served tenHeaders tenHeadersProxy (handsOn ++ stopsFrontend ++ stopsRest ++ handsOn)
        ).shared.proxy.enqueued =
      (served tenHeaders tenHeadersProxy (handsOn ++ stopsFrontend ++ stopsRest)
        ).shared.proxy.enqueued :=
  completed_final rfl (handsOn ++ stopsFrontend ++ stopsRest) handsOn completedSubscriber
    (by decide +kernel) rfl

theorem lastMessages_stopped :
    (sentBy (partyAt tenHeaders (served tenHeaders tenHeadersProxy
        (handsOn ++ stopsFrontend ++ sendsMessage)) 0)).length ≤
      (sentBy (partyAt tenHeaders (served tenHeaders tenHeadersProxy
          (handsOn ++ stopsFrontend)) 0)).length +
        if awaitsRead (partyAt tenHeaders (served tenHeaders tenHeadersProxy
          (handsOn ++ stopsFrontend)) 0) then 1 else 0 :=
  lastMessages rfl (handsOn ++ stopsFrontend) sendsMessage (by decide +kernel) 0

end Example
end ImportProxy.Proxy
