import ImportProxy.Lib.Rounds
import ImportProxy.Proxy.Stopped

/-!
# The end of a shutdown

`stop` waits twice: for the RPCs of the publishers and for the propagator. Behind a frontend
that was told to stop, every step of a publisher brings it nearer to its `OnDone`, whatever its
reads end in, although a call may have to evict again and again when others fill the queue; and
every step of the propagator brings it nearer to the end of its loop. One rank for all of them
bounds the rounds until `stop` returns.
-/

namespace ImportProxy.Proxy

open ImportProxy.Base
open ImportProxy.Frontend (PublishStep)

/-- The steps that a call has left, when no other call interferes: an eviction makes room for one
packet, and pays for the further look at the size. -/
def AddStage.left : AddStage → Nat
  | .readSize => 7
  | .evict => 6
  | .push => 5
  | .returned _ => 0

/-- The steps that an RPC has left behind a frontend that was told to stop; an outstanding read may
bring one more message. -/
def publishLeft : Frontend.PublishStage → Nat
  | .loadCounter => 7
  | .authenticate => 6
  | .register => 5
  | .loadRunning => 4
  | .reading => 13
  | .finished => 3
  | .release => 2
  | .reload => 1
  | .deleted => 0

/-- The steps that a publisher has left. -/
def Publisher.left (publisher : Publisher) : Nat :=
  match publisher.call with
  | some call => call.stage.left + 5
  | none => publishLeft publisher.rpc.stage

/-- The steps that a client has left before `Shutdown` need not wait for it. -/
def Client.left : Client → Nat
  | .connected (.publisher publisher) => publisher.left
  | .connected (.subscriber _) | .connecting _ => 0

/-- The steps that the propagator has left for the packet that it holds. -/
def PropagatorStage.left : PropagatorStage → Nat
  | .check _ => 3
  | .enqueue _ => 2
  | .broadcast _ => 1
  | .tryPop => 0

/-- The steps that the propagator's thread has left outside the body of its loop, once it is told
to stop. -/
def threadLeft (mKeepRunning : Bool) (thread : ThreadStage) : Nat :=
  if mKeepRunning then 3
  else
    match thread with
    | .working => 2
    | .loadRunning => 1
    | .notStarted | .exited => 0

/-- The steps that `Backend::stop` has left. -/
def stopLeft : Backend.StopStage → Nat
  | .notCalled => 4
  | .storedRunning => 3
  | .storedManager => 2
  | .counted => 1
  | .cleared => 0

/-- The steps that the calling thread has left from `Shutdown` on. -/
def callerLeft (stage : Backend.StopStage) : CallerStage → Nat
  | .awaitPublishers => 10
  | .clearCounter => 9
  | .clearRunning => 8
  | .join => 7
  | .loadBackend => 6
  | .stopBackend => stopLeft stage + 1
  | _ => 0

/-- The rank of the shared state: a packet in the queue costs the propagator one step more than a
packet that it holds. -/
def ServiceState.left (s : ServiceState) : Nat :=
  callerLeft s.proxy.backend.stopStage s.caller + threadLeft s.mKeepRunning s.mProxyThread +
    s.proxy.propagator.left + 4 * s.proxy.importQueue.mImportExportQueue.size

/-- The rank of a service. -/
def left (s : Lib.Pool ServiceState Client) : Nat :=
  s.shared.left + (s.threads.map Client.left).sum

variable {s s' : ServiceState} {options : ProxyOptions} {i : Nat}

/-- Every step of a call brings it nearer to its end, with what it leaves in the queue. -/
theorem AddStep.left_lt {queue queue' : ImportQueue Tagged} {call call' : AddCall Tagged}
    (hstep : AddStep queue call queue' call') (hs : ∀ pushed, call.stage ≠ .returned pushed) :
    call'.stage.left + 4 * queue'.mImportExportQueue.size <
      call.stage.left + 4 * queue.mImportExportQueue.size := by
  cases hstep with
  | full h | room h | nothing h | dropped h =>
    simp only [h, AddStage.left]
    omega
  | evicted h workSpace queue hpop hcap =>
    simp only [h, AddStage.left, Lib.Fifo.size, hpop, List.length_cons]
    omega
  | pushed h queue hroom hpush hcap =>
    simp only [h, AddStage.left, Lib.Fifo.size, hpush, List.length_append, List.length_singleton]
    omega
  | gone pushed h => exact absurd h (hs pushed)

/-- Behind a frontend that was told to stop, every step of an RPC brings it nearer to its end. -/
theorem publishLeft_lt {options : Frontend.FrontendOptions} {s s' : Frontend.FrontendState}
    {rpc rpc' : Frontend.PublishRpc} (hstep : PublishStep options s rpc s' rpc')
    (hstop : s.mKeepRunning = false) (hs : rpc.stage ≠ .deleted) :
    publishLeft rpc'.stage < publishLeft rpc.stage := by
  cases hstep with
  | reads h hrun | leaves h hrun =>
    rw [hstop] at hrun
    cases hrun
  | finishes status h =>
    rcases h with h | h <;> simp [h, Frontend.PublishRpc.finish, publishLeft]
  | gone h => exact absurd h hs
  | belowMaximum h | exhausted h | validated h | refused h | registered h | leavesStopped h
  | released h | reloaded h => simp [h, Frontend.PublishRpc.finish, publishLeft]

/-- A read that has ended is the last one. -/
theorem publishLeft_of_reading {options : Frontend.FrontendOptions}
    {s s' : Frontend.FrontendState} {rpc rpc' : Frontend.PublishRpc}
    (hstep : PublishStep options s rpc s' rpc') (hstop : s.mKeepRunning = false)
    (hs : rpc.stage = .reading) : publishLeft rpc'.stage = 3 := by
  cases hstep with
  | reads h hrun | leaves h hrun =>
    rw [hstop] at hrun
    cases hrun
  | finishes status h => rfl
  | belowMaximum h | exhausted h | validated h | refused h | registered h | leavesStopped h
  | released h | reloaded h | gone h => simp [hs] at h

/-- Every step of a publisher brings it nearer to its end, with what it leaves in the queue. -/
theorem PublisherStep.left_lt {proxy proxy' : ProxyState} {publisher publisher' : Publisher}
    {read : ReadDone} (hstep : PublisherStep options proxy i publisher read proxy' publisher')
    (hcalls : CallsReading (.publisher publisher)) (hstop : proxy.frontend.mKeepRunning = false)
    (hs : publisher.rpc.stage ≠ .deleted) :
    publisher'.left + 4 * proxy'.importQueue.mImportExportQueue.size <
      publisher.left + 4 * proxy.importQueue.mImportExportQueue.size := by
  cases hstep with
  | adds _ call call' importQueue hc hret hadd =>
    have hlt := hadd.left_lt hret
    simp only [Publisher.left, hc]
    omega
  | resumes _ call pushed frontend rpc hc hret hrpc =>
    have hleft := publishLeft_of_reading hrpc hstop (hcalls publisher call rfl hc)
    simp only [Publisher.left, hc, hret, AddStage.left, hleft]
    omega
  | calls message packet hc hreading hf =>
    simp only [Publisher.left, hc, hreading, AddStage.left, publishLeft]
    omega
  | rejects message frontend rpc hc hreading hf hrpc =>
    have hlt := publishLeft_lt hrpc hstop hs
    simp only [Publisher.left, hc]
    omega
  | ends frontend rpc hc hreading hrpc =>
    have hlt := publishLeft_lt hrpc hstop hs
    simp only [Publisher.left, hc]
    omega
  | proceeds _ frontend rpc hc hreading hrpc =>
    have hlt := publishLeft_lt hrpc hstop hs
    simp only [Publisher.left, hc]
    omega

/-- The first call of `stop` has called `Shutdown`, and has not returned. -/
def Shutting (c : Control) : Prop :=
  FrontendStopped c ∧ c.stopStage ≠ .cleared ∧
    (c.caller = .awaitPublishers ∨ c.caller = .clearCounter ∨ c.caller = .clearRunning ∨
      c.caller = .join ∨ c.caller = .loadBackend ∨ c.caller = .stopBackend)

/-- The propagator does not matter here. -/
theorem Shutting.congr {c c' : Control} (h : Shutting c)
    (hrun : c'.frontendRunning = c.frontendRunning) (hserver : c'.frontendServer = c.frontendServer)
    (hstage : c'.stopStage = c.stopStage) (hcaller : c'.caller = c.caller) : Shutting c' := by
  unfold Shutting FrontendStopped at h ⊢
  rw [hrun, hserver, hstage, hcaller]
  exact h

/-- The calling thread goes on, or `stop` returns. -/
theorem Shutting.caller_step (h : Shutting s.control) :
    Shutting (callerStep s).control ∨ (callerStep s).caller = .stopped := by
  obtain ⟨hstopped, hstage, hcaller⟩ := h
  have hcaller : s.caller = .awaitPublishers ∨ s.caller = .clearCounter ∨
    s.caller = .clearRunning ∨ s.caller = .join ∨ s.caller = .loadBackend ∨
      s.caller = .stopBackend := hcaller
  unfold callerStep
  rcases hcaller with hc | hc | hc | hc | hc | hc
  · simp only [hc]
    split
    · exact Or.inl ⟨hstopped, hstage, by simp [ServiceState.control]⟩
    · exact Or.inl ⟨hstopped, hstage, by simp [ServiceState.control, hc]⟩
  · simp only [hc]
    exact Or.inl ⟨hstopped, hstage, by simp [ServiceState.control]⟩
  · simp only [hc]
    exact Or.inl ⟨hstopped, hstage, by simp [ServiceState.control]⟩
  · simp only [hc]
    split
    · exact Or.inl ⟨hstopped, hstage, by simp [ServiceState.control]⟩
    · exact Or.inl ⟨hstopped, hstage, by simp [ServiceState.control, hc]⟩
  · simp only [hc]
    split
    · exact Or.inl ⟨hstopped, hstage, by simp [ServiceState.control]⟩
    · exact Or.inr rfl
  · simp only [hc]
    by_cases hcleared : (Backend.stopStep s.proxy.backend).stopStage = .cleared
    · rw [if_pos hcleared]
      exact Or.inr rfl
    · rw [if_neg hcleared]
      exact Or.inl ⟨hstopped, hcleared, by simp [ServiceState.control]⟩

/-- The calling thread does not wait. -/
def CallerHelps (s : ServiceState) : Prop :=
  (s.caller = .awaitPublishers → s.outstanding = 0) ∧
    (s.caller = .join → s.mProxyThread = .notStarted ∨ s.mProxyThread = .exited)

/-- A calling thread that waits stays where it is. -/
theorem callerStep_of_not_helps (hno : ¬CallerHelps s) : callerStep s = s := by
  unfold CallerHelps at hno
  unfold callerStep
  by_cases hawait : s.caller = .awaitPublishers
  · have hout : s.outstanding ≠ 0 := by
      intro hzero
      exact hno ⟨fun _ ↦ hzero, fun hjoin ↦ by simp [hawait] at hjoin⟩
    simp only [hawait]
    rw [if_neg hout]
  · by_cases hjoin : s.caller = .join
    · have hthread : ¬(s.mProxyThread = .notStarted ∨ s.mProxyThread = .exited) := by
        intro hthread
        exact hno ⟨fun hx ↦ absurd hx hawait, fun _ ↦ hthread⟩
      simp only [hjoin]
      rw [if_neg hthread]
    · exact absurd ⟨fun hx ↦ absurd hx hawait, fun hx ↦ absurd hx hjoin⟩ hno

/-- The next step of `Backend::stop` brings it nearer to its end. -/
theorem stopLeft_stopStep (backend : Backend.BackendState Tagged) :
    stopLeft (Backend.stopStep backend).stopStage ≤ stopLeft backend.stopStage - 1 := by
  unfold Backend.stopStep
  cases hs : backend.stopStage <;> simp [stopLeft, hs]

/-- A calling thread that does not wait brings `stop` nearer to its end. -/
theorem Shutting.left_caller_step (h : Shutting s.control) (hhelps : CallerHelps s) :
    (callerStep s).caller = .stopped ∨ (callerStep s).left < s.left := by
  obtain ⟨-, -, hcaller⟩ := h
  obtain ⟨hout, hthread⟩ := hhelps
  have hcaller : s.caller = .awaitPublishers ∨ s.caller = .clearCounter ∨
    s.caller = .clearRunning ∨ s.caller = .join ∨ s.caller = .loadBackend ∨
      s.caller = .stopBackend := hcaller
  unfold callerStep ServiceState.left
  rcases hcaller with hc | hc | hc | hc | hc | hc
  · simp only [hc, if_pos (hout hc), callerLeft]
    omega
  · simp only [hc, callerLeft]
    omega
  · have hle : threadLeft false s.mProxyThread ≤ threadLeft s.mKeepRunning s.mProxyThread := by
      unfold threadLeft
      cases s.mKeepRunning <;> cases s.mProxyThread <;> simp
    simp only [hc, callerLeft]
    omega
  · simp only [hc, if_pos (hthread hc), callerLeft]
    omega
  · simp only [hc]
    split
    · have hle : stopLeft s.proxy.backend.stopStage ≤ 4 := by
        cases s.proxy.backend.stopStage <;> simp [stopLeft]
      simp only [callerLeft]
      omega
    · exact Or.inl rfl
  · simp only [hc]
    by_cases hcleared : (Backend.stopStep s.proxy.backend).stopStage = .cleared
    · rw [if_pos hcleared]
      exact Or.inl rfl
    · have hle := stopLeft_stopStep s.proxy.backend
      have hpos : 0 < stopLeft (Backend.stopStep s.proxy.backend).stopStage := by
        cases hs : (Backend.stopStep s.proxy.backend).stopStage <;> simp_all [stopLeft]
      rw [if_neg hcleared]
      simp only [callerLeft]
      omega

/-- Who takes a step that may have to be waited for. -/
inductive Mover where
  | caller
  | propagator
  | publisher (i : Nat)
  deriving DecidableEq, Repr

/-- The one who moves; the subscribers and the calls themselves are not waited for. -/
def mover : Lib.Move Arrival PartyEvent ServiceEvent → Option Mover
  | .env .caller => some .caller
  | .env .propagator => some .propagator
  | .run i (.publisher _) => some (.publisher i)
  | .env .start | .env .stop | .env (.destructor _) | .run _ (.subscriber _) | .spawn _ => none

/-- The one whose step `stop` needs next. -/
def Helps (s : Lib.Pool ServiceState Client) : Mover → Prop
  | .caller => CallerHelps s.shared
  | .propagator => s.shared.caller = .join ∧ s.shared.mProxyThread ≠ .notStarted ∧
      s.shared.mProxyThread ≠ .exited
  | .publisher i => s.shared.caller = .awaitPublishers ∧
      ∃ client, s.threads[i]? = some client ∧ client.outstanding = true

instance (c : Control) : Decidable (Shutting c) := by
  unfold Shutting FrontendStopped
  infer_instance

/-- The calls of `start` and `stop` and the destructor do nothing while `stop` is under way. -/
theorem Shutting.calls_eq (h : Shutting s.control) :
    callStart s = s ∧ callStop s = s ∧ ∀ step, destructorStep s step = s := by
  obtain ⟨-, -, hcaller⟩ := h
  have hcaller : s.caller = .awaitPublishers ∨ s.caller = .clearCounter ∨
    s.caller = .clearRunning ∨ s.caller = .join ∨ s.caller = .loadBackend ∨
      s.caller = .stopBackend := hcaller
  unfold callStart callStop destructorStep
  rcases hcaller with hc | hc | hc | hc | hc | hc <;> simp [hc]

/-- A round in which the calling thread, the propagator and each publisher whose `OnDone` has not
returned have a step. -/
def Complete (s : Lib.Pool ServiceState Client)
    (round : List (Lib.Move Arrival PartyEvent ServiceEvent)) : Prop :=
  .env .caller ∈ round ∧ .env .propagator ∈ round ∧
    ∀ i < s.threads.length, s.threads[i]?.any Client.outstanding = true →
      ∃ move ∈ round, mover move = some (.publisher i)

instance (s : Lib.Pool ServiceState Client)
    (round : List (Lib.Move Arrival PartyEvent ServiceEvent)) : Decidable (Complete s round) :=
  inferInstanceAs (Decidable (_ ∧ _))

/-- In a complete round the one that helps has a step. -/
theorem Complete.exists_move {s : Lib.Pool ServiceState Client}
    {round : List (Lib.Move Arrival PartyEvent ServiceEvent)} (h : Complete s round) {a : Mover}
    (ha : Helps s a) : ∃ move ∈ round, mover move = some a := by
  obtain ⟨hcaller, hpropagator, hpublishers⟩ := h
  cases a with
  | caller => exact ⟨_, hcaller, rfl⟩
  | propagator => exact ⟨_, hpropagator, rfl⟩
  | publisher i =>
    obtain ⟨-, client, hi, hout⟩ := ha
    apply hpublishers i (List.getElem?_eq_some_iff.mp hi).1
    rw [hi]
    exact hout

section Runs

variable [Platform]

/-- The propagator brings the packets that it takes nearer to their end. -/
theorem PropagatorStep.left_le {proxy proxy' : ProxyState} (hstep : PropagatorStep proxy proxy') :
    proxy'.propagator.left + 4 * proxy'.importQueue.mImportExportQueue.size ≤
        proxy.propagator.left + 4 * proxy.importQueue.mImportExportQueue.size ∧
      (proxy'.propagator.left + 4 * proxy'.importQueue.mImportExportQueue.size <
          proxy.propagator.left + 4 * proxy.importQueue.mImportExportQueue.size ∨
        proxy'.propagator = .tryPop) := by
  cases hstep with
  | sleeps hs hempty => exact ⟨Nat.le_refl _, Or.inr hs⟩
  | pops packet importQueue hs hpop =>
    simp only [hs, PropagatorStage.left, Lib.Fifo.size, hpop, List.length_cons]
    omega
  | unchecked packet hs | allowed packet detector hs | dropped packet detector hs
  | enqueues packet hs | enqueuesStopped packet hs =>
    simp only [hs, PropagatorStage.left]
    omega
  | broadcasts packet hs =>
    simp only [hs, PropagatorStage.left]
    omega

/-- A step of the propagator's thread does not increase the rank, and decreases it on the way out
of the loop. -/
theorem left_threadStep (s : ServiceState) :
    (threadStep s).left ≤ s.left ∧
      (s.mKeepRunning = false → s.mProxyThread ≠ .notStarted → s.mProxyThread ≠ .exited →
        (threadStep s).left < s.left) := by
  unfold threadStep
  cases ht : s.mProxyThread with
  | notStarted => exact ⟨Nat.le_refl _, fun _ hne ↦ absurd rfl hne⟩
  | exited => exact ⟨Nat.le_refl _, fun _ _ hne ↦ absurd rfl hne⟩
  | loadRunning =>
    unfold ServiceState.left
    cases hkeep : s.mKeepRunning <;> simp [threadLeft, ht]
  | working =>
    obtain ⟨-, hstage, -⟩ := (propagator_step s.proxy).ends_eq
    obtain ⟨hle, hlt⟩ := (propagator_step s.proxy).left_le
    unfold ServiceState.left
    simp only [hstage, ht]
    generalize propagatorStep s.proxy = proxy at hle hlt
    cases hkeep : s.mKeepRunning with
    | true =>
      simp only [threadLeft]
      refine ⟨?_, fun hx ↦ by cases hx⟩
      simp only [if_true]
      omega
    | false =>
      by_cases htry : proxy.propagator = .tryPop
      · simp only [threadLeft, htry, if_true]
        rw [htry] at hle
        simp only [Bool.false_eq_true, if_false]
        omega
      · have hlt := hlt.resolve_right htry
        simp only [threadLeft, htry, if_false, Bool.false_eq_true]
        omega

/-- Behind a stopped frontend no step of a client increases the rank, and every step of a publisher
decreases it until its `OnDone` has returned. -/
theorem ClientStep.left_le {client client' : Client} {event : PartyEvent}
    (hstopped : FrontendStopped s.control) (hcalls : CallsReading (client.party options))
    (hstep : ClientStep options s i client event s' client') :
    s'.left + client'.left ≤ s.left + client.left ∧
      (client.outstanding = true → (∃ read, event = .publisher read) →
        s'.left + client'.left < s.left + client.left) := by
  cases hstep with
  | waits arrival event hl => exact ⟨Nat.le_refl _, fun hout ↦ by cases hout⟩
  | connects arrival event hl =>
    cases arrival with
    | publish clientMetadata => exact absurd hl hstopped.2
    | subscribe contextAddress clientMetadata =>
      exact ⟨Nat.le_refl _, fun hout ↦ by cases hout⟩
  | steps party party' event proxy hstep =>
    obtain ⟨hpropagator, -, hstage, -⟩ := partyStep_control options s.proxy i party event
    rw [hstep] at hpropagator hstage
    dsimp only at hpropagator hstage
    unfold ServiceState.left
    simp only [hpropagator, hstage]
    cases party with
    | subscriber writer =>
      have hqueue : proxy.importQueue = s.proxy.importQueue ∧
          (Client.connected party').left = 0 := by
        cases event <;> (cases hstep; exact ⟨rfl, rfl⟩)
      rw [hqueue.1, hqueue.2]
      exact ⟨Nat.le_add_right _ _, fun hout ↦ by cases hout⟩
    | publisher publisher =>
      have hcalls : CallsReading (.publisher publisher) := hcalls
      by_cases hs : publisher.rpc.stage = .deleted
      · rw [partyStep_of_deleted hcalls hs] at hstep
        cases hstep
        refine ⟨Nat.le_refl _, fun hout ↦ ?_⟩
        have hnot : (Client.connected (.publisher publisher)).outstanding = false :=
          Party.outstanding_publisher.mpr hs
        rw [hnot] at hout
        cases hout
      · cases event with
        | subscriber event =>
          cases hstep
          refine ⟨Nat.le_refl _, fun _ hread ↦ ?_⟩
          obtain ⟨read, he⟩ := hread
          cases he
        | publisher read =>
          have hlt := (publisher_step options s.proxy i publisher read).left_lt hcalls
            hstopped.1 hs
          cases hstep
          simp only [Client.left]
          omega

/-- `Shutdown` has been called, and `stop` may have returned. -/
structure Ending (options : ProxyOptions) (s : Lib.Pool ServiceState Client) : Prop where
  inv : ServiceInv s.shared
  pool : PoolInv options s
  called : Shutting s.shared.control ∨ Settled s.shared.control

/-- `stop` has returned. -/
def Done (s : Lib.Pool ServiceState Client) : Prop := Settled s.shared.control

/-- A step of a client leaves the control. -/
theorem Ending.control_run {s : Lib.Pool ServiceState Client} (h : Ending options s) (i : Nat)
    (event : PartyEvent) :
    ((service options).step s (.run i event)).shared.control = s.shared.control := by
  cases ht : s.threads[i]? with
  | none => rw [Lib.Program.step_run_none ht]
  | some client =>
    rw [Lib.Program.step_run ht]
    exact (h.inv.client (client_step options s.shared i client event)).2

theorem ServiceInv.step {s : Lib.Pool ServiceState Client} (h : ServiceInv s.shared)
    (move : Lib.Move Arrival PartyEvent ServiceEvent) :
    ServiceInv ((service options).step s move).shared :=
  ((stable_serviceInv options).step ⟨h, fun _ _ _ ↦ trivial⟩ move).1

/-- When `stop` has returned, no move changes that. -/
theorem Ending.done_step {s : Lib.Pool ServiceState Client} (h : Ending options s) (hd : Done s)
    (move : Lib.Move Arrival PartyEvent ServiceEvent) : Done ((service options).step s move) := by
  cases move with
  | spawn arrival => exact hd
  | env event => exact (h.inv.settled_env hd options event).1
  | run i event =>
    show Settled ((service options).step s (.run i event)).shared.control
    rw [h.control_run i event]
    exact hd

/-- While `stop` is under way, a step of the environment leaves it so, or `stop` returns. -/
theorem Shutting.env (hs : Shutting s.control)
    (options : ProxyOptions) (event : ServiceEvent) :
    Shutting ((service options).env s event).control ∨
      ((service options).env s event).caller = .stopped := by
  cases event with
  | propagator =>
    obtain ⟨hfrontend, hstage, -⟩ := (propagator_step s.proxy).ends_eq
    have hsame : (threadStep s).caller = s.caller ∧
        (threadStep s).frontendServer = s.frontendServer ∧
        (threadStep s).proxy.frontend = s.proxy.frontend ∧
        (threadStep s).proxy.backend.stopStage = s.proxy.backend.stopStage := by
      unfold threadStep
      cases s.mProxyThread with
      | working => exact ⟨rfl, rfl, hfrontend, hstage⟩
      | notStarted | loadRunning | exited => exact ⟨rfl, rfl, rfl, rfl⟩
    exact Or.inl (hs.congr (congrArg Frontend.FrontendState.mKeepRunning hsame.2.2.1) hsame.2.1
      hsame.2.2.2 hsame.1)
  | start =>
    left
    show Shutting (callStart s).control
    rw [hs.calls_eq.1]
    exact hs
  | stop =>
    left
    show Shutting (callStop s).control
    rw [hs.calls_eq.2.1]
    exact hs
  | caller => exact hs.caller_step
  | destructor step =>
    left
    show Shutting (destructorStep s step).control
    rw [hs.calls_eq.2.2]
    exact hs

theorem Ending.step {s : Lib.Pool ServiceState Client} (h : Ending options s)
    (move : Lib.Move Arrival PartyEvent ServiceEvent) :
    Ending options ((service options).step s move) := by
  refine ⟨h.inv.step move, h.pool.step move, ?_⟩
  rcases h.called with hs | hd
  · cases move with
    | spawn arrival => exact Or.inl hs
    | env event => exact (hs.env options event).imp id (h.inv.env event).settled
    | run i event =>
      rw [h.control_run i event]
      exact Or.inl hs
  · exact Or.inr (h.done_step hd move)

/-- A step of a client and the rank. -/
theorem Ending.left_run {s : Lib.Pool ServiceState Client} (h : Ending options s)
    (hs : Shutting s.shared.control) (i : Nat) (event : PartyEvent) :
    left ((service options).step s (.run i event)) ≤ left s ∧
      ((∃ client, s.threads[i]? = some client ∧ client.outstanding = true) →
        (∃ read, event = .publisher read) →
          left ((service options).step s (.run i event)) < left s) := by
  cases ht : s.threads[i]? with
  | none =>
    rw [Lib.Program.step_run_none ht]
    refine ⟨Nat.le_refl _, fun hclient ↦ ?_⟩
    obtain ⟨client, hx, -⟩ := hclient
    cases hx
  | some client =>
    have hmem : client ∈ s.threads := List.mem_of_getElem? ht
    obtain ⟨hle, hlt⟩ := (client_step options s.shared i client event).left_le hs.1
      (h.pool.calls client hmem)
    have hsum : ((s.threads.set i (clientStep options s.shared i client event).2).map
        Client.left).sum + client.left =
        (s.threads.map Client.left).sum + (clientStep options s.shared i client event).2.left :=
      Lib.Program.sum_map_set_add ht
    rw [Lib.Program.step_run ht]
    show (clientStep options s.shared i client event).1.left +
        ((s.threads.set i (clientStep options s.shared i client event).2).map Client.left).sum ≤
          s.shared.left + (s.threads.map Client.left).sum ∧
      (_ → _ → (clientStep options s.shared i client event).1.left +
        ((s.threads.set i (clientStep options s.shared i client event).2).map Client.left).sum <
          s.shared.left + (s.threads.map Client.left).sum)
    refine ⟨by omega, fun hclient hread ↦ ?_⟩
    obtain ⟨client', hx, hout⟩ := hclient
    cases hx
    have hlt := hlt hout hread
    omega

/-- A step of the environment and the rank. -/
theorem Ending.left_env {s : Lib.Pool ServiceState Client} (h : Ending options s)
    (hs : Shutting s.shared.control) (event : ServiceEvent) :
    Done ((service options).step s (.env event)) ∨
      left ((service options).step s (.env event)) ≤ left s := by
  have hleft {s' : ServiceState} (hle : s'.left ≤ s.shared.left) :
      s'.left + (s.threads.map Client.left).sum ≤ left s := Nat.add_le_add_right hle _
  cases event with
  | propagator => exact Or.inr (hleft (left_threadStep s.shared).1)
  | start => exact Or.inr (hleft (Nat.le_of_eq (congrArg ServiceState.left hs.calls_eq.1)))
  | stop => exact Or.inr (hleft (Nat.le_of_eq (congrArg ServiceState.left hs.calls_eq.2.1)))
  | destructor step =>
    exact Or.inr (hleft (Nat.le_of_eq (congrArg ServiceState.left (hs.calls_eq.2.2 step))))
  | caller =>
    by_cases hhelps : CallerHelps s.shared
    · rcases hs.left_caller_step hhelps with hstopped | hlt
      · exact Or.inl (h.inv.caller_step.settled hstopped)
      · exact Or.inr (hleft (Nat.le_of_lt hlt))
    · exact Or.inr (hleft (Nat.le_of_eq (congrArg ServiceState.left
        (callerStep_of_not_helps hhelps))))

/-- While `stop` is under way, somebody's step brings it nearer to its end. -/
theorem Ending.exists_helps {s : Lib.Pool ServiceState Client} (h : Ending options s) :
    ∃ a, Helps s a := by
  by_cases hcaller : CallerHelps s.shared
  · exact ⟨.caller, hcaller⟩
  · by_cases hawait : s.shared.caller = .awaitPublishers
    · have hout : s.shared.outstanding ≠ 0 := by
        intro hzero
        exact hcaller ⟨fun _ ↦ hzero, fun hjoin ↦ by simp [hawait] at hjoin⟩
      have hcount : (s.threads.map Client.weight).sum = s.threads.countP Client.outstanding :=
        Lib.Program.sum_map_eq_countP fun _ _ ↦ rfl
      have hpos : 0 < s.threads.countP Client.outstanding := by
        have hcounted := h.pool.counted
        omega
      obtain ⟨client, hmem, hout⟩ := List.countP_pos_iff.mp hpos
      obtain ⟨i, hi⟩ := List.mem_iff_getElem?.mp hmem
      exact ⟨.publisher i, hawait, client, hi, hout⟩
    · refine ⟨.propagator, ?_⟩
      by_contra hnot
      apply hcaller
      refine ⟨fun hx ↦ absurd hx hawait, fun hjoin ↦ ?_⟩
      by_contra hthread
      exact hnot ⟨hjoin, fun hx ↦ hthread (Or.inl hx), fun hx ↦ hthread (Or.inr hx)⟩

/-- A step of the one that helps decreases the rank. -/
theorem Ending.helped {s : Lib.Pool ServiceState Client} (h : Ending options s)
    (hs : Shutting s.shared.control) {a : Mover} (ha : Helps s a)
    {move : Lib.Move Arrival PartyEvent ServiceEvent} (hmove : mover move = some a) :
    Done ((service options).step s move) ∨ left ((service options).step s move) < left s := by
  have hleft {s' : ServiceState} (hlt : s'.left < s.shared.left) :
      s'.left + (s.threads.map Client.left).sum < left s := Nat.add_lt_add_right hlt _
  cases move with
  | spawn arrival => cases hmove
  | env event =>
    cases event with
    | start | stop | destructor => cases hmove
    | caller =>
      cases hmove
      rcases hs.left_caller_step ha with hstopped | hlt
      · exact Or.inl (h.inv.caller_step.settled hstopped)
      · exact Or.inr (hleft hlt)
    | propagator =>
      cases hmove
      obtain ⟨hjoin, hstarted, hexited⟩ := ha
      have hk := h.inv.control.knows
      simp only [Knows, ServiceState.control, hjoin] at hk
      exact Or.inr (hleft ((left_threadStep s.shared).2 hk.2 hstarted hexited))
  | run i event =>
    cases event with
    | subscriber event => cases hmove
    | publisher read =>
      cases hmove
      exact Or.inr ((h.left_run hs i (.publisher read)).2 ha.2 ⟨read, rfl⟩)

/-- A client whose `OnDone` has not returned is counted. -/
theorem Ending.outstanding_ne_zero {s : Lib.Pool ServiceState Client} (h : Ending options s)
    {client : Client} (hmem : client ∈ s.threads) (hout : client.outstanding = true) :
    s.shared.outstanding ≠ 0 := by
  have hcount : (s.threads.map Client.weight).sum = s.threads.countP Client.outstanding :=
    Lib.Program.sum_map_eq_countP fun _ _ ↦ rfl
  have hpos : 0 < s.threads.countP Client.outstanding :=
    List.countP_pos_iff.mpr ⟨client, hmem, hout⟩
  have hcounted := h.pool.counted
  omega

/-- A calling thread that need not wait does not have to wait for a step of another. -/
theorem Ending.caller_kept {s : Lib.Pool ServiceState Client} (h : Ending options s)
    (hs : Shutting s.shared.control) (ha : CallerHelps s.shared)
    {move : Lib.Move Arrival PartyEvent ServiceEvent} (hmove : mover move ≠ some .caller) :
    CallerHelps ((service options).step s move).shared := by
  cases move with
  | spawn arrival => exact ha
  | env event =>
    cases event with
    | caller => exact absurd rfl hmove
    | start =>
      show CallerHelps (callStart s.shared)
      rw [hs.calls_eq.1]
      exact ha
    | stop =>
      show CallerHelps (callStop s.shared)
      rw [hs.calls_eq.2.1]
      exact ha
    | destructor step =>
      show CallerHelps (destructorStep s.shared step)
      rw [hs.calls_eq.2.2]
      exact ha
    | propagator =>
      show CallerHelps (threadStep s.shared)
      unfold threadStep
      cases ht : s.shared.mProxyThread with
      | notStarted | exited => exact ha
      | loadRunning | working =>
        refine ⟨ha.1, fun hjoin ↦ ?_⟩
        have hover := ha.2 hjoin
        simp [ht] at hover
  | run i event =>
    have hcontrol := h.control_run i event
    cases ht : s.threads[i]? with
    | none =>
      rw [Lib.Program.step_run_none ht]
      exact ha
    | some client =>
      have hmem : client ∈ s.threads := List.mem_of_getElem? ht
      have hstep := client_step options s.shared i client event
      rw [Lib.Program.step_run ht] at hcontrol ⊢
      have hcaller := congrArg Control.caller hcontrol
      have hthread := congrArg Control.mProxyThread hcontrol
      constructor
      · intro hawait
        have hzero := ha.1 (hcaller.symm.trans hawait)
        have hgone : client.outstanding = false := by
          by_contra hout
          exact h.outstanding_ne_zero hmem (by simpa using hout) hzero
        have hsame := (hstep.settled hs.1.2 (h.pool.calls client hmem) hgone).1
        exact (congrArg Upstream.outstanding hsame).trans hzero
      · intro hjoin
        have hover := ha.2 (hcaller.symm.trans hjoin)
        exact hover.imp hthread.trans hthread.trans

/-- A publisher whose `OnDone` has not returned only takes the steps of its own RPC. -/
theorem ClientStep.publisher_kept {client client' : Client} {event : PartyEvent}
    (hstep : ClientStep options s i client event s' client') (hout : client.outstanding = true)
    (hevent : ∀ read, event ≠ .publisher read) : client' = client := by
  cases hstep with
  | waits arrival event hl => rfl
  | connects arrival event hl => cases hout
  | steps party party' event proxy hstep =>
    cases party with
    | subscriber writer => cases hout
    | publisher publisher =>
      cases event with
      | publisher read => exact absurd rfl (hevent read)
      | subscriber event =>
        cases hstep
        rfl

/-- The calling thread waits as long as a publisher has not ended. -/
theorem Ending.awaits_kept {s : Lib.Pool ServiceState Client} (h : Ending options s)
    (hs : Shutting s.shared.control) (hawait : s.shared.caller = .awaitPublishers)
    (hout : s.shared.outstanding ≠ 0) (move : Lib.Move Arrival PartyEvent ServiceEvent) :
    ((service options).step s move).shared.caller = .awaitPublishers := by
  cases move with
  | spawn arrival => exact hawait
  | run i event => exact (congrArg Control.caller (h.control_run i event)).trans hawait
  | env event =>
    cases event with
    | start => exact (congrArg ServiceState.caller hs.calls_eq.1).trans hawait
    | stop => exact (congrArg ServiceState.caller hs.calls_eq.2.1).trans hawait
    | destructor step =>
      exact (congrArg ServiceState.caller (hs.calls_eq.2.2 step)).trans hawait
    | caller =>
      have hsame : callerStep s.shared = s.shared :=
        callerStep_of_not_helps fun hhelps ↦ hout (hhelps.1 hawait)
      exact (congrArg ServiceState.caller hsame).trans hawait
    | propagator =>
      show (threadStep s.shared).caller = .awaitPublishers
      unfold threadStep
      cases s.shared.mProxyThread <;> exact hawait

/-- A step of another leaves the one that helps where it is. -/
theorem Ending.kept {s : Lib.Pool ServiceState Client} (h : Ending options s)
    (hs : Shutting s.shared.control) {a : Mover} (ha : Helps s a)
    {move : Lib.Move Arrival PartyEvent ServiceEvent} (hmove : mover move ≠ some a) :
    Helps ((service options).step s move) a := by
  cases a with
  | caller => exact h.caller_kept hs ha hmove
  | propagator =>
    obtain ⟨hjoin, hstarted, hexited⟩ := ha
    cases move with
    | spawn arrival => exact ⟨hjoin, hstarted, hexited⟩
    | run i event =>
      have hcontrol := h.control_run i event
      have hcaller := congrArg Control.caller hcontrol
      have hthread := congrArg Control.mProxyThread hcontrol
      exact ⟨hcaller.trans hjoin, fun hx ↦ hstarted (hthread.symm.trans hx),
        fun hx ↦ hexited (hthread.symm.trans hx)⟩
    | env event =>
      have hsame : (service options).env s.shared event = s.shared := by
        cases event with
        | propagator => exact absurd rfl hmove
        | start => exact hs.calls_eq.1
        | stop => exact hs.calls_eq.2.1
        | destructor step => exact hs.calls_eq.2.2 step
        | caller =>
          apply callerStep_of_not_helps
          intro hhelps
          rcases hhelps.2 hjoin with hx | hx
          · exact hstarted hx
          · exact hexited hx
      have hstep : (service options).step s (.env event) = s := by
        show { s with shared := (service options).env s.shared event } = s
        rw [hsame]
      rw [hstep]
      exact ⟨hjoin, hstarted, hexited⟩
  | publisher i =>
    obtain ⟨hawait, client, hi, hout⟩ := ha
    have hmem : client ∈ s.threads := List.mem_of_getElem? hi
    refine ⟨h.awaits_kept hs hawait (h.outstanding_ne_zero hmem hout) move, client, ?_, hout⟩
    by_cases hown : ∃ event, move = .run i event
    · obtain ⟨event, he⟩ := hown
      subst he
      have hsame := (client_step options s.shared i client event).publisher_kept hout
        fun read hread ↦ by
          subst hread
          exact hmove rfl
      rw [Lib.Program.getElem?_step_run hi]
      exact congrArg some hsame
    · exact Lib.Program.getElem?_step_of_ne hi fun event he ↦ hown ⟨event, he⟩

/-- The rank of the states between `Shutdown` and the end of `stop`. -/
theorem ranked (options : ProxyOptions) :
    Lib.Ranked (service options).step mover (Ending options) Done Helps left where
  inv_step s move h := h.step move
  done_step s move h hd := h.done_step hd move
  rank_step s move h hd := by
    have hs := h.called.resolve_right hd
    cases move with
    | spawn arrival =>
      right
      show s.shared.left + ((s.threads ++ [Client.connecting arrival]).map Client.left).sum ≤ _
      rw [List.map_append, List.sum_append]
      exact Nat.le_refl _
    | env event => exact h.left_env hs event
    | run i event => exact Or.inr (h.left_run hs i event).1
  exists_helps s h hd := h.exists_helps
  helped s move a h hd ha hmove := h.helped (h.called.resolve_right hd) ha hmove
  kept s move a h hd ha hmove := Or.inr (Or.inr (h.kept (h.called.resolve_right hd) ha hmove))

/-- The step that ends the shutdown is the one in which `stop` returns. -/
theorem Ending.returns {s : Lib.Pool ServiceState Client} (h : Ending options s)
    (hs : Shutting s.shared.control) {move : Lib.Move Arrival PartyEvent ServiceEvent}
    (hd : Done ((service options).step s move)) :
    ((service options).step s move).shared.caller = .stopped := by
  cases move with
  | spawn arrival => exact absurd hd.2.1 hs.2.1
  | run i event =>
    have hcleared := hd.2.1
    rw [h.control_run i event] at hcleared
    exact absurd hcleared hs.2.1
  | env event =>
    rcases hs.env options event with hs' | hstopped
    · exact absurd hd.2.1 hs'.2.1
    · exact hstopped

/-- The steps that a client has left are at most thirteen, and none when it is not waited for. -/
theorem left_le_weight {client : Client} (hcalls : CallsReading (client.party options)) :
    (client.left : Int) ≤ 13 * client.weight := by
  cases client with
  | connecting arrival => exact Int.le_refl 0
  | connected party =>
    cases party with
    | subscriber writer => exact Int.le_refl 0
    | publisher publisher =>
      have hcalls : CallsReading (.publisher publisher) := hcalls
      by_cases hs : publisher.rpc.stage = .deleted
      · have hleft : publisher.left = 0 := by
          simp only [Publisher.left, hcalls.call_eq_none hs, hs, publishLeft]
        have hout : (Client.connected (.publisher publisher)).outstanding = false :=
          Party.outstanding_publisher.mpr hs
        simp [Client.left, Client.weight, hleft, hout]
      · have hout : (Client.connected (.publisher publisher)).outstanding = true := by
          by_contra hno
          exact hs (Party.outstanding_publisher.mp (Bool.eq_false_iff.mpr hno))
        have hle : publisher.left ≤ 13 := by
          unfold Publisher.left
          cases publisher.call with
          | none => cases publisher.rpc.stage <;> simp [publishLeft]
          | some call =>
            dsimp only
            cases call.stage <;> simp [AddStage.left]
        simp only [Client.left, Client.weight, hout, if_true]
        omega

/-- The rank is bounded by the publishers that are waited for and the packets in the queue. -/
theorem PoolInv.left_le {s : Lib.Pool ServiceState Client} (h : PoolInv options s) :
    (left s : Int) ≤
      13 * s.shared.outstanding + 4 * s.shared.proxy.importQueue.mImportExportQueue.size + 16 := by
  have hsum (threads : List Client)
      (hcalls : ∀ client ∈ threads, CallsReading (client.party options)) :
      ((threads.map Client.left).sum : Int) ≤ 13 * (threads.map Client.weight).sum := by
    induction threads with
    | nil => exact Int.le_refl 0
    | cons client threads ih =>
      have hrest := ih fun c hc ↦ hcalls c (List.mem_cons_of_mem client hc)
      have hone := left_le_weight (hcalls client List.mem_cons_self)
      simp only [List.map_cons, List.sum_cons]
      omega
  have hclients := hsum s.threads h.calls
  have hstop : stopLeft s.shared.proxy.backend.stopStage ≤ 4 := by
    cases s.shared.proxy.backend.stopStage <;> simp [stopLeft]
  have hcaller : callerLeft s.shared.proxy.backend.stopStage s.shared.caller ≤ 10 := by
    unfold callerLeft
    cases s.shared.caller <;> dsimp only <;> omega
  have hthread : threadLeft s.shared.mKeepRunning s.shared.mProxyThread ≤ 3 := by
    unfold threadLeft
    cases s.shared.mKeepRunning <;> cases s.shared.mProxyThread <;> simp
  have hpropagator : s.shared.proxy.propagator.left ≤ 3 := by
    cases s.shared.proxy.propagator <;> simp [PropagatorStage.left]
  have hcounted := h.counted
  unfold left ServiceState.left
  omega

variable {state : ProxyState}

/-- `stop` returns. From the moment when `Shutdown` is called, in any run and whatever the clients
still send, it returns within a number of rounds that the outstanding publishers and the packets
in the import queue bound: a round is any list of moves in which the calling thread, the
propagator and each outstanding publisher have a step. -/
theorem stop_returns (hnew : ProxyState.new options = .ok state)
    (moves : List (Lib.Move Arrival PartyEvent ServiceEvent))
    (hs : Shutting (served options state moves).shared.control)
    (rounds : List (List (Lib.Move Arrival PartyEvent ServiceEvent)))
    (hrounds : Lib.Along (service options).after Complete (served options state moves) rounds)
    (hlen : 13 * (served options state moves).shared.outstanding +
      4 * (served options state moves).shared.proxy.importQueue.mImportExportQueue.size + 16 <
        rounds.length) :
    ∃ moves', moves' <+: rounds.flatten ∧
      (served options state (moves ++ moves')).shared.caller = .stopped := by
  have hinv : Ending options (served options state moves) :=
    ⟨serviceInv_served hnew moves, poolInv_served hnew moves, Or.inl hs⟩
  have hlt : left (served options state moves) < rounds.length := by
    have hle := hinv.pool.left_le
    omega
  have hdone : Done (rounds.flatten.foldl (service options).step (served options state moves)) :=
    (ranked options).finishes (fun s round a _ hround ha ↦ hround.exists_move ha) hinv hrounds hlt
  obtain ⟨before, move, rest, heq, hbefore, hafter⟩ :=
    Lib.exists_first_step (p := Done) (fun hd ↦ hs.2.1 hd.2.1) hdone
  have hinv' := (ranked options).inv_run hinv before
  refine ⟨before ++ [move], ⟨rest, ?_⟩, ?_⟩
  · rw [heq, List.append_assoc, List.singleton_append]
  · have hreturns := hinv'.returns (hinv'.called.resolve_right hbefore) hafter
    have hserved : served options state (moves ++ (before ++ [move])) =
        (service options).step (before.foldl (service options).step (served options state moves))
          move := by
      rw [← List.append_assoc]
      unfold served Lib.Program.after
      rw [List.foldl_append, List.foldl_append, List.foldl_cons, List.foldl_nil]
    rw [hserved]
    exact hreturns

end Runs

section Example

attribute [local instance] x86Platform

/-- A round of the run in which the publisher ends its stream. -/
def endsStream : List (Lib.Move Arrival PartyEvent ServiceEvent) :=
  [.env .caller, .env .propagator, .run 0 (.publisher .endOfStream)]

theorem stop_returns_endsStream : ∃ moves', moves' <+: (List.replicate 40 endsStream).flatten ∧
    (served tenHeaders tenHeadersProxy (handsOn ++ (stopsFrontend ++ [.env .caller]) ++ moves')
      ).shared.caller = .stopped :=
  stop_returns rfl (handsOn ++ (stopsFrontend ++ [.env .caller])) (by decide +kernel)
    (List.replicate 40 endsStream) (by decide +kernel) (by decide +kernel)

end Example
end ImportProxy.Proxy
