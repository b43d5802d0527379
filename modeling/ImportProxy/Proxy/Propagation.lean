import ImportProxy.Proxy.Termination

/-!
# Every packet meets its fate

The calls insert packets while the propagator removes them, and evict packets of their own. What
was inserted leaves the queue in that order, so that a propagator that has its turns gets to every
packet, however many are inserted behind it: the packet is evicted before, or it is dropped as a
duplicate, or it is handed to every subscriber.
-/

namespace ImportProxy.Proxy

open ImportProxy.Base

/-- The inserted packets that have met their fate. -/
def ServiceState.met (s : ServiceState) : List Tagged :=
  s.proxy.importQueue.evicted ++ s.dropped ++ s.broadcast

/-- The propagator with what it has dropped and handed out. -/
def ServiceState.work (s : ServiceState) : PropagatorStage × List Tagged × List Tagged :=
  (s.proxy.propagator, s.dropped, s.broadcast)

/-- A move of anyone but the propagator: a call takes a step, or the import queue stays. -/
inductive Aside (s s' : ServiceState) : Prop
  | adds (call call' : AddCall Tagged)
      (hadd : AddStep s.proxy.importQueue call s'.proxy.importQueue call')
      (hwork : s'.work = s.work) (hthread : s'.mProxyThread = s.mProxyThread) : Aside s s'
  | keeps (hqueue : s'.proxy.importQueue = s.proxy.importQueue) (hwork : s'.work = s.work)
      (hthread : s.mProxyThread ≠ .notStarted → s'.mProxyThread = s.mProxyThread) : Aside s s'

/-- Packets leave the queue in the order in which they were inserted, and each of them has met its
fate, or is on its way. -/
structure Queued (s : ServiceState) : Prop where
  inOrder : InOrder s.proxy.importQueue
  accounted : s.proxy.importQueue.pushed.Perm (s.met ++ s.onTheWay)

/-- What has been inserted, removed, dropped and handed out is not taken back. -/
structure Grows (s s' : ServiceState) : Prop where
  pushed : s.proxy.importQueue.pushed <+: s'.proxy.importQueue.pushed
  removed : s.proxy.importQueue.removed <+: s'.proxy.importQueue.removed
  dropped : s.dropped <+: s'.dropped
  broadcast : s.broadcast <+: s'.broadcast

/-- The steps of the propagator's thread until the first `n` packets have been removed, and the one
that it holds has met its fate. -/
def stepsToFate (n : Nat) (s : ServiceState) : Nat :=
  7 * (n - s.proxy.importQueue.removed.length) + 2 * s.proxy.propagator.left +
    if s.mProxyThread = .loadRunning then 1 else 0

variable {s s' : ServiceState} {options : ProxyOptions} {packets : List Tagged}

theorem Grows.refl (s : ServiceState) : Grows s s :=
  ⟨List.prefix_rfl, List.prefix_rfl, List.prefix_rfl, List.prefix_rfl⟩

theorem Grows.trans {s'' : ServiceState} (h : Grows s s') (h' : Grows s' s'') : Grows s s'' :=
  ⟨h.pushed.trans h'.pushed, h.removed.trans h'.removed, h.dropped.trans h'.dropped,
    h.broadcast.trans h'.broadcast⟩

/-- A fate that is met is not taken back. -/
theorem Grows.met_subperm (h : Grows s s') : s.met.Subperm s'.met := by
  have hevicted : s.proxy.importQueue.evicted.Sublist s'.proxy.importQueue.evicted :=
    h.removed.sublist.filterMap _
  have hmet : s.met.Sublist s'.met :=
    (hevicted.append h.dropped.sublist).append h.broadcast.sublist
  exact hmet.subperm

/-- What a step of a call does to the queue: its own packet may come in, and none gets lost. -/
theorem AddStep.kept {queue queue' : ImportQueue Tagged} {call call' : AddCall Tagged}
    (hstep : AddStep queue call queue' call') :
    queue.removed <+: queue'.removed ∧ ∃ new, queue'.pushed = queue.pushed ++ new ∧
      (queue'.evicted ++ queue'.mImportExportQueue.toList).Perm
        (queue.evicted ++ queue.mImportExportQueue.toList ++ new) := by
  cases hstep with
  | full | room | nothing | dropped | gone =>
    refine ⟨List.prefix_rfl, [], ?_, ?_⟩
    · rw [List.append_nil]
    · rw [List.append_nil]
  | evicted hs workSpace queue hpop hcap =>
    refine ⟨List.prefix_append _ _, [], ?_, ?_⟩
    · rw [List.append_nil]
    · rw [List.append_nil, hpop]
      simp [ImportQueue.evicted]
  | pushed hs queue hroom hpush hcap =>
    refine ⟨List.prefix_rfl, [call.packet], rfl, ?_⟩
    rw [hpush, ← List.append_assoc]
    exact List.Perm.refl _

/-- A step of a party takes a call further, or leaves the import queue. -/
theorem partyStep_importQueue (options : ProxyOptions) (proxy : ProxyState) (i : Nat)
    (party : Party) (event : PartyEvent) :
    (∃ call call', AddStep proxy.importQueue call
        (partyStep options proxy i party event).1.importQueue call') ∨
      (partyStep options proxy i party event).1.importQueue = proxy.importQueue := by
  cases party with
  | publisher publisher =>
    cases event with
    | publisher read =>
      have hstep := publisher_step options proxy i publisher read
      show (∃ call call', AddStep proxy.importQueue call
        (publisher.step options proxy i read).1.importQueue call') ∨
          (publisher.step options proxy i read).1.importQueue = proxy.importQueue
      generalize (publisher.step options proxy i read).1 = proxy' at hstep ⊢
      generalize (publisher.step options proxy i read).2 = publisher' at hstep
      cases hstep with
      | adds _ call call' importQueue hc hs hadd => exact Or.inl ⟨call, call', hadd⟩
      | resumes | calls | rejects | ends | proceeds => exact Or.inr rfl
    | subscriber event => exact Or.inr rfl
  | subscriber writer => cases event <;> exact Or.inr rfl

/-- The propagator takes a packet only between two packets. -/
theorem importQueue_propagatorStep [Platform] (proxy : ProxyState) :
    (propagatorStep proxy).importQueue =
      if proxy.propagator = .tryPop then propagatorPop proxy.importQueue
      else proxy.importQueue := by
  unfold propagatorStep
  cases hs : proxy.propagator with
  | tryPop =>
    dsimp only
    split
    · next hpop =>
      rw [if_pos rfl]
      simp only [propagatorPop, hpop]
    · rw [if_pos rfl]
  | check packet =>
    dsimp only
    split <;> simp
  | enqueue packet | broadcast packet => simp

/-- What the propagator takes is removed, and nothing is inserted. -/
theorem propagatorPop_grows (queue : ImportQueue Tagged) :
    (propagatorPop queue).pushed = queue.pushed ∧ queue.removed <+: (propagatorPop queue).removed ∧
      (queue.mImportExportQueue.toList ≠ [] →
        (propagatorPop queue).removed.length = queue.removed.length + 1) := by
  unfold propagatorPop
  split
  · next hpop =>
    refine ⟨rfl, List.prefix_rfl, fun hne ↦ absurd (Lib.Fifo.tryPop_eq_none_iff.mp hpop) hne⟩
  · refine ⟨rfl, List.prefix_append _ _, fun _ ↦ ?_⟩
    simp

/-- Behind the first packets, with nothing in the hands of the propagator, each of them has met
its fate. -/
theorem Queued.met_of_removed (h : Queued s) (hpackets : packets <+: s.proxy.importQueue.pushed)
    (hlen : packets.length ≤ s.proxy.importQueue.removed.length)
    (htry : s.proxy.propagator = .tryPop) : packets.Subperm s.met := by
  have horder := h.inOrder
  have haccounted := h.accounted
  unfold InOrder at horder
  unfold ServiceState.onTheWay at haccounted
  rw [htry] at haccounted
  -- what is left in the queue stands on both sides
  have hremoved : (s.proxy.importQueue.removed.map Prod.fst).Perm s.met := by
    rw [horder] at haccounted
    exact (List.perm_append_right_iff _).mp haccounted
  have hprefix : packets <+: s.proxy.importQueue.removed.map Prod.fst := by
    apply List.prefix_of_prefix_length_le hpackets
    · rw [horder]
      exact List.prefix_append _ _
    · rw [List.length_map]
      exact hlen
  exact hprefix.sublist.subperm.trans hremoved.subperm

/-- A move of anyone but the propagator takes nothing back. -/
theorem Aside.grows (h : Aside s s') : Grows s s' := by
  have hwork {t t' : ServiceState} (he : t'.work = t.work) :
      t.dropped <+: t'.dropped ∧ t.broadcast <+: t'.broadcast := by
    have hdropped : t'.dropped = t.dropped := congrArg (fun work ↦ work.2.1) he
    have hbroadcast : t'.broadcast = t.broadcast := congrArg (fun work ↦ work.2.2) he
    rw [hdropped, hbroadcast]
    exact ⟨List.prefix_rfl, List.prefix_rfl⟩
  cases h with
  | adds call call' hadd he hthread =>
    obtain ⟨hremoved, new, hpushed, -⟩ := hadd.kept
    refine ⟨?_, hremoved, (hwork he).1, (hwork he).2⟩
    rw [hpushed]
    exact List.prefix_append _ _
  | keeps hqueue he hthread =>
    refine ⟨?_, ?_, (hwork he).1, (hwork he).2⟩
    · simp only [hqueue, List.prefix_rfl]
    · simp only [hqueue, List.prefix_rfl]

/-- A move of anyone but the propagator loses nothing that was inserted. -/
theorem Queued.aside (h : Queued s) (hmove : Aside s s') : Queued s' := by
  cases hmove with
  | adds call call' hadd hwork hthread =>
    have hpropagator : s'.proxy.propagator = s.proxy.propagator := congrArg Prod.fst hwork
    have hdropped : s'.dropped = s.dropped := congrArg (fun work ↦ work.2.1) hwork
    have hbroadcast : s'.broadcast = s.broadcast := congrArg (fun work ↦ work.2.2) hwork
    obtain ⟨-, new, hpushed, hkept⟩ := hadd.kept
    refine ⟨(hadd.inOrder h.inOrder).1, ?_⟩
    have hbefore := List.perm_iff_count.mp h.accounted
    have hcounts := List.perm_iff_count.mp hkept
    apply List.perm_iff_count.mpr
    intro packet
    have hpacket := hbefore packet
    have hcount := hcounts packet
    rw [hpushed]
    simp only [ServiceState.met, ServiceState.onTheWay, hpropagator, hdropped, hbroadcast,
      List.count_append] at hpacket hcount ⊢
    omega
  | keeps hqueue hwork hthread =>
    have hpropagator : s'.proxy.propagator = s.proxy.propagator := congrArg Prod.fst hwork
    have hdropped : s'.dropped = s.dropped := congrArg (fun work ↦ work.2.1) hwork
    have hbroadcast : s'.broadcast = s.broadcast := congrArg (fun work ↦ work.2.2) hwork
    constructor
    · rw [hqueue]
      exact h.inOrder
    · unfold ServiceState.met ServiceState.onTheWay
      rw [hqueue, hpropagator, hdropped, hbroadcast]
      exact h.accounted

/-- A move of anyone but the propagator does not set it back. -/
theorem Aside.stepsToFate_le (h : Aside s s') (hstarted : s.mProxyThread ≠ .notStarted) (n : Nat) :
    s'.mProxyThread ≠ .notStarted ∧ stepsToFate n s' ≤ stepsToFate n s := by
  have hremoved := h.grows.removed.length_le
  have hsame : s'.mProxyThread = s.mProxyThread ∧ s'.proxy.propagator = s.proxy.propagator := by
    cases h with
    | adds call call' hadd hwork hthread => exact ⟨hthread, congrArg Prod.fst hwork⟩
    | keeps hqueue hwork hthread => exact ⟨hthread hstarted, congrArg Prod.fst hwork⟩
  unfold stepsToFate
  rw [hsame.1, hsame.2]
  exact ⟨hstarted, by omega⟩

/-- The constructor has inserted nothing. -/
theorem queued_new {state : ProxyState} (hnew : ProxyState.new options = .ok state) :
    Queued { proxy := state } := by
  obtain ⟨-, htry, hempty, -⟩ := ProxyState.new_spec hnew
  have hpushed : state.importQueue.pushed = [] := by
    unfold ProxyState.new at hnew
    dsimp only at hnew
    split at hnew
    · cases hnew
      rfl
    · split at hnew
      · cases hnew
      · cases hnew
        rfl
  constructor
  · show state.importQueue.pushed = _
    rw [hpushed, removed_new hnew, hempty]
    rfl
  · show state.importQueue.pushed.Perm _
    rw [hpushed]
    simp [ServiceState.met, ServiceState.onTheWay, ImportQueue.evicted, removed_new hnew, htry,
      hempty, PropagatorStage.pending, PropagatorStage.undelivered]

section Runs

variable [Platform]

/-- A step of the propagator's thread leaves the import queue, or takes a packet from it. -/
theorem importQueue_threadStep (s : ServiceState) :
    (threadStep s).proxy.importQueue = s.proxy.importQueue ∨
      (threadStep s).proxy.importQueue = propagatorPop s.proxy.importQueue := by
  rcases threadStep_proxy s with hproxy | hproxy
  · rw [hproxy, importQueue_propagatorStep]
    split
    · exact Or.inr rfl
    · exact Or.inl rfl
  · exact Or.inl (congrArg ProxyState.importQueue hproxy)

/-- The propagator inserts nothing. -/
theorem pushed_threadStep (s : ServiceState) :
    (threadStep s).proxy.importQueue.pushed = s.proxy.importQueue.pushed := by
  rcases importQueue_threadStep s with hq | hq
  · rw [hq]
  · rw [hq]
    exact (propagatorPop_grows s.proxy.importQueue).1

/-- A step of the propagator's thread takes nothing back. -/
theorem grows_threadStep (s : ServiceState) : Grows s (threadStep s) := by
  have hremoved : s.proxy.importQueue.removed <+: (threadStep s).proxy.importQueue.removed := by
    rcases importQueue_threadStep s with hq | hq
    · simp only [hq, List.prefix_rfl]
    · rw [hq]
      exact (propagatorPop_grows s.proxy.importQueue).2.1
  have hwork : s.dropped <+: (threadStep s).dropped ∧ s.broadcast <+: (threadStep s).broadcast := by
    unfold threadStep
    cases s.mProxyThread with
    | notStarted | exited | loadRunning => exact ⟨List.prefix_rfl, List.prefix_rfl⟩
    | working => exact ⟨List.prefix_append _ _, List.prefix_append _ _⟩
  refine ⟨?_, hremoved, hwork.1, hwork.2⟩
  simp only [pushed_threadStep, List.prefix_rfl]

/-- A step of the propagator's thread loses nothing that was inserted. -/
theorem Queued.thread_step (h : Queued s) (hinv : ServiceInv s) : Queued (threadStep s) := by
  have hheld := hinv.threadStep_held
  have hqueue := importQueue_threadStep s
  have hpushed := pushed_threadStep s
  constructor
  · rcases hqueue with hq | hq
    · rw [hq]
      exact h.inOrder
    · rw [hq]
      exact (propagatorPop_spec s.proxy.importQueue h.inOrder).1
  · have hrefused : (threadStep s).refused = s.refused := by
      unfold threadStep
      cases s.mProxyThread <;> rfl
    unfold ServiceState.held ServiceState.fates at hheld
    rw [hrefused] at hheld
    simp only [List.append_assoc] at hheld
    have hmet := (List.perm_append_left_iff _).mp hheld
    rw [hpushed]
    unfold ServiceState.met
    refine h.accounted.trans ?_
    unfold ServiceState.met
    simp only [List.append_assoc]
    exact hmet.symm

/-- Outside the propagator's thread nobody takes packets from the import queue but the calls. -/
theorem ServiceInv.aside {s : Lib.Pool ServiceState Client} (h : ServiceInv s.shared)
    {move : Lib.Move Arrival PartyEvent ServiceEvent} (hmove : move ≠ .env .propagator) :
    Aside s.shared ((service options).step s move).shared := by
  cases move with
  | spawn arrival => exact .keeps rfl rfl fun _ ↦ rfl
  | run i event =>
    cases ht : s.threads[i]? with
    | none =>
      rw [Lib.Program.step_run_none ht]
      exact .keeps rfl rfl fun _ ↦ rfl
    | some client =>
      rw [Lib.Program.step_run ht]
      show Aside s.shared (clientStep options s.shared i client event).1
      have hstep := client_step options s.shared i client event
      generalize (clientStep options s.shared i client event).1 = s' at hstep
      generalize (clientStep options s.shared i client event).2 = client' at hstep
      cases hstep with
      | waits | connects => exact .keeps rfl rfl fun _ ↦ rfl
      | steps party party' event proxy hstep =>
        have hqueue := partyStep_importQueue options s.shared.proxy i party event
        have hpropagator := (partyStep_control options s.shared.proxy i party event).1
        rw [hstep] at hqueue hpropagator
        have hpropagator : proxy.propagator = s.shared.proxy.propagator := hpropagator
        rcases hqueue with ⟨call, call', hadd⟩ | hqueue
        · refine .adds call call' hadd ?_ rfl
          unfold ServiceState.work
          rw [hpropagator]
        · refine .keeps hqueue ?_ fun _ ↦ rfl
          unfold ServiceState.work
          rw [hpropagator]
  | env event =>
    cases event with
    | propagator => exact absurd rfl hmove
    | start =>
      show Aside s.shared (callStart s.shared)
      unfold callStart
      split <;> exact .keeps rfl rfl fun _ ↦ rfl
    | stop =>
      show Aside s.shared (callStop s.shared)
      unfold callStop
      split <;> exact .keeps rfl rfl fun _ ↦ rfl
    | caller =>
      show Aside s.shared (callerStep s.shared)
      have hinterferes := interferes_callerStep s.shared
      have houtput := callerStep_output s.shared
      have hbroadcast : (callerStep s.shared).broadcast = s.shared.broadcast :=
        congrArg (fun output ↦ output.2.1) houtput
      have hdropped : (callerStep s.shared).dropped = s.shared.dropped :=
        congrArg (fun output ↦ output.2.2.1) houtput
      refine .keeps hinterferes.importQueue ?_ fun hstarted ↦ ?_
      · unfold ServiceState.work
        rw [hinterferes.propagator, hdropped, hbroadcast]
      · have hk := h.control.knows
        unfold callerStep
        cases hc : s.shared.caller with
        | startThread =>
          simp only [Knows, ServiceState.control, hc] at hk
          exact absurd hk.2 hstarted
        | loadFrontend | shutdown | awaitPublishers | join | loadBackend =>
          dsimp only
          split <;> rfl
        | constructed | storeRunning | storeManager | storeBackend | buildBackend
        | storeFrontend | storeCounter | buildFrontend | running | clearFrontend | clearCounter
        | clearRunning | stopBackend | stopped => rfl
    | destructor step =>
      exact destructorStep_cases (motive := Aside s.shared) s.shared step
        (.keeps rfl rfl fun _ ↦ rfl) (fun _ ↦ .keeps rfl rfl fun _ ↦ rfl)
        fun _ ↦ .keeps rfl rfl fun _ ↦ rfl

/-- A flag that `stop` has cleared stays so. -/
theorem ServiceInv.cleared_step {s : Lib.Pool ServiceState Client} (h : ServiceInv s.shared)
    (hclear : s.shared.mKeepRunning = false)
    (move : Lib.Move Arrival PartyEvent ServiceEvent) :
    ((service options).step s move).shared.mKeepRunning = false := by
  cases move with
  | spawn arrival => exact hclear
  | run i event =>
    cases ht : s.threads[i]? with
    | none =>
      rw [Lib.Program.step_run_none ht]
      exact hclear
    | some client =>
      rw [Lib.Program.step_run ht]
      have hcontrol := (h.client (client_step options s.shared i client event)).2
      exact (congrArg Control.mKeepRunning hcontrol).trans hclear
  | env event =>
    cases event with
    | propagator =>
      show (threadStep s.shared).mKeepRunning = false
      unfold threadStep
      cases s.shared.mProxyThread <;> exact hclear
    | start =>
      show (callStart s.shared).mKeepRunning = false
      unfold callStart
      split <;> exact hclear
    | stop =>
      show (callStop s.shared).mKeepRunning = false
      unfold callStop
      split <;> exact hclear
    | caller =>
      show (callerStep s.shared).mKeepRunning = false
      have hk := h.control.knows
      unfold callerStep
      cases hc : s.shared.caller with
      | storeRunning =>
        -- `start` finds the flag set
        simp only [Knows, ServiceState.control, hc] at hk
        have hrun : s.shared.mKeepRunning = true := (h.control.running hk.1).1
        rw [hrun] at hclear
        cases hclear
      | clearRunning => rfl
      | loadFrontend | shutdown | awaitPublishers | join | loadBackend =>
        dsimp only
        split <;> exact hclear
      | constructed | startThread | storeManager | storeBackend | buildBackend | storeFrontend
      | storeCounter | buildFrontend | running | clearFrontend | clearCounter | stopBackend
      | stopped => exact hclear
    | destructor step =>
      exact (congrArg Control.mKeepRunning (destructorStep_control s.shared step)).trans hclear

/-- As long as the first packets have not met their fate, every step of the propagator's thread
brings them nearer to it. -/
theorem stepsToFate_threadStep (hinv : ServiceInv s) (hqueued : Queued s)
    (hstarted : s.mProxyThread ≠ .notStarted) (hpackets : packets <+: s.proxy.importQueue.pushed)
    (hrun : s.mKeepRunning = true) (hopen : ¬packets.Subperm s.met) :
    stepsToFate packets.length (threadStep s) < stepsToFate packets.length s := by
  have hfew (htry : s.proxy.propagator = .tryPop) :
      s.proxy.importQueue.removed.length < packets.length := by
    by_contra hle
    exact hopen (hqueued.met_of_removed hpackets (by omega) htry)
  unfold stepsToFate threadStep
  cases ht : s.mProxyThread with
  | notStarted => exact absurd ht hstarted
  | exited =>
    have hclear : s.mKeepRunning = false := hinv.control.exited ht
    rw [hrun] at hclear
    cases hclear
  | loadRunning =>
    simp only [hrun, if_true, reduceCtorEq, if_false]
    omega
  | working =>
    have hstep := propagator_step s.proxy
    have hqueue := importQueue_propagatorStep s.proxy
    dsimp only
    generalize propagatorStep s.proxy = proxy at hstep hqueue
    cases hstep with
    | sleeps hs hempty =>
      have horder := congrArg List.length hqueued.inOrder
      have hlen := hpackets.length_le
      have hless := hfew hs
      rw [hempty, List.append_nil, List.length_map] at horder
      omega
    | pops packet importQueue hs hpop =>
      rw [if_pos hs] at hqueue
      have hqueue : importQueue = propagatorPop s.proxy.importQueue := hqueue
      have hgrows := (propagatorPop_grows s.proxy.importQueue).2.2 (by simp [hpop])
      have hless := hfew hs
      simp only [hqueue, hgrows, hs, PropagatorStage.left, reduceCtorEq, if_false]
      omega
    | unchecked packet hs | allowed packet detector hs | enqueues packet hs =>
      simp only [hs, PropagatorStage.left, reduceCtorEq, if_false]
      omega
    | dropped packet detector hs | enqueuesStopped packet hs | broadcasts packet hs =>
      simp only [hs, PropagatorStage.left, reduceCtorEq, if_false, if_true]
      omega

/-- The packets have been inserted, and the propagator has been started. -/
structure Propagating (packets : List Tagged) (s : Lib.Pool ServiceState Client) : Prop where
  inv : ServiceInv s.shared
  queued : Queued s.shared
  started : s.shared.mProxyThread ≠ .notStarted
  inserted : packets <+: s.shared.proxy.importQueue.pushed

/-- The packets have met their fate, unless the propagator has been told to stop. -/
def FateMet (packets : List Tagged) (s : Lib.Pool ServiceState Client) : Prop :=
  s.shared.mKeepRunning = false ∨ packets.Subperm s.shared.met

/-- Every move takes nothing back, and loses nothing that was inserted. -/
theorem Queued.step {s : Lib.Pool ServiceState Client} (h : Queued s.shared)
    (hinv : ServiceInv s.shared) (options : ProxyOptions)
    (move : Lib.Move Arrival PartyEvent ServiceEvent) :
    Queued ((service options).step s move).shared ∧
      Grows s.shared ((service options).step s move).shared := by
  by_cases hmove : move = .env .propagator
  · subst hmove
    exact ⟨h.thread_step hinv, grows_threadStep s.shared⟩
  · exact ⟨h.aside (hinv.aside hmove), (hinv.aside hmove).grows⟩

theorem Propagating.step {s : Lib.Pool ServiceState Client} (h : Propagating packets s)
    (move : Lib.Move Arrival PartyEvent ServiceEvent) :
    Propagating packets ((service options).step s move) := by
  obtain ⟨hqueued, hgrows⟩ := h.queued.step h.inv options move
  refine ⟨h.inv.step move, hqueued, ?_, h.inserted.trans hgrows.pushed⟩
  by_cases hmove : move = .env .propagator
  · subst hmove
    show (threadStep s.shared).mProxyThread ≠ .notStarted
    have hstarted := h.started
    unfold threadStep
    cases ht : s.shared.mProxyThread with
    | notStarted => exact absurd ht hstarted
    | exited => simp [ht]
    | loadRunning | working =>
      dsimp only
      split_ifs <;> simp
  · exact ((h.inv.aside hmove).stepsToFate_le h.started 0).1

/-- The propagator alone brings the packets to their fate. -/
theorem ranked_stepsToFate (options : ProxyOptions) (packets : List Tagged) :
    Lib.Ranked (service options).step mover (Propagating packets) (FateMet packets)
      (fun _ mover ↦ mover = .propagator) fun s ↦ stepsToFate packets.length s.shared := by
  apply Lib.Ranked.single
  · exact fun s move h ↦ h.step move
  · intro s move h hmet
    rcases hmet with hclear | hmet
    · exact Or.inl (h.inv.cleared_step hclear move)
    · exact Or.inr (hmet.trans (h.queued.step h.inv options move).2.met_subperm)
  · intro s move h hnot hmove
    have hmove : move = .env .propagator := by
      cases move with
      | spawn arrival => cases hmove
      | run i event => cases event <;> cases hmove
      | env event => cases event <;> first | rfl | cases hmove
    subst hmove
    right
    apply stepsToFate_threadStep h.inv h.queued h.started h.inserted
    · by_contra hclear
      exact hnot (Or.inl (by simpa using hclear))
    · exact fun hmet ↦ hnot (Or.inr hmet)
  · intro s move h hnot hmove
    right
    exact ((h.inv.aside fun he ↦ hmove (by rw [he]; rfl)).stepsToFate_le h.started _).2

/-- A round in which the propagator has a step. -/
def Propagates (_ : Lib.Pool ServiceState Client)
    (round : List (Lib.Move Arrival PartyEvent ServiceEvent)) : Prop := .env .propagator ∈ round

theorem propagating_leadsTo_fateMet (options : ProxyOptions) (packets : List Tagged) :
    Lib.LeadsTo (service options).step Propagates (Propagating packets)
      fun s ↦ Propagating packets s ∧ FateMet packets s := by
  apply (ranked_stepsToFate options packets).leadsTo
  intro s round mover _ _ hround hmover
  exact ⟨_, hround, congrArg some hmover.symm⟩

variable {state : ProxyState}

theorem queued_served (hnew : ProxyState.new options = .ok state)
    (moves : List (Lib.Move Arrival PartyEvent ServiceEvent)) :
    Queued (served options state moves).shared := by
  have hrun : ServiceInv (served options state moves).shared ∧
      Queued (served options state moves).shared :=
    Lib.run_invariant
      (fun s : Lib.Pool ServiceState Client ↦ ServiceInv s.shared ∧ Queued s.shared)
      ⟨serviceInv_new hnew, queued_new hnew⟩
      fun s move h ↦ ⟨h.1.step move, (h.2.step h.1 options move).1⟩
  exact hrun.2

/-- Every packet that has come into the import queue meets its fate, in every endless run in which
the propagator has a step in each round, whatever is inserted behind it: it is evicted, dropped as
a duplicate or handed to every subscriber, unless `stop` tells the propagator to stop. -/
theorem inserted_meetsFate (hnew : ProxyState.new options = .ok state)
    (moves : List (Lib.Move Arrival PartyEvent ServiceEvent))
    (hstarted : (served options state moves).shared.mProxyThread ≠ .notStarted)
    (rounds : Nat → List (Lib.Move Arrival PartyEvent ServiceEvent))
    (hrounds : ∀ n, .env .propagator ∈ rounds n) :
    ∃ n, FateMet (served options state moves).shared.proxy.importQueue.pushed
      (Lib.afterRounds (service options).step (served options state moves) rounds n) := by
  have hpropagating : Propagating (served options state moves).shared.proxy.importQueue.pushed
      (served options state moves) :=
    ⟨serviceInv_served hnew moves, queued_served hnew moves, hstarted, List.prefix_rfl⟩
  obtain ⟨n, -, hmet⟩ := propagating_leadsTo_fateMet options _ _ rounds hpropagating hrounds
  exact ⟨n, hmet⟩

end Runs

section Example

attribute [local instance] x86Platform

theorem inserted_meetsFate_sentTwice :
    ∃ n, FateMet
      (served tenHeaders tenHeadersProxy (handsOn ++ sendsMessage)).shared.proxy.importQueue.pushed
      (Lib.afterRounds (service tenHeaders).step
        (served tenHeaders tenHeadersProxy (handsOn ++ sendsMessage))
        (fun _ ↦ [.env .propagator]) n) :=
  inserted_meetsFate rfl (handsOn ++ sendsMessage) (by decide +kernel)
    (fun _ ↦ [.env .propagator]) fun _ ↦ List.mem_singleton_self _

end Example
end ImportProxy.Proxy
