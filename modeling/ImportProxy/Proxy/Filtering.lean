import ImportProxy.Detector.Resend
import ImportProxy.Lib.Filter
import ImportProxy.Proxy.Fates

/-!
# The service as a filter

Calls, evictions and the propagator interleave in any order, and yet what reaches the
backend is a function of one sequence: the packets in the order in which the propagator has
taken them from the import queue. It is what a detector lets through that is run on this
sequence alone. Order, and duplicates that the detector removes, carry over to every
subscriber, whenever `start` and `stop` are called.
-/

namespace ImportProxy.Proxy

open ImportProxy.Base
open ImportProxy.Backend (Writer)
open ImportProxy.Detector (BuffersDisjoint CallStep DataPacketHeader DuplicatePacketDetector
  EndTimeInRange Inv RemembersHeader SamePacket buffersDisjoint_new call_step enclosureMissed
  inv_new not_ok_of_remembersHeader remembersHeader_of_ok)
open ImportProxy.Frontend (forwarded)

/-- The packets that the propagator has taken from the queue. -/
def ImportQueue.propagated {π : Type} (s : ImportQueue π) : List π :=
  s.removed.filterMap fun entry ↦
    match entry.2 with
    | .evicted _ => none
    | .propagated => some entry.1

/-- The packet that the detector has yet to judge. -/
def PropagatorStage.checking : PropagatorStage → List Tagged
  | .check packet => [packet]
  | .tryPop | .enqueue _ | .broadcast _ => []

/-- The packet that the detector has let through, and that has not been passed on. -/
def PropagatorStage.admitted : PropagatorStage → List Tagged
  | .enqueue packet => [packet]
  | .tryPop | .check _ | .broadcast _ => []

variable {s s' : ServiceState} {options : ProxyOptions} {i : Nat}

/-- The steps of a call take nothing for the propagator. -/
theorem AddStep.propagated_eq {queue queue' : ImportQueue Tagged} {call call' : AddCall Tagged}
    (hstep : AddStep queue call queue' call') : queue'.propagated = queue.propagated := by
  cases hstep with
  | evicted hs workSpace queue hpop hcap => simp [ImportQueue.propagated]
  | full | room | nothing | pushed | dropped | gone => rfl

theorem PublisherStep.propagated_eq {proxy proxy' : ProxyState} {publisher publisher' : Publisher}
    {read : ReadDone} (hstep : PublisherStep options proxy i publisher read proxy' publisher') :
    proxy'.importQueue.propagated = proxy.importQueue.propagated := by
  cases hstep with
  | adds _ call call' importQueue hc hs hadd => exact hadd.propagated_eq
  | resumes | calls | rejects | ends | proceeds => rfl

theorem partyStep_propagated (options : ProxyOptions) (proxy : ProxyState) (i : Nat)
    (party : Party) (event : PartyEvent) :
    (partyStep options proxy i party event).1.importQueue.propagated =
      proxy.importQueue.propagated := by
  cases party with
  | publisher publisher =>
    cases event with
    | publisher read => exact (publisher_step options proxy i publisher read).propagated_eq
    | subscriber event => rfl
  | subscriber writer => cases event <;> rfl

/-- `start` and `stop` take packets from the subscribers at most. -/
theorem Interferes.follows {proxy proxy' : ProxyState} {a : Nat} {given : List Tagged}
    (h : Interferes proxy proxy') (hfollows : Follows proxy a given) : Follows proxy' a given := by
  unfold Follows at hfollows ⊢
  rw [h.propagator, h.enqueued]
  exact (((h.queueOf a).append_left given).append_right _).trans hfollows

theorem Interferes.ordered {proxy proxy' : ProxyState} {party : Option Party}
    (h : Interferes proxy proxy') (hordered : Ordered proxy i party) : Ordered proxy' i party := by
  apply hordered.of_sublist
  unfold pipeline
  rw [h.propagator, h.enqueued, h.importQueue]

/-- What is handed out was passed to the backend before. -/
theorem AllBroadcast.sublist (h : AllBroadcast s) : s.broadcast.Sublist s.proxy.enqueued := by
  rw [h]
  exact List.sublist_append_left _ _

/-- The detector is one that judges its packets apart. -/
def Judging (detector : Option DuplicatePacketDetector) : Prop :=
  ∃ d, detector = some d ∧ Inv d ∧ BuffersDisjoint d

/-- The detector of a new proxy that is to remove duplicates. -/
theorem judging_new {state : ProxyState} (hnew : ProxyState.new options = .ok state)
    (hdetects : options.mHaveDuplicatePacketDetectorOptions = true) :
    Judging state.mDuplicateDetector := by
  unfold ProxyState.new ProxyOptions.getDuplicatePacketDetectorOptions at hnew
  rw [if_pos hdetects] at hnew
  dsimp only at hnew
  split at hnew
  · cases hnew
  · next detector hdetector =>
    cases hnew
    exact ⟨detector, rfl, inv_new hdetector, buffersDisjoint_new hdetector⟩

section Runs

variable [Platform]

/-- The detector of the proxy as a filter: without one everything passes. -/
def detection : Lib.Filter (Option DuplicatePacketDetector) Tagged where
  accepts
    | none, _ => true
    | some detector, packet => decide (detector.allows packet.2)
  next
    | none, _ => none
    | some detector, packet => some (detector.next packet.2)

/-- Behind the packets that were judged, the service is where the detector alone would be. -/
structure Filtered (initial : Option DuplicatePacketDetector) (s : ServiceState)
    (judged : List Tagged) : Prop where
  taken : s.proxy.importQueue.propagated = judged ++ s.proxy.propagator.checking
  passed : s.proxy.enqueued ++ s.proxy.propagator.admitted = detection.passed initial judged
  dropped : s.dropped = detection.rejected initial judged
  detector : s.proxy.mDuplicateDetector = detection.after initial judged

variable {initial : Option DuplicatePacketDetector} {judged : List Tagged}

/-- What the propagator takes, it checks next. -/
theorem propagated_propagatorStep (proxy : ProxyState) :
    (propagatorStep proxy).importQueue.propagated = proxy.importQueue.propagated ++
      if proxy.propagator = .tryPop then (propagatorStep proxy).propagator.checking else [] := by
  unfold propagatorStep
  cases hs : proxy.propagator with
  | tryPop =>
    dsimp only
    split
    · rw [hs]
      simp [PropagatorStage.checking]
    · next packet queue hpop =>
      simp only [propagatorPop, hpop]
      simp [ImportQueue.propagated, PropagatorStage.checking]
  | check packet =>
    dsimp only
    split <;> simp
  | enqueue packet | broadcast packet => simp

/-- A packet that passes the detector. -/
theorem Filtered.accept {packet : Tagged} (h : Filtered initial s judged)
    (hs : s.proxy.propagator = .check packet)
    (haccepts : detection.accepts s.proxy.mDuplicateDetector packet = true) :
    s.proxy.importQueue.propagated = (judged ++ [packet]) ++ [] ∧
      s.proxy.enqueued ++ [packet] = detection.passed initial (judged ++ [packet]) ∧
      s.dropped = detection.rejected initial (judged ++ [packet]) ∧
      detection.next s.proxy.mDuplicateDetector packet =
        detection.after initial (judged ++ [packet]) := by
  have htaken := h.taken
  have hpassed := h.passed
  rw [hs] at htaken hpassed
  rw [h.detector] at haccepts ⊢
  obtain ⟨hp, hr⟩ := Lib.Filter.passed_concat_of_accepts haccepts
  rw [hp, hr, ← hpassed, Lib.Filter.after_concat, List.append_nil]
  exact ⟨htaken, by simp [PropagatorStage.admitted], h.dropped, rfl⟩

/-- A packet that the detector drops. -/
theorem Filtered.reject {packet : Tagged} (h : Filtered initial s judged)
    (hs : s.proxy.propagator = .check packet)
    (hrejects : detection.accepts s.proxy.mDuplicateDetector packet = false) :
    s.proxy.importQueue.propagated = (judged ++ [packet]) ++ [] ∧
      s.proxy.enqueued ++ [] = detection.passed initial (judged ++ [packet]) ∧
      s.dropped ++ [packet] = detection.rejected initial (judged ++ [packet]) ∧
      detection.next s.proxy.mDuplicateDetector packet =
        detection.after initial (judged ++ [packet]) := by
  have htaken := h.taken
  have hpassed := h.passed
  rw [hs] at htaken hpassed
  rw [h.detector] at hrejects ⊢
  obtain ⟨hp, hr⟩ := Lib.Filter.rejected_concat_of_not_accepts hrejects
  rw [hp, hr, ← hpassed, ← h.dropped, Lib.Filter.after_concat, List.append_nil]
  exact ⟨htaken, rfl, rfl, rfl⟩

/-- A step of the propagator's thread is a step of the filter, or none. -/
theorem Filtered.thread_step (h : Filtered initial s judged) :
    ∃ judged', Filtered initial (threadStep s) judged' := by
  unfold threadStep
  cases ht : s.mProxyThread with
  | notStarted | exited | loadRunning => exact ⟨judged, h.taken, h.passed, h.dropped, h.detector⟩
  | working =>
    have hstep := propagator_step s.proxy
    have hpropagated := propagated_propagatorStep s.proxy
    dsimp only
    generalize propagatorStep s.proxy = proxy at hstep hpropagated
    have htaken := h.taken
    have hpassed := h.passed
    cases hstep with
    | sleeps hs hempty =>
      rw [hs] at htaken hpassed
      refine ⟨judged, ?_, ?_, ?_, h.detector⟩
      · rw [hs]
        exact htaken
      · rw [hs]
        exact hpassed
      · rw [hs]
        exact (List.append_nil _).trans h.dropped
    | pops packet importQueue hs hpop =>
      rw [hs] at htaken hpassed
      rw [hs, if_pos rfl, htaken] at hpropagated
      refine ⟨judged, ?_, hpassed, ?_, h.detector⟩
      · rw [hpropagated]
        simp [PropagatorStage.checking]
      · rw [hs]
        exact (List.append_nil _).trans h.dropped
    | unchecked packet hs hd =>
      obtain ⟨htaken', hpassed', hdropped', hdetector'⟩ := h.accept hs (by rw [hd]; rfl)
      refine ⟨judged ++ [packet], htaken', hpassed', ?_, ?_⟩
      · rw [hs]
        exact (List.append_nil _).trans hdropped'
      · rw [← hdetector', hd]
        rfl
    | allowed packet detector hs hd hallow =>
      obtain ⟨htaken', hpassed', hdropped', hdetector'⟩ := h.accept hs (by
        rw [hd]
        exact decide_eq_true hallow)
      refine ⟨judged ++ [packet], htaken', hpassed', ?_, ?_⟩
      · rw [hs]
        exact (List.append_nil _).trans hdropped'
      · rw [← hdetector', hd]
        rfl
    | dropped packet detector hs hd hallow =>
      obtain ⟨htaken', hpassed', hdropped', hdetector'⟩ := h.reject hs (by
        rw [hd]
        exact decide_eq_false hallow)
      refine ⟨judged ++ [packet], htaken', hpassed', ?_, ?_⟩
      · rw [hs]
        exact hdropped'
      · rw [← hdetector', hd]
        rfl
    | enqueues packet hs hrun | enqueuesStopped packet hs hstop =>
      rw [hs] at htaken hpassed
      refine ⟨judged, htaken, ?_, ?_, h.detector⟩
      · exact (List.append_nil _).trans hpassed
      · rw [hs]
        exact (List.append_nil _).trans h.dropped
    | broadcasts packet hs =>
      rw [hs] at htaken hpassed
      refine ⟨judged, htaken, hpassed, ?_, h.detector⟩
      rw [hs]
      exact (List.append_nil _).trans h.dropped

/-- What leaves the work of the propagator, and what it has taken, leaves the filter where it is. -/
theorem Filtered.congr (h : Filtered initial s judged) (houtput : s'.output = s.output)
    (hpropagator : s'.proxy.propagator = s.proxy.propagator)
    (hpropagated : s'.proxy.importQueue.propagated = s.proxy.importQueue.propagated) :
    Filtered initial s' judged := by
  have henqueued : s'.proxy.enqueued = s.proxy.enqueued := congrArg Prod.fst houtput
  have hdropped : s'.dropped = s.dropped := congrArg (fun output ↦ output.2.2.1) houtput
  have hdetector : s'.proxy.mDuplicateDetector = s.proxy.mDuplicateDetector :=
    congrArg (fun output ↦ output.2.2.2) houtput
  constructor
  · rw [hpropagated, hpropagator]
    exact h.taken
  · rw [henqueued, hpropagator]
    exact h.passed
  · rw [hdropped]
    exact h.dropped
  · rw [hdetector]
    exact h.detector

/-- A step of a client leaves the filter where it is. -/
theorem ClientStep.propagated_eq {client client' : Client} {event : PartyEvent}
    (hstep : ClientStep options s i client event s' client') :
    s'.proxy.propagator = s.proxy.propagator ∧
      s'.proxy.importQueue.propagated = s.proxy.importQueue.propagated := by
  rcases hstep.party_step with ⟨hproxy, -⟩ | ⟨hproxy, -⟩
  · rw [hproxy]
    exact ⟨(partyStep_control options s.proxy i _ event).1,
      partyStep_propagated options s.proxy i _ event⟩
  · rw [hproxy]
    exact ⟨rfl, rfl⟩

/-- Every move is a step of the filter, or none. -/
theorem filtered_step {s : Lib.Pool ServiceState Client}
    (h : ∃ judged, Filtered initial s.shared judged)
    (move : Lib.Move Arrival PartyEvent ServiceEvent) :
    ∃ judged, Filtered initial ((service options).step s move).shared judged := by
  obtain ⟨judged, h⟩ := h
  cases move with
  | spawn arrival => exact ⟨judged, h⟩
  | run i event =>
    cases ht : s.threads[i]? with
    | none =>
      rw [Lib.Program.step_run_none ht]
      exact ⟨judged, h⟩
    | some client =>
      have hstep := client_step options s.shared i client event
      rw [Lib.Program.step_run ht]
      exact ⟨judged, h.congr hstep.output_eq hstep.propagated_eq.1 hstep.propagated_eq.2⟩
  | env event =>
    cases event with
    | propagator => exact h.thread_step
    | start =>
      have hsame : (callStart s.shared).output = s.shared.output := by
        unfold callStart
        split <;> rfl
      have hproxy := callStart_proxy s.shared
      exact ⟨judged, h.congr hsame (by rw [← hproxy]; rfl) (by rw [← hproxy]; rfl)⟩
    | stop =>
      have hsame : (callStop s.shared).output = s.shared.output := by
        unfold callStop
        split <;> rfl
      have hproxy := callStop_proxy s.shared
      exact ⟨judged, h.congr hsame (by rw [← hproxy]; rfl) (by rw [← hproxy]; rfl)⟩
    | caller =>
      have hinterferes := interferes_callerStep s.shared
      exact ⟨judged, h.congr (callerStep_output s.shared) hinterferes.propagator
        (congrArg ImportQueue.propagated hinterferes.importQueue)⟩
    | destructor step =>
      have hinterferes := interferes_destructorStep s.shared step
      exact ⟨judged, h.congr (destructorStep_output s.shared step) hinterferes.propagator
        (congrArg ImportQueue.propagated hinterferes.importQueue)⟩

/-- So is every run. -/
theorem filtered_run {s : Lib.Pool ServiceState Client}
    (h : ∃ judged, Filtered initial s.shared judged)
    (moves : List (Lib.Move Arrival PartyEvent ServiceEvent)) :
    ∃ judged, Filtered initial ((service options).after s moves).shared judged :=
  Lib.run_invariant (fun s : Lib.Pool ServiceState Client ↦
    ∃ judged, Filtered initial s.shared judged) h fun _ move h ↦ filtered_step h move

variable {state : ProxyState}

/-- The constructor has filtered nothing. -/
theorem filtered_new (hnew : ProxyState.new options = .ok state) :
    Filtered state.mDuplicateDetector { proxy := state } [] := by
  obtain ⟨henqueued, htry, -, -⟩ := ProxyState.new_spec hnew
  refine ⟨?_, ?_, rfl, rfl⟩
  · simp [ImportQueue.propagated, removed_new hnew, htry, PropagatorStage.checking]
  · simp [henqueued, htry, PropagatorStage.admitted, Lib.Filter.passed]

/-- In every run, with `start` and `stop` called at any time, the packets passed to the backend and
the packets dropped are those that the detector alone passes and rejects on the packets taken from
the import queue, in the order in which they were taken; and the detector is in the state in which
it would be behind them. -/
theorem filtered_served (hnew : ProxyState.new options = .ok state)
    (moves : List (Lib.Move Arrival PartyEvent ServiceEvent)) :
    ∃ judged, Filtered state.mDuplicateDetector (served options state moves).shared judged :=
  filtered_run ⟨[], filtered_new hnew⟩ moves

/-- Every subscriber was sent a part of the packets handed out, in their order, and the packets of
each publisher among them are a part of what its reader has let through, in the order of the
stream. -/
structure Delivered (options : ProxyOptions) (s : Lib.Pool ServiceState Client) : Prop where
  toSubscribers : ∀ writer, Client.connected (.subscriber writer) ∈ s.threads →
    writer.written.Sublist s.shared.broadcast
  ofPublishers : ∀ i, (ofPublisher i s.shared.broadcast).Sublist
    ((sentBy (partyAt options s i)).filterMap forwarded)

/-- A subscriber is written what is handed out, in that order. -/
theorem written_sublist_broadcast (hnew : ProxyState.new options = .ok state)
    (moves : List (Lib.Move Arrival PartyEvent ServiceEvent)) {writer : Writer Tagged}
    (hmem : Client.connected (.subscriber writer) ∈ (served options state moves).threads) :
    writer.written.Sublist (served options state moves).shared.broadcast := by
  have hall : AllBroadcast (served options state moves).shared := (holds_shutdown hnew moves).1.2
  have hserved := ((embeds_service options).stableAt (stable_served options).toStableAt
    (fun _ _ h hI a ↦ h.follows (hI a)) (fun _ _ _ _ h _ hj party hp ↦ by
      have hserved := hj party hp
      cases party with
      | publisher publisher => trivial
      | subscriber writer => exact h.follows hserved)).after
    (s := ⟨{ proxy := state }, []⟩) ⟨follows_new hnew, fun i party hp ↦ absurd hp (by simp)⟩ moves
  obtain ⟨i, hi⟩ := List.mem_iff_getElem?.mp hmem
  have hfollows : Follows (served options state moves).shared.proxy writer.contextAddress
      writer.given := hserved.2 i (.subscriber writer) (congrArg (Option.map _) hi)
  unfold Follows at hfollows
  rw [hall] at hfollows
  have hgiven := (List.append_sublist_append_right _).mp hfollows
  exact writer.written_sublist_given.trans ((List.sublist_append_left _ _).trans hgiven)

/-- What is handed out of a publisher is what its reader let through, in that order. -/
theorem broadcast_sublist_sentBy (hnew : ProxyState.new options = .ok state)
    (moves : List (Lib.Move Arrival PartyEvent ServiceEvent)) (i : Nat) :
    (ofPublisher i (served options state moves).shared.broadcast).Sublist
      ((sentBy (partyAt options (served options state moves) i)).filterMap forwarded) := by
  have hall : AllBroadcast (served options state moves).shared := (holds_shutdown hnew moves).1.2
  have hordered := ((embeds_service options).stableAt (stableAt_ordered options)
    (fun _ _ _ _ ↦ trivial) (fun _ _ _ _ h _ hj ↦ h.ordered hj)).after
    (s := ⟨{ proxy := state }, []⟩) ⟨trivial, ordered_new hnew⟩ moves
  have hpipeline := (hordered.2 i).sublist
  exact (ofPublisher_sublist (hall.sublist.trans (enqueued_sublist_pipeline _ _))).trans hpipeline

/-- In every run, with `start` and `stop` called at any time, order is kept from each publisher to
each subscriber. -/
theorem delivered_served (hnew : ProxyState.new options = .ok state)
    (moves : List (Lib.Move Arrival PartyEvent ServiceEvent)) :
    Delivered options (served options state moves) where
  toSubscribers _ hmem := written_sublist_broadcast hnew moves hmem
  ofPublishers := broadcast_sublist_sentBy hnew moves

/-- The packet encloses a header that the scan for slips overlooks. -/
def overlooks (detector : Option DuplicatePacketDetector) (packet : Tagged) : Bool :=
  match detector with
  | none => false
  | some d => enclosureMissed d packet.2

/-- The packet has an end time, and the scan overlooks nothing. -/
def Judges (detector : Option DuplicatePacketDetector) (packet : Tagged) : Prop :=
  EndTimeInRange packet.2 ∧ overlooks detector packet = false

instance (detector : Option DuplicatePacketDetector) (packet : Tagged) :
    Decidable (Judges detector packet) := inferInstanceAs (Decidable (_ ∧ _))

/-- The detector remembers the header of the packet. -/
def RemembersPacket (detector : Option DuplicatePacketDetector) (packet : Tagged) : Prop :=
  ∃ d header, detector = some d ∧ DataPacketHeader.ofPacket packet.2 = .ok header ∧
    RemembersHeader d header

theorem Judging.next {detector : Option DuplicatePacketDetector} {packet : Tagged}
    (h : Judging detector) (hp : Judges detector packet) :
    Judging (detection.next detector packet) := by
  obtain ⟨d, rfl, hi, hd⟩ := h
  exact ⟨d.next packet.2, rfl, hi.next hp.1,
    hd.step hi hp.1 hp.2 (call_step d packet.2)⟩

/-- A detector remembers a packet that it lets through. -/
theorem Judging.remembersPacket {detector : Option DuplicatePacketDetector} {packet : Tagged}
    (h : Judging detector) (haccepts : detection.accepts detector packet = true) :
    RemembersPacket (detection.next detector packet) packet := by
  obtain ⟨d, rfl, hi, hd⟩ := h
  have hallows : d.allows packet.2 := of_decide_eq_true haccepts
  have hstep := call_step d packet.2
  rw [show (d.allow packet.2).1 = .ok true from hallows] at hstep
  obtain ⟨header, hheader, hremembers⟩ := remembersHeader_of_ok hi hstep
  exact ⟨d.next packet.2, header, rfl, hheader, hremembers⟩

/-- It remembers the packet from then on. -/
theorem RemembersPacket.next {detector : Option DuplicatePacketDetector} {packet other : Tagged}
    (hm : RemembersPacket detector packet) (h : Judging detector)
    (hother : Judges detector other) : RemembersPacket (detection.next detector other) packet := by
  obtain ⟨d, rfl, hi, hd⟩ := h
  obtain ⟨d', header, he, hheader, hremembers⟩ := hm
  cases he
  exact ⟨d.next other.2, header, rfl, hheader,
    hremembers.step hi hd hother.1 hother.2 (call_step d other.2)⟩

/-- A packet that it remembers does not pass once more. -/
theorem RemembersPacket.not_samePacket {detector : Option DuplicatePacketDetector}
    {packet other : Tagged} (hm : RemembersPacket detector packet) (h : Judging detector)
    (hother : Judges detector other) (haccepts : detection.accepts detector other = true) :
    ¬SamePacket packet.2 other.2 := by
  obtain ⟨d, rfl, hi, hd⟩ := h
  obtain ⟨d', header, he, hheader, hremembers⟩ := hm
  cases he
  intro hsame
  have hallows : d.allows other.2 := of_decide_eq_true haccepts
  have hstep := call_step d other.2
  rw [show (d.allow other.2).1 = .ok true from hallows] at hstep
  exact not_ok_of_remembersHeader hi hother.1 (hsame.ofPacket_eq ▸ hheader) hremembers hstep

/-- In every run of a proxy that removes duplicates, no subscriber is sent the same packet twice,
whoever published it, as long as no packet taken from the import queue encloses a header that the
scan of the detector overlooks. -/
theorem deliveredOnce (hnew : ProxyState.new options = .ok state)
    (hdetects : options.mHaveDuplicatePacketDetectorOptions = true)
    (moves : List (Lib.Move Arrival PartyEvent ServiceEvent))
    (hjudges : Lib.Along detection.next Judges state.mDuplicateDetector
      (served options state moves).shared.proxy.importQueue.propagated)
    (writer : Writer Tagged)
    (hmem : Client.connected (.subscriber writer) ∈ (served options state moves).threads) :
    writer.written.Pairwise fun packet other ↦ ¬SamePacket packet.2 other.2 := by
  have hfilter : ∃ judged, Filtered state.mDuplicateDetector
      (served options state moves).shared judged := filtered_run ⟨[], filtered_new hnew⟩ moves
  obtain ⟨judged, hfiltered⟩ := hfilter
  rw [hfiltered.taken] at hjudges
  have hpassed : (detection.passed state.mDuplicateDetector judged).Pairwise
      fun packet other ↦ ¬SamePacket packet.2 other.2 :=
    Lib.Filter.pairwise_passed (I := Judging) (fun _ _ h hp ↦ h.next hp)
      (fun _ _ h _ haccepts ↦ h.remembersPacket haccepts)
      (fun _ _ _ h hother hm ↦ RemembersPacket.next hm h hother)
      (fun _ _ _ h hother hm haccepts ↦ RemembersPacket.not_samePacket hm h hother haccepts)
      (judging_new hnew hdetects) (Lib.along_append.mp hjudges).1
  have hwritten := written_sublist_broadcast hnew moves hmem
  have hall : AllBroadcast (served options state moves).shared := (holds_shutdown hnew moves).1.2
  rw [← hfiltered.passed] at hpassed
  exact List.Pairwise.sublist
    ((hwritten.trans hall.sublist).trans (List.sublist_append_left _ _)) hpassed

end Runs

section Example

attribute [local instance] x86Platform

/-- The publisher sends the same message twice, and the subscriber pumps. -/
def sendsTwice : List (Lib.Move Arrival PartyEvent ServiceEvent) :=
  handsOn ++ sendsMessage ++ List.replicate 5 (.env .propagator) ++
    List.replicate 5 (.run 1 (.subscriber .proceed))

/-- The subscriber of that run, with its write in flight. -/
def pumpingSubscriber : Writer Tagged where
  contextAddress := 1
  clientMetadata := []
  stage := .writing
  mSubscribed := true
  mPacketsQueue := [(0, Detector.testPacket 0 100 100)]
  written := [(0, Detector.testPacket 0 100 100)]

theorem tenHeadersProxy_new : ProxyState.new tenHeaders = .ok tenHeadersProxy := rfl

theorem filtered_served_sendsTwice :
    ∃ judged, Filtered tenHeadersProxy.mDuplicateDetector
      (served tenHeaders tenHeadersProxy sendsTwice).shared judged :=
  filtered_served rfl sendsTwice

theorem delivered_served_sendsTwice :
    Delivered tenHeaders (served tenHeaders tenHeadersProxy sendsTwice) :=
  delivered_served rfl sendsTwice

theorem deliveredOnce_sendsTwice :
    pumpingSubscriber.written.Pairwise fun packet other ↦ ¬SamePacket packet.2 other.2 :=
  deliveredOnce tenHeadersProxy_new rfl sendsTwice (by decide +kernel) pumpingSubscriber
    (by decide +kernel)

end Example
end ImportProxy.Proxy
