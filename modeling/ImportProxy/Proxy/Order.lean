import ImportProxy.Detector.Invariant
import ImportProxy.Proxy.System

/-!
# Order from end to end

The packets that were passed to `Backend::enqueuePacket` form one sequence. What
the queues between a publisher and that sequence hold, and what lies between it
and a subscriber, only ever loses packets: the two invariants below follow each
packet on its way, for every schedule of the parties.
-/

namespace ImportProxy.Proxy

open ImportProxy.Base
open ImportProxy.Frontend (forwarded)
open ImportProxy.Backend (BackendState Writer WriterEvent WriterStep writer_step trail)

/-- The packets of one publisher, in order. -/
def ofPublisher (i : Nat) (packets : List Tagged) : List Packet :=
  packets.filterMap fun packet ↦ if packet.1 = i then some packet.2 else none

/-- The messages of a position so far. -/
def sentBy : Option Party → List Packet
  | some (.publisher publisher) => publisher.sent
  | _ => []

/-- Every subscriber was given a part of the one sequence, in its order, and in that sequence the
packets of every publisher are a part of what it sent, in the order in which it sent them. -/
structure EndToEnd (s : Lib.Pool ProxyState Party) : Prop where
  delivered : ∀ writer, Party.subscriber writer ∈ s.threads →
    writer.written.Sublist s.shared.enqueued
  ordered : ∀ i, (ofPublisher i s.shared.enqueued).Sublist
    ((sentBy s.threads[i]?).filterMap forwarded)

/-- The packet that the propagator holds before it passes it on. -/
def PropagatorStage.pending : PropagatorStage → List Tagged
  | .check packet | .enqueue packet => [packet]
  | .tryPop | .broadcast _ => []

/-- The packet that was passed on and has not reached the subscribers yet. -/
def PropagatorStage.undelivered : PropagatorStage → List Tagged
  | .broadcast packet => [packet]
  | .tryPop | .check _ | .enqueue _ => []

/-- The packets that were passed on, and behind them those that still may be. -/
def pipeline (s : ProxyState) : List Tagged :=
  s.enqueued ++ s.propagator.pending ++ s.importQueue.mImportExportQueue.toList

/-- What was passed on comes before what still may be. -/
theorem enqueued_sublist_pipeline (s : ProxyState) (packets : List Tagged) :
    s.enqueued.Sublist (pipeline s ++ packets) := by
  unfold pipeline
  rw [List.append_assoc, List.append_assoc]
  exact List.sublist_append_left _ _

/-- The packet that a call has yet to insert. -/
def AddCall.pending (call : AddCall Tagged) : List Tagged :=
  match call.stage with
  | .returned _ => []
  | .readSize | .evict | .push => [call.packet]

/-- The call that a position is in. -/
def callOf : Option Party → Option (AddCall Tagged)
  | some (.publisher publisher) => publisher.call
  | _ => none

/-- The packet that the call of a position has yet to insert. -/
def inCall (party : Option Party) : List Tagged := ((callOf party).map AddCall.pending).getD []

variable {i j : Nat} {packets packets' : List Tagged}

@[simp] theorem ofPublisher_append :
    ofPublisher i (packets ++ packets') = ofPublisher i packets ++ ofPublisher i packets' :=
  List.filterMap_append

theorem ofPublisher_sublist (h : packets.Sublist packets') :
    (ofPublisher i packets).Sublist (ofPublisher i packets') := h.filterMap _

theorem ofPublisher_singleton (packet : Packet) : ofPublisher i [(i, packet)] = [packet] := by
  simp [ofPublisher]

/-- What a call has yet to insert is a packet of its own publisher. -/
theorem ofPublisher_pending_of_ne {call : AddCall Tagged} (htag : call.packet.1 = i)
    (hij : i ≠ j) : ofPublisher j call.pending = [] := by
  subst htag
  unfold AddCall.pending
  cases call.stage with
  | returned pushed => rfl
  | readSize | evict | push => simp [ofPublisher, hij]

/-- A step of a call loses packets, or moves its own behind the queue. -/
theorem AddStep.pending_sublist {s s' : ImportQueue Tagged} {call call' : AddCall Tagged}
    (hstep : AddStep s call s' call') :
    (s'.mImportExportQueue.toList ++ call'.pending).Sublist
      (s.mImportExportQueue.toList ++ call.pending) := by
  cases hstep with
  | full hs | room hs | nothing hs =>
    simp only [AddCall.pending, hs]
    exact List.Sublist.refl _
  | evicted hs workSpace queue hpop hcap =>
    simp only [AddCall.pending, hs, hpop]
    exact List.sublist_cons_self _ _
  | pushed hs queue hroom hpush hcap =>
    simp only [AddCall.pending, hs, hpush, List.append_nil]
    exact List.Sublist.refl _
  | dropped hs hfull =>
    simp only [AddCall.pending, hs, List.append_nil]
    exact List.sublist_append_left _ _
  | gone pushed hs => exact List.Sublist.refl _

theorem AddStep.packet_eq {s s' : ImportQueue Tagged} {call call' : AddCall Tagged}
    (hstep : AddStep s call s' call') : call'.packet = call.packet := by
  cases hstep <;> rfl

/-- A step of a call loses packets on the way, or moves its own. -/
theorem AddStep.pipeline_sublist {s : ProxyState} {importQueue : ImportQueue Tagged}
    {call call' : AddCall Tagged} (hstep : AddStep s.importQueue call importQueue call') :
    (pipeline { s with importQueue } ++ call'.pending).Sublist (pipeline s ++ call.pending) := by
  unfold pipeline
  rw [List.append_assoc, List.append_assoc _ _ call.pending]
  exact hstep.pending_sublist.append_left _

section Publishers

/-- At a position the packets on their way, and the one in its call, are a part of its messages
in their order. -/
structure Ordered (s : ProxyState) (i : Nat) (party : Option Party) : Prop where
  tagged : ∀ call, callOf party = some call → call.packet.1 = i
  sublist : (ofPublisher i (pipeline s ++ inCall party)).Sublist
    ((sentBy party).filterMap forwarded)

variable {options : ProxyOptions} {s s' : ProxyState} {party : Option Party}
  {publisher publisher' : Publisher} {read : ReadDone}

/-- Losing packets on the way keeps the order. -/
theorem Ordered.of_sublist (h : Ordered s i party) (hs : (pipeline s').Sublist (pipeline s)) :
    Ordered s' i party :=
  ⟨h.tagged, (ofPublisher_sublist (hs.append_right _)).trans h.sublist⟩

/-- Outside a call only the messages matter. -/
theorem ordered_of_callOf_eq_none (hc : callOf party = none) : Ordered s i party ↔
    (ofPublisher i (pipeline s)).Sublist ((sentBy party).filterMap forwarded) := by
  have hin : inCall party = [] := by rw [inCall, hc, Option.map_none, Option.getD_none]
  constructor
  · rintro ⟨-, hsub⟩
    rwa [hin, List.append_nil] at hsub
  · intro hsub
    constructor
    · intro call hcall
      rw [hc] at hcall
      cases hcall
    · rwa [hin, List.append_nil]

/-- A step of a publisher keeps its own order. -/
theorem PublisherStep.ordered (hstep : PublisherStep options s i publisher read s' publisher')
    (h : Ordered s i (some (.publisher publisher))) :
    Ordered s' i (some (.publisher publisher')) := by
  cases hstep with
  | adds _ call call' importQueue hc hs hadd =>
    have hin : inCall (some (.publisher publisher)) = call.pending := by simp [inCall, callOf, hc]
    have hsub := h.sublist
    rw [hin] at hsub
    constructor
    · intro call'' hcall
      cases hcall
      rw [hadd.packet_eq]
      exact h.tagged call hc
    · exact (ofPublisher_sublist hadd.pipeline_sublist).trans hsub
  | resumes _ call pushed frontend rpc hc hs hrpc =>
    have hin : inCall (some (.publisher publisher)) = [] := by
      simp [inCall, callOf, hc, AddCall.pending, hs]
    have hsub := h.sublist
    rw [hin, List.append_nil] at hsub
    rw [ordered_of_callOf_eq_none rfl]
    exact hsub
  | calls message packet hc hs hf =>
    have hnone : callOf (some (.publisher publisher)) = none := hc
    rw [ordered_of_callOf_eq_none hnone] at h
    constructor
    · intro call hcall
      cases hcall
      rfl
    · show (ofPublisher i (pipeline s ++ [(i, packet)])).Sublist
        ((publisher.sent ++ [message]).filterMap forwarded)
      have hone : [message].filterMap forwarded = [packet] := by simp [hf]
      rw [ofPublisher_append, ofPublisher_singleton, List.filterMap_append, hone]
      exact h.append_right _
  | rejects message frontend rpc hc hs hf hrpc =>
    have hnone : callOf (some (.publisher publisher)) = none := hc
    rw [ordered_of_callOf_eq_none hnone] at h
    rw [ordered_of_callOf_eq_none rfl]
    show (ofPublisher i (pipeline s)).Sublist ((publisher.sent ++ [message]).filterMap forwarded)
    have hone : [message].filterMap forwarded = [] := by simp [hf]
    rwa [List.filterMap_append, hone, List.append_nil]
  | ends frontend rpc hc hs hrpc =>
    have hnone : callOf (some (.publisher publisher)) = none := hc
    rw [ordered_of_callOf_eq_none hnone] at h
    rw [ordered_of_callOf_eq_none rfl]
    exact h
  | proceeds _ frontend rpc hc hs hrpc =>
    have hnone : callOf (some (.publisher publisher)) = none := hc
    have hleft : callOf (some (.publisher { publisher with rpc })) = none := hc
    rw [ordered_of_callOf_eq_none hnone] at h
    rw [ordered_of_callOf_eq_none hleft]
    exact h

/-- A step of a publisher keeps the order of every other position. -/
theorem PublisherStep.ordered_of_ne
    (hstep : PublisherStep options s i publisher read s' publisher')
    (h : Ordered s i (some (.publisher publisher))) (hij : i ≠ j) (hj : Ordered s j party) :
    Ordered s' j party := by
  cases hstep with
  | adds _ call call' importQueue hc hs hadd =>
    refine ⟨hj.tagged, ?_⟩
    have hpending := ofPublisher_pending_of_ne (h.tagged call hc) hij
    have hpipeline : (ofPublisher j (pipeline { s with importQueue })).Sublist
        (ofPublisher j (pipeline s)) := by
      have hsub := ofPublisher_sublist (i := j) hadd.pipeline_sublist
      rw [ofPublisher_append, ofPublisher_append, hpending, List.append_nil] at hsub
      exact (List.sublist_append_left _ _).trans hsub
    have hsub := hj.sublist
    rw [ofPublisher_append] at hsub ⊢
    exact (hpipeline.append_right _).trans hsub
  | resumes | calls | rejects | ends | proceeds => exact hj.of_sublist (List.Sublist.refl _)

end Publishers

section Subscribers

/-- Behind the packets `given`, what waits for a context and what is about to reach it are a part
of the one sequence. -/
def Follows (s : ProxyState) (contextAddress : Nat) (given : List Tagged) : Prop :=
  (given ++ s.backend.mSubscriptionManager.queueOf contextAddress ++
    s.propagator.undelivered).Sublist s.enqueued

variable {options : ProxyOptions} {s s' : ProxyState} {publisher publisher' : Publisher}
  {read : ReadDone} {contextAddress : Nat} {given : List Tagged}

theorem Follows.given_sublist (h : Follows s contextAddress given) : given.Sublist s.enqueued := by
  unfold Follows at h
  rw [List.append_assoc] at h
  exact (List.sublist_append_left _ _).trans h

theorem PublisherStep.enqueued_eq
    (hstep : PublisherStep options s i publisher read s' publisher') :
    s'.enqueued = s.enqueued := by
  cases hstep <;> rfl

/-- A step of a publisher touches nothing behind the propagator. -/
theorem PublisherStep.follows (hstep : PublisherStep options s i publisher read s' publisher')
    (h : Follows s contextAddress given) : Follows s' contextAddress given := by
  cases hstep <;> exact h

/-- A step of a subscriber adds nothing to what waits for any context. -/
theorem follows_of_writerStep {backend : BackendState Tagged} {w w' : Writer Tagged}
    {event : WriterEvent}
    (hstep : WriterStep options.getBackendOptions s.backend w event backend w')
    (h : Follows s contextAddress given) : Follows { s with backend } contextAddress given :=
  (((hstep.queueOf_sublist contextAddress).append_left given).append_right _).trans h

/-- A step of a party adds nothing behind the propagator. -/
theorem Follows.partyStep (h : Follows s contextAddress given) (i : Nat) (party : Party)
    (event : PartyEvent) :
    Follows (partyStep options s i party event).1 contextAddress given := by
  cases party with
  | publisher publisher =>
    cases event with
    | publisher read => exact (publisher_step options s i publisher read).follows h
    | subscriber event => exact h
  | subscriber writer =>
    cases event with
    | publisher read => exact h
    | subscriber event =>
      exact follows_of_writerStep (writer_step options.getBackendOptions s.backend writer event) h

/-- A step of a subscriber adds nothing to its own trail. -/
theorem follows_self_of_writerStep {backend : BackendState Tagged} {w w' : Writer Tagged}
    {event : WriterEvent}
    (hstep : WriterStep options.getBackendOptions s.backend w event backend w')
    (h : Follows s w.contextAddress w.given) :
    Follows { s with backend } w'.contextAddress w'.given :=
  (hstep.trail_sublist.append_right _).trans h

end Subscribers

/-- Nothing is on its way in the beginning. -/
theorem ordered_new {options : ProxyOptions} {state : ProxyState}
    (h : ProxyState.new options = .ok state) (i : Nat) : Ordered state i none := by
  obtain ⟨henqueued, htry, hempty, -⟩ := ProxyState.new_spec h
  have hpipeline : pipeline state = [] := by
    simp [pipeline, henqueued, htry, hempty, PropagatorStage.pending]
  rw [ordered_of_callOf_eq_none rfl, hpipeline]
  exact List.Sublist.refl _

theorem follows_new {options : ProxyOptions} {state : ProxyState}
    (h : ProxyState.new options = .ok state) (a : Nat) : Follows state a [] := by
  obtain ⟨-, htry, -, hqueue⟩ := ProxyState.new_spec h
  unfold Follows
  rw [hqueue, htry]
  exact List.nil_sublist _

section Propagator

variable [Platform] {s : ProxyState}

/-- The propagator loses the packet that it holds, or passes it on. -/
theorem PropagatorStep.pipeline_sublist {s' : ProxyState} (hstep : PropagatorStep s s') :
    (pipeline s').Sublist (pipeline s) := by
  unfold pipeline
  cases hstep with
  | sleeps hs hempty => exact List.Sublist.refl _
  | pops packet importQueue hs hpop =>
    simp only [hs, hpop, PropagatorStage.pending, List.append_nil, List.append_assoc,
      List.singleton_append]
    exact List.Sublist.refl _
  | unchecked packet hs | allowed packet detector hs =>
    simp only [hs, PropagatorStage.pending]
    exact List.Sublist.refl _
  | dropped packet detector hs =>
    simp only [hs, PropagatorStage.pending]
    exact ((List.nil_sublist _).append_left _).append_right _
  | enqueues packet hs | enqueuesStopped packet hs =>
    simp only [hs, PropagatorStage.pending, List.append_nil]
    exact List.Sublist.refl _
  | broadcasts packet hs =>
    simp only [hs, PropagatorStage.pending]
    exact List.Sublist.refl _

/-- The propagator leaves the one sequence, or appends a packet. -/
theorem PropagatorStep.enqueued_grows {s' : ProxyState} (hstep : PropagatorStep s s') :
    s.enqueued <+: s'.enqueued := by
  cases hstep with
  | enqueues packet | enqueuesStopped packet => exact List.prefix_append _ _
  | sleeps | pops | unchecked | allowed | dropped | broadcasts => exact List.prefix_rfl

/-- The propagator extends the one sequence, and hands its newest packet to every context. -/
theorem PropagatorStep.follows {s' : ProxyState} {contextAddress : Nat} {given : List Tagged}
    (hstep : PropagatorStep s s') (h : Follows s contextAddress given) :
    Follows s' contextAddress given := by
  unfold Follows at h ⊢
  cases hstep with
  | sleeps hs hempty => exact h
  | pops packet importQueue hs | unchecked packet hs | allowed packet detector hs
  | dropped packet detector hs =>
    simpa only [hs, PropagatorStage.undelivered] using h
  | enqueues packet hs hrun =>
    simp only [hs, PropagatorStage.undelivered, List.append_nil] at h
    exact h.append_right [packet]
  | enqueuesStopped packet hs hstop =>
    simp only [hs, PropagatorStage.undelivered] at h
    exact h.trans (List.sublist_append_left _ _)
  | broadcasts packet hs =>
    simp only [hs, PropagatorStage.undelivered, List.append_assoc] at h
    have hqueue := s.backend.mSubscriptionManager.queueOf_enqueuePacket_sublist packet
      contextAddress
    simp only [PropagatorStage.undelivered, List.append_nil]
    exact (hqueue.append_left given).trans h

end Propagator

section Runs

variable [Platform] (options : ProxyOptions)

/-- The order of the publishers is kept by every step. -/
theorem stableAt_ordered : (proxy options).StableAt (fun _ ↦ True) Ordered where
  start s i arrival _ h := by
    rw [ordered_of_callOf_eq_none rfl] at h
    cases arrival <;> exact (ordered_of_callOf_eq_none rfl).mpr h
  act s i party event _ h := by
    refine ⟨trivial, ?_⟩
    cases party with
    | publisher publisher =>
      cases event with
      | publisher read => exact (publisher_step options s i publisher read).ordered h
      | subscriber event => exact h
    | subscriber writer =>
      cases event with
      | publisher read => exact h
      | subscriber event =>
        rw [ordered_of_callOf_eq_none rfl] at h
        exact (ordered_of_callOf_eq_none rfl).mpr h
  other s i party j other event hij _ h hj := by
    cases party with
    | publisher publisher =>
      cases event with
      | publisher read => exact (publisher_step options s i publisher read).ordered_of_ne h hij hj
      | subscriber event => exact hj
    | subscriber writer =>
      cases event with
      | publisher read => exact hj
      | subscriber event => exact hj.of_sublist (List.Sublist.refl _)
  env _ _ _ := trivial
  envThread s _ i party _ h := h.of_sublist (propagator_step s).pipeline_sublist

/-- What a subscriber is given follows the one sequence. -/
def Served (s : ProxyState) : Party → Prop
  | .publisher _ => True
  | .subscriber writer => Follows s writer.contextAddress writer.given

/-- What the subscribers are given is kept by every step. -/
theorem stable_served : (proxy options).Stable (fun s ↦ ∀ a, Follows s a [])
    (fun s _ party ↦ Served s party) where
  start s i arrival h := by
    cases arrival with
    | publish clientMetadata => trivial
    | subscribe contextAddress clientMetadata => exact h contextAddress
  act s i party event h hparty := by
    refine ⟨fun a ↦ (h a).partyStep i party event, ?_⟩
    cases party with
    | publisher publisher =>
      cases event with
      | publisher read => trivial
      | subscriber event => trivial
    | subscriber writer =>
      cases event with
      | publisher read => exact hparty
      | subscriber event =>
        exact follows_self_of_writerStep
          (writer_step options.getBackendOptions s.backend writer event) hparty
  other s i party j other event hij h hparty hother := by
    cases other with
    | publisher publisher => trivial
    | subscriber other =>
      have hfollows : Follows s other.contextAddress other.given := hother
      exact hfollows.partyStep i party event
  env s _ h a := (propagator_step s).follows (h a)
  envThread s _ i party _ h := by
    cases party with
    | publisher publisher => trivial
    | subscriber writer => exact (propagator_step s).follows h

variable {state : ProxyState}

/-- Order and content are kept from end to end, in every run of the proxy. -/
theorem endToEnd (h : ProxyState.new options = .ok state)
    (moves : List (Lib.Move Arrival PartyEvent Unit)) :
    EndToEnd ((proxy options).after ⟨state, []⟩ moves) := by
  have hordered : Lib.Program.HoldsAt (fun _ ↦ True) Ordered _ :=
    (stableAt_ordered options).after (s := ⟨state, []⟩) ⟨trivial, ordered_new h⟩ moves
  have hserved : Lib.Program.Holds _ (fun s _ party ↦ Served s party) _ :=
    (stable_served options).after (s := ⟨state, []⟩)
      ⟨follows_new h, fun i party hparty ↦ absurd hparty (by simp)⟩ moves
  constructor
  · intro writer hmem
    have hfollows : Follows _ writer.contextAddress writer.given := hserved.of_mem hmem
    exact writer.written_sublist_given.trans hfollows.given_sublist
  · intro i
    exact (ofPublisher_sublist (enqueued_sublist_pipeline _ _)).trans (hordered.2 i).sublist

theorem enqueued_grows_step (s : Lib.Pool ProxyState Party)
    (move : Lib.Move Arrival PartyEvent Unit) :
    s.shared.enqueued <+: ((proxy options).step s move).shared.enqueued := by
  cases move with
  | spawn arrival => exact List.prefix_rfl
  | env u => exact (propagator_step s.shared).enqueued_grows
  | run i event =>
    cases ht : s.threads[i]? with
    | none =>
      have hsame : (proxy options).step s (.run i event) = s := Lib.Program.step_run_none ht
      exact hsame.symm ▸ List.prefix_rfl
    | some party =>
      have hsame : (partyStep options s.shared i party event).1.enqueued = s.shared.enqueued := by
        cases party with
        | publisher publisher =>
          cases event with
          | publisher read => exact (publisher_step options s.shared i publisher read).enqueued_eq
          | subscriber event => rfl
        | subscriber writer => cases event <;> rfl
      rw [Lib.Program.step_run ht]
      exact hsame.symm ▸ List.prefix_rfl

/-- The one sequence only grows along a run. -/
theorem enqueued_grows (s : Lib.Pool ProxyState Party)
    (moves : List (Lib.Move Arrival PartyEvent Unit)) :
    s.shared.enqueued <+: ((proxy options).after s moves).shared.enqueued :=
  Lib.run_invariant (fun s' : Lib.Pool ProxyState Party ↦
    s.shared.enqueued <+: s'.shared.enqueued) List.prefix_rfl
    fun s' move h ↦ h.trans (enqueued_grows_step options s' move)

end Runs

section Example

attribute [local instance] x86Platform

/-- Options with duplicate removal by a buffer of ten headers. -/
def tenHeaders : ProxyOptions where
  mDuplicatePacketDetectorOptions := Detector.fixedSizeOptions 10
  mHaveDuplicatePacketDetectorOptions := true

/-- The proxy that the constructor makes of them. -/
def tenHeadersProxy : ProxyState where
  importQueue := { mImportExportQueue := Lib.Fifo.empty 8192 }
  mDuplicateDetector := some (Detector.fixedSize 10)
  backend := (Backend.started {}).shared

/-- A publisher reads a message and calls back. -/
def publishes (message : Packet) : List (Lib.Move Arrival PartyEvent Unit) :=
  .run 0 (.publisher (.message message)) :: List.replicate 3 (.run 0 (.publisher .endOfStream))

/-- A publisher and a subscriber are admitted, the same message is sent twice, and the subscriber
starts a write. -/
def sentTwice : List (Lib.Move Arrival PartyEvent Unit) :=
  [.spawn (.publish []), .spawn (.subscribe 1 [])] ++
    List.replicate 4 (.run 0 (.publisher .endOfStream)) ++
    List.replicate 6 (.run 1 (.subscriber .proceed)) ++
    publishes (Detector.testPacket 0 100 100) ++ publishes (Detector.testPacket 0 100 100) ++
    List.replicate 6 (.env ()) ++ List.replicate 4 (.run 1 (.subscriber .proceed))

theorem endToEnd_sentTwice : EndToEnd ((proxy tenHeaders).after ⟨tenHeadersProxy, []⟩ sentTwice) :=
  endToEnd tenHeaders rfl sentTwice

/-- The subscriber is given the message once. -/
example : ((proxy tenHeaders).after ⟨tenHeadersProxy, []⟩ sentTwice).threads.map (fun party ↦
    match party with
    | .publisher publisher => publisher.sent.length
    | .subscriber writer => writer.written.length) = [2, 1] := by decide +kernel

end Example
end ImportProxy.Proxy
