import ImportProxy.Proxy.Shutdown

/-!
# The fate of a message

A message that passes the tests of the reader meets one of four fates: a full import queue
refuses it, a later call evicts it, the detector drops it, or it is handed to every
subscriber. Until then it is in a call, in the import queue, or with the propagator. Each
step of a schedule moves packets from one of these places to the next, and loses or doubles
none.
-/

namespace ImportProxy.Proxy

open ImportProxy.Base
open ImportProxy.Frontend (forwarded)

/-- The packets that calls have evicted. -/
def ImportQueue.evicted {π : Type} (s : ImportQueue π) : List π :=
  s.removed.filterMap fun entry ↦
    match entry.2 with
    | .evicted _ => some entry.1
    | .propagated => none

/-- The packets whose fate is decided. -/
def ServiceState.fates (s : ServiceState) : List Tagged :=
  s.refused ++ s.proxy.importQueue.evicted ++ s.dropped ++ s.broadcast

/-- The packets behind their call whose fate is open. -/
def ServiceState.onTheWay (s : ServiceState) : List Tagged :=
  s.proxy.propagator.undelivered ++ s.proxy.propagator.pending ++
    s.proxy.importQueue.mImportExportQueue.toList

/-- The packets that have left their call, or never will. -/
def ServiceState.held (s : ServiceState) : List Tagged := s.fates ++ s.onTheWay

/-- The packet that a call leaves out, when the insertion fails in this step. -/
def AddCall.refusal (call call' : AddCall Tagged) : List Tagged :=
  match call.stage, call'.stage with
  | .push, .returned false => [call.packet]
  | _, _ => []

/-- The messages of a position that the reader lets through. -/
def accepted (party : Option Party) : List Packet := (sentBy party).filterMap forwarded

variable {options : ProxyOptions} {s s' : ServiceState} {i j : Nat}

theorem ofPublisher_perm {packets packets' : List Tagged} (h : packets.Perm packets') :
    (ofPublisher i packets).Perm (ofPublisher i packets') := h.filterMap _

theorem ofPublisher_map_self (packets : List Packet) :
    ofPublisher i (packets.map (Prod.mk i)) = packets := by
  simp [ofPublisher, List.filterMap_map]

theorem ofPublisher_map_of_ne (hij : i ≠ j) (packets : List Packet) :
    ofPublisher j (packets.map (Prod.mk i)) = [] := by
  simp [ofPublisher, hij]

theorem Party.refusal_publisher {publisher publisher' : Publisher} {call call' : AddCall Tagged}
    (hc : publisher.call = some call) (hc' : publisher'.call = some call') :
    Party.refusal (.publisher publisher) (.publisher publisher') = call.refusal call' := by
  obtain ⟨packet, stage, size⟩ := call
  obtain ⟨packet', stage', size'⟩ := call'
  unfold Party.refusal AddCall.refusal
  dsimp only
  rw [hc, hc']
  cases stage with
  | push =>
    cases stage' with
    | returned pushed => cases pushed <;> rfl
    | readSize | evict | push => rfl
  | readSize | evict | returned => rfl

/-- Without a call before the step, or after it, nothing is refused. -/
theorem Party.refusal_of_call_eq_none {publisher publisher' : Publisher}
    (hc : publisher.call = none ∨ publisher'.call = none) :
    Party.refusal (.publisher publisher) (.publisher publisher') = [] := by
  unfold Party.refusal
  dsimp only
  rcases hc with hc | hc
  · rw [hc]
  · rw [hc]
    cases publisher.call with
    | none => rfl
    | some call =>
      obtain ⟨packet, stage, size⟩ := call
      cases stage <;> rfl

/-- A subscriber inserts nothing. -/
theorem Party.refusal_subscriber {writer : Backend.Writer Tagged} {party : Party} :
    Party.refusal (.subscriber writer) party = [] := rfl

/-- A step of a call moves its packet, or one from the queue, to a fate or to the queue. -/
theorem AddStep.moves {queue queue' : ImportQueue Tagged} {call call' : AddCall Tagged}
    (hstep : AddStep queue call queue' call') :
    (call.refusal call' ++ queue'.evicted ++ queue'.mImportExportQueue.toList ++
      call'.pending).Perm
      (queue.evicted ++ queue.mImportExportQueue.toList ++ call.pending) := by
  cases hstep with
  | full hs | room hs | nothing hs =>
    simp [AddCall.refusal, AddCall.pending, hs]
  | evicted hs workSpace queue hpop hcap =>
    simp [AddCall.refusal, AddCall.pending, ImportQueue.evicted, hs, hpop]
  | pushed hs queue hroom hpush hcap =>
    simp [AddCall.refusal, AddCall.pending, ImportQueue.evicted, hs, hpush]
  | dropped hs hfull =>
    simp only [AddCall.refusal, AddCall.pending, hs]
    apply List.perm_iff_count.mpr
    intro packet
    simp only [List.count_append, List.count_nil]
    omega
  | gone pushed hs =>
    simp [AddCall.refusal, AddCall.pending, hs]

/-- Where a step leaves the proxy and what was refused, and what it adds to the messages. -/
structure Moves (i : Nat) (s : ServiceState) (party : Party) (s' : ServiceState) (party' : Party)
    (new : List Packet) : Prop where
  messages : accepted (some party') = accepted (some party) ++ new
  packets : (s'.held ++ inCall (some party')).Perm
    (s.held ++ inCall (some party) ++ new.map (Prod.mk i))

/-- A step that touches neither the import queue nor the propagator, in no call. -/
theorem Moves.of_eq {party party' : Party} (hheld : s'.held = s.held)
    (hin : inCall (some party') = inCall (some party))
    (haccepted : accepted (some party') = accepted (some party)) :
    Moves i s party s' party' [] := by
  constructor
  · rw [haccepted, List.append_nil]
  · rw [hheld, hin, List.map_nil, List.append_nil]

/-- A step of a publisher moves packets on, and adds at most the message that it accepts. -/
theorem PublisherStep.moves {proxy : ProxyState} {publisher publisher' : Publisher}
    {read : ReadDone} {outstanding : Int} {metrics : Metrics}
    (hstep : PublisherStep options s.proxy i publisher read proxy publisher') :
    ∃ new, Moves i s (.publisher publisher)
      { s with
        proxy, outstanding, metrics
        refused := s.refused ++ Party.refusal (.publisher publisher) (.publisher publisher') }
      (.publisher publisher') new := by
  cases hstep with
  | adds _ call call' importQueue hc hs hadd =>
    refine ⟨[], ?_, ?_⟩
    · simp [accepted, sentBy]
    · rw [Party.refusal_publisher hc rfl]
      have hmoves := List.perm_iff_count.mp hadd.moves
      apply List.perm_iff_count.mpr
      intro packet
      have hcount := hmoves packet
      simp only [ServiceState.held, ServiceState.fates, ServiceState.onTheWay, inCall, callOf, hc,
        Option.map_some, Option.getD_some, List.map_nil, List.append_nil,
        List.count_append] at hcount ⊢
      omega
  | resumes _ call pushed frontend rpc hc hs hrpc =>
    rw [Party.refusal_of_call_eq_none (Or.inr rfl), List.append_nil]
    refine ⟨[], Moves.of_eq rfl ?_ rfl⟩
    simp [inCall, callOf, hc, AddCall.pending, hs]
  | calls message packet hc hs hf =>
    rw [Party.refusal_of_call_eq_none (Or.inl hc), List.append_nil]
    refine ⟨[packet], ?_, ?_⟩
    · simp [accepted, sentBy, hf]
    · simp [inCall, callOf, hc, AddCall.pending, ServiceState.held, ServiceState.fates,
        ServiceState.onTheWay]
  | rejects message frontend rpc hc hs hf hrpc =>
    rw [Party.refusal_of_call_eq_none (Or.inl hc), List.append_nil]
    refine ⟨[], Moves.of_eq rfl ?_ ?_⟩
    · simp [inCall, callOf, hc]
    · simp [accepted, sentBy, hf]
  | ends frontend rpc hc hs hrpc =>
    rw [Party.refusal_of_call_eq_none (Or.inl hc), List.append_nil]
    refine ⟨[], Moves.of_eq rfl ?_ rfl⟩
    simp [inCall, callOf, hc]
  | proceeds _ frontend rpc hc hs hrpc =>
    rw [Party.refusal_of_call_eq_none (Or.inl hc), List.append_nil]
    exact ⟨[], Moves.of_eq rfl rfl rfl⟩

/-- A step of a party moves packets on, and adds at most the message that it accepts. -/
theorem partyStep_moves {party party' : Party} {event : PartyEvent} {proxy : ProxyState}
    (hstep : partyStep options s.proxy i party event = (proxy, party')) (outstanding : Int)
    (metrics : Metrics) :
    ∃ new, Moves i s party
      { s with proxy, outstanding, metrics, refused := s.refused ++ party.refusal party' }
      party' new := by
  cases party with
  | publisher publisher =>
    cases event with
    | publisher read =>
      cases hstep
      exact (publisher_step options s.proxy i publisher read).moves
    | subscriber event =>
      cases hstep
      have hsame : Party.refusal (.publisher publisher) (.publisher publisher) = [] := by
        cases hc : publisher.call with
        | none => exact Party.refusal_of_call_eq_none (Or.inl hc)
        | some call =>
          rw [Party.refusal_publisher hc hc]
          unfold AddCall.refusal
          cases call.stage <;> rfl
      rw [hsame, List.append_nil]
      exact ⟨[], Moves.of_eq rfl rfl rfl⟩
  | subscriber writer =>
    cases event with
    | publisher read =>
      cases hstep
      rw [Party.refusal_subscriber, List.append_nil]
      exact ⟨[], Moves.of_eq rfl rfl rfl⟩
    | subscriber event =>
      cases hstep
      rw [Party.refusal_subscriber, List.append_nil]
      exact ⟨[], Moves.of_eq rfl rfl rfl⟩

/-- Nothing has been removed from the queue of a new proxy. -/
theorem removed_new {options : ProxyOptions} {state : ProxyState}
    (hnew : ProxyState.new options = .ok state) : state.importQueue.removed = [] := by
  unfold ProxyState.new at hnew
  dsimp only at hnew
  split at hnew
  · cases hnew
    rfl
  · split at hnew
    · cases hnew
    · cases hnew
      rfl

/-- `start` and `stop` move no packet on its way to the backend. -/
theorem callerStep_held (s : ServiceState) : (callerStep s).held = s.held := by
  unfold callerStep
  cases s.caller with
  | loadFrontend | shutdown | awaitPublishers | join | loadBackend =>
    dsimp only
    split <;> rfl
  | constructed | storeRunning | startThread | storeManager | storeBackend | buildBackend
  | storeFrontend | storeCounter | buildFrontend | running | clearFrontend | clearCounter
  | clearRunning | stopBackend | stopped => rfl

/-- A call carries a packet of its own position. -/
def CallTagged (i : Nat) (party : Option Party) : Prop :=
  ∀ call, callOf party = some call → call.packet.1 = i

theorem callTagged_of_callOf_eq_none {party : Option Party} (hc : callOf party = none) :
    CallTagged i party := by
  intro call hcall
  rw [hc] at hcall
  cases hcall

/-- A step of a publisher leaves the packet of its call, or takes one of its own position. -/
theorem PublisherStep.callTagged {proxy proxy' : ProxyState} {publisher publisher' : Publisher}
    {read : ReadDone} (hstep : PublisherStep options proxy i publisher read proxy' publisher')
    (h : CallTagged i (some (.publisher publisher))) :
    CallTagged i (some (.publisher publisher')) := by
  cases hstep with
  | adds _ call call' importQueue hc hs hadd =>
    intro call'' hcall
    cases hcall
    rw [hadd.packet_eq]
    exact h call hc
  | calls message packet hc hs hf =>
    intro call hcall
    cases hcall
    rfl
  | resumes | rejects | ends => exact callTagged_of_callOf_eq_none rfl
  | proceeds _ frontend rpc hc hs hrpc => exact callTagged_of_callOf_eq_none hc

theorem CallTagged.partyStep {party : Party} (h : CallTagged i (some party))
    (options : ProxyOptions) (proxy : ProxyState) (event : PartyEvent) :
    CallTagged i (some (partyStep options proxy i party event).2) := by
  cases party with
  | publisher publisher =>
    cases event with
    | publisher read => exact (publisher_step options proxy i publisher read).callTagged h
    | subscriber event => exact h
  | subscriber writer => cases event <;> exact callTagged_of_callOf_eq_none rfl

/-- What is known of the messages of a position: each is in its call, on the way, or has met its
fate. -/
structure Accounted (s : ServiceState) (i : Nat) (party : Option Party) : Prop where
  tagged : CallTagged i party
  each : (ofPublisher i (s.held ++ inCall party)).Perm (accepted party)

/-- The packet in a call belongs to the position of the call alone. -/
theorem ofPublisher_inCall_of_ne {party : Option Party}
    (htag : CallTagged i party) (hij : i ≠ j) :
    ofPublisher j (inCall party) = [] := by
  unfold inCall
  cases hc : callOf party with
  | none => rfl
  | some call => exact ofPublisher_pending_of_ne (htag call hc) hij

/-- Moving packets on keeps the account of the position that moves them. -/
theorem Moves.keepsAccount {party party' : Party} {new : List Packet}
    (hmoves : Moves i s party s' party' new) (h : Accounted s i (some party))
    (htag : CallTagged i (some party')) :
    Accounted s' i (some party') := by
  refine ⟨htag, ?_⟩
  have hperm := ofPublisher_perm (i := i) hmoves.packets
  have hnew : ofPublisher i (s.held ++ inCall (some party) ++ new.map (Prod.mk i)) =
      ofPublisher i (s.held ++ inCall (some party)) ++ new := by
    rw [ofPublisher_append, ofPublisher_map_self]
  rw [hnew] at hperm
  rw [hmoves.messages]
  exact hperm.trans (h.each.append_right new)

/-- Moving packets on keeps the account of every other position. -/
theorem Moves.keepsAccount_of_ne {party party' : Party} {new : List Packet} {other : Option Party}
    (hmoves : Moves i s party s' party' new)
    (htag : CallTagged i (some party)) (htag' : CallTagged i (some party')) (hij : i ≠ j)
    (h : Accounted s j other) : Accounted s' j other := by
  refine ⟨h.tagged, ?_⟩
  have hperm := ofPublisher_perm (i := j) hmoves.packets
  rw [ofPublisher_append, ofPublisher_append, ofPublisher_append,
    ofPublisher_inCall_of_ne htag' hij, ofPublisher_inCall_of_ne htag hij,
    ofPublisher_map_of_ne hij, List.append_nil, List.append_nil, List.append_nil] at hperm
  have heach := h.each
  rw [ofPublisher_append] at heach ⊢
  exact (hperm.append_right _).trans heach

/-- The account of a position depends only on which packets there are. -/
theorem Accounted.of_perm {party : Option Party} (h : Accounted s i party)
    (hperm : s'.held.Perm s.held) : Accounted s' i party :=
  ⟨h.tagged, (ofPublisher_perm (hperm.append_right _)).trans h.each⟩

section Runs

variable [Platform]

/-- The propagator evicts nothing. -/
theorem evicted_propagatorStep (s : ProxyState) :
    (propagatorStep s).importQueue.evicted = s.importQueue.evicted := by
  unfold propagatorStep
  cases s.propagator with
  | tryPop =>
    dsimp only
    split
    · rfl
    · next packet queue hpop =>
      simp only [propagatorPop, hpop]
      simp [ImportQueue.evicted]
  | check packet =>
    dsimp only
    split <;> rfl
  | enqueue packet | broadcast packet => rfl

/-- The propagator moves the packet that it holds to the next place. -/
theorem ServiceInv.threadStep_held (h : ServiceInv s) : (threadStep s).held.Perm s.held := by
  unfold threadStep
  cases ht : s.mProxyThread with
  | notStarted | exited | loadRunning => exact List.Perm.refl _
  | working =>
    have hmanager := h.manager_running ht
    have hstep := propagator_step s.proxy
    have hevicted := evicted_propagatorStep s.proxy
    unfold ServiceState.held ServiceState.fates ServiceState.onTheWay
    dsimp only
    rw [hevicted]
    generalize propagatorStep s.proxy = proxy at hstep
    apply List.perm_iff_count.mpr
    intro packet
    cases hstep with
    | sleeps hs hempty => simp [hs, PropagatorStage.undelivered]
    | pops held importQueue hs hpop =>
      simp [hs, hpop, PropagatorStage.pending, PropagatorStage.undelivered]
    | enqueuesStopped held hs hstop =>
      rw [hmanager] at hstop
      cases hstop
    | unchecked held hs | allowed held detector hs | dropped held detector hs
    | enqueues held hs | broadcasts held hs =>
      simp only [hs, PropagatorStage.pending, PropagatorStage.undelivered, List.count_append,
        List.count_nil]
      omega

/-- The environment loses and doubles nothing. -/
theorem ServiceInv.env_held (h : ServiceInv s) (options : ProxyOptions) (event : ServiceEvent) :
    ((service options).env s event).held.Perm s.held := by
  cases event with
  | propagator => exact h.threadStep_held
  | start =>
    show (callStart s).held.Perm s.held
    unfold callStart
    split <;> exact List.Perm.refl _
  | stop =>
    show (callStop s).held.Perm s.held
    unfold callStop
    split <;> exact List.Perm.refl _
  | caller => exact List.Perm.of_eq (callerStep_held s)
  | destructor step =>
    exact destructorStep_cases (motive := fun s' ↦ s'.held.Perm s.held) s step (List.Perm.refl _)
      (fun _ ↦ List.Perm.refl _) fun _ ↦ List.Perm.refl _

/-- A step of a client keeps its own account, and that of every other position. -/
theorem ClientStep.keepsAccounts {client client' : Client} {event : PartyEvent}
    (hstep : ClientStep options s i client event s' client')
    (h : Accounted s i (some (client.party options))) :
    Accounted s' i (some (client'.party options)) ∧
      ∀ j other, i ≠ j → Accounted s j other → Accounted s' j other := by
  cases hstep with
  | waits | connects => exact ⟨h.of_perm (List.Perm.refl _),
      fun j other _ hj ↦ hj.of_perm (List.Perm.refl _)⟩
  | steps party party' event proxy hstep =>
    obtain ⟨new, hmoves⟩ := partyStep_moves hstep
      (s.outstanding - (if party.outstanding then 1 else 0) + if party'.outstanding then 1 else 0)
      (s.metrics.observe party party' event)
    have htag : CallTagged i (some party') := by
      have hkeeps := h.tagged.partyStep options s.proxy event
      rwa [Client.party, hstep] at hkeeps
    exact ⟨hmoves.keepsAccount h htag, fun j other hij hj ↦
      hmoves.keepsAccount_of_ne h.tagged htag hij hj⟩

/-- Every position stays accounted for. -/
theorem stableAt_accounted (options : ProxyOptions) :
    (service options).StableAt ServiceInv
      fun s i client ↦ Accounted s i (client.map (Client.party options)) where
  start s i arrival _ h := by
    have hnone : callOf (some ((proxy options).start arrival)) = none := by cases arrival <;> rfl
    have haccepted : accepted (some ((proxy options).start arrival)) = accepted none := by
      cases arrival <;> rfl
    have hin : inCall (some ((proxy options).start arrival)) = inCall none := by
      rw [inCall, hnone]
      rfl
    refine ⟨callTagged_of_callOf_eq_none hnone, ?_⟩
    show (ofPublisher i (s.held ++ inCall (some ((proxy options).start arrival)))).Perm
      (accepted (some ((proxy options).start arrival)))
    rw [hin, haccepted]
    exact h.each
  act s i client event hs h :=
    ⟨(hs.client (client_step options s i client event)).1,
      ((client_step options s i client event).keepsAccounts h).1⟩
  other s i client j other event hij _ h hj :=
    ((client_step options s i client event).keepsAccounts h).2 j _ hij hj
  env _ event hs := hs.env event
  envThread _ event _ _ hs h := h.of_perm (hs.env_held options event)

variable {state : ProxyState}

/-- The account of every position holds throughout. -/
theorem accounted_served (hnew : ProxyState.new options = .ok state)
    (moves : List (Lib.Move Arrival PartyEvent ServiceEvent)) (i : Nat) :
    Accounted (served options state moves).shared i
      (partyAt options (served options state moves) i) := by
  obtain ⟨-, htry, hempty, -⟩ := ProxyState.new_spec hnew
  have hheld : ServiceState.held { proxy := state } = [] := by
    simp [ServiceState.held, ServiceState.fates, ServiceState.onTheWay, ImportQueue.evicted,
      removed_new hnew, htry, hempty, PropagatorStage.pending, PropagatorStage.undelivered]
  have hinit : Lib.Program.HoldsAt ServiceInv
      (fun s i client ↦ Accounted s i (client.map (Client.party options)))
      (⟨{ proxy := state }, []⟩ : Lib.Pool ServiceState Client) := by
    refine ⟨serviceInv_new hnew, ?_⟩
    intro j
    refine ⟨callTagged_of_callOf_eq_none rfl, ?_⟩
    rw [hheld]
    exact List.Perm.refl _
  exact ((stableAt_accounted options).after hinit moves).2 i

/-- In every run, with `start` and `stop` called at any time, each message of a publisher that
passes the tests of the reader has met one fate, or is still on its way: none is lost, and none
is doubled. -/
theorem everyMessageAccounted (hnew : ProxyState.new options = .ok state)
    (moves : List (Lib.Move Arrival PartyEvent ServiceEvent)) (i : Nat) :
    (ofPublisher i ((served options state moves).shared.fates ++
        (served options state moves).shared.onTheWay ++
        inCall (partyAt options (served options state moves) i))).Perm
      ((sentBy (partyAt options (served options state moves) i)).filterMap forwarded) :=
  (accounted_served hnew moves i).each

end Runs

section Example

attribute [local instance] x86Platform

/-- The publisher sends the message of the run above once more. -/
theorem everyMessageAccounted_sentTwice :
    (ofPublisher 0 ((served tenHeaders tenHeadersProxy (handsOn ++ sendsMessage)).shared.fates ++
        (served tenHeaders tenHeadersProxy (handsOn ++ sendsMessage)).shared.onTheWay ++
        inCall (partyAt tenHeaders (served tenHeaders tenHeadersProxy
          (handsOn ++ sendsMessage)) 0))).Perm
      ((sentBy (partyAt tenHeaders (served tenHeaders tenHeadersProxy
        (handsOn ++ sendsMessage)) 0)).filterMap forwarded) :=
  everyMessageAccounted rfl (handsOn ++ sendsMessage) 0

end Example
end ImportProxy.Proxy
