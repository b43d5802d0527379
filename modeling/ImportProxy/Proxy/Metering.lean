import ImportProxy.Proxy.Filtering
import Mathlib.Algebra.Order.BigOperators.Group.Finset
import Mathlib.Algebra.BigOperators.Ring.Finset

/-!
# The packet counters

Publishers count the messages that they read, and subscribers the writes that they start, in
two counters of `MetricsSingleton` that all of them share. The counters are exact up to the
width of their type, and no more packets are sent than each subscriber is sent every packet
that was received once.
-/

namespace ImportProxy.Proxy

open ImportProxy.Base
open ImportProxy.Backend (Writer WriterStep writer_step)

variable {options : ProxyOptions} {s s' : ServiceState} {i : Nat}

/-- The messages that a party has read. -/
def Party.read : Party → Nat
  | .publisher p => p.sent.length
  | .subscriber _ => 0

/-- The writes that a party has started. -/
def Party.started : Party → Nat
  | .publisher _ => 0
  | .subscriber w => w.written.length

/-- A step of a publisher reads the message that it is told of, or none. -/
theorem PublisherStep.length_sent {proxy proxy' : ProxyState} {publisher publisher' : Publisher}
    {read : ReadDone} (hstep : PublisherStep options proxy i publisher read proxy' publisher') :
    publisher'.sent.length = publisher.sent.length +
      if Party.receives (.publisher publisher) (.publisher read) then 1 else 0 := by
  cases hstep with
  | adds _ call call' importQueue hc hs hadd => cases read <;> simp [Party.receives, hc]
  | resumes _ call pushed frontend rpc hc hs hrpc => cases read <;> simp [Party.receives, hc]
  | calls message packet hc hs hf => simp [Party.receives, hc, hs]
  | rejects message frontend rpc hc hs hf hrpc => simp [Party.receives, hc, hs]
  | ends frontend rpc hc hs hrpc => simp [Party.receives]
  | proceeds _ frontend rpc hc hs hrpc => cases read <;> simp [Party.receives, hs]

/-- Starting a write is what adds to the written packets. -/
theorem length_written_send {w : Writer Tagged} (hs : w.stage ≠ .writing) :
    w.send.written.length = w.written.length +
      if Party.startsWrite (.subscriber w) (.subscriber w.send) then 1 else 0 := by
  unfold Writer.send
  split
  · simp [Party.startsWrite]
  · simp [Party.startsWrite, hs]

/-- Only a `StartWrite` adds to the written packets. -/
theorem length_written {options : Backend.BackendOptions} {s s' : Backend.BackendState Tagged}
    {w w' : Writer Tagged} {event : Backend.WriterEvent}
    (hstep : WriterStep options s w event s' w') :
    w'.written.length = w.written.length +
      if Party.startsWrite (.subscriber w) (.subscriber w') then 1 else 0 := by
  have none {w' : Writer Tagged} (hwritten : w'.written = w.written)
      (hstage : w'.stage ≠ .writing ∨ w.stage = .writing) :
      w'.written.length = w.written.length +
        if Party.startsWrite (.subscriber w) (.subscriber w') then 1 else 0 := by
    rcases hstage with hstage | hstage <;> simp [Party.startsWrite, hwritten, hstage]
  cases hstep with
  | refused | validated | exhausted | belowMaximum | subscribes | subscribesStopped | failed
  | subscribed | stored | counted | pumps | pumpsStopped | pumpsCancelled | queueEmpty | stops
  | fetches | alarm | takesSubscribed | unsubscribes | done | deleted =>
    exact none rfl (Or.inl (by simp [Writer.finish]))
  | sendsQueued hs | fetchesStopped hs | fetchFailed hs =>
    exact length_written_send (by simp [hs])
  | fetched packetsBuffer manager hs hm =>
    have hsend := length_written_send (w := w.pushPackets packetsBuffer)
      (by simp [Writer.pushPackets, hs])
    exact hsend
  | notSubscribed status hs | unsubscribesStopped status hs | unsubscribed status hs =>
    cases status <;> exact none rfl (Or.inl (by simp [Writer.leave, Writer.finish]))
  | writeDone ok hs =>
    apply none _ (Or.inr hs)
    unfold Backend.onWriteDone
    split_ifs <;> rfl
  | cancel =>
    by_cases hw : w.stage = .writing
    · exact none rfl (Or.inr hw)
    · exact none rfl (Or.inl hw)
  | waits | notWriting =>
    by_cases hw : w.stage = .writing
    · exact none rfl (Or.inr hw)
    · exact none rfl (Or.inl hw)

/-- A step of a party reads a message when it receives one, and adds to the written packets when
it starts a write. -/
theorem partyStep_counts {party party' : Party} {event : PartyEvent} {proxy proxy' : ProxyState}
    (hstep : partyStep options proxy i party event = (proxy', party')) :
    party'.read = party.read + (if party.receives event then 1 else 0) ∧
      party'.started = party.started + if party.startsWrite party' then 1 else 0 := by
  cases party with
  | publisher publisher =>
    cases event with
    | publisher read =>
      cases hstep
      exact ⟨(publisher_step options proxy i publisher read).length_sent, rfl⟩
    | subscriber event =>
      cases hstep
      exact ⟨rfl, rfl⟩
  | subscriber writer =>
    cases event with
    | publisher read =>
      cases hstep
      refine ⟨rfl, ?_⟩
      cases hs : writer.stage <;> simp [Party.startsWrite, hs]
    | subscriber event =>
      cases hstep
      exact ⟨rfl, length_written (writer_step options.getBackendOptions proxy.backend writer event)⟩

/-- The messages that a client has read. -/
def Client.read : Client → Int
  | .connecting _ => 0
  | .connected party => party.read

/-- The writes that a client has started. -/
def Client.started : Client → Int
  | .connecting _ => 0
  | .connected party => party.started

/-- The counters are what the clients have read and written, in the width of their type. -/
def Metered (s : Lib.Pool ServiceState Client) : Prop :=
  s.shared.metrics.mReceivedPacketsCounter = Int64.ofInt (s.threads.map Client.read).sum ∧
    s.shared.metrics.mSentPacketsCounter = Int64.ofInt (s.threads.map Client.started).sum

/-- The counters after a step of a party. -/
theorem Metrics.observe_eq (metrics : Metrics) (before after : Party) (event : PartyEvent) :
    (metrics.observe before after event).mReceivedPacketsCounter =
        metrics.mReceivedPacketsCounter + Int64.ofInt (if before.receives event then 1 else 0) ∧
      (metrics.observe before after event).mSentPacketsCounter =
        metrics.mSentPacketsCounter + Int64.ofInt (if before.startsWrite after then 1 else 0) := by
  unfold Metrics.observe
  constructor
  · split_ifs <;> simp [Metrics.incrementReceivedPacketsCounter,
      Metrics.incrementSentPacketsCounter]
  · split_ifs <;> simp [Metrics.incrementReceivedPacketsCounter,
      Metrics.incrementSentPacketsCounter]

/-- A client of the backend. -/
def Client.subscribes : Client → Bool
  | .connected (.subscriber _) => true
  | .connected (.publisher _) | .connecting _ => false

/-- Packets of positions below `n` are counted position by position. -/
theorem length_eq_sum_ofPublisher {n : Nat} {packets : List Tagged}
    (h : ∀ packet ∈ packets, packet.1 < n) :
    packets.length = ∑ i ∈ Finset.range n, (ofPublisher i packets).length := by
  induction packets with
  | nil => simp [ofPublisher]
  | cons packet packets ih =>
    have hrest := ih fun p hp ↦ h p (List.mem_cons_of_mem packet hp)
    have hmem : packet.1 ∈ Finset.range n := Finset.mem_range.mpr (h packet List.mem_cons_self)
    have hone (i : Nat) : (ofPublisher i (packet :: packets)).length =
        (ofPublisher i packets).length + if packet.1 = i then 1 else 0 := by
      rw [← List.singleton_append, ofPublisher_append, List.length_append, Nat.add_comm]
      congr 1
      by_cases hi : packet.1 = i <;> simp [ofPublisher, hi]
    simp only [hone, Finset.sum_add_distrib, Finset.sum_ite_eq, if_pos hmem]
    rw [List.length_cons, hrest]

/-- A sum over a list, position by position. -/
theorem sum_map_eq_sum_range {τ : Type} (w : τ → Int) (l : List τ) :
    (l.map w).sum = ∑ i ∈ Finset.range l.length, (l[i]?.map w).getD 0 := by
  induction l with
  | nil => rfl
  | cons t l ih =>
    rw [List.map_cons, List.sum_cons, List.length_cons, Finset.sum_range_succ', ih, add_comm]
    rfl

/-- A sum of weights that are at most `n` where a predicate holds, and zero elsewhere. -/
theorem sum_map_le_countP_mul {τ : Type} {w : τ → Int} {p : τ → Bool} {n : Int} {l : List τ}
    (h : ∀ t ∈ l, w t ≤ if p t then n else 0) : (l.map w).sum ≤ l.countP p * n := by
  induction l with
  | nil => simp
  | cons t l ih =>
    have hrest := ih fun u hu ↦ h u (List.mem_cons_of_mem t hu)
    have ht := h t List.mem_cons_self
    rw [List.map_cons, List.sum_cons, List.countP_cons]
    by_cases hp : p t = true
    · rw [if_pos hp] at ht ⊢
      push_cast
      linarith
    · rw [if_neg hp] at ht ⊢
      push_cast
      linarith

section Runs

variable [Platform]

/-- The environment counts nothing. -/
theorem env_metrics (options : ProxyOptions) (s : ServiceState) (event : ServiceEvent) :
    ((service options).env s event).metrics = s.metrics := by
  cases event with
  | propagator =>
    show (threadStep s).metrics = s.metrics
    unfold threadStep
    cases s.mProxyThread <;> rfl
  | start =>
    show (callStart s).metrics = s.metrics
    unfold callStart
    split <;> rfl
  | stop =>
    show (callStop s).metrics = s.metrics
    unfold callStop
    split <;> rfl
  | caller =>
    show (callerStep s).metrics = s.metrics
    unfold callerStep
    cases s.caller with
    | loadFrontend | shutdown | awaitPublishers | join | loadBackend =>
      dsimp only
      split <;> rfl
    | constructed | storeRunning | startThread | storeManager | storeBackend | buildBackend
    | storeFrontend | storeCounter | buildFrontend | running | clearFrontend | clearCounter
    | clearRunning | stopBackend | stopped => rfl
  | destructor step =>
    exact destructorStep_cases (motive := fun s' ↦ s'.metrics = s.metrics) s step rfl
      (fun _ ↦ rfl) fun _ ↦ rfl

/-- A step of a client counts what it reads and what it starts to write. -/
theorem ClientStep.metrics_eq {client client' : Client} {event : PartyEvent}
    (hstep : ClientStep options s i client event s' client') :
    s'.metrics.mReceivedPacketsCounter =
        s.metrics.mReceivedPacketsCounter + Int64.ofInt (client'.read - client.read) ∧
      s'.metrics.mSentPacketsCounter =
        s.metrics.mSentPacketsCounter + Int64.ofInt (client'.started - client.started) := by
  cases hstep with
  | waits arrival event hl => simp
  | connects arrival event hl => cases arrival <;> simp [Client.read, Client.started, proxy,
      Party.read, Party.started]
  | steps party party' event proxy hstep =>
    obtain ⟨hread, hstarted⟩ := partyStep_counts hstep
    obtain ⟨hreceived, hsent⟩ := s.metrics.observe_eq party party' event
    have hread' : (Client.connected party').read - (Client.connected party).read =
        if party.receives event then 1 else 0 := by
      show (party'.read : Int) - party.read = _
      rw [hread]
      split <;> omega
    have hstarted' : (Client.connected party').started - (Client.connected party).started =
        if party.startsWrite party' then 1 else 0 := by
      show (party'.started : Int) - party.started = _
      rw [hstarted]
      split <;> omega
    rw [hread', hstarted']
    exact ⟨hreceived, hsent⟩

/-- Every move keeps the counters exact. -/
theorem Metered.step {s : Lib.Pool ServiceState Client} (h : Metered s)
    (move : Lib.Move Arrival PartyEvent ServiceEvent) :
    Metered ((service options).step s move) := by
  cases move with
  | spawn arrival =>
    have hread : (Client.connecting arrival).read = 0 := rfl
    have hstarted : (Client.connecting arrival).started = 0 := rfl
    unfold Metered
    simp only [Lib.Program.step, service, List.map_append, List.map_singleton, List.sum_append,
      List.sum_singleton, hread, hstarted, add_zero]
    exact h
  | env event =>
    unfold Metered
    simp only [Lib.Program.step, env_metrics]
    exact h
  | run i event =>
    cases ht : s.threads[i]? with
    | none =>
      rw [Lib.Program.step_run_none ht]
      exact h
    | some client =>
      obtain ⟨hreceived, hsent⟩ := (client_step options s.shared i client event).metrics_eq
      rw [Lib.Program.step_run ht]
      constructor
      · show (clientStep options s.shared i client event).1.metrics.mReceivedPacketsCounter =
          Int64.ofInt ((s.threads.set i (clientStep options s.shared i client event).2).map
            Client.read).sum
        rw [Lib.Program.sum_map_set ht, hreceived, h.1, ← Int64.ofInt_add]
        congr 1
        omega
      · show (clientStep options s.shared i client event).1.metrics.mSentPacketsCounter =
          Int64.ofInt ((s.threads.set i (clientStep options s.shared i client event).2).map
            Client.started).sum
        rw [Lib.Program.sum_map_set ht, hsent, h.2, ← Int64.ofInt_add]
        congr 1
        omega

variable {state : ProxyState}

/-- The messages of a position are those that its client has read. -/
theorem length_sentBy_partyAt (options : ProxyOptions) (s : Lib.Pool ServiceState Client)
    (i : Nat) : ((sentBy (partyAt options s i)).length : Int) =
      (s.threads[i]?.map Client.read).getD 0 := by
  unfold partyAt
  cases s.threads[i]? with
  | none => rfl
  | some client =>
    cases client with
    | connecting arrival => cases arrival <;> rfl
    | connected party => cases party <;> rfl

/-- No more packets are handed out than were read. -/
theorem broadcast_le_read (hnew : ProxyState.new options = .ok state)
    (moves : List (Lib.Move Arrival PartyEvent ServiceEvent)) :
    ((served options state moves).shared.broadcast.length : Int) ≤
      ((served options state moves).threads.map Client.read).sum := by
  have hdelivered := broadcast_sublist_sentBy hnew moves
  have hbelow : ∀ packet ∈ (served options state moves).shared.broadcast,
      packet.1 < (served options state moves).threads.length := by
    intro packet hmem
    by_contra hge
    have hnone : partyAt options (served options state moves) packet.1 = none := by
      rw [partyAt, List.getElem?_eq_none (by omega), Option.map_none]
    have hempty := hdelivered packet.1
    rw [hnone] at hempty
    have hin : packet.2 ∈ ofPublisher packet.1 (served options state moves).shared.broadcast :=
      List.mem_filterMap.mpr ⟨packet, hmem, by simp⟩
    rw [List.sublist_nil.mp hempty] at hin
    cases hin
  rw [length_eq_sum_ofPublisher hbelow, sum_map_eq_sum_range, Nat.cast_sum]
  apply Finset.sum_le_sum
  intro i _
  have hle : (ofPublisher i (served options state moves).shared.broadcast).length ≤
      (sentBy (partyAt options (served options state moves) i)).length :=
    (hdelivered i).length_le.trans (List.length_filterMap_le _ _)
  rw [← length_sentBy_partyAt]
  exact_mod_cast hle

/-- In every run the two counters are the numbers of messages read and of writes started, in the
width of their type, and every message accounts for at most one write to each subscriber. -/
theorem metered_served (hnew : ProxyState.new options = .ok state)
    (moves : List (Lib.Move Arrival PartyEvent ServiceEvent)) :
    Metered (served options state moves) ∧
      ((served options state moves).threads.map Client.started).sum ≤
        (served options state moves).threads.countP Client.subscribes *
          ((served options state moves).threads.map Client.read).sum := by
  refine ⟨Lib.run_invariant Metered ⟨rfl, rfl⟩ fun _ move h ↦ h.step move, ?_⟩
  have hread := broadcast_le_read hnew moves
  have hstarted : ((served options state moves).threads.map Client.started).sum ≤
      (served options state moves).threads.countP Client.subscribes *
        ((served options state moves).shared.broadcast.length : Int) := by
    apply sum_map_le_countP_mul
    intro client hmem
    cases client with
    | connecting arrival => exact le_refl _
    | connected party =>
      cases party with
      | publisher publisher => exact le_refl _
      | subscriber writer =>
        have hwritten := written_sublist_broadcast hnew moves hmem
        show (writer.written.length : Int) ≤ _
        exact_mod_cast hwritten.length_le
  exact hstarted.trans (mul_le_mul_of_nonneg_left hread (Int.natCast_nonneg _))

end Runs

section Example

attribute [local instance] x86Platform

theorem metered_served_sendsTwice :
    Metered (served tenHeaders tenHeadersProxy sendsTwice) ∧
      ((served tenHeaders tenHeadersProxy sendsTwice).threads.map Client.started).sum ≤
        (served tenHeaders tenHeadersProxy sendsTwice).threads.countP Client.subscribes *
          ((served tenHeaders tenHeadersProxy sendsTwice).threads.map Client.read).sum :=
  metered_served tenHeadersProxy_new sendsTwice

end Example
end ImportProxy.Proxy
