import ImportProxy.Proxy.Room

/-!
# Every packet reaches its subscribers

A subscriber whose RPC and whose writes go on is written everything that waits for it, in every
endless run, whatever is handed out behind: each step brings its pump nearer to the next write, and
each write takes the oldest packet. The propagator gets to every packet that was inserted, so that
everything on its way to a subscriber arrives, unless it is evicted, dropped as a duplicate, or
lost by a stream that overflows.
-/

namespace ImportProxy.Proxy

open ImportProxy.Base
open ImportProxy.Backend (Ends PumpInv Wake Writer WriterEvent backlog trail)

/-- The subscriber at position `i` has subscribed, and `n` packets have been handed out. -/
structure Serving (i n : Nat) (s : Lib.Pool ServiceState Client) : Prop where
  inv : ServiceInv s.shared
  handed : n ≤ s.shared.broadcast.length
  subscriber : ∃ w, s.threads[i]? = some (.connected (.subscriber w)) ∧
    w.stage.beforeEntry = false ∧ ∃ log, PumpInv w log

/-- The subscriber at position `i` is about to end, or only packets wait for it that were handed
out behind the first `n`. -/
def Flushed (i n : Nat) (s : Lib.Pool ServiceState Client) : Prop :=
  ∃ w, s.threads[i]? = some (.connected (.subscriber w)) ∧
    (Ends s.shared.proxy.backend w ∨
      (backlog s.shared.proxy.backend w).length + n ≤ s.shared.broadcast.length)

/-- The steps of the subscriber until then. -/
def stepsToFlushed (i n : Nat) (s : Lib.Pool ServiceState Client) : Nat :=
  match s.threads[i]? with
  | some (.connected (.subscriber w)) =>
    9 * ((backlog s.shared.proxy.backend w).length + n - s.shared.broadcast.length) + w.turns
  | _ => 0

/-- What the subscriber at position `i` waits for. -/
def AwaitsAt (i : Nat) (s : Lib.Pool ServiceState Client) (wake : Wake) : Prop :=
  ∃ w, s.threads[i]? = some (.connected (.subscriber w)) ∧
    (wake = .completion ↔ w.stage = .writing)

/-- Who moves the subscriber at position `i`. -/
def wakesAt (i : Nat) : Lib.Move Arrival PartyEvent ServiceEvent → Option Wake
  | .run j (.subscriber .proceed) => if j = i then some .own else none
  | .run j (.subscriber (.writeDone _)) => if j = i then some .completion else none
  | .run _ (.subscriber .cancel) | .run _ (.publisher _) | .spawn _ | .env _ => none

variable {s s' : Lib.Pool ServiceState Client} {options : ProxyOptions} {i n : Nat}
  {w w' : Writer Tagged} {move : Lib.Move Arrival PartyEvent ServiceEvent}

theorem stepsToFlushed_eq (hw : s.threads[i]? = some (.connected (.subscriber w))) :
    stepsToFlushed i n s =
      9 * ((backlog s.shared.proxy.backend w).length + n - s.shared.broadcast.length) +
        w.turns := by
  simp only [stepsToFlushed, hw]

/-- A subscriber that is not flushed goes on, with older packets waiting for it. -/
theorem waits_of_not_flushed (hw : s.threads[i]? = some (.connected (.subscriber w)))
    (hnot : ¬Flushed i n s) : ¬Ends s.shared.proxy.backend w ∧
      s.shared.broadcast.length < (backlog s.shared.proxy.backend w).length + n := by
  constructor
  · intro hends
    exact hnot ⟨w, hw, Or.inl hends⟩
  · by_contra hfew
    exact hnot ⟨w, hw, Or.inr (Nat.le_of_not_lt hfew)⟩

/-- Exactly the moves of the kind that the subscriber waits for resume it. -/
theorem wakesAt_iff {wake : Wake} (hwake : wake = .completion ↔ w.stage = .writing) :
    wakesAt i move = some wake ↔
      ∃ event, move = .run i (.subscriber event) ∧ w.resumes event = true := by
  cases move with
  | spawn arrival => simp [wakesAt]
  | env event => simp [wakesAt]
  | run j event =>
    cases event with
    | publisher read => simp [wakesAt]
    | subscriber event =>
      by_cases hj : j = i
      · subst hj
        cases event with
        | cancel => simp [wakesAt, Writer.resumes]
        | proceed => cases wake <;> simp [wakesAt, Writer.resumes, ← hwake]
        | writeDone ok => cases wake <;> simp [wakesAt, Writer.resumes, ← hwake]
      · cases event <;> simp [wakesAt, hj]

/-- A move adds to what waits for the subscriber what it hands out at most, and takes from there
what it writes. -/
theorem SubscriberMove.length_backlog_le (h : SubscriberMove options i w s s' move w')
    (hmove : BackendMove options s s' move) :
    w.written.length ≤ w'.written.length ∧
      w'.written.length + (backlog s'.shared.proxy.backend w').length + s.shared.broadcast.length ≤
        w.written.length + (backlog s.shared.proxy.backend w).length +
          s'.shared.broadcast.length ∧
      s.shared.broadcast.length ≤ s'.shared.broadcast.length := by
  cases h with
  | own event _ hown hstep hbroadcast =>
    have hle := hstep.length_backlog_le
    rw [hbroadcast]
    exact ⟨hstep.written_prefix.length_le, by omega, Nat.le_refl _⟩
  | other hother =>
    obtain ⟨new, hbroadcast, hqueue⟩ := hmove.queueOf_sublist w.contextAddress
    have hle := hqueue.length_le
    rw [List.length_append] at hle
    unfold backlog
    rw [hbroadcast]
    simp only [List.length_append]
    exact ⟨Nat.le_refl _, by omega, by omega⟩

/-- A move that does not resume the subscriber leaves it where it is. -/
theorem SubscriberMove.stage_eq (h : SubscriberMove options i w s s' move w')
    (hno : ¬∃ event, move = .run i (.subscriber event) ∧ w.resumes event = true) :
    w'.stage = w.stage := by
  cases h with
  | own event _ hown hstep hbroadcast =>
    have hresumes : w.resumes event = false :=
      Bool.eq_false_iff.mpr fun hresumes ↦ hno ⟨event, hown, hresumes⟩
    exact hstep.stage_eq_of_not_resumes hresumes
  | other hother => rfl

theorem SubscriberMove.beforeEntry_eq (h : SubscriberMove options i w s s' move w')
    (hentry : w.stage.beforeEntry = false) : w'.stage.beforeEntry = false := by
  cases h with
  | own event _ hown hstep hbroadcast => exact hstep.beforeEntry_eq hentry
  | other hother => exact hentry

theorem SubscriberMove.pumpInv (h : SubscriberMove options i w s s' move w')
    (hpump : ∃ log, PumpInv w log) : ∃ log, PumpInv w' log := by
  cases h with
  | own event _ hown hstep hbroadcast =>
    obtain ⟨log, hpump⟩ := hpump
    exact ⟨_, hpump.step hstep⟩
  | other hother => exact hpump

/-- A move that resumes the subscriber brings it nearer to the next write of what waits for it. -/
theorem SubscriberMove.progress (h : SubscriberMove options i w s s' move w')
    (hmove : BackendMove options s s' move) (hinv : ServiceInv s.shared)
    (hpump : ∃ log, PumpInv w log) (hentry : w.stage.beforeEntry = false)
    (hends : ¬Ends s.shared.proxy.backend w) {event : WriterEvent}
    (hown : move = .run i (.subscriber event)) (hresumes : w.resumes event = true)
    (hwaits : s.shared.broadcast.length < (backlog s.shared.proxy.backend w).length + n)
    (hhanded : n ≤ s.shared.broadcast.length) :
    Ends s'.shared.proxy.backend w' ∨
      9 * ((backlog s'.shared.proxy.backend w').length + n - s'.shared.broadcast.length) +
          w'.turns <
        9 * ((backlog s.shared.proxy.backend w).length + n - s.shared.broadcast.length) +
          w.turns := by
  have hle := h.length_backlog_le hmove
  cases h with
  | other hother => exact absurd hown (hother event)
  | own event' _ hown' hstep hbroadcast =>
    rw [hown] at hown'
    cases hown'
    obtain ⟨log, hpump⟩ := hpump
    have hne : backlog s.shared.proxy.backend w ≠ [] := by
      intro hnil
      rw [hnil, List.length_nil] at hwaits
      omega
    rcases hstep.progress hpump hinv.flags hentry hends hne hresumes with he | hwrites | hturns
    · exact Or.inl he
    · right
      omega
    · right
      omega

/-- The subscriber at position `i` with the given context has subscribed. Since `handed` was handed
out, it has been given and waits for `packets` and all that was handed out behind, unless it is
about to end. -/
structure Tracks (i contextAddress : Nat) (packets handed : List Tagged)
    (s : Lib.Pool ServiceState Client) : Prop where
  inv : ServiceInv s.shared
  addressed : Addressed s
  subscriber : ∃ w, s.threads[i]? = some (.connected (.subscriber w)) ∧
    w.contextAddress = contextAddress ∧ w.stage.beforeEntry = false ∧
      (Ends s.shared.proxy.backend w ∨ ∃ new, s.shared.broadcast = handed ++ new ∧
        trail s.shared.proxy.backend w = packets ++ new)

/-- The move gives no context of a live subscriber to a new one, and does not overflow the stream
of the context. -/
def Spares (contextAddress : Nat) (s : Lib.Pool ServiceState Client)
    (move : Lib.Move Arrival PartyEvent ServiceEvent) : Prop :=
  freshContext s move = true ∧ overflows contextAddress s move = false

/-- The packets have been written to the subscriber at position `i`, in their order, unless it is
about to end. -/
def WrittenTo (i : Nat) (packets : List Tagged) (s : Lib.Pool ServiceState Client) : Prop :=
  ∃ w, s.threads[i]? = some (.connected (.subscriber w)) ∧
    (Ends s.shared.proxy.backend w ∨ packets <+: w.written)

/-- The packets that were evicted or dropped as duplicates since. -/
def ServiceState.lostSince (s s' : ServiceState) : List Tagged :=
  s'.proxy.importQueue.evicted.drop s.proxy.importQueue.evicted.length ++
    s'.dropped.drop s.dropped.length

/-- Everything that was on its way to the subscriber at position `i` has been written to it, or has
been evicted or dropped as a duplicate since, unless it is about to end. -/
def ArrivedAt (i : Nat) (w : Writer Tagged) (s s' : Lib.Pool ServiceState Client) : Prop :=
  ∃ w', s'.threads[i]? = some (.connected (.subscriber w')) ∧
    (Ends s'.shared.proxy.backend w' ∨
      (trail s.shared.proxy.backend w ++ s.shared.onTheWay).Subperm
        (w'.written ++ s.shared.lostSince s'.shared))

/-- A state of a run behind another one: nothing that was inserted is lost in between, and nothing
is taken back. -/
structure Onward (s s' : Lib.Pool ServiceState Client) : Prop where
  inv : ServiceInv s'.shared
  queued : Queued s'.shared
  grows : Grows s.shared s'.shared

variable {a : Nat} {packets handed : List Tagged}

/-- What has left a stream that does not overflow has been written. -/
theorem Tracks.writtenTo (h : Tracks i a packets handed s)
    (hflushed : Flushed i handed.length s) : WrittenTo i packets s := by
  obtain ⟨w, hw, -, -, htrail⟩ := h.subscriber
  obtain ⟨_, heq, hdone⟩ := hflushed
  cases hw.symm.trans heq
  refine ⟨w, hw, ?_⟩
  rw [or_iff_not_imp_left]
  intro hends
  have hfew := hdone.resolve_left hends
  obtain ⟨new, hbroadcast, hnew⟩ := htrail.resolve_left hends
  rw [Backend.trail_eq] at hnew
  rw [hbroadcast, List.length_append] at hfew
  have hlen := congrArg List.length hnew
  rw [List.length_append, List.length_append] at hlen
  have hpackets : packets <+: packets ++ new := List.prefix_append _ _
  have hwritten : w.written <+: packets ++ new := by
    rw [← hnew]
    exact List.prefix_append _ _
  exact List.prefix_of_prefix_length_le hpackets hwritten (by omega)

/-- Without clients no context has an address. -/
theorem addressed_new (state : ProxyState) : Addressed ⟨{ proxy := state }, []⟩ := by
  constructor
  · exact Lib.distinctKeys_nil
  · intro k u hk
    cases hk
  · intro k u hk
    cases hk

/-- What the propagator has got to was lost since, or was handed out. -/
theorem Grows.onTheWay_subperm {s s' : ServiceState} {new : List Tagged} (h : Grows s s')
    (hqueued : Queued s) (hmet : s.proxy.importQueue.pushed.Subperm s'.met)
    (hbroadcast : s'.broadcast = s.broadcast ++ new) :
    s.onTheWay.Subperm (new ++ s.lostSince s') := by
  have hevicted : s.proxy.importQueue.evicted <+: s'.proxy.importQueue.evicted :=
    h.removed.filterMap _
  obtain ⟨evicted, he⟩ := hevicted
  obtain ⟨dropped, hd⟩ := h.dropped
  apply List.subperm_ext_iff.mpr
  intro packet _
  have hcount := hmet.count_le packet
  rw [hqueued.accounted.count_eq packet] at hcount
  unfold ServiceState.met at hcount
  unfold ServiceState.lostSince
  rw [← he, ← hd, hbroadcast] at hcount
  rw [← he, ← hd, List.drop_left, List.drop_left]
  simp only [List.count_append] at hcount ⊢
  omega

/-- What was lost is not taken back. -/
theorem Grows.lostSince_sublist {s s' s'' : ServiceState} (h : Grows s' s'') :
    (s.lostSince s').Sublist (s.lostSince s'') := by
  have hevicted : s'.proxy.importQueue.evicted.Sublist s''.proxy.importQueue.evicted :=
    h.removed.sublist.filterMap _
  exact (hevicted.drop _).append (h.dropped.sublist.drop _)

section Runs

variable [Platform]

theorem Serving.step (h : Serving i n s) (options : ProxyOptions)
    (move : Lib.Move Arrival PartyEvent ServiceEvent) :
    Serving i n ((service options).step s move) := by
  obtain ⟨w, hw, hentry, hpump⟩ := h.subscriber
  have hmove := h.inv.backendMove options move
  obtain ⟨w', hw', hstep⟩ := subscriberMove options hw move
  have hle := (hstep.length_backlog_le hmove).2.2
  exact ⟨h.inv.step move, Nat.le_trans h.handed hle, w', hw', hstep.beforeEntry_eq hentry,
    hstep.pumpInv hpump⟩

/-- What is flushed stays so. -/
theorem Serving.flushed_step (h : Serving i n s) (options : ProxyOptions)
    (hflushed : Flushed i n s) (move : Lib.Move Arrival PartyEvent ServiceEvent) :
    Flushed i n ((service options).step s move) := by
  obtain ⟨w, hw, hdone⟩ := hflushed
  have hmove := h.inv.backendMove options move
  obtain ⟨w', hw', hstep⟩ := subscriberMove options hw move
  refine ⟨w', hw', hdone.imp (hstep.ends hmove) fun hfew ↦ ?_⟩
  have hle := hstep.length_backlog_le hmove
  omega

/-- The subscriber alone brings what waits for it to its end. -/
theorem ranked_stepsToFlushed (options : ProxyOptions) (i n : Nat) :
    Lib.Ranked (service options).step (wakesAt i) (Serving i n) (Flushed i n) (AwaitsAt i)
      (stepsToFlushed i n) where
  inv_step s move h := h.step options move
  done_step s move h hd := h.flushed_step options hd move
  rank_step s move h hd := by
    obtain ⟨w, hw, hentry, hpump⟩ := h.subscriber
    have hmove := h.inv.backendMove options move
    obtain ⟨w', hw', hstep⟩ := subscriberMove options hw move
    have hle := hstep.length_backlog_le hmove
    obtain ⟨hends, hwaits⟩ := waits_of_not_flushed hw hd
    rw [stepsToFlushed_eq hw, stepsToFlushed_eq hw']
    by_cases hresumes : ∃ event, move = .run i (.subscriber event) ∧ w.resumes event = true
    · obtain ⟨event, hown, hresumes⟩ := hresumes
      rcases hstep.progress hmove h.inv hpump hentry hends hown hresumes hwaits h.handed
        with he | hlt
      · exact Or.inl ⟨w', hw', Or.inl he⟩
      · exact Or.inr (Nat.le_of_lt hlt)
    · have hstage := hstep.stage_eq hresumes
      have hturns : w'.turns = w.turns := by simp only [Writer.turns, hstage]
      right
      omega
  exists_helps s h hd := by
    obtain ⟨w, hw, -, -⟩ := h.subscriber
    by_cases hs : w.stage = .writing
    · exact ⟨.completion, w, hw, by simp [hs]⟩
    · exact ⟨.own, w, hw, by simp [hs]⟩
  helped s move wake h hd hhelps hwake := by
    obtain ⟨w, hw, hentry, hpump⟩ := h.subscriber
    obtain ⟨_, heq, hawaits⟩ := hhelps
    cases hw.symm.trans heq
    obtain ⟨event, hown, hresumes⟩ := (wakesAt_iff hawaits).mp hwake
    have hmove := h.inv.backendMove options move
    obtain ⟨w', hw', hstep⟩ := subscriberMove options hw move
    obtain ⟨hends, hwaits⟩ := waits_of_not_flushed hw hd
    rw [stepsToFlushed_eq hw, stepsToFlushed_eq hw']
    exact (hstep.progress hmove h.inv hpump hentry hends hown hresumes hwaits h.handed).imp
      (fun he ↦ ⟨w', hw', Or.inl he⟩) id
  kept s move wake h hd hhelps hwake := by
    obtain ⟨w, hw, hawaits⟩ := hhelps
    obtain ⟨w', hw', hstep⟩ := subscriberMove options hw move
    have hstage : w'.stage = w.stage :=
      hstep.stage_eq fun hresumes ↦ hwake ((wakesAt_iff hawaits).mpr hresumes)
    exact Or.inr (Or.inr ⟨w', hw', hstage ▸ hawaits⟩)

/-- A round in which the RPC at position `i` has a step of its own and a completion of its write,
and its stream does not overflow. -/
def KeepsUp (options : ProxyOptions) (i contextAddress : Nat) (s : Lib.Pool ServiceState Client)
    (round : List (Lib.Move Arrival PartyEvent ServiceEvent)) : Prop :=
  .run i (.subscriber .proceed) ∈ round ∧
    (∃ ok, .run i (.subscriber (.writeDone ok)) ∈ round) ∧
    Lib.Along (service options).step (Spares contextAddress) s round

/-- A round of steps of the proxy and the subscribers in which the propagator, the RPC at position
`i` and the completion of its write have one. -/
structure Attends (i : Nat) (round : List (Lib.Move Arrival PartyEvent ServiceEvent)) : Prop where
  own : .run i (.subscriber .proceed) ∈ round
  completion : ∃ ok, .run i (.subscriber (.writeDone ok)) ∈ round
  propagator : .env .propagator ∈ round
  quiet : ∀ move ∈ round, paused move = true

/-- The stream of the context has room for everything that is on its way to it. -/
structure Spacious (options : ProxyOptions) (contextAddress : Nat)
    (s : Lib.Pool ServiceState Client) : Prop where
  inv : ServiceInv s.shared
  queued : Queued s.shared
  sized : Sized options.getBackendOptions.getQueueCapacity
    s.shared.proxy.backend.mSubscriptionManager
  room : Roomy options.getBackendOptions.getQueueCapacity contextAddress s.shared

theorem Spacious.step (h : Spacious options a s) (hpaused : paused move = true) :
    Spacious options a ((service options).step s move) :=
  ⟨h.inv.step move, (h.queued.step h.inv options move).1,
    (h.inv.backendMove options move).sized h.sized, h.room.step h.inv h.queued options hpaused⟩

theorem Spacious.spares (h : Spacious options a s)
    {round : List (Lib.Move Arrival PartyEvent ServiceEvent)}
    (hquiet : ∀ move ∈ round, paused move = true) :
    Lib.Along (service options).step (Spares a) s round := by
  induction round generalizing s with
  | nil => trivial
  | cons move round ih =>
    have hpaused : paused move = true := hquiet move List.mem_cons_self
    refine ⟨⟨freshContext_of_paused hpaused, h.room.overflows_eq h.sized⟩, ih (h.step hpaused) ?_⟩
    exact fun move hmove ↦ hquiet move (List.mem_cons_of_mem _ hmove)

theorem KeepsUp.exists_move {round : List (Lib.Move Arrival PartyEvent ServiceEvent)}
    (h : KeepsUp options i a s round) (wake : Wake) :
    ∃ move ∈ round, wakesAt i move = some wake := by
  obtain ⟨hown, ⟨ok, hok⟩, -⟩ := h
  cases wake with
  | own => exact ⟨_, hown, if_pos rfl⟩
  | completion => exact ⟨_, hok, if_pos rfl⟩

theorem Tracks.step (h : Tracks i a packets handed s) (hspares : Spares a s move) :
    Tracks i a packets handed ((service options).step s move) := by
  obtain ⟨w, hw, ha, hentry, htrail⟩ := h.subscriber
  have hmove := h.inv.backendMove options move
  obtain ⟨w', hw', hstep⟩ := subscriberMove options hw move
  refine ⟨h.inv.step move, h.addressed.step h.inv options hspares.1, w', hw', ?_,
    hstep.beforeEntry_eq hentry, ?_⟩
  · rw [← ha]
    exact hstep.contextAddress_eq
  · rw [or_iff_not_imp_left]
    intro hends
    have hbefore : ¬Ends s.shared.proxy.backend w := fun he ↦ hends (hstep.ends hmove he)
    obtain ⟨old, hbroadcast, hold⟩ := htrail.resolve_left hbefore
    obtain ⟨new, hbroadcast', hnew⟩ :=
      h.addressed.trail_step h.inv hw hentry (ha ▸ hspares.2) hmove hstep hends
    refine ⟨old ++ new, ?_, ?_⟩
    · rw [hbroadcast', hbroadcast, List.append_assoc]
    · rw [hnew, hold, List.append_assoc]

theorem Tracks.rounds (h : Tracks i a packets handed s)
    {rounds : Nat → List (Lib.Move Arrival PartyEvent ServiceEvent)}
    (hrounds : Lib.Rounds (service options).step (KeepsUp options i a) s rounds) (n : Nat) :
    Tracks i a packets handed (Lib.afterRounds (service options).step s rounds n) := by
  apply hrounds.invariant h
  intro s round hs hround
  exact hround.2.2.invariant (Tracks i a packets handed) hs fun s move hs hspares ↦ hs.step hspares

/-- What waits for a subscriber that keeps up comes to be written. -/
theorem Tracks.leadsTo (h : Tracks i a packets handed s)
    {rounds : Nat → List (Lib.Move Arrival PartyEvent ServiceEvent)}
    (hrounds : Lib.Rounds (service options).step (KeepsUp options i a) s rounds) :
    ∃ n, WrittenTo i packets (Lib.afterRounds (service options).step s rounds n) := by
  obtain ⟨w, hw, ha, hentry, htrail⟩ := h.subscriber
  by_cases hends : Ends s.shared.proxy.backend w
  · exact ⟨0, w, hw, Or.inl hends⟩
  · obtain ⟨new, hbroadcast, -⟩ := htrail.resolve_left hends
    have hserving : Serving i handed.length s := by
      refine ⟨h.inv, ?_, w, hw, hentry, h.addressed.pumps i w hw⟩
      rw [hbroadcast, List.length_append]
      exact Nat.le_add_right _ _
    have hleads : Lib.LeadsTo (service options).step (KeepsUp options i a)
        (Serving i handed.length)
        fun s ↦ Serving i handed.length s ∧ Flushed i handed.length s :=
      (ranked_stepsToFlushed options i handed.length).leadsTo
        fun s round wake _ _ hround _ ↦ hround.exists_move wake
    obtain ⟨n, -, hflushed⟩ := hleads s rounds hserving hrounds
    exact ⟨n, (h.rounds hrounds n).writtenTo hflushed⟩

theorem Onward.step (h : Onward s s') (options : ProxyOptions)
    (move : Lib.Move Arrival PartyEvent ServiceEvent) :
    Onward s ((service options).step s' move) := by
  obtain ⟨hqueued, hgrows⟩ := h.queued.step h.inv options move
  exact ⟨h.inv.step move, hqueued, h.grows.trans hgrows⟩

theorem Onward.rounds (h : Onward s s') (options : ProxyOptions)
    (rounds : Nat → List (Lib.Move Arrival PartyEvent ServiceEvent)) (n : Nat) :
    Onward s (Lib.afterRounds (service options).step s' rounds n) := by
  have hrounds : Lib.Rounds (service options).step (fun _ _ ↦ True) s' rounds := fun _ ↦ trivial
  apply hrounds.invariant h
  intro t round ht _
  exact Lib.run_invariant (Onward s) ht fun t move ht ↦ ht.step options move

/-- What is written behind the packets that a subscriber has been given, and what is lost. -/
theorem Tracks.arrives (h : Tracks i a (trail s.shared.proxy.backend w) s.shared.broadcast s')
    (honward : Onward s s') (hqueued : Queued s.shared)
    (hmet : s.shared.proxy.importQueue.pushed.Subperm s'.shared.met)
    {rounds : Nat → List (Lib.Move Arrival PartyEvent ServiceEvent)}
    (hrounds : Lib.Rounds (service options).step (KeepsUp options i a) s' rounds) :
    ∃ n, ArrivedAt i w s (Lib.afterRounds (service options).step s' rounds n) := by
  obtain ⟨u, hu, ha, hentry, htrail⟩ := h.subscriber
  by_cases hends : Ends s'.shared.proxy.backend u
  · exact ⟨0, u, hu, Or.inl hends⟩
  · obtain ⟨new, hbroadcast, hnew⟩ := htrail.resolve_left hends
    -- what the propagator has got to is in the hands of the subscriber from here on
    have hnext : Tracks i a (trail s'.shared.proxy.backend u) s'.shared.broadcast s' :=
      ⟨h.inv, h.addressed, u, hu, ha, hentry,
        Or.inr ⟨[], (List.append_nil _).symm, (List.append_nil _).symm⟩⟩
    obtain ⟨n, w', hw', hdone⟩ := hnext.leadsTo hrounds
    refine ⟨n, w', hw', hdone.imp id fun hwritten ↦ ?_⟩
    have hstays : Onward s' (Lib.afterRounds (service options).step s' rounds n) :=
      Onward.rounds ⟨honward.inv, honward.queued, Grows.refl s'.shared⟩ options rounds n
    have hlost := hstays.grows.lostSince_sublist (s := s.shared)
    have harrived : s.shared.onTheWay.Subperm (new ++ s.shared.lostSince s'.shared) :=
      honward.grows.onTheWay_subperm hqueued hmet hbroadcast
    have hgiven : (trail s.shared.proxy.backend w ++ s.shared.onTheWay).Subperm
        (trail s'.shared.proxy.backend u ++ s.shared.lostSince s'.shared) := by
      rw [hnew, List.append_assoc]
      exact (List.subperm_append_left _).mpr harrived
    exact hgiven.trans (hwritten.sublist.append hlost).subperm

/-- What is on its way to a subscriber that keeps up comes to be written or lost. -/
theorem Tracks.leadsTo_arrivedAt
    (h : Tracks i a (trail s.shared.proxy.backend w) s.shared.broadcast s)
    (hqueued : Queued s.shared) (hstarted : s.shared.mProxyThread ≠ .notStarted)
    {rounds : Nat → List (Lib.Move Arrival PartyEvent ServiceEvent)}
    (hrounds : Lib.Rounds (service options).step (KeepsUp options i a) s rounds)
    (hpropagates : ∀ n, .env .propagator ∈ rounds n) :
    ∃ n, (Lib.afterRounds (service options).step s rounds n).shared.mKeepRunning = false ∨
      ArrivedAt i w s (Lib.afterRounds (service options).step s rounds n) := by
  have honward : Onward s s := ⟨h.inv, hqueued, Grows.refl s.shared⟩
  obtain ⟨m, -, hclear | hmet⟩ := propagating_leadsTo_fateMet options _ s rounds
    ⟨h.inv, hqueued, hstarted, List.prefix_rfl⟩ hpropagates
  · exact ⟨m, Or.inl hclear⟩
  · obtain ⟨n, harrived⟩ := (h.rounds hrounds m).arrives (honward.rounds options rounds m) hqueued
      hmet (hrounds.drop m)
    refine ⟨m + n, Or.inr ?_⟩
    rw [Lib.afterRounds_add]
    exact harrived

/-- While the publishers pause, a subscriber that goes on keeps up. -/
theorem Spacious.keepsUp (h : Spacious options a s)
    {rounds : Nat → List (Lib.Move Arrival PartyEvent ServiceEvent)}
    (hrounds : ∀ n, Attends i (rounds n)) :
    Lib.Rounds (service options).step (KeepsUp options i a) s rounds := by
  intro n
  have hattends : Lib.Rounds (service options).step (fun _ round ↦ Attends i round) s rounds :=
    hrounds
  have hs : Spacious options a (Lib.afterRounds (service options).step s rounds n) := by
    apply hattends.invariant h
    intro s round hs hround
    have hpaused : Lib.Along (service options).step (fun _ move ↦ paused move = true) s round :=
      Lib.along_of_forall hround.quiet
    exact hpaused.invariant (Spacious options a) hs fun s move hs hmove ↦ hs.step hmove
  exact ⟨(hrounds n).own, (hrounds n).completion, hs.spares (hrounds n).quiet⟩

variable {state : ProxyState}

theorem addressed_served (hnew : ProxyState.new options = .ok state)
    {moves : List (Lib.Move Arrival PartyEvent ServiceEvent)}
    (hfresh : Lib.Along (service options).step (fun s move ↦ freshContext s move = true)
      ⟨{ proxy := state }, []⟩ moves) : Addressed (served options state moves) := by
  have hrun : ServiceInv (served options state moves).shared ∧
      Addressed (served options state moves) :=
    hfresh.invariant (fun s ↦ ServiceInv s.shared ∧ Addressed s)
      ⟨serviceInv_new hnew, addressed_new state⟩
      fun s move h hmove ↦ ⟨h.1.step move, h.2.step h.1 options hmove⟩
  exact hrun.2

theorem tracks_served (hnew : ProxyState.new options = .ok state)
    (moves : List (Lib.Move Arrival PartyEvent ServiceEvent))
    (hfresh : Lib.Along (service options).step (fun s move ↦ freshContext s move = true)
      ⟨{ proxy := state }, []⟩ moves)
    (hw : (served options state moves).threads[i]? = some (.connected (.subscriber w)))
    (hentry : w.stage.beforeEntry = false) :
    Tracks i w.contextAddress (trail (served options state moves).shared.proxy.backend w)
      (served options state moves).shared.broadcast (served options state moves) := by
  refine ⟨serviceInv_served hnew moves, addressed_served hnew hfresh, w, hw, rfl, hentry,
    Or.inr ⟨[], ?_, ?_⟩⟩
  · exact (List.append_nil _).symm
  · exact (List.append_nil _).symm

/-- Everything that a subscriber has been given and that waits for it is written to it, in its
order, in every endless run in which it keeps up, however much is handed out behind, unless the
RPC is about to end. -/
theorem backlog_written (hnew : ProxyState.new options = .ok state)
    (moves : List (Lib.Move Arrival PartyEvent ServiceEvent))
    (hfresh : Lib.Along (service options).step (fun s move ↦ freshContext s move = true)
      ⟨{ proxy := state }, []⟩ moves)
    (i : Nat) (w : Writer Tagged)
    (hw : (served options state moves).threads[i]? = some (.connected (.subscriber w)))
    (hentry : w.stage.beforeEntry = false)
    (rounds : Nat → List (Lib.Move Arrival PartyEvent ServiceEvent))
    (hrounds : Lib.Rounds (service options).step (KeepsUp options i w.contextAddress)
      (served options state moves) rounds) :
    ∃ n, WrittenTo i (trail (served options state moves).shared.proxy.backend w)
      (Lib.afterRounds (service options).step (served options state moves) rounds n) := by
  exact (tracks_served hnew moves hfresh hw hentry).leadsTo hrounds

/-- Everything on its way to a subscriber arrives, in every endless run in which it keeps up and the
propagator has a step in each round: what it has been given, what waits for it, what the propagator
holds and what is in the import queue is written to it, unless it is evicted from the queue or
dropped as a duplicate, the RPC is about to end, or the propagator is told to stop. -/
theorem onTheWay_arrives (hnew : ProxyState.new options = .ok state)
    (moves : List (Lib.Move Arrival PartyEvent ServiceEvent))
    (hfresh : Lib.Along (service options).step (fun s move ↦ freshContext s move = true)
      ⟨{ proxy := state }, []⟩ moves)
    (hstarted : (served options state moves).shared.mProxyThread ≠ .notStarted)
    (i : Nat) (w : Writer Tagged)
    (hw : (served options state moves).threads[i]? = some (.connected (.subscriber w)))
    (hentry : w.stage.beforeEntry = false)
    (rounds : Nat → List (Lib.Move Arrival PartyEvent ServiceEvent))
    (hrounds : Lib.Rounds (service options).step (KeepsUp options i w.contextAddress)
      (served options state moves) rounds)
    (hpropagates : ∀ n, .env .propagator ∈ rounds n) :
    ∃ n, (Lib.afterRounds (service options).step (served options state moves) rounds n
        ).shared.mKeepRunning = false ∨
      ArrivedAt i w (served options state moves)
        (Lib.afterRounds (service options).step (served options state moves) rounds n) := by
  exact (tracks_served hnew moves hfresh hw hentry).leadsTo_arrivedAt (queued_served hnew moves)
    hstarted hrounds hpropagates

/-- Once the publishers pause, everything on its way to a subscriber whose stream has room for it
arrives, in every endless run of further steps of the proxy and the subscribers in which the RPC and
the propagator go on: it is written to the subscriber, or it was evicted from the queue or is
dropped as a duplicate, unless the RPC is about to end or the propagator is told to stop. -/
theorem onTheWay_arrives_paused (hnew : ProxyState.new options = .ok state)
    (moves : List (Lib.Move Arrival PartyEvent ServiceEvent))
    (hfresh : Lib.Along (service options).step (fun s move ↦ freshContext s move = true)
      ⟨{ proxy := state }, []⟩ moves)
    (hstarted : (served options state moves).shared.mProxyThread ≠ .notStarted)
    (i : Nat) (w : Writer Tagged)
    (hw : (served options state moves).threads[i]? = some (.connected (.subscriber w)))
    (hentry : w.stage.beforeEntry = false)
    (hroom : Roomy options.getBackendOptions.getQueueCapacity w.contextAddress
      (served options state moves).shared)
    (rounds : Nat → List (Lib.Move Arrival PartyEvent ServiceEvent))
    (hrounds : ∀ n, Attends i (rounds n)) :
    ∃ n, (Lib.afterRounds (service options).step (served options state moves) rounds n
        ).shared.mKeepRunning = false ∨
      ArrivedAt i w (served options state moves)
        (Lib.afterRounds (service options).step (served options state moves) rounds n) := by
  have hspacious : Spacious options w.contextAddress (served options state moves) :=
    ⟨serviceInv_served hnew moves, queued_served hnew moves, sized_served hnew moves, hroom⟩
  exact (tracks_served hnew moves hfresh hw hentry).leadsTo_arrivedAt (queued_served hnew moves)
    hstarted (hspacious.keepsUp hrounds) fun n ↦ (hrounds n).propagator

end Runs

section Example

attribute [local instance] x86Platform

/-- The subscriber of that run, with a packet handed out to it. -/
def waitingSubscriber : Writer Tagged where
  contextAddress := 1
  clientMetadata := []
  stage := .pump
  mSubscribed := true

/-- It goes on, and so does the propagator. -/
def goesOn : List (Lib.Move Arrival PartyEvent ServiceEvent) :=
  [.run 1 (.subscriber .proceed), .run 1 (.subscriber (.writeDone true)), .env .propagator]

theorem attends_goesOn : Attends 1 goesOn := by
  refine ⟨?_, ⟨true, ?_⟩, ?_, ?_⟩
  · decide
  · decide
  · decide
  · decide

theorem roomy_sent : Roomy tenHeaders.getBackendOptions.getQueueCapacity 1
    (served tenHeaders tenHeadersProxy (handsOn ++ sendsMessage)).shared := by
  unfold Roomy
  decide +kernel

theorem keepsUp_goesOn : Lib.Rounds (service tenHeaders).step (KeepsUp tenHeaders 1 1)
    (served tenHeaders tenHeadersProxy (handsOn ++ sendsMessage)) fun _ ↦ goesOn :=
  Spacious.keepsUp ⟨serviceInv_served rfl _, queued_served rfl _, sized_served rfl _, roomy_sent⟩
    fun _ ↦ attends_goesOn

theorem backlog_written_goesOn :
    ∃ n, WrittenTo 1
      (trail (served tenHeaders tenHeadersProxy (handsOn ++ sendsMessage)).shared.proxy.backend
        waitingSubscriber)
      (Lib.afterRounds (service tenHeaders).step
        (served tenHeaders tenHeadersProxy (handsOn ++ sendsMessage)) (fun _ ↦ goesOn) n) :=
  backlog_written rfl (handsOn ++ sendsMessage) (by decide +kernel) 1 waitingSubscriber
    (by decide +kernel) rfl (fun _ ↦ goesOn) keepsUp_goesOn

theorem onTheWay_arrives_goesOn :
    ∃ n, (Lib.afterRounds (service tenHeaders).step
          (served tenHeaders tenHeadersProxy (handsOn ++ sendsMessage)) (fun _ ↦ goesOn) n
        ).shared.mKeepRunning = false ∨
      ArrivedAt 1 waitingSubscriber
        (served tenHeaders tenHeadersProxy (handsOn ++ sendsMessage))
        (Lib.afterRounds (service tenHeaders).step
          (served tenHeaders tenHeadersProxy (handsOn ++ sendsMessage)) (fun _ ↦ goesOn) n) :=
  onTheWay_arrives rfl (handsOn ++ sendsMessage) (by decide +kernel) (by decide +kernel) 1
    waitingSubscriber (by decide +kernel) rfl (fun _ ↦ goesOn) keepsUp_goesOn
    fun _ ↦ attends_goesOn.propagator

theorem onTheWay_arrives_paused_goesOn :
    ∃ n, (Lib.afterRounds (service tenHeaders).step
          (served tenHeaders tenHeadersProxy (handsOn ++ sendsMessage)) (fun _ ↦ goesOn) n
        ).shared.mKeepRunning = false ∨
      ArrivedAt 1 waitingSubscriber
        (served tenHeaders tenHeadersProxy (handsOn ++ sendsMessage))
        (Lib.afterRounds (service tenHeaders).step
          (served tenHeaders tenHeadersProxy (handsOn ++ sendsMessage)) (fun _ ↦ goesOn) n) :=
  onTheWay_arrives_paused rfl (handsOn ++ sendsMessage) (by decide +kernel) (by decide +kernel) 1
    waitingSubscriber (by decide +kernel) rfl roomy_sent (fun _ ↦ goesOn) fun _ ↦ attends_goesOn

end Example
end ImportProxy.Proxy
