import ImportProxy.Backend.Admission
import ImportProxy.Frontend.Accounting

/-!
# Admission caps

On both ends the comparison with the maximum and the registration are separate
steps (`src/frontend.cpp:98–132`, `src/backend.cpp:381–403`). The caps hold in
every run in which no RPC registers while another one has passed its comparison
and is yet to register, and in which no rejected publisher subtracts from the
counter.
-/

namespace ImportProxy.Frontend

open ImportProxy.Base

/-- Registered, and not yet released by `OnDone`. -/
def PublishRpc.holdsPlace (rpc : PublishRpc) : Bool :=
  rpc.registered && !rpc.released && rpc.stage != .deleted

/-- The number of admitted publishers that `OnDone` has not released. -/
def admittedPublishers (s : Lib.Pool FrontendState PublishRpc) : Nat :=
  s.threads.countP PublishRpc.holdsPlace

/-- Its comparison with the maximum has passed, and it is yet to add to the counter. -/
def PublishRpc.yetToRegister (options : FrontendOptions) (rpc : PublishRpc) : Bool :=
  match rpc.stage with
  | .authenticate => !options.refuses rpc.clientMetadata
  | .register => true
  | .loadCounter | .loadRunning | .reading | .finished | .release | .reload | .deleted => false

/-- The next step of the RPC is its `fetch_add`. -/
def PublishRpc.registers (rpc : PublishRpc) : Bool := rpc.stage == .register

/-- The move is the `fetch_add` of an RPC, while another one has passed its comparison and is yet
to do its own. -/
def registersBetween (options : FrontendOptions) (s : Lib.Pool FrontendState PublishRpc)
    (move : Lib.Move Metadata ReadEvent FrontendEvent) : Bool :=
  Lib.Program.addsBetween (PublishRpc.yetToRegister options) (fun _ rpc _ ↦ rpc.registers) s move

/-- At every point of the run the admitted publishers are at most the maximum. -/
def PublishersCapped (options : FrontendOptions)
    (moves : List (Lib.Move Metadata ReadEvent FrontendEvent)) : Prop :=
  ∀ before rest, moves = before ++ rest →
    admittedPublishers (reached options before) ≤ options.getMaximumNumberOfPublishers

variable {options : FrontendOptions} {moves : List (Lib.Move Metadata ReadEvent FrontendEvent)}

/-- When no rejected RPC has subtracted, the places held are at most the counter. -/
theorem admittedPublishers_le (hgood : NoneReleased (reached options moves)) :
    (admittedPublishers (reached options moves) : Int) ≤
      (reached options moves).shared.mNumberOfPublishers := by
  rw [counter_eq_sum]
  apply Lib.Program.countP_le_sum_map
  intro rpc hmem
  have hinv := publishInv_reached options moves hmem
  unfold PublishRpc.holdsPlace PublishRpc.weight
  cases hrel : rpc.released with
  | false => cases rpc.registered <;> simp; split <;> omega
  | true =>
    have hrej : rpc.rejected = false := by
      by_contra hx
      have hnot := hgood rpc hmem (by simpa using hx)
      rw [hrel] at hnot
      cases hnot
    simp [hinv.registered_eq (Or.inr hrel), hrej]

/-- An RPC compares the counter with the maximum before it adds to it. -/
theorem checks_maximum (options : FrontendOptions) :
    (publishers options).Checks FrontendState.mNumberOfPublishers
      options.getMaximumNumberOfPublishers (PublishRpc.yetToRegister options)
      (fun _ rpc _ ↦ rpc.registers) where
  start _ := rfl
  passed s _ rpc event hwaits := by
    have hstep := publish_step options s rpc event
    change PublishRpc.yetToRegister options (publishStep options s rpc event).2 = true at hwaits
    generalize (publishStep options s rpc event).1 = s' at hstep
    generalize (publishStep options s rpc event).2 = rpc' at hstep hwaits
    cases hstep with
    | belowMaximum hs hlt => exact Or.inr hlt
    | validated hs hok =>
      left
      simp [PublishRpc.yetToRegister, hs, hok]
    | gone => exact Or.inl hwaits
    | exhausted | refused | registered | reads | finishes | leaves | leavesStopped | released
    | reloaded => cases hwaits
  kept s _ rpc event hno := by
    have hstep := publish_step options s rpc event
    change (publishStep options s rpc event).1.mNumberOfPublishers ≤ s.mNumberOfPublishers
    generalize (publishStep options s rpc event).1 = s' at hstep ⊢
    generalize (publishStep options s rpc event).2 = rpc' at hstep
    cases hstep with
    | registered hs => simp [PublishRpc.registers, hs] at hno
    | released => exact Int.sub_le_self _ (by decide)
    | belowMaximum | exhausted | validated | refused | reads | finishes | leaves | leavesStopped
    | reloaded | gone => exact Int.le_refl _
  added s _ rpc event hadds := by
    have hs : rpc.stage = .register := beq_iff_eq.mp hadds
    change (publishStep options s rpc event).1.mNumberOfPublishers ≤ _
    simp [publishStep, hs]
  waited _ rpc _ hadds := by
    have hs : rpc.stage = .register := beq_iff_eq.mp hadds
    simp [PublishRpc.yetToRegister, hs]
  settled s _ rpc event hadds := by
    have hs : rpc.stage = .register := beq_iff_eq.mp hadds
    change PublishRpc.yetToRegister options (publishStep options s rpc event).2 = false
    simp [publishStep, PublishRpc.yetToRegister, hs]
  env _ _ := Int.le_refl _

/-- The admitted publishers are at most the maximum in every run in which no RPC registers while
another one has passed its comparison and is yet to register, and no rejected RPC subtracts from
the counter. -/
theorem publishersCapped_of_along
    (h : Lib.Along (publishers options).step (fun s move ↦
      registersBetween options s move = false ∧ rejectedReleases s move = false) started
      moves) : PublishersCapped options moves := by
  rintro before rest rfl
  have hbefore := Lib.along_iff.mp (Lib.along_append.mp h).1
  have hgood : NoneReleased (reached options before) := by
    rw [noneReleased_iff_along, Lib.along_iff]
    exact fun left move right he ↦ (hbefore left move right he).2
  have hpos : 1 ≤ options.getMaximumNumberOfPublishers := options.mMaximumNumberOfPublishers.le
  have hbelow : Lib.Program.Below FrontendState.mNumberOfPublishers
      options.getMaximumNumberOfPublishers (PublishRpc.yetToRegister options) started :=
    ⟨Int.le_trans (by decide) hpos, nofun⟩
  have hcounter := (checks_maximum options).after_le hbelow
    (Lib.along_iff.mpr fun left move right he ↦ (hbefore left move right he).1)
  exact (admittedPublishers_le hgood).trans hcounter

end ImportProxy.Frontend

namespace ImportProxy.Proxy

open ImportProxy.Base

/-- Both caps hold throughout every run in which no RPC registers while another one of its end has
passed its comparison and is yet to register, and no rejected publisher subtracts from the
counter. -/
theorem admission_capped {frontendOptions : Frontend.FrontendOptions}
    {backendOptions : Backend.BackendOptions}
    {publishing : List (Lib.Move Metadata Frontend.ReadEvent Frontend.FrontendEvent)}
    {subscribing : List (Lib.Move (Nat × Metadata) Backend.WriterEvent
      (Backend.BackendEvent Packet))}
    (hp : Lib.Along (Frontend.publishers frontendOptions).step (fun s move ↦
      Frontend.registersBetween frontendOptions s move = false ∧
        Frontend.rejectedReleases s move = false) Frontend.started publishing)
    (hs : Lib.Along (Backend.subscribers backendOptions).step (fun s move ↦
      Backend.insertsBetween s move = false)
      (Backend.started backendOptions) subscribing) :
    Frontend.PublishersCapped frontendOptions publishing ∧
      Backend.SubscribersCapped backendOptions subscribing :=
  ⟨Frontend.publishersCapped_of_along hp, Backend.subscribersCapped_of_along hs⟩

section Runs

/-- Options for a single subscriber. -/
def oneSubscriber : Backend.BackendOptions := { mMaximumNumberOfSubscribers := .least 1 }

/-- One subscriber is admitted; a second one finds the maximum hit. -/
def subscribeInTurn :
    List (Lib.Move (Nat × Metadata) Backend.WriterEvent (Backend.BackendEvent Packet)) :=
  [.spawn (1, []), .run 0 .proceed, .run 0 .proceed, .run 0 .proceed, .run 0 .proceed,
    .spawn (2, []), .run 1 .proceed, .run 1 .proceed]

theorem admission_capped_inTurn :
    Frontend.PublishersCapped Frontend.onePublisher Frontend.comeAndGo ∧
      Backend.SubscribersCapped oneSubscriber subscribeInTurn :=
  admission_capped (by decide) (by decide +kernel)

/-- Two publishers compare before either registers. -/
def publishersRace : List (Lib.Move Metadata Frontend.ReadEvent Frontend.FrontendEvent) :=
  [.spawn [], .spawn [], .run 0 .message, .run 1 .message, .run 0 .message, .run 1 .message,
    .run 0 .message, .run 1 .message]

/-- Two subscribers compare before either subscribes. -/
def subscribersRace :
    List (Lib.Move (Nat × Metadata) Backend.WriterEvent (Backend.BackendEvent Packet)) :=
  [.spawn (1, []), .spawn (2, []), .run 0 .proceed, .run 1 .proceed, .run 0 .proceed,
    .run 1 .proceed, .run 0 .proceed, .run 1 .proceed, .run 0 .proceed, .run 1 .proceed]

/-- Both races exceed a maximum of one. -/
theorem races_exceed_maximum :
    ¬Frontend.PublishersCapped Frontend.onePublisher publishersRace ∧
      ¬Backend.SubscribersCapped oneSubscriber subscribersRace := by
  constructor
  · intro h
    exact absurd (h publishersRace [] rfl) (by decide)
  · intro h
    exact absurd (h subscribersRace [] rfl) (by decide +kernel)

end Runs
end ImportProxy.Proxy
