import ImportProxy.Backend.Writer
import ImportProxy.Lib.CheckThenAct

/-!
# Admission of subscribers

Where the number of entries of the map of subscribers changes, and the cap that
holds in every run in which no RPC inserts while another one has passed its
comparison with the maximum and is yet to insert (`src/backend.cpp:381–403`).
-/

namespace ImportProxy.Backend

open ImportProxy.Base

universe u

variable {π : Type u} {options : BackendOptions} {s s' : BackendState π} {w w' : Writer π}
  {event : WriterEvent} {moves : List (Lib.Move (Nat × Metadata) WriterEvent (BackendEvent π))}

/-- The backend after a schedule. -/
def reached (options : BackendOptions)
    (moves : List (Lib.Move (Nat × Metadata) WriterEvent (BackendEvent π))) :
    Lib.Pool (BackendState π) (Writer π) := (subscribers options).after (started options) moves

/-- The next step of the RPC adds an entry to the map, when its subscription does not throw. -/
def inserts (s : BackendState π) (w : Writer π) : Bool :=
  w.stage == .subscribe && !s.mSubscriptionManager.mSubscribers.contains w.contextAddress

/-- Its comparison with the maximum has passed, and it is yet to insert into the map. -/
def Writer.yetToInsert (w : Writer π) : Bool :=
  match w.stage with
  | .loadRunning | .subscribe => true
  | .authenticate | .loadSize | .storeSubscribed | .countSubscribers | .pump | .pumpCancelled
  | .stopCancelled | .fetchRunning | .fetch | .writing | .idle | .exchange _
  | .unsubscribeRunning _ | .unsubscribe _ | .finished | .countDone | .deleted => false

/-- The move adds an entry to the map, while another RPC has passed its comparison and is yet to
insert. -/
def insertsBetween (s : Lib.Pool (BackendState π) (Writer π))
    (move : Lib.Move (Nat × Metadata) WriterEvent (BackendEvent π)) : Bool :=
  Lib.Program.addsBetween Writer.yetToInsert
    (fun s w event ↦ event == .proceed && inserts s w) s move

/-- At every point of the run the entries of the map are at most the maximum. -/
def SubscribersCapped (options : BackendOptions)
    (moves : List (Lib.Move (Nat × Metadata) WriterEvent (BackendEvent π))) : Prop :=
  ∀ before rest, moves = before ++ rest →
    (reached options before).shared.mSubscriptionManager.getNumberOfSubscribers ≤
      options.getMaximumNumberOfSubscribers

/-- Only the insertion of an address that the map does not have adds an entry. -/
theorem WriterStep.size_le (hstep : WriterStep options s w event s' w') :
    s'.mSubscriptionManager.mSubscribers.size ≤ s.mSubscriptionManager.mSubscribers.size +
      if event = .proceed ∧ inserts s w then 1 else 0 := by
  have same : s.mSubscriptionManager.mSubscribers.size ≤
      s.mSubscriptionManager.mSubscribers.size +
        if event = .proceed ∧ inserts s w then 1 else 0 := Nat.le_add_right _ _
  cases hstep with
  | subscribed manager hs hm =>
    have hsize := SubscriptionManager.size_subscribe_le hm
    unfold inserts
    rw [hs]
    simpa using hsize
  | fetched packetsBuffer manager hs hm =>
    exact (SubscriptionManager.size_getNextPackets hm).trans_le same
  | unsubscribed status hs => exact (SubscriptionManager.size_unsubscribe_le _ _).trans same
  | refused | validated | exhausted | belowMaximum | subscribes | subscribesStopped | failed |
    stored | counted | pumps | pumpsStopped | pumpsCancelled | queueEmpty | sendsQueued | stops |
    fetches | fetchesStopped | fetchFailed | alarm | takesSubscribed | notSubscribed |
    unsubscribes | unsubscribesStopped | done | deleted | writeDone | cancel | waits |
    notWriting => exact same

/-- The environment adds no entry. -/
theorem size_backendEvent_le (s : BackendState π) (event : BackendEvent π) :
    (backendEvent s event).mSubscriptionManager.mSubscribers.size ≤
      s.mSubscriptionManager.mSubscribers.size := by
  cases event with
  | enqueuePacket packet => exact (SubscriptionManager.size_enqueuePacket _ packet).le
  | stop =>
    simp only [backendEvent, stopStep]
    cases s.stopStage with
    | counted => exact Nat.zero_le _
    | notCalled | storedRunning | storedManager | cleared => exact Nat.le_refl _

/-- An RPC that waits to insert has compared, or has waited before. -/
theorem WriterStep.yetToInsert (hstep : WriterStep options s w event s' w')
    (h : w'.yetToInsert = true) : w.yetToInsert = true ∨
      s.mSubscriptionManager.getNumberOfSubscribers < options.getMaximumNumberOfSubscribers := by
  have send (v : Writer π) : v.send.yetToInsert = false := by
    unfold Writer.send
    split <;> rfl
  cases hstep with
  | belowMaximum hs hlt => exact Or.inr hlt
  | subscribes hs =>
    left
    simp [Writer.yetToInsert, hs]
  | cancel | waits | notWriting => exact Or.inl h
  | sendsQueued | fetchesStopped | fetchFailed | fetched =>
    rw [send] at h
    cases h
  | notSubscribed status | unsubscribesStopped status | unsubscribed status =>
    cases status <;> cases h
  | writeDone ok =>
    unfold onWriteDone at h
    split_ifs at h <;> cases h
  | refused | validated | exhausted | subscribesStopped | failed | subscribed | stored | counted
  | pumps | pumpsStopped | pumpsCancelled | queueEmpty | stops | fetches | alarm | takesSubscribed
  | unsubscribes | done | deleted => cases h

/-- An RPC compares the number of subscribers with the maximum before it inserts. -/
theorem checks_maximum (options : BackendOptions) :
    (subscribers options).Checks
      (fun s : BackendState π ↦ s.mSubscriptionManager.getNumberOfSubscribers)
      options.getMaximumNumberOfSubscribers Writer.yetToInsert
      (fun s w event ↦ event == .proceed && inserts s w) where
  start _ := rfl
  passed s _ w event hwaits := (writer_step options s w event).yetToInsert hwaits
  kept s _ w event hno := by
    have hsize := (writer_step options s w event).size_le
    rw [if_neg (by simpa using hno)] at hsize
    exact Int.ofNat_le.mpr hsize
  added s _ w event hadds := by
    have hsize := (writer_step options s w event).size_le
    rw [if_pos (by simpa using hadds)] at hsize
    exact Int.ofNat_le.mpr hsize
  waited s w event hadds := by
    obtain ⟨-, hs, -⟩ : event = .proceed ∧ w.stage = .subscribe ∧ _ := by
      simpa [inserts] using hadds
    simp [Writer.yetToInsert, hs]
  settled s _ w event hadds := by
    obtain ⟨rfl, hs, -⟩ : event = .proceed ∧ w.stage = .subscribe ∧ _ := by
      simpa [inserts] using hadds
    change (proceed options s w).2.yetToInsert = false
    unfold proceed
    rw [hs]
    dsimp only
    split <;> rfl
  env s event := Int.ofNat_le.mpr (size_backendEvent_le s event)

/-- The entries of the map are at most the maximum in every run in which no RPC inserts while
another one has passed its comparison and is yet to insert. -/
theorem subscribersCapped_of_along
    (h : Lib.Along (subscribers options).step (fun s move ↦ insertsBetween s move = false)
      (started options) moves) : SubscribersCapped options moves := by
  rintro before rest rfl
  have hpos : 1 ≤ options.getMaximumNumberOfSubscribers := options.mMaximumNumberOfSubscribers.le
  have hzero : (started (π := π) options).shared.mSubscriptionManager.getNumberOfSubscribers = 0 :=
    congrArg Int.ofNat Std.ExtTreeMap.size_empty
  have hbelow : Lib.Program.Below
      (fun s : BackendState π ↦ s.mSubscriptionManager.getNumberOfSubscribers)
      options.getMaximumNumberOfSubscribers Writer.yetToInsert (started options) := by
    refine ⟨?_, nofun⟩
    rw [hzero]
    exact Int.le_trans (by decide) hpos
  exact (checks_maximum options).after_le hbelow (Lib.along_append.mp h).1

end ImportProxy.Backend
