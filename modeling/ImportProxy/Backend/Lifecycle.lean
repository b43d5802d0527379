import ImportProxy.Backend.Pump
import ImportProxy.Backend.Stop
import ImportProxy.Lib.Owners

/-!
# The lifecycle of a subscription

While the server runs, the map has the contexts of the live RPCs that have
subscribed and not yet unsubscribed, and no others. A context may be that of a
later RPC once `OnDone` has run for the earlier one
(`src/backend.cpp:173–239,355–474,559–566`).
-/

namespace ImportProxy.Backend

open ImportProxy.Base

universe u

variable {π : Type u} {options : BackendOptions} {s s' : BackendState π} {w w' : Writer π}
  {event : WriterEvent} {log : List (WriterEffect π)}

namespace WriterEffect

def isSubscribed : WriterEffect π → Bool
  | subscribed => true
  | _ => false

def isUnsubscribed : WriterEffect π → Bool
  | unsubscribed => true
  | _ => false

end WriterEffect

/-- The subscriptions in a log. -/
def subscriptions (log : List (WriterEffect π)) : Nat := log.countP WriterEffect.isSubscribed

/-- The unsubscriptions in a log. -/
def unsubscriptions (log : List (WriterEffect π)) : Nat := log.countP WriterEffect.isUnsubscribed

namespace WriterStage

/-- The RPC has subscribed and is yet to unsubscribe. -/
def holdsEntry : WriterStage → Bool
  | storeSubscribed | countSubscribers | pump | pumpCancelled | stopCancelled | fetchRunning |
    fetch | writing | idle | exchange (some _) | unsubscribeRunning (some _) |
    unsubscribe (some _) => true
  | authenticate | loadSize | loadRunning | subscribe | exchange none | unsubscribeRunning none |
    unsubscribe none | finished | countDone | deleted => false

/-- The RPC is yet to subscribe. -/
def beforeEntry : WriterStage → Bool
  | authenticate | loadSize | loadRunning | subscribe => true
  | _ => false

/-- The next step is a locked section of `subscribe` or `unsubscribe`. -/
def locksEntries : WriterStage → Bool
  | subscribe | unsubscribe _ => true
  | _ => false

/-- The status with which an RPC that is leaving will be finished. -/
def ending : WriterStage → Option Status
  | exchange status | unsubscribeRunning status | unsubscribe status => status
  | _ => none

end WriterStage

/-- The RPC was refused for its token or for the maximum. -/
def rejects (status : Status) : Bool :=
  status == subscriberNotValidated || status == maxSubscribersHit

/-- `OnDone` has not returned. -/
def Writer.live (w : Writer π) : Bool := w.stage != .deleted

/-- The log of an RPC agrees with its stage. -/
structure EntryInv (w : Writer π) (log : List (WriterEffect π)) : Prop extends PumpInv w log where
  entry : subscriptions log = unsubscriptions log + if w.stage.holdsEntry then 1 else 0
  once : subscriptions log ≤ 1
  fresh : w.stage.beforeEntry = true → subscriptions log = 0
  ending : ∀ status, w.stage.ending = some status → rejects status = false
  rejected : ∀ status, .finish status ∈ log → rejects status = true → subscriptions log = 0

@[simp] theorem subscriptions_append (log effects : List (WriterEffect π)) :
    subscriptions (log ++ effects) = subscriptions log + subscriptions effects :=
  List.countP_append

@[simp] theorem unsubscriptions_append (log effects : List (WriterEffect π)) :
    unsubscriptions (log ++ effects) = unsubscriptions log + unsubscriptions effects :=
  List.countP_append

theorem entries_send (w : Writer π) :
    subscriptions w.sendEffects = 0 ∧ unsubscriptions w.sendEffects = 0 := by
  unfold Writer.sendEffects
  split <;> exact ⟨rfl, rfl⟩

theorem entries_leave (status : Option Status) :
    subscriptions (Writer.leaveEffects (π := π) status) = 0 ∧
      unsubscriptions (Writer.leaveEffects (π := π) status) = 0 := by
  cases status <;> exact ⟨rfl, rfl⟩

/-- Only the locked sections of `subscribe` and `unsubscribe` enter the log as such. -/
theorem StepEffects.entries {effects : List (WriterEffect π)} (heffects : StepEffects w effects)
    (h : w.stage.locksEntries = false) :
    subscriptions effects = 0 ∧ unsubscriptions effects = 0 := by
  cases heffects with
  | none | rejects | alarm | writeDone => exact ⟨rfl, rfl⟩
  | subscribes hs | unsubscribes _ hs =>
    rw [hs] at h
    cases h
  | sends => exact entries_send w
  | fetches => exact entries_send _
  | leaves status => exact entries_leave status

/-- What a step of an RPC does to the map: nothing, or it inserts the context, or it erases it. -/
inductive EntryChange (s : BackendState π) (w : Writer π) (effects : List (WriterEffect π))
    (s' : BackendState π) (w' : Writer π) : Prop
  | keeps (hsub : subscriptions effects = 0) (hunsub : unsubscriptions effects = 0)
      (hholds : w'.stage.holdsEntry = w.stage.holdsEntry)
      (hbefore : w'.stage.beforeEntry = true → w.stage.beforeEntry = true)
      (hkeys : ∀ a, s'.mSubscriptionManager.mSubscribers.contains a =
        s.mSubscriptionManager.mSubscribers.contains a)
  | acquires (manager : SubscriptionManager π) (hs : w.stage = .subscribe)
      (heffects : effects = [.subscribed])
      (hm : s.mSubscriptionManager.subscribe w.contextAddress = some manager)
      (hs' : s' = { s with mSubscriptionManager := manager })
      (hw' : w' = { w with stage := .storeSubscribed })
  | releases (status : Status) (hs : w.stage = .unsubscribe (some status))
      (heffects : effects = [.unsubscribed, .finish status])
      (hs' : s' = { s with
        mSubscriptionManager := s.mSubscriptionManager.unsubscribe w.contextAddress })
      (hw' : w' = w.finish status)

/-- While the manager runs, every step keeps, inserts or erases the context of its RPC. -/
theorem WriterStep.entryChange (hstep : WriterStep options s w event s' w') (hflag : FlagInv w)
    (hrun : s.mSubscriptionManager.mKeepRunning = true) :
    EntryChange s w (writerEffects options s w event) s' w' := by
  have hentries := (step_effects options s w event).entries
  have silent (hlocks : w.stage.locksEntries = false)
      (hholds : w'.stage.holdsEntry = w.stage.holdsEntry)
      (hbefore : w'.stage.beforeEntry = true → w.stage.beforeEntry = true)
      (hkeys : ∀ a, s'.mSubscriptionManager.mSubscribers.contains a =
        s.mSubscriptionManager.mSubscribers.contains a) :
      EntryChange s w (writerEffects options s w event) s' w' :=
    .keeps (hentries hlocks).1 (hentries hlocks).2 hholds hbefore hkeys
  cases hstep with
  | subscribed manager hs hm =>
    refine .acquires manager hs ?_ hm rfl rfl
    simp only [writerEffects, proceedEffects, hs, hm]
  | failed hs hm =>
    refine .keeps ?_ ?_ (by rw [hs]; rfl) (by rintro ⟨⟩) fun _ ↦ rfl
    · simp only [writerEffects, proceedEffects, hs, hm]
      rfl
    · simp only [writerEffects, proceedEffects, hs, hm]
      rfl
  | unsubscribed status hs =>
    cases status with
    | none => exact (hflag.erasing hs).elim
    | some status =>
      refine .releases status hs ?_ rfl rfl
      simp only [writerEffects, proceedEffects, hs]
      rfl
  | subscribesStopped hs hstop | unsubscribesStopped _ hs hstop | fetchesStopped hs hstop =>
    rw [hrun] at hstop
    cases hstop
  | notSubscribed status hs hsub =>
    have hset := hflag.flag
    rw [hs, hsub] at hset
    cases status with
    | none =>
      exact silent (by rw [hs]; rfl) (by rw [hs]; rfl) (by rintro ⟨⟩) fun _ ↦ rfl
    | some status => cases hset
  | takesSubscribed status hs | unsubscribes status hs =>
    refine silent (by rw [hs]; rfl) ?_ (by rintro ⟨⟩) fun _ ↦ rfl
    rw [hs]
    cases status <;> rfl
  | fetched packetsBuffer manager hs hm =>
    refine silent (by rw [hs]; rfl) ?_ ?_
      (SubscriptionManager.contains_getNextPackets hm)
    · rw [hs]
      unfold Writer.send
      split <;> rfl
    · unfold Writer.send
      split <;> rintro ⟨⟩
  | sendsQueued hs | fetchFailed hs =>
    refine silent (by rw [hs]; rfl) ?_ ?_ fun _ ↦ rfl
    · rw [hs]
      unfold Writer.send
      split <;> rfl
    · unfold Writer.send
      split <;> rintro ⟨⟩
  | writeDone ok hs =>
    refine silent (by rw [hs]; rfl) ?_ ?_ fun _ ↦ rfl
    · rw [hs]
      unfold onWriteDone
      split_ifs <;> rfl
    · unfold onWriteDone
      split_ifs <;> rintro ⟨⟩
  | refused hs | validated hs | exhausted hs | belowMaximum hs | subscribes hs | stored hs
  | counted hs | pumps hs | pumpsStopped hs | pumpsCancelled hs | queueEmpty hs | stops hs
  | fetches hs | alarm hs | done hs | deleted hs =>
    exact silent (by rw [hs]; rfl) (by rw [hs]; rfl)
      (by rw [hs]; simp [WriterStage.beforeEntry, Writer.finish]) fun _ ↦ rfl
  | cancel => exact .keeps rfl rfl rfl id fun _ ↦ rfl
  | waits hs =>
    rcases hs with hs | hs
    · exact silent (by rw [hs]; rfl) rfl id fun _ ↦ rfl
    · exact silent (by rw [hs]; rfl) rfl id fun _ ↦ rfl
  | notWriting ok hs =>
    have hnone : writerEffects options s w (.writeDone ok) = [] := if_neg hs
    rw [hnone]
    exact .keeps rfl rfl rfl id fun _ ↦ rfl

theorem finish_not_mem_send (w : Writer π) (status : Status) :
    .finish status ∉ w.sendEffects := by
  unfold Writer.sendEffects
  split <;> simp

theorem finish_mem_leave {status : Status} {status' : Option Status}
    (h : .finish status ∈ Writer.leaveEffects (π := π) status') : status' = some status := by
  cases status' with
  | none => cases h
  | some status' =>
    rw [WriterEffect.finish.inj (List.mem_singleton.mp h)]

/-- `Finish` is called by a constructor that has not subscribed, or by an RPC that leaves. -/
theorem StepEffects.finish_mem {effects : List (WriterEffect π)} {status : Status}
    (heffects : StepEffects w effects) (h : .finish status ∈ effects) :
    subscriptions effects = 0 ∧ (w.stage.beforeEntry = true ∨ w.stage.ending = some status) := by
  cases heffects with
  | none => cases h
  | rejects status' hs =>
    refine ⟨rfl, Or.inl ?_⟩
    rcases hs with hs | hs | hs <;> rw [hs] <;> rfl
  | subscribes | alarm | writeDone => simp at h
  | sends => exact (finish_not_mem_send w status h).elim
  | fetches =>
    rcases List.mem_cons.mp h with h | h
    · cases h
    · exact (finish_not_mem_send _ status h).elim
  | leaves status' hs =>
    refine ⟨(entries_leave status').1, Or.inr ?_⟩
    rw [← finish_mem_leave h]
    rcases hs with hs | hs <;> rw [hs] <;> rfl
  | unsubscribes status' hs =>
    rcases List.mem_cons.mp h with h | h
    · cases h
    · refine ⟨(entries_leave status').1, Or.inr ?_⟩
      rw [hs]
      exact finish_mem_leave h

/-- The statuses with which the pump finishes. -/
theorem WriterStep.ending (hstep : WriterStep options s w event s' w') {status : Status}
    (h : w'.stage.ending = some status) :
    w.stage.ending = some status ∨ rejects status = false := by
  cases hstep with
  | stops hs =>
    cases h
    right
    split <;> decide
  | takesSubscribed status' hs | unsubscribes status' hs => exact Or.inl (by rw [hs]; exact h)
  | writeDone ok hs =>
    right
    unfold onWriteDone at h
    split_ifs at h
    · cases h
    · cases h
      decide
    · cases h
      decide
  | sendsQueued | fetchesStopped | fetchFailed | fetched =>
    unfold Writer.send at h
    split at h <;> cases h
  | notSubscribed status' | unsubscribesStopped status' | unsubscribed status' =>
    cases status' <;> cases h
  | cancel | waits | notWriting => exact Or.inl h
  | refused | validated | exhausted | belowMaximum | subscribes | subscribesStopped | failed
  | subscribed | stored | counted | pumps | pumpsStopped | pumpsCancelled | queueEmpty | fetches
  | alarm | done | deleted => cases h

/-- An RPC begins with an empty log. -/
theorem entryInv_start (options : BackendOptions) (context : Nat × Metadata) :
    EntryInv ((subscribers (π := π) options).start context) [] where
  toPumpInv := pumpInv_start options context
  entry := rfl
  once := Nat.zero_le _
  fresh _ := rfl
  ending := nofun
  rejected := nofun

/-- While the manager runs, every step keeps the log in agreement with the stage. -/
theorem EntryInv.step (h : EntryInv w log) (hstep : WriterStep options s w event s' w')
    (hrun : s.mSubscriptionManager.mKeepRunning = true) :
    EntryInv w' (log ++ writerEffects options s w event) where
  toPumpInv := h.toPumpInv.step hstep
  entry := by
    have hentry := h.entry
    rw [subscriptions_append, unsubscriptions_append]
    cases hstep.entryChange h.flag hrun with
    | keeps hsub hunsub hholds => rw [hsub, hunsub, hholds, Nat.add_zero, Nat.add_zero, hentry]
    | acquires manager hs heffects hm hs' hw' =>
      rw [hs] at hentry
      rw [heffects, hw', hentry]
      rfl
    | releases status hs heffects hs' hw' =>
      rw [hs] at hentry
      rw [heffects, hw', hentry]
      rfl
  once := by
    have honce := h.once
    rw [subscriptions_append]
    cases hstep.entryChange h.flag hrun with
    | keeps hsub => rwa [hsub, Nat.add_zero]
    | acquires manager hs heffects =>
      rw [heffects, h.fresh (by rw [hs]; rfl)]
      exact Nat.le_refl 1
    | releases status hs heffects =>
      rw [heffects]
      exact honce
  fresh hbefore := by
    rw [subscriptions_append]
    cases hstep.entryChange h.flag hrun with
    | keeps hsub _ _ hb => rw [hsub, h.fresh (hb hbefore)]
    | acquires manager hs heffects hm hs' hw' =>
      rw [hw'] at hbefore
      cases hbefore
    | releases status hs heffects hs' hw' =>
      rw [hw'] at hbefore
      cases hbefore
  ending status hend := (hstep.ending hend).elim (h.ending status) id
  rejected status hmem hrej := by
    rw [subscriptions_append]
    rcases List.mem_append.mp hmem with hmem | hmem
    · have hcalls : w.stage.finishes ≠ 0 := by
        intro hzero
        have hnone : finishCalls log = 0 :=
          (congrArg (fun n : Int × Int × Int ↦ n.2.2) h.balance).trans hzero
        exact not_mem_of_finishCalls hnone status hmem
      rw [h.flag.effects_eq_nil hcalls (step_effects options s w event),
        h.rejected status hmem hrej]
      rfl
    · obtain ⟨hnone, hbefore | hending⟩ :=
        (step_effects options s w event).finish_mem hmem
      · rw [hnone, h.fresh hbefore]
      · rw [h.ending status hending] at hrej
        cases hrej

/-- The move does not call `stop`, and gives a new RPC a context that no live RPC has. -/
def whileRunning (s : Lib.Pool (BackendState π) (Writer π × List (WriterEffect π))) :
    Lib.Move (Nat × Metadata) WriterEvent (BackendEvent π) → Bool
  | .spawn context => s.threads.all fun t ↦ !t.1.live || t.1.contextAddress != context.1
  | .env .stop => false
  | .run _ _ | .env (.enqueuePacket _) => true

/-- Some live RPC has subscribed with the address and is yet to unsubscribe. -/
def HeldBy (threads : List (Writer π × List (WriterEffect π))) (contextAddress : Nat) : Prop :=
  Lib.Held (fun t ↦ t.1.stage.holdsEntry) (fun t ↦ t.1.contextAddress) threads contextAddress

/-- The map has the contexts of the RPCs that hold an entry. -/
structure LifecycleInv (s : Lib.Pool (BackendState π) (Writer π × List (WriterEffect π))) :
    Prop where
  running : s.shared.mSubscriptionManager.mKeepRunning = true
  entries : ∀ t ∈ s.threads, EntryInv t.1 t.2
  distinct : Lib.DistinctKeys (fun t ↦ t.1.live) (fun t ↦ t.1.contextAddress) s.threads
  keys : ∀ a, s.shared.mSubscriptionManager.mSubscribers.contains a = true ↔ HeldBy s.threads a

theorem live_of_holdsEntry (h : w.stage.holdsEntry = true) : w.live = true := by
  unfold Writer.live
  cases hs : w.stage <;> simp_all [WriterStage.holdsEntry]

/-- An RPC whose `OnDone` has returned takes no further step. -/
theorem WriterStep.live_of_live (hstep : WriterStep options s w event s' w')
    (h : w'.live = true) : w.live = true := by
  by_contra hdone
  have hs : w.stage = .deleted := by simpa [Writer.live] using hdone
  cases hstep with
  | cancel | waits | notWriting => exact hdone h
  | refused hs' | validated hs' | exhausted hs' | belowMaximum hs' | subscribes hs'
  | subscribesStopped hs' | failed hs' | subscribed _ hs' | stored hs' | counted hs' | pumps hs'
  | pumpsStopped hs' | pumpsCancelled hs' | queueEmpty hs' | sendsQueued hs' | stops hs'
  | fetches hs' | fetchesStopped hs' | fetchFailed hs' | fetched _ _ hs' | alarm hs'
  | takesSubscribed _ hs' | notSubscribed _ hs' | unsubscribes _ hs' | unsubscribesStopped _ hs'
  | unsubscribed _ hs' | done hs' | deleted hs' | writeDone _ hs' =>
    exact nomatch hs.symm.trans hs'

/-- The keys of the map after the step of an RPC. -/
theorem LifecycleInv.keys_step {s : Lib.Pool (BackendState π) (Writer π × List (WriterEffect π))}
    (h : LifecycleInv s) {i : Nat} (ht : s.threads[i]? = some (w, log))
    (hstep : WriterStep options s.shared w event s' w') (a : Nat) :
    s'.mSubscriptionManager.mSubscribers.contains a = true ↔
      HeldBy (s.threads.set i (w', log ++ writerEffects options s.shared w event)) a := by
  have hinv := h.entries (w, log) (List.mem_of_getElem? ht)
  have haddr := hstep.contextAddress_eq
  have hlive (u : Writer π × List (WriterEffect π)) (_ : u ∈ s.threads)
      (hu : u.1.stage.holdsEntry = true) : u.1.live = true := live_of_holdsEntry hu
  unfold HeldBy
  cases hstep.entryChange hinv.flag h.running with
  | keeps _ _ hholds _ hkeys =>
    rw [hkeys, Lib.held_set_keep ht haddr hholds]
    exact h.keys a
  | acquires manager hs heffects hm hs' hw' =>
    rw [Lib.held_set_acquire ht haddr (by rw [hs]; rfl) (by rw [hw']; rfl), hs']
    exact (SubscriptionManager.contains_subscribe_iff hm a).trans (or_congr_left (h.keys a))
  | releases status hs heffects hs' hw' =>
    rw [h.distinct.held_set_release hlive ht (by rw [hs]; rfl) (by rw [hw']; rfl), hs']
    exact (SubscriptionManager.contains_unsubscribe_iff _ _ a).trans (and_congr_left' (h.keys a))

/-- The step of an RPC keeps the map in agreement with the RPCs. -/
theorem LifecycleInv.run_step {s : Lib.Pool (BackendState π) (Writer π × List (WriterEffect π))}
    (h : LifecycleInv s) {i : Nat} (ht : s.threads[i]? = some (w, log))
    (hstep : WriterStep options s.shared w event s' w') :
    LifecycleInv ⟨s', s.threads.set i (w', log ++ writerEffects options s.shared w event)⟩ := by
  refine ⟨hstep.flags_eq.2.2.trans h.running, ?_, ?_, h.keys_step ht hstep⟩
  · intro t hmem
    rcases List.mem_or_eq_of_mem_set hmem with hmem | rfl
    · exact h.entries t hmem
    · exact (h.entries (w, log) (List.mem_of_getElem? ht)).step hstep h.running
  · exact h.distinct.set ht hstep.contextAddress_eq hstep.live_of_live

/-- Every move that does not stop the server, and gives no context of a live RPC to a new one, keeps
the map in agreement with the RPCs. -/
theorem LifecycleInv.step {s : Lib.Pool (BackendState π) (Writer π × List (WriterEffect π))}
    (h : LifecycleInv s) (move : Lib.Move (Nat × Metadata) WriterEvent (BackendEvent π))
    (hok : whileRunning s move = true) :
    LifecycleInv ((recordedSubscribers options).step s move) := by
  cases move with
  | spawn context =>
    refine ⟨h.running, ?_, ?_, ?_⟩
    · intro t ht
      rcases List.mem_append.mp ht with ht | ht
      · exact h.entries t ht
      · rw [List.mem_singleton.mp ht]
        exact entryInv_start options context
    · refine h.distinct.append fun u hu hlive hkey ↦ ?_
      have hnew := List.all_eq_true.mp hok u hu
      simp only [hlive, Bool.not_true, Bool.false_or, bne_iff_ne] at hnew
      exact hnew hkey
    · intro a
      exact (h.keys a).trans (Lib.held_append rfl).symm
  | run i event =>
    cases ht : s.threads[i]? with
    | none =>
      rw [Lib.Program.step_run_none ht]
      exact h
    | some t =>
      obtain ⟨w, log⟩ := t
      rw [Lib.Program.step_run ht]
      exact h.run_step ht (writer_step options s.shared w event)
  | env e =>
    cases e with
    | stop => cases hok
    | enqueuePacket packet =>
      refine ⟨h.running, h.entries, h.distinct, fun a ↦ ?_⟩
      show (s.shared.mSubscriptionManager.enqueuePacket packet).1.mSubscribers.contains a = true ↔ _
      rw [SubscriptionManager.contains_enqueuePacket]
      exact h.keys a

/-- The map of subscribers. -/
def subscribersOf (s : Lib.Pool (BackendState π) (Writer π × List (WriterEffect π))) :
    Std.ExtTreeMap Nat (PacketStream π) := s.shared.mSubscriptionManager.mSubscribers

/-- The map agrees with the RPCs. -/
structure EntriesAgree (s : Lib.Pool (BackendState π) (Writer π × List (WriterEffect π))) :
    Prop where
  /-- The keys of the map are the contexts of the live RPCs that have subscribed and not yet
  unsubscribed. -/
  keys : ∀ a, (subscribersOf s).contains a = true ↔ ∃ (w : Writer π) (log : List (WriterEffect π)),
    (w, log) ∈ s.threads ∧ w.live = true ∧ w.contextAddress = a ∧
      .subscribed ∈ log ∧ .unsubscribed ∉ log
  /-- No RPC subscribes or unsubscribes twice. -/
  once : ∀ (w : Writer π) (log : List (WriterEffect π)), (w, log) ∈ s.threads →
    subscriptions log ≤ 1 ∧ unsubscriptions log ≤ 1
  /-- An RPC that was rejected for its token or for the maximum has not subscribed or
  unsubscribed. -/
  rejected : ∀ (w : Writer π) (log : List (WriterEffect π)) (status : Status),
    (w, log) ∈ s.threads → .finish status ∈ log → rejects status = true →
      .subscribed ∉ log ∧ .unsubscribed ∉ log

/-- A move changes the map by what an RPC does to its own entry. -/
structure OwnEntries (s s' : Lib.Pool (BackendState π) (Writer π × List (WriterEffect π))) :
    Prop where
  /-- An entry is inserted by an RPC with its address, which logs it. -/
  inserted : ∀ a, (subscribersOf s).contains a = false → (subscribersOf s').contains a = true →
    ∃ (i : Nat) (w w' : Writer π) (log : List (WriterEffect π)),
      s.threads[i]? = some (w, log) ∧ w.contextAddress = a ∧
        s'.threads[i]? = some (w', log ++ [.subscribed])
  /-- An entry is erased by the RPC that has inserted it, which logs it. -/
  erased : ∀ a, (subscribersOf s).contains a = true → (subscribersOf s').contains a = false →
    ∃ (i : Nat) (w w' : Writer π) (log : List (WriterEffect π)) (status : Status),
      s.threads[i]? = some (w, log) ∧ w.contextAddress = a ∧
        .subscribed ∈ log ∧ .unsubscribed ∉ log ∧
        s'.threads[i]? = some (w', log ++ [.unsubscribed, .finish status])
  /-- An RPC that subscribes finds no entry of its address, and starts with an empty stream. -/
  startsEmpty : ∀ (i : Nat) (w w' : Writer π) (log : List (WriterEffect π)),
    s.threads[i]? = some (w, log) → s'.threads[i]? = some (w', log ++ [.subscribed]) →
      (subscribersOf s)[w.contextAddress]? = none ∧ ∃ packetStream : PacketStream π,
        (subscribersOf s')[w.contextAddress]? = some packetStream ∧
          packetStream.mQueue.toList = []

/-- The lifecycle of the subscriptions after a schedule, and at the next move. -/
structure Lifecycle (options : BackendOptions)
    (moves : List (Lib.Move (Nat × Metadata) WriterEvent (BackendEvent π))) : Prop where
  agree : EntriesAgree (recordedRun options moves)
  next : ∀ move, whileRunning (recordedRun options moves) move = true →
    OwnEntries (recordedRun options moves) (recordedRun options (moves ++ [move]))

theorem subscribed_mem_iff : .subscribed ∈ log ↔ subscriptions log ≠ 0 := by
  apply Lib.mem_iff_countP_ne_zero
  intro effect
  cases effect <;> simp [WriterEffect.isSubscribed]

theorem unsubscribed_mem_iff : .unsubscribed ∈ log ↔ unsubscriptions log ≠ 0 := by
  apply Lib.mem_iff_countP_ne_zero
  intro effect
  cases effect <;> simp [WriterEffect.isUnsubscribed]

/-- An RPC holds an entry when it has logged its subscription and no unsubscription. -/
theorem EntryInv.holdsEntry_iff (h : EntryInv w log) :
    w.stage.holdsEntry = true ↔ .subscribed ∈ log ∧ .unsubscribed ∉ log := by
  have hentry := h.entry
  have honce := h.once
  rw [subscribed_mem_iff, unsubscribed_mem_iff]
  cases hs : w.stage.holdsEntry with
  | true =>
    rw [hs, if_pos rfl] at hentry
    refine iff_of_true rfl ?_
    omega
  | false =>
    rw [hs, if_neg Bool.false_ne_true] at hentry
    refine iff_of_false Bool.false_ne_true ?_
    omega

theorem LifecycleInv.entriesAgree
    {s : Lib.Pool (BackendState π) (Writer π × List (WriterEffect π))} (h : LifecycleInv s) :
    EntriesAgree s where
  keys a := by
    refine (h.keys a).trans ⟨?_, ?_⟩
    · rintro ⟨⟨w, log⟩, hmem, hholds, rfl⟩
      exact ⟨w, log, hmem, live_of_holdsEntry hholds, rfl,
        (h.entries _ hmem).holdsEntry_iff.mp hholds⟩
    · rintro ⟨w, log, hmem, -, rfl, hlog⟩
      exact ⟨(w, log), hmem, (h.entries _ hmem).holdsEntry_iff.mpr hlog, rfl⟩
  once w log hmem := by
    have hinv := h.entries _ hmem
    have hentry := hinv.entry
    have honce := hinv.once
    dsimp only at hentry honce
    omega
  rejected w log status hmem hfinish hrej := by
    have hinv := h.entries _ hmem
    have hentry := hinv.entry
    have hnone := hinv.rejected status hfinish hrej
    rw [subscribed_mem_iff, unsubscribed_mem_iff]
    dsimp only at hentry hnone
    omega

/-- A move that keeps the keys of the map and the RPCs that there are. -/
theorem ownEntries_of_same {s s' : Lib.Pool (BackendState π) (Writer π × List (WriterEffect π))}
    (hkeys : ∀ a, (subscribersOf s').contains a = (subscribersOf s).contains a)
    (hthreads : ∀ (i : Nat) t, s.threads[i]? = some t → s'.threads[i]? = some t) :
    OwnEntries s s' where
  inserted a hno hyes := by
    rw [hkeys, hno] at hyes
    cases hyes
  erased a hyes hno := by
    rw [hkeys, hyes] at hno
    cases hno
  startsEmpty i w w' log ht ht' := by
    rw [hthreads i _ ht] at ht'
    have hlog : log = log ++ [.subscribed] := congrArg Prod.snd (Option.some.inj ht')
    simp at hlog

/-- An RPC that logs a subscription at a move is the one that takes the step. -/
theorem eq_of_logs_subscribed {s : Lib.Pool (BackendState π) (Writer π × List (WriterEffect π))}
    {i j : Nat} {u u' : Writer π} {log' effects : List (WriterEffect π)}
    (ht : s.threads[i]? = some (w, log)) (hu : s.threads[j]? = some (u, log'))
    (hu' : (s.threads.set i (w', log ++ effects))[j]? = some (u', log' ++ [.subscribed])) :
    u = w ∧ effects = [.subscribed] := by
  by_cases hij : i = j
  · subst hij
    rw [List.getElem?_set_self (List.getElem?_eq_some_iff.mp ht).1] at hu'
    rw [ht] at hu
    cases hu
    exact ⟨rfl, List.append_cancel_left (congrArg Prod.snd (Option.some.inj hu'))⟩
  · rw [List.getElem?_set_ne hij, hu] at hu'
    have hlog : log' = log' ++ [.subscribed] := congrArg Prod.snd (Option.some.inj hu')
    simp at hlog

/-- The map has no entry for the context of an RPC that is about to subscribe. -/
theorem LifecycleInv.getElem?_of_subscribe
    {s : Lib.Pool (BackendState π) (Writer π × List (WriterEffect π))} (h : LifecycleInv s)
    {i : Nat} (ht : s.threads[i]? = some (w, log)) (hs : w.stage = .subscribe) :
    s.shared.mSubscriptionManager.mSubscribers[w.contextAddress]? = none := by
  have hkey := h.distinct.held_key_iff
    (fun u _ hu ↦ live_of_holdsEntry (w := u.1) hu) ht (by simp [Writer.live, hs])
  have hnone : ¬s.shared.mSubscriptionManager.mSubscribers.contains w.contextAddress = true := by
    intro hc
    have hholds : w.stage.holdsEntry = true := hkey.mp ((h.keys _).mp hc)
    rw [hs] at hholds
    cases hholds
  rwa [Std.ExtTreeMap.contains_eq_isSome_getElem?, Option.not_isSome_iff_eq_none] at hnone

/-- The step of an RPC inserts and erases no entry but its own. -/
theorem LifecycleInv.ownEntries_run
    {s : Lib.Pool (BackendState π) (Writer π × List (WriterEffect π))} (h : LifecycleInv s)
    {i : Nat} (ht : s.threads[i]? = some (w, log))
    (hstep : WriterStep options s.shared w event s' w') :
    OwnEntries s ⟨s', s.threads.set i (w', log ++ writerEffects options s.shared w event)⟩ := by
  have hinv := h.entries (w, log) (List.mem_of_getElem? ht)
  have hself : (s.threads.set i (w', log ++ writerEffects options s.shared w event))[i]? =
      some (w', log ++ writerEffects options s.shared w event) :=
    List.getElem?_set_self (List.getElem?_eq_some_iff.mp ht).1
  cases hstep.entryChange hinv.flag h.running with
  | keeps hsub _ _ _ hkeys =>
    refine ⟨?_, ?_, ?_⟩
    · intro a hno hyes
      rw [subscribersOf, hkeys] at hyes
      exact absurd (hno.symm.trans hyes) Bool.false_ne_true
    · intro a hyes hno
      rw [subscribersOf, hkeys] at hno
      exact absurd (hno.symm.trans hyes) Bool.false_ne_true
    · intro j u u' log' hu hu'
      rw [(eq_of_logs_subscribed ht hu hu').2] at hsub
      cases hsub
  | acquires manager hs heffects hm hs' hw' =>
    have hkeys (a : Nat) := SubscriptionManager.contains_subscribe_iff hm a
    have hnew := h.getElem?_of_subscribe ht hs
    subst hs'
    refine ⟨?_, ?_, ?_⟩
    · intro a hno hyes
      have ha : a = w.contextAddress :=
        ((hkeys a).mp hyes).resolve_left fun hc ↦ absurd (hno.symm.trans hc) Bool.false_ne_true
      exact ⟨i, w, w', log, ht, ha.symm, heffects ▸ hself⟩
    · intro a hyes hno
      exact absurd (hno.symm.trans ((hkeys a).mpr (Or.inl hyes))) Bool.false_ne_true
    · intro j u u' log' hu hu'
      obtain ⟨packetStream, -, hstream, hempty⟩ :=
        SubscriptionManager.getElem?_subscribe_new hm hnew
      rw [(eq_of_logs_subscribed ht hu hu').1]
      exact ⟨hnew, packetStream, hstream, hempty⟩
  | releases status hs heffects hs' hw' =>
    have hkeys (a : Nat) := SubscriptionManager.contains_unsubscribe_iff
      s.shared.mSubscriptionManager w.contextAddress a
    have hlog := hinv.holdsEntry_iff.mp (by rw [hs]; rfl)
    subst hs'
    refine ⟨?_, ?_, ?_⟩
    · intro a hno hyes
      exact absurd (hno.symm.trans ((hkeys a).mp hyes).1) Bool.false_ne_true
    · intro a hyes hno
      have ha : a = w.contextAddress := by
        by_contra hne
        exact absurd (hno.symm.trans ((hkeys a).mpr ⟨hyes, hne⟩)) Bool.false_ne_true
      exact ⟨i, w, w', log, status, ht, ha.symm, hlog.1, hlog.2, heffects ▸ hself⟩
    · intro j u u' log' hu hu'
      have heffects' := (eq_of_logs_subscribed ht hu hu').2
      rw [heffects] at heffects'
      cases heffects'

/-- A move that keeps the server running inserts and erases no entry but that of its RPC. -/
theorem LifecycleInv.ownEntries
    {s : Lib.Pool (BackendState π) (Writer π × List (WriterEffect π))} (h : LifecycleInv s)
    (move : Lib.Move (Nat × Metadata) WriterEvent (BackendEvent π))
    (hok : whileRunning s move = true) :
    OwnEntries s ((recordedSubscribers options).step s move) := by
  cases move with
  | spawn context =>
    refine ownEntries_of_same (fun _ ↦ rfl) fun i t ht ↦ ?_
    exact Lib.Program.getElem?_step_of_ne ht nofun
  | run i event =>
    cases ht : s.threads[i]? with
    | none =>
      rw [Lib.Program.step_run_none ht]
      exact ownEntries_of_same (fun _ ↦ rfl) fun _ _ h ↦ h
    | some t =>
      obtain ⟨w, log⟩ := t
      rw [Lib.Program.step_run ht]
      exact h.ownEntries_run ht (writer_step options s.shared w event)
  | env e =>
    cases e with
    | stop => cases hok
    | enqueuePacket packet =>
      exact ownEntries_of_same (SubscriptionManager.contains_enqueuePacket _ packet)
        fun _ _ h ↦ h

/-- Between `start` and `stop` the subscriptions keep to their lifecycle, in every schedule that
gives no context of a live RPC to a new one. -/
theorem lifecycle_of_along {moves : List (Lib.Move (Nat × Metadata) WriterEvent (BackendEvent π))}
    (h : Lib.Along (recordedSubscribers options).step (fun s move ↦ whileRunning s move = true)
      ⟨(started options).shared, []⟩ moves) : Lifecycle options moves := by
  have hstart : LifecycleInv (⟨(started (π := π) options).shared, []⟩ :
      Lib.Pool (BackendState π) (Writer π × List (WriterEffect π))) := by
    refine ⟨rfl, List.forall_mem_nil _, Lib.distinctKeys_nil, fun a ↦ ?_⟩
    refine iff_of_false ?_ Lib.not_held_nil
    simp [started]
  have hinv : LifecycleInv (recordedRun options moves) :=
    h.invariant LifecycleInv hstart fun _ move hs hok ↦ hs.step move hok
  refine ⟨hinv.entriesAgree, fun move hok ↦ ?_⟩
  rw [recordedRun, recordedRun, Lib.Program.after_append]
  exact hinv.ownEntries move hok

section Runs

/-- An RPC subscribes, is cancelled and ends, and a later one subscribes with its context. -/
def contextReused : List (Lib.Move (Nat × Metadata) WriterEvent (BackendEvent Packet)) :=
  .spawn (1, []) :: List.replicate 6 (.run 0 .proceed) ++ .run 0 .cancel ::
    List.replicate 9 (.run 0 .proceed) ++ .spawn (1, []) :: List.replicate 6 (.run 1 .proceed)

theorem lifecycle_contextReused : Lifecycle {} contextReused :=
  lifecycle_of_along (by decide +kernel)

end Runs

end ImportProxy.Backend
