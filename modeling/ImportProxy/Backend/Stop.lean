import ImportProxy.Backend.Admission

/-!
# What stop leaves behind

`subscribe` and `unsubscribe` load the manager's `mKeepRunning` before they take
the mutex, and `unsubscribeAll` stores it before it clears the map
(`src/backend.cpp:155–239`). An RPC that has loaded it in time may insert its
context after the map was cleared, and then no step erases the entry.
-/

namespace ImportProxy.Backend

open ImportProxy.Base

universe u

variable {π : Type u} {options : BackendOptions} {s s' : BackendState π} {w w' : Writer π}
  {event : WriterEvent} {moves : List (Lib.Move (Nat × Metadata) WriterEvent (BackendEvent π))}

/-- `stop` has returned, and `OnDone` has run for every RPC. -/
def StopComplete (s : Lib.Pool (BackendState π) (Writer π)) : Prop :=
  s.shared.stopStage = .cleared ∧ ∀ w ∈ s.threads, w.stage = .deleted

instance StopComplete.decidable (s : Lib.Pool (BackendState π) (Writer π)) :
    Decidable (StopComplete s) := inferInstanceAs (Decidable (_ ∧ _))

/-- At every point of the run at which `stop` and all RPCs are complete, the map is empty. -/
def LeavesNothing (options : BackendOptions)
    (moves : List (Lib.Move (Nat × Metadata) WriterEvent (BackendEvent π))) : Prop :=
  ∀ before rest, moves = before ++ rest → StopComplete (reached options before) →
    (reached options before).shared.mSubscriptionManager.mSubscribers.isEmpty = true

/-- The move clears the map while an RPC that has loaded `mKeepRunning` in time is yet to insert
its context. -/
def clearsTooEarly (s : Lib.Pool (BackendState π) (Writer π)) :
    Lib.Move (Nat × Metadata) WriterEvent (BackendEvent π) → Bool
  | .env .stop => s.shared.stopStage == .counted && s.threads.any fun w ↦ w.stage == .subscribe
  | _ => false

namespace StopStage

/-- `unsubscribeAll` has stored the manager's `mKeepRunning`. -/
def managerStopped : StopStage → Bool
  | notCalled | storedRunning => false
  | storedManager | counted | cleared => true

end StopStage

/-- The flags follow the steps of `stop`. -/
structure StopInv (s : BackendState π) : Prop where
  running : s.mKeepRunning = (s.stopStage == .notCalled)
  managerRunning : s.mSubscriptionManager.mKeepRunning = !s.stopStage.managerStopped

/-- No step of an RPC changes a flag, or takes a step of `stop`. -/
theorem WriterStep.flags_eq (hstep : WriterStep options s w event s' w') :
    s'.mKeepRunning = s.mKeepRunning ∧ s'.stopStage = s.stopStage ∧
      s'.mSubscriptionManager.mKeepRunning = s.mSubscriptionManager.mKeepRunning := by
  cases hstep with
  | subscribed manager hs hm => exact ⟨rfl, rfl, (SubscriptionManager.subscribe_members hm).1⟩
  | fetched packetsBuffer manager hs hm =>
    obtain ⟨stream, -, -, rfl⟩ := SubscriptionManager.getNextPackets_eq_some_iff.mp hm
    exact ⟨rfl, rfl, rfl⟩
  | refused | validated | exhausted | belowMaximum | subscribes | subscribesStopped | failed
  | stored | counted | pumps | pumpsStopped | pumpsCancelled | queueEmpty | sendsQueued | stops
  | fetches | fetchesStopped | fetchFailed | alarm | takesSubscribed | notSubscribed
  | unsubscribes | unsubscribesStopped | unsubscribed | done | deleted | writeDone | cancel
  | waits | notWriting => exact ⟨rfl, rfl, rfl⟩

theorem StopInv.step (h : StopInv s) (hstep : WriterStep options s w event s' w') :
    StopInv s' := by
  obtain ⟨hrun, hstage, hmanager⟩ := hstep.flags_eq
  exact ⟨by rw [hrun, hstage, h.running], by rw [hmanager, hstage, h.managerRunning]⟩

theorem StopInv.backendEvent (h : StopInv s) (e : BackendEvent π) :
    StopInv (backendEvent s e) := by
  have hmanager := h.managerRunning
  cases e with
  | enqueuePacket packet => exact ⟨h.running, h.managerRunning⟩
  | stop =>
    unfold Backend.backendEvent stopStep
    cases hs : s.stopStage with
    | notCalled | storedManager | counted =>
      rw [hs] at hmanager
      exact ⟨by simp [h.running, hs], hmanager⟩
    | storedRunning => exact ⟨by simp [h.running, hs], rfl⟩
    | cleared => exact h

/-- Once `stop` has cleared the map, it stays empty, and no RPC is about to insert. -/
structure ClearedInv (s : Lib.Pool (BackendState π) (Writer π)) : Prop where
  flags : StopInv s.shared
  empty : s.shared.stopStage = .cleared →
    s.shared.mSubscriptionManager.mSubscribers.size = 0 ∧ ∀ w ∈ s.threads, w.stage ≠ .subscribe

/-- An RPC gets to its insertion only while the manager is running. -/
theorem WriterStep.stage_ne_subscribe (hstep : WriterStep options s w event s' w')
    (hstop : s.mSubscriptionManager.mKeepRunning = false) (hne : w.stage ≠ .subscribe) :
    w'.stage ≠ .subscribe := by
  cases hstep with
  | subscribes hs hrun =>
    rw [hstop] at hrun
    cases hrun
  | sendsQueued | fetchesStopped | fetchFailed | fetched =>
    unfold Writer.send
    split <;> nofun
  | notSubscribed status | unsubscribesStopped status | unsubscribed status =>
    cases status <;> nofun
  | writeDone ok =>
    unfold onWriteDone
    split_ifs <;> nofun
  | cancel | waits | notWriting => exact hne
  | refused | validated | exhausted | belowMaximum | subscribesStopped | failed | subscribed
  | stored | counted | pumps | pumpsStopped | pumpsCancelled | queueEmpty | stops | fetches | alarm
  | takesSubscribed | unsubscribes | done | deleted => nofun

/-- A move that does not clear the map too early keeps it empty afterwards. -/
theorem ClearedInv.step {s : Lib.Pool (BackendState π) (Writer π)} (h : ClearedInv s)
    (move : Lib.Move (Nat × Metadata) WriterEvent (BackendEvent π))
    (hok : clearsTooEarly s move = false) : ClearedInv ((subscribers options).step s move) := by
  cases move with
  | spawn context =>
    refine ⟨h.flags, fun hs ↦ ⟨(h.empty hs).1, ?_⟩⟩
    intro w hw
    rcases List.mem_append.mp hw with hw | hw
    · exact (h.empty hs).2 w hw
    · rw [List.mem_singleton.mp hw]
      intro hstage
      cases hstage
  | run i event =>
    cases ht : s.threads[i]? with
    | none =>
      rw [Lib.Program.step_run_none ht]
      exact h
    | some w =>
      have hstep := writer_step options s.shared w event
      rw [Lib.Program.step_run ht]
      refine ⟨h.flags.step hstep, fun hs ↦ ?_⟩
      have hs : s.shared.stopStage = .cleared := hstep.flags_eq.2.1.symm.trans hs
      obtain ⟨hempty, hnone⟩ := h.empty hs
      have hne : w.stage ≠ .subscribe := hnone w (List.mem_of_getElem? ht)
      have hstop : s.shared.mSubscriptionManager.mKeepRunning = false := by
        rw [h.flags.managerRunning, hs]
        rfl
      constructor
      · have hsize := hstep.size_le
        have hno : inserts s.shared w = false := by simp [inserts, hne]
        rw [hno, hempty, if_neg (by simp), Nat.add_zero] at hsize
        exact Nat.le_zero.mp hsize
      · intro w' hw'
        rcases List.mem_or_eq_of_mem_set hw' with hw' | rfl
        · exact hnone w' hw'
        · exact hstep.stage_ne_subscribe hstop hne
  | env e =>
    refine ⟨h.flags.backendEvent e, ?_⟩
    cases e with
    | enqueuePacket packet =>
      intro hs
      refine ⟨?_, (h.empty hs).2⟩
      exact (SubscriptionManager.size_enqueuePacket _ packet).trans (h.empty hs).1
    | stop =>
      show (stopStep s.shared).stopStage = .cleared →
        (stopStep s.shared).mSubscriptionManager.mSubscribers.size = 0 ∧ _
      unfold stopStep
      cases hs : s.shared.stopStage with
      | notCalled | storedRunning | storedManager =>
        intro hstage
        cases hstage
      | cleared => exact h.empty
      | counted =>
        intro _
        refine ⟨Std.ExtTreeMap.size_empty, ?_⟩
        show ∀ w ∈ s.threads, w.stage ≠ .subscribe
        simpa [clearsTooEarly, hs] using hok

/-- In every run in which no RPC is about to insert when `stop` clears the map, nothing is left
behind. -/
theorem leavesNothing_of_along
    (h : Lib.Along (subscribers options).step (fun s move ↦ clearsTooEarly s move = false)
      (started options) moves) : LeavesNothing options moves := by
  rintro before rest rfl hdone
  have hstart : ClearedInv (started (π := π) options) := ⟨⟨rfl, rfl⟩, nofun⟩
  have hinv : ClearedInv (reached options before) :=
    (Lib.along_append.mp h).1.invariant ClearedInv hstart fun _ move hs hok ↦ hs.step move hok
  rw [Std.ExtTreeMap.isEmpty_eq_size_beq_zero, beq_iff_eq]
  exact (hinv.empty hdone.1).1

section Runs

/-- An RPC subscribes and pumps, `stop` runs, and the RPC ends. -/
def stopAfterSubscribe : List (Lib.Move (Nat × Metadata) WriterEvent (BackendEvent Packet)) :=
  .spawn (1, []) :: List.replicate 6 (.run 0 .proceed) ++ List.replicate 4 (.env .stop) ++
    List.replicate 7 (.run 0 .proceed)

theorem leavesNothing_stopAfterSubscribe : LeavesNothing {} stopAfterSubscribe :=
  leavesNothing_of_along (by decide +kernel)

/-- An RPC has loaded `mKeepRunning`, `stop` runs, and the RPC inserts its context and ends. -/
def stopBeforeInsert : List (Lib.Move (Nat × Metadata) WriterEvent (BackendEvent Packet)) :=
  .spawn (1, []) :: List.replicate 3 (.run 0 .proceed) ++ List.replicate 4 (.env .stop) ++
    List.replicate 10 (.run 0 .proceed)

/-- The context of an RPC that inserts after the map was cleared stays in the map. -/
theorem stopBeforeInsert_left : ¬LeavesNothing {} stopBeforeInsert := by
  intro h
  have hdone : StopComplete (reached {} stopBeforeInsert) := by decide +kernel
  exact absurd (h stopBeforeInsert [] (List.append_nil _).symm hdone) (by decide +kernel)

end Runs

end ImportProxy.Backend
