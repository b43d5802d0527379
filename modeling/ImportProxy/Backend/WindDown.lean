import ImportProxy.Backend.Pump
import ImportProxy.Backend.Stop
import ImportProxy.Lib.Rounds
import Mathlib.Data.List.Induction

/-!
# The end of a subscription

An idle pump backs off towards `mMaximumPollInterval`, which bounds how late it sees that it is to
end: `src/backend.cpp:476–507,536–556,582–585`. From the moment when the backend is told to stop
or the client has cancelled, an RPC has at most one write or alarm to wait for, and it is gone
after a bounded number of its own steps, whatever the other RPCs do.
-/

namespace ImportProxy.Backend

open ImportProxy.Base

universe u

variable {π : Type u}

/-- `mPollInterval`, in milliseconds; `src/backend.cpp:583`. -/
def mPollInterval : Nat := 10

/-- `mMaximumPollInterval`; `src/backend.cpp:585`. -/
def mMaximumPollInterval : Nat := 250

/-- `mCurrentPollInterval` after a call of `pump`, and the interval of the alarm that it arms;
`src/backend.cpp:540,551–556`. -/
def WriterEffect.pollInterval (mCurrentPollInterval : Nat) : WriterEffect π → Nat × List Nat
  | startWrite _ => (mPollInterval, [])
  | setAlarm =>
    let interval := min mCurrentPollInterval mMaximumPollInterval
    (min (interval * 2) mMaximumPollInterval, [interval])
  | writeDone _ | alarmFired | finish _ | fetched _ | subscribed | unsubscribed =>
    (mCurrentPollInterval, [])

/-- `mCurrentPollInterval` behind a log. -/
def currentPollInterval (log : List (WriterEffect π)) : Nat :=
  log.foldl (fun current effect ↦ (effect.pollInterval current).1) mPollInterval

/-- The intervals of the alarms that were armed. -/
def armedFor : Nat → List (WriterEffect π) → List Nat
  | _, [] => []
  | current, effect :: log =>
    (effect.pollInterval current).2 ++ armedFor (effect.pollInterval current).1 log

/-- The alarms since the last write. -/
def alarmsSinceWrite (log : List (WriterEffect π)) : Nat :=
  log.foldl (fun alarms effect ↦
    match effect with
    | .startWrite _ => 0
    | .setAlarm => alarms + 1
    | _ => alarms) 0

/-- The interval doubles with every idle alarm. -/
theorem currentPollInterval_eq (log : List (WriterEffect π)) :
    currentPollInterval log =
      min (mPollInterval * 2 ^ alarmsSinceWrite log) mMaximumPollInterval := by
  induction log using List.reverseRecOn with
  | nil => rfl
  | append_singleton log effect ih =>
    unfold currentPollInterval alarmsSinceWrite at ih ⊢
    rw [List.foldl_append, List.foldl_append, List.foldl_cons, List.foldl_nil, List.foldl_cons,
      List.foldl_nil, ih]
    cases effect with
    | startWrite packet => rfl
    | setAlarm =>
      simp only [WriterEffect.pollInterval, Nat.pow_succ, ← Nat.mul_assoc]
      omega
    | writeDone | alarmFired | finish | fetched | subscribed | unsubscribed => rfl

theorem armedFor_append (current : Nat) (log log' : List (WriterEffect π)) :
    armedFor current (log ++ log') = armedFor current log ++
      armedFor (log.foldl (fun current effect ↦ (effect.pollInterval current).1) current) log' := by
  induction log generalizing current with
  | nil => rfl
  | cons effect log ih => simp only [List.cons_append, armedFor, ih, List.foldl_cons,
      List.append_assoc]

/-- An alarm is armed for twice the time of the one before, up to the maximum, and for the shortest
time behind a write. -/
theorem armedFor_concat_alarm (log : List (WriterEffect π)) :
    armedFor mPollInterval (log ++ [.setAlarm]) = armedFor mPollInterval log ++
      [min (mPollInterval * 2 ^ alarmsSinceWrite log) mMaximumPollInterval] := by
  have hcurrent := currentPollInterval_eq log
  unfold currentPollInterval at hcurrent
  rw [armedFor_append, hcurrent]
  simp [armedFor, WriterEffect.pollInterval]

/-- The writes and alarms that an effect starts. -/
def WriterEffect.starts : WriterEffect π → Nat
  | startWrite _ | setAlarm => 1
  | writeDone _ | alarmFired | finish _ | fetched _ | subscribed | unsubscribed => 0

/-- The writes and alarms that were started. -/
def starts (log : List (WriterEffect π)) : Nat := (log.map WriterEffect.starts).sum

theorem starts_append (log log' : List (WriterEffect π)) :
    starts (log ++ log') = starts log + starts log' := by
  simp only [starts, List.map_append, List.sum_append]

theorem starts_sendEffects (w : Writer π) : starts w.sendEffects = 1 := by
  unfold Writer.sendEffects
  cases w.mPacketsQueue <;> rfl

/-- No alarm is armed for longer than the maximum. -/
theorem sum_armedFor_le (current : Nat) (log : List (WriterEffect π)) :
    (armedFor current log).sum ≤ mMaximumPollInterval * starts log := by
  induction log generalizing current with
  | nil => exact Nat.le_refl 0
  | cons effect log ih =>
    have hrest := ih (effect.pollInterval current).1
    have hone : (effect.pollInterval current).2.sum ≤ mMaximumPollInterval * effect.starts := by
      cases effect <;> simp [WriterEffect.pollInterval, WriterEffect.starts]
    simp only [armedFor, List.sum_append, starts, List.map_cons, List.sum_cons, Nat.mul_add]
    exact Nat.add_le_add hone hrest

/-- The RPC has been told to end: by a stop of the backend, or by its client. -/
def Told (s : BackendState π) (w : Writer π) : Prop := s.mKeepRunning = false ∨ w.cancelled = true

/-- The writes and alarms that an RPC may still start once it has been told to end: one, behind
the checks of its pump. -/
def Writer.startsLeft (w : Writer π) : Nat :=
  match w.stage with
  | .pumpCancelled => if w.cancelled then 0 else 1
  | .fetchRunning | .fetch => 1
  | _ => 0

/-- The steps that an RPC has left once it has been told to end. -/
def Writer.stepsToEnd (w : Writer π) : Nat :=
  match w.stage with
  | .authenticate => 17
  | .loadSize => 16
  | .loadRunning => 15
  | .subscribe => 14
  | .storeSubscribed => 13
  | .countSubscribers => 12
  | .pumpCancelled => if w.cancelled then 10 else 15
  | .fetchRunning => 14
  | .fetch => 13
  | .writing | .idle => 12
  | .pump => 11
  | .stopCancelled => 9
  | .exchange (some _) => 8
  | .unsubscribeRunning (some _) => 7
  | .unsubscribe (some _) => 6
  | .finished => 5
  | .exchange none => 4
  | .unsubscribeRunning none => 3
  | .unsubscribe none => 2
  | .countDone => 1
  | .deleted => 0

theorem Writer.startsLeft_le_one (w : Writer π) : w.startsLeft ≤ 1 := by
  unfold Writer.startsLeft
  cases w.stage with
  | pumpCancelled => cases w.cancelled <;> simp
  | authenticate | loadSize | loadRunning | subscribe | storeSubscribed | countSubscribers
  | pump | stopCancelled | fetchRunning | fetch | writing | idle | exchange | unsubscribeRunning
  | unsubscribe | finished | countDone | deleted => simp

theorem Writer.stepsToEnd_le_seventeen (w : Writer π) : w.stepsToEnd ≤ 17 := by
  unfold Writer.stepsToEnd
  cases w.stage with
  | exchange status | unsubscribeRunning status | unsubscribe status => cases status <;> simp
  | pumpCancelled => cases w.cancelled <;> simp
  | authenticate | loadSize | loadRunning | subscribe | storeSubscribed | countSubscribers
  | pump | stopCancelled | fetchRunning | fetch | writing | idle | finished | countDone
  | deleted => simp

/-- The event is what the RPC waits for, or its own next step. -/
def Writer.resumes (w : Writer π) : WriterEvent → Bool
  | .proceed => w.stage != .writing
  | .writeDone _ => w.stage == .writing
  | .cancel => false

variable {options : BackendOptions} {s s' : BackendState π} {w w' : Writer π}
  {event : WriterEvent} {effects log : List (WriterEffect π)}

/-- Only the end of the pump starts a write or an alarm. -/
theorem StepEffects.starts_eq_zero (h : StepEffects w effects) (hs : w.stage.pumping = false) :
    starts effects = 0 := by
  cases h with
  | sends h =>
    rw [hs] at h
    cases h
  | fetches packetsBuffer h =>
    rw [h] at hs
    cases hs
  | leaves status h => cases status <;> rfl
  | unsubscribes status h => cases status <;> rfl
  | none | rejects | subscribes | alarm | writeDone => rfl

@[simp] theorem startsLeft_send (w : Writer π) : w.send.startsLeft = 0 := by
  unfold Writer.send
  split <;> rfl

@[simp] theorem stepsToEnd_send (w : Writer π) : w.send.stepsToEnd = 12 := by
  unfold Writer.send
  split <;> rfl

/-- What is told stays told. -/
theorem WriterStep.told (hstep : WriterStep options s w event s' w') (h : Told s w) :
    Told s' w' := by
  cases hstep with
  | cancel => exact Or.inr rfl
  | sendsQueued | fetchesStopped | fetchFailed | fetched =>
    refine h.imp id fun hc ↦ ?_
    unfold Writer.send
    split <;> exact hc
  | notSubscribed status | unsubscribesStopped status | unsubscribed status =>
    cases status <;> exact h
  | writeDone ok hs =>
    refine h.imp id fun hc ↦ ?_
    unfold onWriteDone
    split_ifs <;> exact hc
  | refused | validated | exhausted | belowMaximum | subscribes | subscribesStopped | failed
  | subscribed | stored | counted | pumps | pumpsStopped | pumpsCancelled | queueEmpty | stops
  | fetches | alarm | takesSubscribed | unsubscribes | done | deleted | waits | notWriting =>
    exact h

/-- Every step that an RPC takes brings it nearer to its end, and no other event takes it away. -/
theorem WriterStep.stepsToEnd_le (hstep : WriterStep options s w event s' w') (h : Told s w) :
    w'.stepsToEnd ≤ w.stepsToEnd ∧
      (w.resumes event = true → w.stage ≠ .deleted → w'.stepsToEnd < w.stepsToEnd) := by
  have lower (hlt : w'.stepsToEnd < w.stepsToEnd) : w'.stepsToEnd ≤ w.stepsToEnd ∧
      (w.resumes event = true → w.stage ≠ .deleted → w'.stepsToEnd < w.stepsToEnd) :=
    ⟨Nat.le_of_lt hlt, fun _ _ ↦ hlt⟩
  cases hstep with
  | cancel =>
    refine ⟨?_, fun hx ↦ by cases hx⟩
    unfold Writer.stepsToEnd
    cases w.stage with
    | pumpCancelled => cases w.cancelled <;> simp
    | exchange status | unsubscribeRunning status | unsubscribe status =>
      cases status <;> exact Nat.le_refl _
    | authenticate | loadSize | loadRunning | subscribe | storeSubscribed | countSubscribers
    | pump | stopCancelled | fetchRunning | fetch | writing | idle | finished | countDone
    | deleted => exact Nat.le_refl _
  | waits hs =>
    refine ⟨Nat.le_refl _, fun hresumes hne ↦ ?_⟩
    rcases hs with hs | hs
    · simp [Writer.resumes, hs] at hresumes
    · exact absurd hs hne
  | notWriting ok hs =>
    refine ⟨Nat.le_refl _, fun hresumes ↦ ?_⟩
    simp [Writer.resumes, hs] at hresumes
  | pumps hs hrun =>
    have hc : w.cancelled = true := h.resolve_left (by simp [hrun])
    exact lower (by simp [Writer.stepsToEnd, hs, hc])
  | sendsQueued hs hc hq =>
    exact lower (by
      rw [stepsToEnd_send]
      simp [Writer.stepsToEnd, hs, hc])
  | queueEmpty hs hc hq => exact lower (by simp [Writer.stepsToEnd, hs, hc])
  | pumpsCancelled hs hc => exact lower (by simp [Writer.stepsToEnd, hs, hc])
  | fetchesStopped hs | fetchFailed hs | fetched _ _ hs =>
    exact lower (by
      rw [stepsToEnd_send]
      simp [Writer.stepsToEnd, hs])
  | notSubscribed status hs | unsubscribesStopped status hs | unsubscribed status hs =>
    cases status <;>
      exact lower (by simp [Writer.stepsToEnd, Writer.leave, Writer.finish, hs])
  | takesSubscribed status hs | unsubscribes status hs =>
    cases status <;> exact lower (by simp [Writer.stepsToEnd, hs])
  | writeDone ok hs =>
    exact lower (by
      unfold onWriteDone
      split_ifs <;> simp [Writer.stepsToEnd, hs])
  | refused hs | exhausted hs | failed hs | validated hs | belowMaximum hs | subscribes hs
  | subscribesStopped hs | subscribed _ hs | stored hs | counted hs | pumpsStopped hs | stops hs
  | fetches hs | alarm hs | done hs | deleted hs =>
    exact lower (by simp [Writer.stepsToEnd, Writer.finish, hs])

/-- What a step starts comes out of what the RPC may still start. -/
theorem WriterStep.starts_le (hstep : WriterStep options s w event s' w') (h : Told s w) :
    starts (writerEffects options s w event) + w'.startsLeft ≤ w.startsLeft := by
  -- outside the end of the pump nothing is started
  have silent (hs : w.stage.pumping = false) (hleft : w'.startsLeft = 0) :
      starts (writerEffects options s w event) + w'.startsLeft ≤ w.startsLeft := by
    rw [(step_effects options s w event).starts_eq_zero hs, hleft]
    exact Nat.zero_le _
  cases hstep with
  | pumps hs hrun =>
    have hc : w.cancelled = true := h.resolve_left (by simp [hrun])
    exact silent (by rw [hs]; rfl) (by simp [Writer.startsLeft, hc])
  | pumpsCancelled hs hc =>
    have heffects : writerEffects options s w .proceed = [] := by
      simp [writerEffects, proceedEffects, hs, hc]
    rw [heffects]
    exact Nat.zero_le _
  | queueEmpty hs hc hq =>
    have heffects : writerEffects options s w .proceed = [] := by
      simp [writerEffects, proceedEffects, hs, hq]
    rw [heffects]
    simp [Writer.startsLeft, hs, hc, starts]
  | fetches hs hrun =>
    have heffects : writerEffects options s w .proceed = [] := by
      simp [writerEffects, proceedEffects, hs, hrun]
    rw [heffects]
    simp [Writer.startsLeft, hs, starts]
  | sendsQueued hs hc hq =>
    have heffects : writerEffects options s w .proceed = w.sendEffects := by
      simp [writerEffects, proceedEffects, hs, hc, hq]
    rw [heffects, starts_sendEffects, startsLeft_send]
    simp [Writer.startsLeft, hs, hc]
  | fetchesStopped hs hstop =>
    have heffects : writerEffects options s w .proceed = w.sendEffects := by
      simp [writerEffects, proceedEffects, hs, hstop]
    rw [heffects, starts_sendEffects, startsLeft_send]
    simp [Writer.startsLeft, hs]
  | fetchFailed hs hm =>
    have heffects : writerEffects options s w .proceed = w.sendEffects := by
      simp [writerEffects, proceedEffects, hs, hm]
    rw [heffects, starts_sendEffects, startsLeft_send]
    simp [Writer.startsLeft, hs]
  | fetched packetsBuffer manager hs hm =>
    have heffects : writerEffects options s w .proceed =
        [.fetched packetsBuffer] ++ (w.pushPackets packetsBuffer).sendEffects := by
      simp [writerEffects, proceedEffects, hs, hm]
    rw [heffects, starts_append, starts_sendEffects, startsLeft_send]
    simp [Writer.startsLeft, hs, starts, WriterEffect.starts]
  | cancel =>
    have heffects : writerEffects options s w .cancel = [] := rfl
    rw [heffects]
    unfold Writer.startsLeft
    cases w.stage <;> simp [starts]
  | notWriting ok hs =>
    have heffects : writerEffects options s w (.writeDone ok) = [] := if_neg hs
    rw [heffects]
    exact Nat.le_of_eq (Nat.zero_add _)
  | writeDone ok hs =>
    refine silent (by rw [hs]; rfl) ?_
    unfold onWriteDone
    split_ifs <;> rfl
  | waits hs =>
    rcases hs with hs | hs <;>
      exact silent (by rw [hs]; rfl) (by simp [Writer.startsLeft, hs])
  | notSubscribed status hs | unsubscribesStopped status hs | unsubscribed status hs =>
    cases status <;> exact silent (by rw [hs]; rfl) rfl
  | refused hs | exhausted hs | failed hs | validated hs | belowMaximum hs | subscribes hs
  | subscribesStopped hs | subscribed _ hs | stored hs | counted hs | pumpsStopped hs | stops hs
  | alarm hs | takesSubscribed _ hs | unsubscribes _ hs | done hs | deleted hs =>
    exact silent (by rw [hs]; rfl) rfl

/-- A stopped backend is not started again. -/
theorem mKeepRunning_step {s : Lib.Pool (BackendState π) (Writer π × List (WriterEffect π))}
    (h : s.shared.mKeepRunning = false)
    (move : Lib.Move (Nat × Metadata) WriterEvent (BackendEvent π)) :
    ((recordedSubscribers options).step s move).shared.mKeepRunning = false := by
  cases move with
  | spawn context => exact h
  | run i event =>
    cases ht : s.threads[i]? with
    | none =>
      rw [Lib.Program.step_run_none ht]
      exact h
    | some t =>
      rw [Lib.Program.step_run ht]
      exact (writer_step options s.shared t.1 event).flags_eq.1.trans h
  | env event =>
    cases event with
    | enqueuePacket packet => exact h
    | stop =>
      show (stopStep s.shared).mKeepRunning = false
      unfold stopStep
      cases s.shared.stopStage with
      | notCalled => rfl
      | storedRunning | storedManager | counted | cleared => exact h

/-- What a move makes of an RPC at position `i` that has been told to end. -/
structure ToldStep (i : Nat) (move : Lib.Move (Nat × Metadata) WriterEvent (BackendEvent π))
    (s' : BackendState π) (w w' : Writer π) (more : List (WriterEffect π)) : Prop where
  told : Told s' w'
  starts : starts more + w'.startsLeft ≤ w.startsLeft
  stepsToEnd_le : w'.stepsToEnd ≤ w.stepsToEnd
  stepsToEnd_lt : ∀ event, move = .run i event → w.resumes event = true → w.stage ≠ .deleted →
    w'.stepsToEnd < w.stepsToEnd
  /-- Only what it waits for moves it. -/
  waits : (∀ event, move = .run i event → w.resumes event = false) → w'.stage = w.stage

/-- An event that the RPC does not wait for leaves its stage. -/
theorem stage_writerStep (options : BackendOptions) (s : BackendState π)
    (h : w.resumes event = false) : (writerStep options s w event).2.stage = w.stage := by
  cases event with
  | cancel => rfl
  | proceed =>
    have hs : w.stage = .writing := by simpa [Writer.resumes] using h
    simp only [writerStep, proceed, hs]
  | writeDone ok =>
    have hs : w.stage ≠ .writing := by simpa [Writer.resumes] using h
    simp only [writerStep, if_neg hs]

theorem told_step (options : BackendOptions) {i : Nat}
    {s : Lib.Pool (BackendState π) (Writer π × List (WriterEffect π))}
    (ht : s.threads[i]? = some (w, log)) (h : Told s.shared w)
    (move : Lib.Move (Nat × Metadata) WriterEvent (BackendEvent π)) :
    ∃ w' more, ((recordedSubscribers options).step s move).threads[i]? = some (w', log ++ more) ∧
      ToldStep i move ((recordedSubscribers options).step s move).shared w w' more := by
  by_cases hown : ∃ event, move = .run i event
  · obtain ⟨event, he⟩ := hown
    subst he
    have hstep := writer_step options s.shared w event
    refine ⟨_, _, Lib.Program.getElem?_step_run ht event, ?_⟩
    rw [Lib.Program.step_run ht]
    obtain ⟨hle, hlt⟩ := hstep.stepsToEnd_le h
    refine ⟨hstep.told h, hstep.starts_le h, hle, ?_, ?_⟩
    · intro event' he
      cases he
      exact hlt
    · exact fun hno ↦ stage_writerStep options s.shared (hno event rfl)
  · have hne (event : WriterEvent) : move ≠ .run i event := fun he ↦ hown ⟨event, he⟩
    refine ⟨w, [], ?_, ?_, ?_, Nat.le_refl _, fun event he ↦ absurd he (hne event), fun _ ↦ rfl⟩
    · rw [List.append_nil]
      exact Lib.Program.getElem?_step_of_ne ht hne
    · exact h.imp (fun hstop ↦ mKeepRunning_step hstop move) id
    · exact Nat.le_of_eq (Nat.zero_add _)

/-- What an RPC waits for. -/
inductive Wake where
  /-- Its own next step, or the alarm. -/
  | own
  /-- The completion of its write. -/
  | completion
  deriving DecidableEq

/-- Who moves the RPC at position `i`. -/
def wakes (i : Nat) : Lib.Move (Nat × Metadata) WriterEvent (BackendEvent π) → Option Wake
  | .run j .proceed => if j = i then some .own else none
  | .run j (.writeDone _) => if j = i then some .completion else none
  | .run _ .cancel | .spawn _ | .env _ => none

/-- What the RPC at position `i` waits for. -/
def WaitsFor (i : Nat) (s : Lib.Pool (BackendState π) (Writer π × List (WriterEffect π)))
    (wake : Wake) : Prop :=
  ∃ w log, s.threads[i]? = some (w, log) ∧ (wake = .completion ↔ w.stage = .writing)

/-- The RPC at position `i` has been told to end. -/
def ToldAt (i : Nat) (s : Lib.Pool (BackendState π) (Writer π × List (WriterEffect π))) : Prop :=
  ∃ w log, s.threads[i]? = some (w, log) ∧ Told s.shared w

/-- The `OnDone` of the RPC at position `i` has returned. -/
def DeletedAt (i : Nat) (s : Lib.Pool (BackendState π) (Writer π × List (WriterEffect π))) : Prop :=
  ∃ w log, s.threads[i]? = some (w, log) ∧ w.stage = .deleted

/-- The steps that the RPC at position `i` has left. -/
def stepsToEndAt (i : Nat) (s : Lib.Pool (BackendState π) (Writer π × List (WriterEffect π))) :
    Nat :=
  match s.threads[i]? with
  | some (w, _) => w.stepsToEnd
  | none => 0

theorem stepsToEndAt_eq {i : Nat}
    {s : Lib.Pool (BackendState π) (Writer π × List (WriterEffect π))}
    (ht : s.threads[i]? = some (w, log)) : stepsToEndAt i s = w.stepsToEnd := by
  simp only [stepsToEndAt, ht]

/-- Exactly the moves of the kind that the RPC waits for resume it. -/
theorem wakes_iff {i : Nat} {wake : Wake}
    {move : Lib.Move (Nat × Metadata) WriterEvent (BackendEvent π)}
    (hwake : wake = .completion ↔ w.stage = .writing) :
    wakes i move = some wake ↔ ∃ event, move = .run i event ∧ w.resumes event = true := by
  cases move with
  | spawn context => simp [wakes]
  | env event => simp [wakes]
  | run j event =>
    by_cases hj : j = i
    · subst hj
      cases event with
      | cancel => simp [wakes, Writer.resumes]
      | proceed => cases wake <;> simp [wakes, Writer.resumes, ← hwake]
      | writeDone ok => cases wake <;> simp [wakes, Writer.resumes, ← hwake]
    · cases event <;> simp [wakes, hj]

/-- Only a deleted RPC has no step left. -/
theorem stepsToEnd_eq_zero : w.stepsToEnd = 0 ↔ w.stage = .deleted := by
  unfold Writer.stepsToEnd
  cases w.stage with
  | exchange status | unsubscribeRunning status | unsubscribe status => cases status <;> simp
  | pumpCancelled => cases w.cancelled <;> simp
  | authenticate | loadSize | loadRunning | subscribe | storeSubscribed | countSubscribers
  | pump | stopCancelled | fetchRunning | fetch | writing | idle | finished | countDone
  | deleted => simp

/-- The steps that an RPC has left rank the states behind the moment when it is told to end. -/
theorem ranked_stepsToEnd (options : BackendOptions) (i : Nat) :
    Lib.Ranked (recordedSubscribers (π := π) options).step (wakes i) (ToldAt i) (DeletedAt i)
      (WaitsFor i) (stepsToEndAt i) where
  inv_step s move h := by
    obtain ⟨w, log, ht, htold⟩ := h
    obtain ⟨w', more, ht', hstep⟩ := told_step options ht htold move
    exact ⟨w', _, ht', hstep.told⟩
  done_step s move h hd := by
    obtain ⟨w, log, ht, htold⟩ := h
    obtain ⟨_, _, heq, hs⟩ := hd
    cases ht.symm.trans heq
    obtain ⟨w', more, ht', hstep⟩ := told_step options ht htold move
    have hle := hstep.stepsToEnd_le
    rw [stepsToEnd_eq_zero.mpr hs, Nat.le_zero] at hle
    exact ⟨w', _, ht', stepsToEnd_eq_zero.mp hle⟩
  rank_step s move h hd := by
    obtain ⟨w, log, ht, htold⟩ := h
    obtain ⟨w', more, ht', hstep⟩ := told_step options ht htold move
    rw [stepsToEndAt_eq ht, stepsToEndAt_eq ht']
    exact Or.inr hstep.stepsToEnd_le
  exists_helps s h hd := by
    obtain ⟨w, log, ht, -⟩ := h
    by_cases hs : w.stage = .writing
    · exact ⟨.completion, w, log, ht, by simp [hs]⟩
    · exact ⟨.own, w, log, ht, by simp [hs]⟩
  helped s move wake h hd hhelps hmove := by
    obtain ⟨w, log, ht, htold⟩ := h
    obtain ⟨_, _, heq, hwake⟩ := hhelps
    cases ht.symm.trans heq
    obtain ⟨event, he, hresumes⟩ := (wakes_iff hwake).mp hmove
    obtain ⟨w', more, ht', hstep⟩ := told_step options ht htold move
    rw [stepsToEndAt_eq ht, stepsToEndAt_eq ht']
    exact Or.inr (hstep.stepsToEnd_lt event he hresumes fun hs ↦ hd ⟨w, log, ht, hs⟩)
  kept s move wake h hd hhelps hmove := by
    obtain ⟨w, log, ht, htold⟩ := h
    obtain ⟨_, _, heq, hwake⟩ := hhelps
    cases ht.symm.trans heq
    obtain ⟨w', more, ht', hstep⟩ := told_step options ht htold move
    have hsame : w'.stage = w.stage := hstep.waits fun event he ↦ by
      by_contra hresumes
      exact hmove ((wakes_iff hwake).mpr ⟨event, he, by simpa using hresumes⟩)
    exact Or.inr (Or.inr ⟨w', _, ht', hsame ▸ hwake⟩)

/-- What an RPC that has been told to end does from then on. -/
theorem told_run (options : BackendOptions) {i : Nat}
    {s : Lib.Pool (BackendState π) (Writer π × List (WriterEffect π))}
    (ht : s.threads[i]? = some (w, log)) (h : Told s.shared w)
    (moves : List (Lib.Move (Nat × Metadata) WriterEvent (BackendEvent π))) :
    ∃ w' more, ((recordedSubscribers options).after s moves).threads[i]? =
      some (w', log ++ more) ∧ starts more + w'.startsLeft ≤ w.startsLeft := by
  induction moves generalizing s w log with
  | nil => exact ⟨w, [], by rw [List.append_nil]; exact ht, Nat.le_of_eq (Nat.zero_add _)⟩
  | cons move moves ih =>
    obtain ⟨w', more, ht', hstep⟩ := told_step options ht h move
    obtain ⟨w'', more', ht'', hle⟩ := ih ht' hstep.told
    have hone := hstep.starts
    refine ⟨w'', more ++ more', ?_, ?_⟩
    · rw [← List.append_assoc]
      exact ht''
    · rw [starts_append]
      omega

/-- What is outstanding of an RPC, and what it may still start, is at most one. -/
theorem PumpInv.startsLeft_le (h : PumpInv w log) :
    writesInFlight log + alarmsArmed log + w.startsLeft ≤ 1 := by
  have hwrites : writesInFlight log = w.stage.inFlight := congrArg Prod.fst h.balance
  have halarms : alarmsArmed log = w.stage.armed :=
    congrArg (fun n : Int × Int × Int ↦ n.2.1) h.balance
  rw [hwrites, halarms]
  unfold Writer.startsLeft
  cases w.stage with
  | pumpCancelled => cases w.cancelled <;> simp [WriterStage.inFlight, WriterStage.armed]
  | authenticate | loadSize | loadRunning | subscribe | storeSubscribed | countSubscribers
  | pump | stopCancelled | fetchRunning | fetch | writing | idle | exchange | unsubscribeRunning
  | unsubscribe | finished | countDone | deleted =>
    simp [WriterStage.inFlight, WriterStage.armed]

/-- A round in which the RPC at position `i` has a step of its own and a completion. -/
def Wakes (i : Nat) (round : List (Lib.Move (Nat × Metadata) WriterEvent (BackendEvent π))) :
    Prop := .run i .proceed ∈ round ∧ ∃ ok, .run i (.writeDone ok) ∈ round

theorem Wakes.exists_move {i : Nat}
    {round : List (Lib.Move (Nat × Metadata) WriterEvent (BackendEvent π))} (h : Wakes i round)
    (wake : Wake) : ∃ move ∈ round, wakes i move = some wake := by
  obtain ⟨hown, ok, hok⟩ := h
  cases wake with
  | own => exact ⟨_, hown, if_pos rfl⟩
  | completion => exact ⟨_, hok, if_pos rfl⟩

/-- An RPC winds down once the backend has been told to stop or its client has cancelled. In every
run from there on it has one write or one alarm to wait for at most, counting the one that is
outstanding, its new alarms take `mMaximumPollInterval` at most, and after more than seventeen
rounds in which it may resume its `OnDone` has returned. -/
theorem windsDown (options : BackendOptions)
    (moves : List (Lib.Move (Nat × Metadata) WriterEvent (BackendEvent π))) (i : Nat)
    (w : Writer π) (log : List (WriterEffect π))
    (ht : (recordedRun options moves).threads[i]? = some (w, log))
    (htold : Told (recordedRun options moves).shared w) :
    (∀ moves', ∃ w' more,
      (recordedRun options (moves ++ moves')).threads[i]? = some (w', log ++ more) ∧
        writesInFlight log + alarmsArmed log + starts more ≤ 1 ∧
        (armedFor mPollInterval (log ++ more)).sum ≤
          (armedFor mPollInterval log).sum + mMaximumPollInterval) ∧
      ∀ rounds : List (List (Lib.Move (Nat × Metadata) WriterEvent (BackendEvent π))),
        (∀ round ∈ rounds, Wakes i round) → 17 < rounds.length →
          DeletedAt i (recordedRun options (moves ++ rounds.flatten)) := by
  constructor
  · intro moves'
    obtain ⟨w', more, ht', hle⟩ := told_run options ht htold moves'
    have hafter : recordedRun options (moves ++ moves') =
        (recordedSubscribers options).after (recordedRun options moves) moves' :=
      Lib.Program.after_append moves moves'
    have hone := (pumpInv_recordedRun options moves ht).startsLeft_le
    have hnew := sum_armedFor_le (log.foldl
      (fun current effect ↦ (effect.pollInterval current).1) mPollInterval) more
    have hstarts : starts more ≤ 1 := by
      have hleft := w.startsLeft_le_one
      omega
    have hmax := Nat.mul_le_mul_left mMaximumPollInterval hstarts
    refine ⟨w', more, by rw [hafter]; exact ht', by omega, ?_⟩
    rw [armedFor_append, List.sum_append]
    omega
  · intro rounds hrounds hlen
    have hinv : ToldAt i (recordedRun options moves) := ⟨w, log, ht, htold⟩
    have hrank : stepsToEndAt i (recordedRun options moves) ≤ 17 := by
      rw [stepsToEndAt_eq ht]
      exact w.stepsToEnd_le_seventeen
    have hrounds' : Lib.Along (fun s round ↦ round.foldl (recordedSubscribers options).step s)
        (fun _ round ↦ Wakes i round) (recordedRun options moves) rounds :=
      Lib.along_of_forall hrounds
    have hdone := (ranked_stepsToEnd options i).finishes
      (fun _ _ wake _ hround _ ↦ hround.exists_move wake) hinv hrounds'
      (Nat.lt_of_le_of_lt hrank hlen)
    have hafter : recordedRun options (moves ++ rounds.flatten) =
        rounds.flatten.foldl (recordedSubscribers options).step (recordedRun options moves) :=
      Lib.Program.after_append moves rounds.flatten
    rw [hafter]
    exact hdone

section Example

/-- An RPC subscribes, finds nothing to send, and the backend is told to stop. -/
def idles : List (Lib.Move (Nat × Metadata) WriterEvent (BackendEvent Nat)) :=
  [.spawn (1, [])] ++ List.replicate 10 (.run 0 .proceed) ++ [.env .stop]

/-- A round of the run. -/
def wakesFirst : List (Lib.Move (Nat × Metadata) WriterEvent (BackendEvent Nat)) :=
  [.run 0 .proceed, .run 0 (.writeDone true)]

/-- The RPC behind the run. -/
def idleWriter : Writer Nat where
  contextAddress := 1
  clientMetadata := []
  stage := .idle
  mSubscribed := true

theorem windsDown_idles :
    (∀ moves', ∃ w' more, (recordedRun {} (idles ++ moves')).threads[0]? =
      some (w', [.subscribed, .fetched [], .setAlarm] ++ more) ∧
        writesInFlight [WriterEffect.subscribed, .fetched ([] : List Nat), .setAlarm] +
          alarmsArmed [WriterEffect.subscribed, .fetched ([] : List Nat), .setAlarm] +
            starts more ≤ 1 ∧
        (armedFor mPollInterval ([.subscribed, .fetched [], .setAlarm] ++ more)).sum ≤
          (armedFor mPollInterval
            [WriterEffect.subscribed, .fetched ([] : List Nat), .setAlarm]).sum +
              mMaximumPollInterval) ∧
      DeletedAt 0 (recordedRun {} (idles ++ (List.replicate 18 wakesFirst).flatten)) := by
  have h := windsDown {} idles 0 idleWriter [.subscribed, .fetched [], .setAlarm]
    (by decide +kernel) (Or.inl rfl)
  refine ⟨h.1, h.2 (List.replicate 18 wakesFirst) ?_ (by decide)⟩
  intro round hround
  rw [List.eq_of_mem_replicate hround]
  exact ⟨by simp [wakesFirst], true, by simp [wakesFirst]⟩

end Example
end ImportProxy.Backend
