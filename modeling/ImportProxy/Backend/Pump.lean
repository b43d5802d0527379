import ImportProxy.Backend.Delivery
import ImportProxy.Lib.Recorded
import Mathlib.Algebra.Group.Prod
import Mathlib.Algebra.Order.BigOperators.Group.List

/-!
# The write pump

What an `AsynchronousWriter` asks of its reactor, and what comes back:
`src/backend.cpp:355–451,487–566`. Every step is recorded with its effects, so
that the writes in flight, the alarms armed and the calls of `Finish` are counted
from the calls themselves.
-/

namespace ImportProxy.Backend

open ImportProxy.Base

universe u

variable {π : Type u}

/-- What a step of a writer does to its reactor or to the subscription manager, or the completion
that it begins with. -/
inductive WriterEffect (π : Type u) where
  /-- `StartWrite`. -/
  | startWrite (packet : π)
  /-- The write in flight completes. -/
  | writeDone (ok : Bool)
  /-- The alarm is armed. -/
  | setAlarm
  /-- The alarm fires. -/
  | alarmFired
  /-- `Finish`. -/
  | finish (status : Status)
  /-- `getNextPackets` returns a batch. -/
  | fetched (packetsBuffer : List π)
  /-- `subscribe` has the context in the map. -/
  | subscribed
  /-- `unsubscribe` erases the context from the map. -/
  | unsubscribed
  deriving DecidableEq

namespace Writer

/-- The effect of `send`. -/
def sendEffects (w : Writer π) : List (WriterEffect π) :=
  match w.mPacketsQueue with
  | [] => [.setAlarm]
  | packet :: _ => [.startWrite packet]

/-- The effect of `leave`. -/
def leaveEffects : Option Status → List (WriterEffect π)
  | some status => [.finish status]
  | none => []

end Writer

/-- The effects of the next step of an RPC itself. -/
def proceedEffects (options : BackendOptions) (s : BackendState π) (w : Writer π) :
    List (WriterEffect π) :=
  match w.stage with
  | .authenticate =>
    if options.refuses w.clientMetadata then [.finish subscriberNotValidated] else []
  | .loadSize =>
    if s.mSubscriptionManager.getNumberOfSubscribers ≥ options.getMaximumNumberOfSubscribers then
      [.finish maxSubscribersHit]
    else []
  | .subscribe =>
    match s.mSubscriptionManager.subscribe w.contextAddress with
    | none => [.finish failedToSubscribe]
    | some _ => [.subscribed]
  | .pumpCancelled => if w.cancelled || w.mPacketsQueue.isEmpty then [] else w.sendEffects
  | .fetchRunning => if s.mSubscriptionManager.mKeepRunning then [] else w.sendEffects
  | .fetch =>
    match s.mSubscriptionManager.getNextPackets w.contextAddress mMaximumWriteQueueSize with
    | none => w.sendEffects
    | some (packetsBuffer, _) =>
      .fetched packetsBuffer :: (w.pushPackets packetsBuffer).sendEffects
  | .idle => [.alarmFired]
  | .exchange status => if w.mSubscribed then [] else Writer.leaveEffects status
  | .unsubscribeRunning status =>
    if s.mSubscriptionManager.mKeepRunning then [] else Writer.leaveEffects status
  | .unsubscribe status => .unsubscribed :: Writer.leaveEffects status
  | .loadRunning | .storeSubscribed | .countSubscribers | .pump | .stopCancelled | .writing |
    .finished | .countDone | .deleted => []

/-- The effects of one step of an RPC. -/
def writerEffects (options : BackendOptions) (s : BackendState π) (w : Writer π) :
    WriterEvent → List (WriterEffect π)
  | .proceed => proceedEffects options s w
  | .writeDone ok => if w.stage = .writing then [.writeDone ok] else []
  | .cancel => []

/-- The backend, with a log of the effects of each RPC. -/
def recordedSubscribers (options : BackendOptions) :
    Lib.Program (BackendState π) (Writer π × List (WriterEffect π)) (Nat × Metadata) WriterEvent
      (BackendEvent π) := (subscribers options).recorded (writerEffects options)

/-- The backend with its logs after a schedule. -/
def recordedRun (options : BackendOptions)
    (moves : List (Lib.Move (Nat × Metadata) WriterEvent (BackendEvent π))) :
    Lib.Pool (BackendState π) (Writer π × List (WriterEffect π)) :=
  (recordedSubscribers options).after ⟨(started options).shared, []⟩ moves

/-- Without the logs it is the run of the backend. -/
theorem recordedRun_forget (options : BackendOptions)
    (moves : List (Lib.Move (Nat × Metadata) WriterEvent (BackendEvent π))) :
    (recordedRun options moves).forget = (subscribers options).after (started options) moves :=
  Lib.Program.forget_after moves

namespace WriterEffect

/-- What an effect adds to the writes in flight. -/
def inFlight : WriterEffect π → Int
  | startWrite _ => 1
  | writeDone _ => -1
  | setAlarm | alarmFired | finish _ | fetched _ | subscribed | unsubscribed => 0

/-- What an effect adds to the alarms that are armed. -/
def armed : WriterEffect π → Int
  | setAlarm => 1
  | alarmFired => -1
  | startWrite _ | writeDone _ | finish _ | fetched _ | subscribed | unsubscribed => 0

/-- What an effect adds to the calls of `Finish`. -/
def finishes : WriterEffect π → Int
  | finish _ => 1
  | startWrite _ | writeDone _ | setAlarm | alarmFired | fetched _ | subscribed |
    unsubscribed => 0

/-- The packet that an effect gives to `StartWrite`. -/
def written : WriterEffect π → List π
  | startWrite packet => [packet]
  | writeDone _ | setAlarm | alarmFired | finish _ | fetched _ | subscribed | unsubscribed => []

/-- The packets that an effect takes from the subscription manager. -/
def taken : WriterEffect π → List π
  | fetched packetsBuffer => packetsBuffer
  | startWrite _ | writeDone _ | setAlarm | alarmFired | finish _ | subscribed |
    unsubscribed => []

end WriterEffect

/-- The writes that were started and have not completed. -/
def writesInFlight (log : List (WriterEffect π)) : Int := (log.map WriterEffect.inFlight).sum

/-- The alarms that were set and have not fired. -/
def alarmsArmed (log : List (WriterEffect π)) : Int := (log.map WriterEffect.armed).sum

/-- The calls of `Finish`. -/
def finishCalls (log : List (WriterEffect π)) : Int := (log.map WriterEffect.finishes).sum

/-- The packets that were given to `StartWrite`, in order. -/
def startedWrites (log : List (WriterEffect π)) : List π := log.flatMap WriterEffect.written

/-- The packets that were fetched, in order. -/
def fetchedPackets (log : List (WriterEffect π)) : List π := log.flatMap WriterEffect.taken

namespace WriterStage

/-- The writes in flight between two steps. -/
def inFlight : WriterStage → Int
  | writing => 1
  | _ => 0

/-- The alarms armed between two steps. -/
def armed : WriterStage → Int
  | idle => 1
  | _ => 0

/-- `Finish` was called. -/
def finishes : WriterStage → Int
  | finished | exchange none | unsubscribeRunning none | unsubscribe none | countDone |
    deleted => 1
  | _ => 0

/-- The rest of the pump decides what to put on the wire. -/
def pumping : WriterStage → Bool
  | pumpCancelled | fetchRunning | fetch => true
  | _ => false

/-- The RPC leaves, and the pump does not go on. -/
def leaving : WriterStage → Bool
  | exchange _ | unsubscribeRunning _ | unsubscribe _ | finished | countDone | deleted => true
  | _ => false

/-- Where `mSubscribed` is set. -/
def flag : WriterStage → Bool
  | countSubscribers | pump | pumpCancelled | stopCancelled | fetchRunning | fetch | writing |
    idle | exchange (some _) => true
  | _ => false

end WriterStage

/-- `mSubscribed` follows the stage, so `OnDone` never has to unsubscribe. -/
structure FlagInv (w : Writer π) : Prop where
  flag : w.mSubscribed = w.stage.flag
  running : w.stage ≠ .unsubscribeRunning none
  erasing : w.stage ≠ .unsubscribe none

variable {options : BackendOptions} {s s' : BackendState π} {w w' : Writer π}
  {event : WriterEvent} {log : List (WriterEffect π)}

/-- Every step keeps `mSubscribed` in agreement with the stage. -/
theorem FlagInv.step (h : FlagInv w) (hstep : WriterStep options s w event s' w') :
    FlagInv w' := by
  have hflag := h.flag
  cases hstep with
  | sendsQueued hs | fetchesStopped hs | fetchFailed hs =>
    rw [hs] at hflag
    unfold Writer.send
    split <;> exact ⟨hflag, nofun, nofun⟩
  | fetched packetsBuffer manager hs hm =>
    rw [hs] at hflag
    unfold Writer.send
    split <;> exact ⟨hflag, nofun, nofun⟩
  | notSubscribed status hs hsub =>
    cases status <;> exact ⟨hsub, nofun, nofun⟩
  | takesSubscribed status hs hsub =>
    rw [hs, hsub] at hflag
    cases status with
    | none => cases hflag
    | some status => exact ⟨rfl, nofun, nofun⟩
  | unsubscribes status hs hrun =>
    rw [hs] at hflag
    refine ⟨hflag, nofun, fun he ↦ ?_⟩
    cases he
    exact h.running hs
  | unsubscribesStopped status hs | unsubscribed status hs =>
    rw [hs] at hflag
    cases status <;> exact ⟨hflag, nofun, nofun⟩
  | writeDone ok hs =>
    rw [hs] at hflag
    unfold onWriteDone
    split_ifs <;> exact ⟨hflag, nofun, nofun⟩
  | refused hs | validated hs | exhausted hs | belowMaximum hs | subscribes hs
  | subscribesStopped hs | failed hs | subscribed _ hs | counted hs | pumps hs | pumpsStopped hs
  | pumpsCancelled hs | queueEmpty hs | stops hs | fetches hs | alarm hs | done hs | deleted hs =>
    rw [hs] at hflag
    exact ⟨hflag, nofun, nofun⟩
  | stored hs => exact ⟨rfl, nofun, nofun⟩
  | cancel | waits | notWriting => exact ⟨h.flag, h.running, h.erasing⟩

/-- The effects of a step, by the call that it makes or the completion that it begins with. -/
inductive StepEffects (w : Writer π) : List (WriterEffect π) → Prop
  | none : StepEffects w []
  | rejects (status : Status)
      (hs : w.stage = .authenticate ∨ w.stage = .loadSize ∨ w.stage = .subscribe) :
      StepEffects w [.finish status]
  | subscribes (hs : w.stage = .subscribe) : StepEffects w [.subscribed]
  | sends (hs : w.stage.pumping = true) : StepEffects w w.sendEffects
  | fetches (packetsBuffer : List π) (hs : w.stage = .fetch) :
      StepEffects w (.fetched packetsBuffer :: (w.pushPackets packetsBuffer).sendEffects)
  | alarm (hs : w.stage = .idle) : StepEffects w [.alarmFired]
  | writeDone (ok : Bool) (hs : w.stage = .writing) : StepEffects w [.writeDone ok]
  | leaves (status : Option Status)
      (hs : w.stage = .exchange status ∨ w.stage = .unsubscribeRunning status) :
      StepEffects w (Writer.leaveEffects status)
  | unsubscribes (status : Option Status) (hs : w.stage = .unsubscribe status) :
      StepEffects w (.unsubscribed :: Writer.leaveEffects status)

/-- The effects of a step are those of one of these calls. -/
theorem step_effects (options : BackendOptions) (s : BackendState π) (w : Writer π)
    (event : WriterEvent) : StepEffects w (writerEffects options s w event) := by
  cases event with
  | cancel => exact .none
  | writeDone ok =>
    show StepEffects w (if w.stage = .writing then [.writeDone ok] else [])
    split
    · next hs => exact .writeDone ok hs
    · exact .none
  | proceed =>
    unfold writerEffects proceedEffects
    cases hs : w.stage with
    | authenticate =>
      dsimp only
      split
      · exact .rejects _ (Or.inl hs)
      · exact .none
    | loadSize =>
      dsimp only
      split
      · exact .rejects _ (Or.inr (Or.inl hs))
      · exact .none
    | subscribe =>
      dsimp only
      split
      · exact .rejects _ (Or.inr (Or.inr hs))
      · exact .subscribes hs
    | pumpCancelled | fetchRunning =>
      dsimp only
      split
      · exact .none
      · exact .sends (by rw [hs]; rfl)
    | fetch =>
      dsimp only
      split
      · exact .sends (by rw [hs]; rfl)
      · exact .fetches _ hs
    | idle => exact .alarm hs
    | exchange status =>
      dsimp only
      split
      · exact .none
      · exact .leaves status (Or.inl hs)
    | unsubscribeRunning status =>
      dsimp only
      split
      · exact .none
      · exact .leaves status (Or.inr hs)
    | unsubscribe status => exact .unsubscribes status hs
    | loadRunning | storeSubscribed | countSubscribers | pump | stopCancelled | writing |
      finished | countDone | deleted => exact .none

/-- What a list of effects adds to the writes in flight, the alarms armed and the calls of
`Finish`. -/
def outstanding (log : List (WriterEffect π)) : Int × Int × Int :=
  (writesInFlight log, alarmsArmed log, finishCalls log)

/-- What is outstanding between two steps at a stage. -/
def WriterStage.outstanding (stage : WriterStage) : Int × Int × Int :=
  (stage.inFlight, stage.armed, stage.finishes)

@[simp] theorem outstanding_nil : outstanding ([] : List (WriterEffect π)) = 0 := rfl

theorem outstanding_append (log effects : List (WriterEffect π)) :
    outstanding (log ++ effects) = outstanding log + outstanding effects := by
  simp only [outstanding, writesInFlight, alarmsArmed, finishCalls, List.map_append,
    List.sum_append, Prod.mk_add_mk]

/-- `send` starts one write or sets one alarm. -/
theorem outstanding_send (w : Writer π) :
    outstanding w.sendEffects = w.send.stage.outstanding := by
  unfold Writer.sendEffects Writer.send
  cases w.mPacketsQueue <;> rfl

/-- `leave` calls `Finish` unless it was called before. -/
theorem outstanding_leave (w : Writer π) (status : Option Status) :
    outstanding (Writer.leaveEffects (π := π) status) =
      (w.leave status).stage.outstanding - (WriterStage.exchange status).outstanding := by
  cases status <;> rfl

/-- A step changes what is outstanding by its effects. -/
theorem WriterStep.outstanding_eq (hstep : WriterStep options s w event s' w') :
    outstanding (writerEffects options s w event) =
      w'.stage.outstanding - w.stage.outstanding := by
  have silent (he : outstanding (writerEffects options s w event) = 0)
      (hw : w'.stage.outstanding = w.stage.outstanding) :
      outstanding (writerEffects options s w event) =
        w'.stage.outstanding - w.stage.outstanding := by
    rw [he, hw, sub_self]
  cases hstep with
  | refused hs hno =>
    simp only [writerEffects, proceedEffects, hs, if_pos hno]
    rfl
  | exhausted hs hge =>
    simp only [writerEffects, proceedEffects, hs, ge_iff_le, if_pos hge]
    rfl
  | failed hs hm =>
    simp only [writerEffects, proceedEffects, hs, hm]
    rfl
  | sendsQueued hs hc hq =>
    have hne : ¬(w.cancelled || w.mPacketsQueue.isEmpty) = true := by simp [hc, hq]
    simp only [writerEffects, proceedEffects, hs, if_neg hne, outstanding_send]
    exact (sub_zero _).symm
  | fetchesStopped hs hstop =>
    simp only [writerEffects, proceedEffects, hs, hstop, Bool.false_eq_true, if_false,
      outstanding_send]
    exact (sub_zero _).symm
  | fetchFailed hs hm =>
    simp only [writerEffects, proceedEffects, hs, hm, outstanding_send]
    exact (sub_zero _).symm
  | fetched packetsBuffer manager hs hm =>
    simp only [writerEffects, proceedEffects, hs, hm]
    rw [← List.singleton_append, outstanding_append, outstanding_send]
    exact (zero_add _).trans (sub_zero _).symm
  | alarm hs =>
    simp only [writerEffects, proceedEffects, hs]
    rfl
  | notSubscribed status hs hsub =>
    simp only [writerEffects, proceedEffects, hs, hsub, Bool.false_eq_true, if_false]
    exact outstanding_leave w status
  | unsubscribesStopped status hs hstop =>
    simp only [writerEffects, proceedEffects, hs, hstop, Bool.false_eq_true, if_false]
    exact (outstanding_leave w status).trans (by cases status <;> rfl)
  | unsubscribed status hs =>
    simp only [writerEffects, proceedEffects, hs]
    rw [← List.singleton_append, outstanding_append, outstanding_leave w status]
    exact (zero_add _).trans (by cases status <;> rfl)
  | writeDone ok hs =>
    simp only [writerEffects, onWriteDone, hs]
    split_ifs <;> rfl
  | validated hs hok =>
    exact silent (by simp [writerEffects, proceedEffects, hs, hok]) (by rw [hs]; rfl)
  | belowMaximum hs hlt =>
    exact silent (by simp [writerEffects, proceedEffects, hs, not_le.mpr hlt]) (by rw [hs]; rfl)
  | subscribed manager hs hm =>
    exact silent (by simp [writerEffects, proceedEffects, hs, hm]; rfl) (by rw [hs]; rfl)
  | queueEmpty hs hc hq =>
    exact silent (by simp [writerEffects, proceedEffects, hs, hq]) (by rw [hs]; rfl)
  | pumpsCancelled hs hc =>
    exact silent (by simp [writerEffects, proceedEffects, hs, hc]) (by rw [hs]; rfl)
  | fetches hs hrun =>
    exact silent (by simp [writerEffects, proceedEffects, hs, hrun]) (by rw [hs]; rfl)
  | takesSubscribed status hs hsub =>
    exact silent (by simp [writerEffects, proceedEffects, hs, hsub])
      (by rw [hs]; cases status <;> rfl)
  | unsubscribes status hs hrun =>
    exact silent (by simp [writerEffects, proceedEffects, hs, hrun])
      (by rw [hs]; cases status <;> rfl)
  | subscribes hs | subscribesStopped hs | stored hs | counted hs | pumps hs | pumpsStopped hs
  | stops hs | done hs | deleted hs =>
    exact silent (by simp [writerEffects, proceedEffects, hs]) (by rw [hs]; rfl)
  | cancel => exact silent rfl rfl
  | waits hs =>
    rcases hs with hs | hs <;> exact silent (by simp [writerEffects, proceedEffects, hs]) rfl
  | notWriting ok hs => exact silent (by simp [writerEffects, hs]) rfl

/-- Nothing comes after a call of `Finish`. -/
def FinishLast (log : List (WriterEffect π)) : Prop :=
  ∀ before status rest, log = before ++ .finish status :: rest → rest = []

theorem finishLast_nil : FinishLast ([] : List (WriterEffect π)) := by
  intro before status rest h
  simp at h

theorem finishLast_singleton (effect : WriterEffect π) : FinishLast [effect] := by
  intro before status rest h
  cases before with
  | nil => exact (List.cons.inj h).2.symm
  | cons x before => simp at h

/-- An effect that is not `Finish` may come before. -/
theorem FinishLast.cons {effect : WriterEffect π} (h : FinishLast log)
    (he : effect.finishes = 0) : FinishLast (effect :: log) := by
  intro before status rest heq
  cases before with
  | nil =>
    rw [(List.cons.inj heq).1] at he
    cases he
  | cons x before => exact h before status rest (List.cons.inj heq).2

/-- Every effect adds one call of `Finish` or none. -/
theorem finishCalls_nonneg (log : List (WriterEffect π)) : 0 ≤ finishCalls log := by
  apply List.sum_nonneg
  intro n hn
  obtain ⟨effect, -, rfl⟩ := List.mem_map.mp hn
  cases effect <;> simp [WriterEffect.finishes]

/-- A log without calls of `Finish`. -/
theorem not_mem_of_finishCalls (h : finishCalls log = 0) (status : Status) :
    .finish status ∉ log := by
  intro hm
  obtain ⟨before, rest, rfl⟩ := List.append_of_mem hm
  have hb := finishCalls_nonneg before
  have hr := finishCalls_nonneg rest
  simp only [finishCalls, List.map_append, List.map_cons, List.sum_append, List.sum_cons,
    WriterEffect.finishes] at h hb hr
  omega

/-- Effects may follow where `Finish` has not been called. -/
theorem FinishLast.append {effects : List (WriterEffect π)} (h : FinishLast log)
    (he : FinishLast effects) (hnone : effects ≠ [] → finishCalls log = 0) :
    FinishLast (log ++ effects) := by
  by_cases hempty : effects = []
  · rw [hempty, List.append_nil]
    exact h
  · intro before status rest heq
    rcases List.append_eq_append_iff.mp heq with ⟨middle, hbefore, hrest⟩ | ⟨middle, hlog, hrest⟩
    · exact he middle status rest hrest
    · cases middle with
      | nil => exact he [] status rest hrest.symm
      | cons effect middle =>
        have hmem : .finish status ∈ log := by
          rw [hlog, (List.cons.inj hrest).1]
          simp
        exact (not_mem_of_finishCalls (hnone hempty) status hmem).elim

theorem finishLast_send (w : Writer π) : FinishLast w.sendEffects := by
  unfold Writer.sendEffects
  split <;> exact finishLast_singleton _

theorem finishLast_leave (status : Option Status) :
    FinishLast (Writer.leaveEffects (π := π) status) := by
  cases status with
  | none => exact finishLast_nil
  | some status => exact finishLast_singleton _

/-- A step may end with a call of `Finish`. -/
theorem StepEffects.finishLast {effects : List (WriterEffect π)} (h : StepEffects w effects) :
    FinishLast effects := by
  cases h with
  | none => exact finishLast_nil
  | rejects | subscribes | alarm | writeDone => exact finishLast_singleton _
  | sends => exact finishLast_send w
  | fetches => exact (finishLast_send _).cons rfl
  | leaves status => exact finishLast_leave status
  | unsubscribes status => exact (finishLast_leave status).cons rfl

/-- Once `Finish` was called, a step has no effects. -/
theorem FlagInv.effects_eq_nil {effects : List (WriterEffect π)} (h : FlagInv w)
    (hf : w.stage.finishes ≠ 0) (heffects : StepEffects w effects) : effects = [] := by
  cases heffects with
  | none => rfl
  | rejects status hs => rcases hs with hs | hs | hs <;> exact (hf (by rw [hs]; rfl)).elim
  | subscribes hs | fetches _ hs | alarm hs | writeDone _ hs => exact (hf (by rw [hs]; rfl)).elim
  | sends hs =>
    unfold WriterStage.pumping at hs
    split at hs
    · next hs' => exact (hf (by rw [hs']; rfl)).elim
    · next hs' => exact (hf (by rw [hs']; rfl)).elim
    · next hs' => exact (hf (by rw [hs']; rfl)).elim
    · cases hs
  | leaves status hs =>
    cases status with
    | none => rfl
    | some status => rcases hs with hs | hs <;> exact (hf (by rw [hs]; rfl)).elim
  | unsubscribes status hs =>
    cases status with
    | none => exact (h.erasing hs).elim
    | some status => exact (hf (by rw [hs]; rfl)).elim

@[simp] theorem startedWrites_append (log effects : List (WriterEffect π)) :
    startedWrites (log ++ effects) = startedWrites log ++ startedWrites effects :=
  List.flatMap_append

@[simp] theorem fetchedPackets_append (log effects : List (WriterEffect π)) :
    fetchedPackets (log ++ effects) = fetchedPackets log ++ fetchedPackets effects :=
  List.flatMap_append

@[simp] theorem leaveEffects_moves (status : Option Status) :
    startedWrites (Writer.leaveEffects (π := π) status) = [] ∧
      fetchedPackets (Writer.leaveEffects (π := π) status) = [] := by
  cases status <;> exact ⟨rfl, rfl⟩

/-- Only the pump starts writes and fetches packets. -/
theorem StepEffects.moves {effects : List (WriterEffect π)} (heffects : StepEffects w effects)
    (h : w.stage.pumping = false) : startedWrites effects = [] ∧ fetchedPackets effects = [] := by
  cases heffects with
  | none | rejects | subscribes | alarm | writeDone => exact ⟨rfl, rfl⟩
  | sends hs =>
    rw [h] at hs
    cases hs
  | fetches packetsBuffer hs =>
    rw [hs] at h
    cases h
  | leaves status => exact leaveEffects_moves status
  | unsubscribes status => exact leaveEffects_moves status

/-- The packets of a writer agree with its log. -/
structure PacketsInv (w : Writer π) (log : List (WriterEffect π)) : Prop where
  written : startedWrites log = w.written
  fetched : w.given <+: fetchedPackets log
  kept : w.stage.leaving = false → fetchedPackets log = w.given
  front : w.stage = .writing →
    ∃ packet rest, w.mPacketsQueue = packet :: rest ∧ w.written.getLast? = some packet
  empty : w.stage = .fetchRunning ∨ w.stage = .fetch ∨ w.stage = .idle → w.mPacketsQueue = []
  bounded : w.mPacketsQueue.length ≤ mMaximumWriteQueueSize

/-- A step that fetches and writes nothing, and leaves the queue alone. -/
theorem PacketsInv.keep {effects : List (WriterEffect π)} (h : PacketsInv w log)
    (hmoves : startedWrites effects = [] ∧ fetchedPackets effects = [])
    (hwritten : w'.written = w.written) (hqueue : w'.mPacketsQueue = w.mPacketsQueue)
    (hgiven : w'.given <+: w.given) (hkept : w'.stage.leaving = false →
      w.stage.leaving = false ∧ w'.given = w.given)
    (hfront : w'.stage = .writing → w.stage = .writing)
    (hempty : w'.stage = .fetchRunning ∨ w'.stage = .fetch ∨ w'.stage = .idle →
      w.mPacketsQueue = []) : PacketsInv w' (log ++ effects) where
  written := by rw [startedWrites_append, hmoves.1, List.append_nil, h.written, hwritten]
  fetched := by
    rw [fetchedPackets_append, hmoves.2, List.append_nil]
    exact hgiven.trans h.fetched
  kept hl := by
    obtain ⟨hl, hgiven⟩ := hkept hl
    rw [fetchedPackets_append, hmoves.2, List.append_nil, h.kept hl, hgiven]
  front hs := by
    rw [hqueue, hwritten]
    exact h.front (hfront hs)
  empty hs := hqueue.trans (hempty hs)
  bounded := hqueue ▸ h.bounded

/-- A step by which the RPC leaves, or goes on leaving. -/
theorem PacketsInv.leave {effects : List (WriterEffect π)} (h : PacketsInv w log)
    (hmoves : startedWrites effects = [] ∧ fetchedPackets effects = [])
    (hwritten : w'.written = w.written) (hqueue : w'.mPacketsQueue = w.mPacketsQueue)
    (hleaving : w'.stage.leaving = true) : PacketsInv w' (log ++ effects) := by
  have hgiven : w'.given = w.written := by
    rw [Writer.given, hwritten]
    cases hs : w'.stage <;> simp_all [WriterStage.leaving, Writer.toSend]
  refine h.keep hmoves hwritten hqueue ?_ ?_ ?_ ?_
  · rw [hgiven]
    exact List.prefix_append _ _
  · rw [hleaving]
    rintro ⟨⟩
  · intro hs
    rw [hs] at hleaving
    cases hleaving
  · rintro (hs | hs | hs) <;> rw [hs] at hleaving <;> cases hleaving

/-- What a writer that neither writes nor leaves was given, and what it may still be given. -/
theorem given_of_holding (hl : w.stage.leaving = false) (hne : w.stage ≠ .writing) :
    w.given = w.written ++ w.mPacketsQueue := by
  unfold Writer.given Writer.toSend
  cases hs : w.stage <;> simp_all [WriterStage.leaving]

/-- A step from a stage that neither writes nor leaves to another one. -/
theorem PacketsInv.pass {effects : List (WriterEffect π)} (h : PacketsInv w log)
    (hmoves : startedWrites effects = [] ∧ fetchedPackets effects = [])
    (hwritten : w'.written = w.written) (hqueue : w'.mPacketsQueue = w.mPacketsQueue)
    (hl : w.stage.leaving = false ∧ w.stage ≠ .writing)
    (hl' : w'.stage.leaving = false ∧ w'.stage ≠ .writing)
    (hempty : w'.stage = .fetchRunning ∨ w'.stage = .fetch ∨ w'.stage = .idle →
      w.mPacketsQueue = []) : PacketsInv w' (log ++ effects) := by
  have hgiven : w'.given = w.given := by
    rw [given_of_holding hl.1 hl.2, given_of_holding hl'.1 hl'.2, hwritten, hqueue]
  exact h.keep hmoves hwritten hqueue (hgiven ▸ List.prefix_rfl) (fun _ ↦ ⟨hl.1, hgiven⟩)
    (fun hs ↦ (hl'.2 hs).elim) hempty

/-- `send` writes the front packet of a queue that holds what was fetched and not yet written. -/
theorem packetsInv_send (hwritten : startedWrites log = w.written)
    (hfetched : fetchedPackets log = w.written ++ w.mPacketsQueue)
    (hbounded : w.mPacketsQueue.length ≤ mMaximumWriteQueueSize) :
    PacketsInv w.send (log ++ w.sendEffects) := by
  have hgiven : w.send.given = w.written ++ w.mPacketsQueue := w.given_send
  have hnone : fetchedPackets w.sendEffects = [] := by
    unfold Writer.sendEffects
    split <;> rfl
  have hall : fetchedPackets (log ++ w.sendEffects) = w.send.given := by
    rw [fetchedPackets_append, hnone, List.append_nil, hfetched, hgiven]
  cases hq : w.mPacketsQueue with
  | nil =>
    have hsend : w.send = { w with stage := .idle } := by simp only [Writer.send, hq]
    have heffects : w.sendEffects = [.setAlarm] := by simp only [Writer.sendEffects, hq]
    rw [hsend] at hall ⊢
    refine ⟨?_, hall ▸ List.prefix_rfl, fun _ ↦ hall, nofun, fun _ ↦ hq, hbounded⟩
    rw [startedWrites_append, hwritten, heffects]
    exact List.append_nil _
  | cons packet rest =>
    have hsend : w.send = { w with stage := .writing, written := w.written ++ [packet] } := by
      simp only [Writer.send, hq]
    have heffects : w.sendEffects = [.startWrite packet] := by
      simp only [Writer.sendEffects, hq]
    rw [hsend] at hall ⊢
    refine ⟨?_, hall ▸ List.prefix_rfl, fun _ ↦ hall, fun _ ↦ ⟨packet, rest, hq, ?_⟩, nofun,
      hbounded⟩
    · rw [startedWrites_append, hwritten, heffects]
      rfl
    · exact List.getLast?_concat

/-- Whether the loop that queues a batch drops a packet; `src/backend.cpp:520–529`. -/
def exceeds : List π → List π → Bool
  | _, [] => false
  | queue, packet :: packetsBuffer =>
    decide (queue.length > mMaximumWriteQueueSize) ||
      exceeds ((if queue.length > mMaximumWriteQueueSize then queue.tail else queue) ++ [packet])
        packetsBuffer

/-- A batch that fits is queued whole. -/
theorem pushPackets_eq (packetsBuffer : List π)
    (h : w.mPacketsQueue.length + packetsBuffer.length ≤ mMaximumWriteQueueSize) :
    (w.pushPackets packetsBuffer).mPacketsQueue = w.mPacketsQueue ++ packetsBuffer ∧
      exceeds w.mPacketsQueue packetsBuffer = false := by
  induction packetsBuffer generalizing w with
  | nil => exact ⟨(List.append_nil _).symm, rfl⟩
  | cons packet packetsBuffer ih =>
    rw [List.length_cons] at h
    have hle : ¬w.mPacketsQueue.length > mMaximumWriteQueueSize := by omega
    obtain ⟨hpush, hno⟩ := ih (w := { w with mPacketsQueue := w.mPacketsQueue ++ [packet] })
      (by rw [List.length_append, List.length_singleton]; omega)
    constructor
    · rw [List.append_cons, ← hpush]
      simp only [Writer.pushPackets, List.foldl_cons, if_neg hle]
    · rw [exceeds, if_neg hle, hno, decide_eq_false hle, Bool.or_false]

/-- A batch has at most as many packets as the queue may hold. -/
theorem length_getNextPackets_le {packetsBuffer : List π} {manager manager' : SubscriptionManager π}
    {contextAddress maxPackets : Nat}
    (h : manager.getNextPackets contextAddress maxPackets = some (packetsBuffer, manager')) :
    packetsBuffer.length ≤ maxPackets := by
  obtain ⟨stream, -, rfl, -⟩ := SubscriptionManager.getNextPackets_eq_some_iff.mp h
  exact SubscriptionManager.length_takePackets_le maxPackets stream

/-- A batch is fetched into an empty queue, and nothing is dropped. -/
theorem PacketsInv.pushPackets_eq (h : PacketsInv w log) (hs : w.stage = .fetch)
    {packetsBuffer : List π} {manager : SubscriptionManager π}
    (hm : s.mSubscriptionManager.getNextPackets w.contextAddress mMaximumWriteQueueSize =
      some (packetsBuffer, manager)) :
    (w.pushPackets packetsBuffer).mPacketsQueue = packetsBuffer ∧
      exceeds w.mPacketsQueue packetsBuffer = false := by
  have hempty : w.mPacketsQueue = [] := h.empty (Or.inr (Or.inl hs))
  have hpush := Backend.pushPackets_eq (w := w) packetsBuffer (by
    rw [hempty, List.length_nil, Nat.zero_add]
    exact length_getNextPackets_le hm)
  rwa [hempty, List.nil_append, ← hempty] at hpush

/-- Every step keeps the packets in agreement with the log. -/
theorem PacketsInv.step (h : PacketsInv w log) (hstep : WriterStep options s w event s' w') :
    PacketsInv w' (log ++ writerEffects options s w event) := by
  have hholds (hl : w.stage.leaving = false) (hne : w.stage ≠ .writing) :
      fetchedPackets log = w.written ++ w.mPacketsQueue :=
    (h.kept hl).trans (given_of_holding hl hne)
  cases hstep with
  | sendsQueued hs hc hq =>
    have hne : ¬(w.cancelled || w.mPacketsQueue.isEmpty) = true := by simp [hc, hq]
    simp only [writerEffects, proceedEffects, hs, if_neg hne]
    exact packetsInv_send h.written (hholds (by rw [hs]; rfl) (by rw [hs]; rintro ⟨⟩)) h.bounded
  | fetchesStopped hs hstop =>
    simp only [writerEffects, proceedEffects, hs, hstop, Bool.false_eq_true, if_false]
    exact packetsInv_send h.written (hholds (by rw [hs]; rfl) (by rw [hs]; rintro ⟨⟩)) h.bounded
  | fetchFailed hs hm =>
    simp only [writerEffects, proceedEffects, hs, hm]
    exact packetsInv_send h.written (hholds (by rw [hs]; rfl) (by rw [hs]; rintro ⟨⟩)) h.bounded
  | fetched packetsBuffer manager hs hm =>
    have hpush := (h.pushPackets_eq hs hm).1
    have hqueue : w.mPacketsQueue = [] := h.empty (Or.inr (Or.inl hs))
    simp only [writerEffects, proceedEffects, hs, hm]
    rw [List.append_cons]
    apply packetsInv_send
    · rw [startedWrites_append, h.written]
      exact List.append_nil _
    · rw [fetchedPackets_append, hholds (by rw [hs]; rfl) (by rw [hs]; rintro ⟨⟩), hpush, hqueue,
        List.append_nil]
      exact congrArg (w.written ++ ·) (List.append_nil _)
    · rw [hpush]
      exact length_getNextPackets_le hm
  | writeDone ok hs =>
    have hmoves := (step_effects options s w (.writeDone ok)).moves (by rw [hs]; rfl)
    have hgiven : w.given = w.written ++ w.mPacketsQueue.tail := by
      simp only [Writer.given, Writer.toSend, hs]
    unfold onWriteDone
    split_ifs
    · refine ⟨?_, ?_, fun _ ↦ ?_, by rintro ⟨⟩, ?_, ?_⟩
      · rw [startedWrites_append, hmoves.1, List.append_nil, h.written]
      · rw [fetchedPackets_append, hmoves.2, List.append_nil]
        have hfetched := h.fetched
        rw [hgiven] at hfetched
        exact hfetched
      · rw [fetchedPackets_append, hmoves.2, List.append_nil, h.kept (by rw [hs]; rfl), hgiven]
        rfl
      · rintro (hs' | hs' | hs') <;> cases hs'
      · have hbounded := h.bounded
        simp only [List.length_tail]
        omega
    · exact h.leave hmoves rfl rfl rfl
    · exact h.leave hmoves rfl rfl rfl
  | refused hs | exhausted hs | failed hs | stops hs | takesSubscribed _ hs | unsubscribes _ hs
  | done hs | deleted hs =>
    have hmoves := (step_effects options s w .proceed).moves (by rw [hs]; rfl)
    exact h.leave hmoves rfl rfl rfl
  | notSubscribed status hs | unsubscribesStopped status hs | unsubscribed status hs =>
    have hmoves := (step_effects options s w .proceed).moves (by rw [hs]; rfl)
    cases status <;> exact h.leave hmoves rfl rfl rfl
  | validated hs | belowMaximum hs | subscribes hs | subscribesStopped hs | subscribed _ hs
  | stored hs | counted hs | pumps hs | alarm hs | pumpsStopped hs =>
    have hmoves := (step_effects options s w .proceed).moves (by rw [hs]; rfl)
    exact h.pass hmoves rfl rfl (by simp [hs, WriterStage.leaving]) ⟨rfl, by rintro ⟨⟩⟩ (by simp)
  | pumpsCancelled hs hc =>
    have hmoves : writerEffects options s w .proceed = [] := by
      simp [writerEffects, proceedEffects, hs, hc]
    rw [hmoves]
    exact h.pass ⟨rfl, rfl⟩ rfl rfl (by simp [hs, WriterStage.leaving]) ⟨rfl, by rintro ⟨⟩⟩
      (by simp)
  | queueEmpty hs hc hq =>
    have hmoves : writerEffects options s w .proceed = [] := by
      simp [writerEffects, proceedEffects, hs, hq]
    rw [hmoves]
    exact h.pass ⟨rfl, rfl⟩ rfl rfl (by simp [hs, WriterStage.leaving]) ⟨rfl, by rintro ⟨⟩⟩
      fun _ ↦ hq
  | fetches hs hrun =>
    have hmoves : writerEffects options s w .proceed = [] := by
      simp [writerEffects, proceedEffects, hs, hrun]
    have hqueue : w.mPacketsQueue = [] := h.empty (Or.inl hs)
    rw [hmoves]
    exact h.pass ⟨rfl, rfl⟩ rfl rfl (by simp [hs, WriterStage.leaving]) ⟨rfl, by rintro ⟨⟩⟩
      fun _ ↦ hqueue
  | cancel => exact h.keep ⟨rfl, rfl⟩ rfl rfl List.prefix_rfl (fun hl ↦ ⟨hl, rfl⟩) id h.empty
  | waits hs =>
    have hmoves : writerEffects options s w .proceed = [] := by
      rcases hs with hs | hs <;> simp [writerEffects, proceedEffects, hs]
    rw [hmoves, List.append_nil]
    exact h
  | notWriting ok hs =>
    have hmoves : writerEffects options s w (.writeDone ok) = [] := if_neg hs
    rw [hmoves, List.append_nil]
    exact h

/-- A writer and its log. -/
structure PumpInv (w : Writer π) (log : List (WriterEffect π)) : Prop where
  flag : FlagInv w
  balance : outstanding log = w.stage.outstanding
  last : FinishLast log
  packets : PacketsInv w log

/-- An RPC begins with nothing outstanding. -/
theorem pumpInv_start (options : BackendOptions) (context : Nat × Metadata) :
    PumpInv ((subscribers (π := π) options).start context) [] where
  flag := ⟨rfl, nofun, nofun⟩
  balance := rfl
  last := finishLast_nil
  packets := ⟨rfl, List.prefix_rfl, fun _ ↦ rfl, nofun, fun _ ↦ rfl, Nat.zero_le _⟩

/-- Every step keeps a writer in agreement with its log. -/
theorem PumpInv.step (h : PumpInv w log) (hstep : WriterStep options s w event s' w') :
    PumpInv w' (log ++ writerEffects options s w event) where
  flag := h.flag.step hstep
  balance := by
    rw [outstanding_append, h.balance, hstep.outstanding_eq]
    exact add_sub_cancel _ _
  last := by
    refine h.last.append (step_effects options s w event).finishLast fun hne ↦ ?_
    have hcalls : finishCalls log = w.stage.finishes :=
      congrArg (fun n : Int × Int × Int ↦ n.2.2) h.balance
    by_contra hf
    exact hne (h.flag.effects_eq_nil (hcalls ▸ hf) (step_effects options s w event))
  packets := h.packets.step hstep

/-- In every schedule every writer agrees with its log. -/
theorem pumpInv_stable (options : BackendOptions) :
    Lib.Program.Stable (recordedSubscribers (π := π) options) (fun _ ↦ True)
      (fun _ _ t ↦ PumpInv t.1 t.2) where
  start _ _ context _ := pumpInv_start options context
  act s _ t event _ ht := ⟨trivial, ht.step (writer_step options s t.1 event)⟩
  other _ _ _ _ _ _ _ _ _ hu := hu
  env _ _ _ := trivial
  envThread _ _ _ _ _ ht := ht

theorem pumpInv_recordedRun (options : BackendOptions)
    (moves : List (Lib.Move (Nat × Metadata) WriterEvent (BackendEvent π))) {i : Nat}
    (ht : (recordedRun options moves).threads[i]? = some (w, log)) : PumpInv w log :=
  ((pumpInv_stable options).after ⟨trivial, by simp⟩ moves).2 i (w, log) ht

namespace WriterStage

/-- The constructor or the last callback has returned. -/
def atRest : WriterStage → Bool
  | writing | idle | finished | deleted => true
  | _ => false

/-- How many more steps the constructor or the callback may take. -/
def stepsLeft : WriterStage → Nat
  | authenticate => 13
  | loadSize => 12
  | loadRunning => 11
  | subscribe => 10
  | storeSubscribed => 9
  | countSubscribers => 8
  | pump => 7
  | pumpCancelled => 6
  | stopCancelled => 5
  | exchange _ => 4
  | unsubscribeRunning _ => 3
  | fetchRunning | unsubscribe _ => 2
  | fetch | countDone => 1
  | writing | idle | finished | deleted => 0

end WriterStage

@[simp] theorem stepsLeft_send (w : Writer π) : w.send.stage.stepsLeft = 0 := by
  unfold Writer.send
  split <;> rfl

/-- The constructor and every callback come to an end. -/
theorem WriterStep.stepsLeft_lt (hstep : WriterStep options s w .proceed s' w')
    (h : w.stage.atRest = false) : w'.stage.stepsLeft < w.stage.stepsLeft := by
  cases hstep with
  | sendsQueued hs | fetchesStopped hs | fetchFailed hs | fetched _ _ hs =>
    rw [stepsLeft_send, hs]
    exact Nat.succ_pos _
  | notSubscribed status hs | unsubscribesStopped status hs | unsubscribed status hs =>
    rw [hs]
    cases status <;> simp [Writer.leave, Writer.finish, WriterStage.stepsLeft]
  | refused hs | exhausted hs | failed hs =>
    rw [hs]
    exact Nat.succ_pos _
  | validated hs | belowMaximum hs | subscribes hs | subscribesStopped hs | subscribed _ hs
  | stored hs | counted hs | pumps hs | pumpsStopped hs | pumpsCancelled hs | queueEmpty hs
  | stops hs | fetches hs | takesSubscribed _ hs | unsubscribes _ hs | deleted hs =>
    simp [hs, WriterStage.stepsLeft]
  | alarm hs | done hs =>
    rw [hs] at h
    cases h
  | waits hs => rcases hs with hs | hs <;> rw [hs] at h <;> cases h

/-- No other event moves a constructor or a callback. -/
theorem WriterStep.stage_eq (hstep : WriterStep options s w event s' w')
    (h : w.stage.atRest = false) (hne : event ≠ .proceed) : w'.stage = w.stage := by
  cases event with
  | proceed => exact (hne rfl).elim
  | writeDone ok =>
    cases hstep with
    | writeDone ok hs =>
      rw [hs] at h
      cases h
    | notWriting => rfl
  | cancel =>
    cases hstep
    rfl

/-- While a write is in flight, only its completion changes the queue. -/
theorem WriterStep.mPacketsQueue_eq (hstep : WriterStep options s w event s' w')
    (hs : w.stage = .writing) (hne : event ≠ .writeDone true) :
    w'.mPacketsQueue = w.mPacketsQueue := by
  cases hstep with
  | writeDone ok =>
    cases ok with
    | true => exact (hne rfl).elim
    | false =>
      unfold onWriteDone
      rw [if_neg Bool.false_ne_true]
      split <;> rfl
  | cancel | waits | notWriting => rfl
  | refused h | validated h | exhausted h | belowMaximum h | subscribes h | subscribesStopped h
  | failed h | subscribed _ h | stored h | counted h | pumps h | pumpsStopped h
  | pumpsCancelled h | queueEmpty h | sendsQueued h | stops h | fetches h | fetchesStopped h
  | fetchFailed h | fetched _ _ h | alarm h | takesSubscribed _ h | notSubscribed _ h
  | unsubscribes _ h | unsubscribesStopped _ h | unsubscribed _ h | done h | deleted h =>
    exact nomatch hs.symm.trans h

/-- The protocol of the write pump at one point of a schedule. -/
structure PumpSafe (s : BackendState π) (w : Writer π) (log : List (WriterEffect π)) : Prop where
  /-- After the constructor and after each callback, exactly one write is in flight, or exactly one
  alarm is armed, or `Finish` was called. -/
  oneContinuation : w.stage.atRest = true →
    outstanding log = (1, 0, 0) ∨ outstanding log = (0, 1, 0) ∨ outstanding log = (0, 0, 1)
  /-- Within the constructor and within a callback, nothing else is to be resumed. -/
  oneThread : w.stage.atRest = false → outstanding log = (0, 0, 0) ∨ outstanding log = (0, 0, 1)
  /-- `Finish` is called at most once. -/
  finishesOnce : finishCalls log ≤ 1
  /-- Nothing comes after a call of `Finish`. -/
  finishLast : FinishLast log
  /-- The packet that is being written is the front of the queue. -/
  frontInFlight : writesInFlight log = 1 → ∃ packet rest,
    w.mPacketsQueue = packet :: rest ∧ (startedWrites log).getLast? = some packet
  /-- The packets are written in the order in which they were fetched, none twice and none left
  out. -/
  writtenInOrder : startedWrites log <+: fetchedPackets log
  /-- What was fetched and not yet written waits behind the write in flight. -/
  restWaits : writesInFlight log = 1 →
    fetchedPackets log = startedWrites log ++ w.mPacketsQueue.tail
  /-- The alarm is armed only when everything that was fetched is written. -/
  idleWritten : alarmsArmed log = 1 → fetchedPackets log = startedWrites log
  /-- The queue keeps its maximum. -/
  bounded : w.mPacketsQueue.length ≤ mMaximumWriteQueueSize
  /-- No batch makes the queue drop a packet. -/
  noDrop : w.stage = .fetch → ∀ packetsBuffer manager,
    s.mSubscriptionManager.getNextPackets w.contextAddress mMaximumWriteQueueSize =
      some (packetsBuffer, manager) → exceeds w.mPacketsQueue packetsBuffer = false

/-- The protocol of the write pump after a schedule, and at the next move. -/
structure PumpProtocol (options : BackendOptions)
    (moves : List (Lib.Move (Nat × Metadata) WriterEvent (BackendEvent π))) : Prop where
  safe : ∀ (i : Nat) (w : Writer π) (log : List (WriterEffect π)),
    (recordedRun options moves).threads[i]? = some (w, log) →
      PumpSafe (recordedRun options moves).shared w log
  /-- The steps of a constructor or a callback bring it nearer to its end, and no other move takes
  it away. -/
  returns : ∀ (i : Nat) (w : Writer π) (log : List (WriterEffect π)) move,
    (recordedRun options moves).threads[i]? = some (w, log) → w.stage.atRest = false →
      ∃ w' log', (recordedRun options (moves ++ [move])).threads[i]? = some (w', log') ∧
        (move = .run i .proceed → w'.stage.stepsLeft < w.stage.stepsLeft) ∧
        (move ≠ .run i .proceed → w'.stage = w.stage)
  /-- The queue does not change before the write in flight has completed. -/
  queueKept : ∀ (i : Nat) (w : Writer π) (log : List (WriterEffect π)) move,
    (recordedRun options moves).threads[i]? = some (w, log) → writesInFlight log = 1 →
      move ≠ .run i (.writeDone true) →
      ∃ w' log', (recordedRun options (moves ++ [move])).threads[i]? = some (w', log') ∧
        w'.mPacketsQueue = w.mPacketsQueue

/-- What is outstanding at a point of rest, and what within a callback. -/
theorem PumpInv.outstanding_cases (h : PumpInv w log) :
    (w.stage.atRest = true →
      outstanding log = (1, 0, 0) ∨ outstanding log = (0, 1, 0) ∨ outstanding log = (0, 0, 1)) ∧
    (w.stage.atRest = false → outstanding log = (0, 0, 0) ∨ outstanding log = (0, 0, 1)) := by
  rw [h.balance]
  cases hs : w.stage with
  | writing | idle | finished | deleted =>
    exact ⟨fun _ ↦ by simp [WriterStage.outstanding, WriterStage.inFlight, WriterStage.armed,
      WriterStage.finishes], nofun⟩
  | exchange status | unsubscribeRunning status | unsubscribe status =>
    refine ⟨nofun, fun _ ↦ ?_⟩
    cases status with
    | none => exact Or.inr rfl
    | some status => exact Or.inl rfl
  | authenticate | loadSize | loadRunning | subscribe | storeSubscribed | countSubscribers
  | pump | pumpCancelled | stopCancelled | fetchRunning | fetch =>
    exact ⟨nofun, fun _ ↦ Or.inl rfl⟩
  | countDone => exact ⟨nofun, fun _ ↦ Or.inr rfl⟩

theorem PumpInv.writing (h : PumpInv w log) (hw : writesInFlight log = 1) :
    w.stage = .writing := by
  have hs : w.stage.inFlight = 1 := by
    rw [← hw]
    exact (congrArg Prod.fst h.balance).symm
  unfold WriterStage.inFlight at hs
  split at hs
  · assumption
  · cases hs

theorem PumpInv.idle (h : PumpInv w log) (ha : alarmsArmed log = 1) : w.stage = .idle := by
  have hs : w.stage.armed = 1 := by
    rw [← ha]
    exact (congrArg (fun n : Int × Int × Int ↦ n.2.1) h.balance).symm
  unfold WriterStage.armed at hs
  split at hs
  · assumption
  · cases hs

/-- The protocol holds of a writer that agrees with its log. -/
theorem PumpInv.safe (h : PumpInv w log) (s : BackendState π) : PumpSafe s w log where
  oneContinuation := h.outstanding_cases.1
  oneThread := h.outstanding_cases.2
  finishesOnce := by
    have hcalls : finishCalls log = w.stage.finishes :=
      congrArg (fun n : Int × Int × Int ↦ n.2.2) h.balance
    rw [hcalls]
    unfold WriterStage.finishes
    split <;> simp
  finishLast := h.last
  frontInFlight hw := by
    rw [h.packets.written]
    exact h.packets.front (h.writing hw)
  writtenInOrder := by
    rw [h.packets.written]
    exact (List.prefix_append _ _).trans h.packets.fetched
  restWaits hw := by
    have hs := h.writing hw
    rw [h.packets.kept (by rw [hs]; rfl), h.packets.written]
    simp only [Writer.given, Writer.toSend, hs]
  idleWritten ha := by
    have hs := h.idle ha
    rw [h.packets.kept (by rw [hs]; rfl), h.packets.written,
      given_of_holding (by rw [hs]; rfl) (by rw [hs]; rintro ⟨⟩),
      h.packets.empty (Or.inr (Or.inr hs)), List.append_nil]
  bounded := h.packets.bounded
  noDrop hs _ _ hm := (h.packets.pushPackets_eq hs hm).2

/-- What becomes of a writer at the next move: its own step, or nothing. -/
theorem recordedRun_append {moves : List (Lib.Move (Nat × Metadata) WriterEvent (BackendEvent π))}
    {i : Nat} (ht : (recordedRun options moves).threads[i]? = some (w, log)) (move) :
    (∃ event s' w', move = .run i event ∧
      WriterStep options (recordedRun options moves).shared w event s' w' ∧
      (recordedRun options (moves ++ [move])).threads[i]? =
        some (w', log ++ writerEffects options (recordedRun options moves).shared w event)) ∨
    ((∀ event, move ≠ .run i event) ∧
      (recordedRun options (moves ++ [move])).threads[i]? = some (w, log)) := by
  have hrun : recordedRun options (moves ++ [move]) =
      (recordedSubscribers options).step (recordedRun options moves) move :=
    Lib.Program.after_append moves [move]
  rw [hrun]
  by_cases hmove : ∃ event, move = .run i event
  · obtain ⟨event, rfl⟩ := hmove
    exact Or.inl ⟨event, _, _, rfl, writer_step options _ w event,
      Lib.Program.getElem?_step_run ht event⟩
  · rw [not_exists] at hmove
    exact Or.inr ⟨hmove, Lib.Program.getElem?_step_of_ne ht hmove⟩

/-- The write pump keeps its protocol in every schedule. -/
theorem pump_protocol (options : BackendOptions)
    (moves : List (Lib.Move (Nat × Metadata) WriterEvent (BackendEvent π))) :
    PumpProtocol options moves where
  safe i w log ht := (pumpInv_recordedRun options moves ht).safe _
  returns i w log move ht hrest := by
    rcases recordedRun_append ht move with ⟨event, s', w', rfl, hstep, ht'⟩ | ⟨hmove, ht'⟩
    · refine ⟨w', _, ht', ?_, ?_⟩
      · intro he
        cases he
        exact hstep.stepsLeft_lt hrest
      · intro hne
        exact hstep.stage_eq hrest fun he ↦ hne (he ▸ rfl)
    · exact ⟨w, log, ht', fun he ↦ (hmove _ he).elim, fun _ ↦ rfl⟩
  queueKept i w log move ht hw hne := by
    rcases recordedRun_append ht move with ⟨event, s', w', rfl, hstep, ht'⟩ | ⟨hmove, ht'⟩
    · have hs := (pumpInv_recordedRun options moves ht).writing hw
      exact ⟨w', _, ht', hstep.mPacketsQueue_eq hs fun he ↦ hne (he ▸ rfl)⟩
    · exact ⟨w, log, ht', rfl⟩

end ImportProxy.Backend
