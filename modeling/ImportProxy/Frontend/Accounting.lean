import ImportProxy.Frontend.Publishers

/-!
# Publisher accounting

Between `start` and `stop` the counter of publishers is the number of admitted
RPCs whose `OnDone` has not run, as long as no rejected RPC subtracts from it:
`OnDone` does so for every RPC (`src/frontend.cpp:276–295`), while only the
admitted ones have added to it (`src/frontend.cpp:132`).
-/

namespace ImportProxy.Frontend

open ImportProxy.Base

/-- The frontend after a schedule. -/
def reached (options : FrontendOptions)
    (moves : List (Lib.Move Metadata ReadEvent FrontendEvent)) :
    Lib.Pool FrontendState PublishRpc := (publishers options).after started moves

/-- The number of admitted RPCs whose `OnDone` has not returned. -/
def unfinishedPublishers (s : Lib.Pool FrontendState PublishRpc) : Nat :=
  s.threads.countP PublishRpc.unfinished

/-- No constructor and no `OnDone` is midway. -/
def Quiescent (s : Lib.Pool FrontendState PublishRpc) : Prop := ∀ rpc ∈ s.threads, rpc.AtRest

instance (s : Lib.Pool FrontendState PublishRpc) : Decidable (Quiescent s) :=
  inferInstanceAs (Decidable (∀ rpc ∈ s.threads, rpc.AtRest))

/-- The counter, and what the getter reports, is the number of unfinished publishers when the
frontend is quiescent, and the steps of a rejected RPC have added up to zero. -/
def Accounted (options : FrontendOptions)
    (moves : List (Lib.Move Metadata ReadEvent FrontendEvent)) : Prop :=
  (Quiescent (reached options moves) →
    (reached options moves).shared.mNumberOfPublishers =
        unfinishedPublishers (reached options moves) ∧
      getNumberOfPublishers (reached options moves) =
        unfinishedPublishers (reached options moves)) ∧
  ∀ (i : Nat) (rpc : PublishRpc), (reached options moves).threads[i]? = some rpc →
    rpc.rejected = true →
    (publishers options).changeBy FrontendState.mNumberOfPublishers i started moves = 0

/-- The accounting is right at every point of the run. -/
def AccountedThroughout (options : FrontendOptions)
    (moves : List (Lib.Move Metadata ReadEvent FrontendEvent)) : Prop :=
  ∀ before rest, moves = before ++ rest → Accounted options before

/-- No rejected RPC has subtracted from the counter. -/
def NoneReleased (s : Lib.Pool FrontendState PublishRpc) : Prop :=
  ∀ rpc ∈ s.threads, rpc.rejected = true → rpc.released = false

/-- The move is a rejected RPC's subtraction from the counter. -/
def rejectedReleases (s : Lib.Pool FrontendState PublishRpc) :
    Lib.Move Metadata ReadEvent FrontendEvent → Bool
  | .run i _ =>
    match s.threads[i]? with
    | some rpc => rpc.rejected && rpc.stage == .release
    | none => false
  | _ => false

section

variable {options : FrontendOptions} {moves : List (Lib.Move Metadata ReadEvent FrontendEvent)}

/-- No RPC has arrived yet. -/
theorem holds_started :
    Lib.Program.Holds (fun _ ↦ True) (fun s _ rpc ↦ PublishInv s rpc) started :=
  ⟨trivial, by simp [started]⟩

/-- The histories of all RPCs agree with their stages. -/
theorem publishInv_reached (options : FrontendOptions)
    (moves : List (Lib.Move Metadata ReadEvent FrontendEvent)) {rpc : PublishRpc}
    (h : rpc ∈ (reached options moves).threads) :
    PublishInv (reached options moves).shared rpc :=
  ((weighs options).after holds_started moves).of_mem h

/-- The counter is the sum of what the RPCs have added to it. -/
theorem counter_eq_sum (options : FrontendOptions)
    (moves : List (Lib.Move Metadata ReadEvent FrontendEvent)) :
    (reached options moves).shared.mNumberOfPublishers =
      ((reached options moves).threads.map PublishRpc.weight).sum := by
  have hsum := (weighs options).sum_after holds_started moves
  have h0 : started.shared.mNumberOfPublishers - (started.threads.map PublishRpc.weight).sum = 0 :=
    rfl
  rw [h0] at hsum
  exact sub_eq_zero.mp hsum

/-- The steps of an RPC add up to its weight. -/
theorem changeBy_eq_weight {i : Nat} {rpc : PublishRpc}
    (h : (reached options moves).threads[i]? = some rpc) :
    (publishers options).changeBy FrontendState.mNumberOfPublishers i started moves =
      rpc.weight := by
  rw [(weighs options).changeBy_eq holds_started]
  change ((reached options moves).threads[i]?.map PublishRpc.weight).getD 0 - 0 = _
  rw [h, sub_zero]
  rfl

/-- Once it is finished or has subtracted, an RPC has added to the counter unless it was
rejected. -/
theorem PublishInv.registered_eq {s : FrontendState} {rpc : PublishRpc} (h : PublishInv s rpc)
    (hend : rpc.status ≠ none ∨ rpc.released = true) : rpc.registered = !rpc.rejected := by
  have hno (hx : rpc.released = false ∧ rpc.status = none) : False := by
    rcases hend with hstatus | hrel
    · exact hstatus hx.2
    · rw [hx.1] at hrel
      cases hrel
  apply h.finished
  cases hs : rpc.stage with
  | loadCounter | authenticate | register => exact (hno (h.early (by simp [hs])).2).elim
  | loadRunning | reading => exact (hno (h.admitted (by simp [hs])).2).elim
  | finished | release | reload | deleted => simp

/-- A rejected RPC has not added to the counter. -/
theorem PublishInv.registered_of_rejected {s : FrontendState} {rpc : PublishRpc}
    (h : PublishInv s rpc) (hr : rpc.rejected = true) : rpc.registered = false := by
  have hstatus : rpc.status ≠ none := by
    intro hnone
    simp [PublishRpc.rejected, hnone] at hr
  rw [h.registered_eq (Or.inl hstatus), hr]
  rfl

/-- At rest and while the frontend runs, an RPC weighs one exactly when it is unfinished, unless
it is a rejected one that has subtracted from the counter. -/
theorem PublishInv.weight_of_atRest {s : FrontendState} {rpc : PublishRpc} (h : PublishInv s rpc)
    (hrun : s.mKeepRunning = true) (hrest : rpc.AtRest)
    (hgood : rpc.rejected = true → rpc.released = false) :
    rpc.weight = if rpc.unfinished then 1 else 0 := by
  unfold PublishRpc.weight PublishRpc.unfinished
  rcases hrest with hs | hs | hs
  · have hadm := h.admitted (Or.inr hs)
    simp [hs, hadm]
  · have hrel := h.ended (Or.inl hs)
    simp [hs, hrel]
  · have hrel := h.deleted hs hrun
    have hreg := h.finished (Or.inr (Or.inr (Or.inr hs)))
    have hrej : rpc.rejected = false := by
      by_contra hx
      have hnot := hgood (by simpa using hx)
      rw [hrel] at hnot
      cases hnot
    simp [hs, hrel, hreg, hrej]

/-- While the frontend runs, the accounting is right exactly when no rejected RPC has subtracted
from the counter. -/
theorem accounted_iff (hrun : (reached options moves).shared.mKeepRunning = true) :
    Accounted options moves ↔ NoneReleased (reached options moves) := by
  have hinv {rpc : PublishRpc} (hmem : rpc ∈ (reached options moves).threads) :=
    publishInv_reached options moves hmem
  constructor
  · rintro ⟨-, hzero⟩ rpc hmem hrej
    obtain ⟨i, hi⟩ := List.mem_iff_getElem?.mp hmem
    have hw := hzero i rpc hi hrej
    rw [changeBy_eq_weight hi, PublishRpc.weight,
      (hinv hmem).registered_of_rejected hrej] at hw
    by_contra hrel
    simp [Bool.not_eq_false _ ▸ hrel] at hw
  · intro hgood
    constructor
    · intro hq
      have hsum := counter_eq_sum options moves
      rw [Lib.Program.sum_map_eq_countP fun rpc hmem ↦
        (hinv hmem).weight_of_atRest hrun (hq rpc hmem) (hgood rpc hmem)] at hsum
      refine ⟨hsum, ?_⟩
      rw [getNumberOfPublishers, hsum]
      exact max_eq_right (Int.natCast_nonneg _)
    · intro i rpc hi hrej
      have hmem := List.mem_of_getElem? hi
      rw [changeBy_eq_weight hi, PublishRpc.weight,
        (hinv hmem).registered_of_rejected hrej, hgood rpc hmem hrej]
      rfl

/-- A step lets a rejected RPC subtract exactly when it is the subtraction. -/
theorem PublishStep.released_iff {s s' : FrontendState} {rpc rpc' : PublishRpc}
    (h : PublishInv s rpc) (hstep : PublishStep options s rpc s' rpc') :
    (rpc'.rejected = true → rpc'.released = false) ↔
      (rpc.rejected = true → rpc.released = false) ∧
        (rpc.rejected && rpc.stage == .release) = false := by
  cases hstep with
  | belowMaximum hs hlt => simp [hs, PublishRpc.rejected]
  | validated hs hok => simp [hs, PublishRpc.rejected]
  | exhausted hs hge => simp [hs, PublishRpc.finish, h.early (Or.inl hs)]
  | refused hs hno => simp [hs, PublishRpc.finish, h.early (Or.inr (Or.inl hs))]
  | registered hs => simp [hs, PublishRpc.rejected]
  | reads hs hrun => simp [PublishRpc.rejected, h.admitted hs]
  | finishes status hs hother => simp [PublishRpc.finish, PublishRpc.rejected, h.admitted hs]
  | leaves hs hrun => simp [hs, PublishRpc.rejected]
  | leavesStopped hs hstop => simp [hs, PublishRpc.rejected]
  | released hs => simp [hs, PublishRpc.rejected, h.ended (Or.inr hs)]
  | reloaded hs => simp [hs, PublishRpc.rejected]
  | gone hs => simp [hs]

/-- A move keeps this exactly when it is not such a subtraction. -/
theorem noneReleased_step_iff {s : Lib.Pool FrontendState PublishRpc}
    (hs : Lib.Program.Holds (fun _ ↦ True) (fun s _ rpc ↦ PublishInv s rpc) s)
    (move : Lib.Move Metadata ReadEvent FrontendEvent) :
    NoneReleased ((publishers options).step s move) ↔
      NoneReleased s ∧ rejectedReleases s move = false := by
  unfold NoneReleased
  cases move with
  | spawn clientMetadata =>
    simp only [Lib.Program.step, rejectedReleases, and_true, List.forall_mem_append,
      List.forall_mem_singleton]
    exact and_iff_left (by simp [publishers])
  | env event => simp [Lib.Program.step, rejectedReleases]
  | run i event =>
    cases ht : s.threads[i]? with
    | none => simp [Lib.Program.step_run_none ht, rejectedReleases, ht]
    | some rpc =>
      have hstep := publish_step options s.shared rpc event
      simp only [Lib.Program.step_run ht, rejectedReleases, ht]
      exact Lib.Program.forall_mem_set_iff ht (hstep.released_iff (hs.2 i rpc ht))

/-- No rejected RPC has subtracted from the counter exactly when no step of the schedule was such
a subtraction. -/
theorem noneReleased_iff_along :
    NoneReleased (reached options moves) ↔
      Lib.Along (publishers options).step (fun s move ↦ rejectedReleases s move = false) started
        moves := by
  have hinit : NoneReleased started := nofun
  have hrun : NoneReleased (reached options moves) ↔ _ :=
    Lib.keeps_iff_along (Lib.Program.Holds (fun _ ↦ True) fun s _ rpc ↦ PublishInv s rpc)
      NoneReleased holds_started (fun _ move hs ↦ (weighs options).step hs move)
      fun _ move hs ↦ noneReleased_step_iff hs move
  rw [and_iff_right hinit] at hrun
  exact hrun

/-- Once stopped, the frontend does not run again. -/
theorem running_of_append {before rest : List (Lib.Move Metadata ReadEvent FrontendEvent)}
    (h : (reached options (before ++ rest)).shared.mKeepRunning = true) :
    (reached options before).shared.mKeepRunning = true := by
  by_contra hstop
  have hstable : (publishers options).Stable (fun s ↦ s.mKeepRunning = false)
      fun _ _ _ ↦ True := by
    constructor
    · exact fun _ _ _ _ ↦ trivial
    · intro s _ rpc event hs _
      exact ⟨(publish_step options s rpc event).mKeepRunning_eq.trans hs, trivial⟩
    · exact fun _ _ _ _ _ _ _ _ _ _ ↦ trivial
    · exact fun _ _ _ ↦ rfl
    · exact fun _ _ _ _ _ _ ↦ trivial
  have hafter := (hstable.after ⟨Bool.eq_false_of_not_eq_true hstop, fun _ _ _ ↦ trivial⟩
    rest).1
  rw [reached, Lib.Program.after_append] at h
  exact Bool.noConfusion (hafter.symm.trans h)

/-- In a run between `start` and `stop` the accounting is right throughout exactly when no
rejected RPC subtracts from the counter. -/
theorem accounted_throughout_iff
    (hrun : (reached options moves).shared.mKeepRunning = true) :
    AccountedThroughout options moves ↔
      Lib.Along (publishers options).step (fun s move ↦ rejectedReleases s move = false) started
        moves := by
  constructor
  · intro h
    rw [← noneReleased_iff_along]
    exact (accounted_iff hrun).mp (h moves [] (List.append_nil moves).symm)
  · rintro h before rest rfl
    rw [accounted_iff (running_of_append hrun), noneReleased_iff_along]
    exact (Lib.along_append.mp h).1

end

section Runs

/-- Options for a single publisher. -/
def onePublisher : FrontendOptions := { mMaximumNumberOfPublishers := .least 1 }

/-- One publisher comes and goes. -/
def comeAndGo : List (Lib.Move Metadata ReadEvent FrontendEvent) :=
  [.spawn [], .run 0 .message, .run 0 .message, .run 0 .message, .run 0 .message,
    .run 0 .endOfStream, .run 0 .message, .run 0 .message, .run 0 .message]

theorem accounted_comeAndGo : AccountedThroughout onePublisher comeAndGo :=
  (accounted_throughout_iff (by decide)).mpr (by decide)

/-- One publisher is admitted; a second one is rejected, and its `OnDone` runs. -/
def rejectSecond : List (Lib.Move Metadata ReadEvent FrontendEvent) :=
  [.spawn [], .run 0 .message, .run 0 .message, .run 0 .message, .run 0 .message,
    .spawn [], .run 1 .message, .run 1 .message, .run 1 .message, .run 1 .message]

/-- The admitted publisher is no longer counted. -/
theorem rejectSecond_unaccounted :
    FrontendOptions.setMaximumNumberOfPublishers {} 1 = some onePublisher ∧
      (reached onePublisher rejectSecond).shared.mKeepRunning = true ∧
      ¬AccountedThroughout onePublisher rejectSecond := by
  refine ⟨rfl, by decide, fun h ↦ ?_⟩
  have hcount := ((h rejectSecond [] (by decide)).1 (by decide)).1
  exact absurd hcount (by decide)

end Runs
end ImportProxy.Frontend
