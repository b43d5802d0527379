import ImportProxy.Backend.WindDown
import ImportProxy.Proxy.Main

/-!
# The last subscribers

`~BackendImpl` shuts its server down and waits for the `Subscribe` RPCs: `src/backend.cpp:671–697`.
The server hands over no new one, and the backend has been told to stop, so that each of them has
a bounded number of steps left. The steps that they have left together rank the wait.
-/

namespace ImportProxy.Proxy

open ImportProxy.Base
open ImportProxy.Backend (Wake Writer WriterEvent writerStep)

/-- The steps that the `Subscribe` RPC of a client has left. -/
def Client.stepsToEnd : Client → Nat
  | .connected (.subscriber w) => w.stepsToEnd
  | .connected (.publisher _) | .connecting _ => 0

/-- The steps that all of them have left. -/
def stepsLeft (s : Lib.Pool ServerImpl Client) : Nat := (s.threads.map Client.stepsToEnd).sum

/-- The one who moves while the main thread waits. -/
inductive AwaitMover where
  | main
  /-- The subscriber at position `i`, by a step of its own or by the completion of its write. -/
  | subscriber (i : Nat) (wake : Wake)
  deriving DecidableEq

/-- Who moves. -/
def awaitMover : Lib.Move Arrival PartyEvent MainEvent → Option AwaitMover
  | .env (.main _) => some .main
  | .run i (.subscriber .proceed) => some (.subscriber i .own)
  | .run i (.subscriber (.writeDone _)) => some (.subscriber i .completion)
  | .run _ (.subscriber .cancel) | .run _ (.publisher _) | .spawn _ | .env .propagator
  | .env .signal => none

/-- The step of the one brings the end of the wait nearer. -/
def AwaitHelps (s : Lib.Pool ServerImpl Client) : AwaitMover → Prop
  | .main => s.shared.subscribing = 0
  | .subscriber i wake => ∃ w : Writer Tagged,
    s.threads[i]? = some (.connected (.subscriber w)) ∧ w.stage ≠ .deleted ∧
      (wake = .completion ↔ w.stage = .writing)

/-- Only a subscriber that is counted has steps left. -/
theorem Client.stepsToEnd_eq_zero {client : Client} :
    client.stepsToEnd = 0 ↔ client.subscribing = false := by
  cases client with
  | connecting arrival => exact ⟨fun _ ↦ rfl, fun _ ↦ rfl⟩
  | connected party =>
    cases party with
    | publisher publisher => exact ⟨fun _ ↦ rfl, fun _ ↦ rfl⟩
    | subscriber w =>
      have hzero : w.stepsToEnd = 0 ↔ w.stage = .deleted := Backend.stepsToEnd_eq_zero
      simp [Client.stepsToEnd, Client.subscribing, hzero]

theorem awaitMover_eq_main {move : Lib.Move Arrival PartyEvent MainEvent} :
    awaitMover move = some .main ↔ ∃ now, move = .env (.main now) := by
  cases move with
  | spawn arrival => simp [awaitMover]
  | env event => cases event <;> simp [awaitMover]
  | run i event =>
    cases event with
    | publisher read => simp [awaitMover]
    | subscriber own => cases own <;> simp [awaitMover]

/-- Exactly the moves of the kind that the subscriber waits for resume it. -/
theorem awaitMover_iff {i : Nat} {wake : Wake} {w : Writer Tagged}
    {move : Lib.Move Arrival PartyEvent MainEvent}
    (hwake : wake = .completion ↔ w.stage = .writing) :
    awaitMover move = some (.subscriber i wake) ↔
      ∃ own, move = .run i (.subscriber own) ∧ w.resumes own = true := by
  cases move with
  | spawn arrival => simp [awaitMover]
  | env event => cases event <;> simp [awaitMover]
  | run j event =>
    cases event with
    | publisher read => simp [awaitMover]
    | subscriber own =>
      cases own with
      | cancel => simp [awaitMover, Writer.resumes]
      | proceed => cases wake <;> simp [awaitMover, Writer.resumes, ← hwake]
      | writeDone ok => cases wake <;> simp [awaitMover, Writer.resumes, ← hwake]

/-- What a step makes of a subscriber that has been told to end. -/
structure SubscriberStep (event : PartyEvent) (w w' : Writer Tagged) : Prop where
  stepsToEnd_le : w'.stepsToEnd ≤ w.stepsToEnd
  stepsToEnd_lt : ∀ own, event = .subscriber own → w.resumes own = true → w.stage ≠ .deleted →
    w'.stepsToEnd < w.stepsToEnd
  /-- Only what it waits for moves it. -/
  waits : (∀ own, event = .subscriber own → w.resumes own = false) → w'.stage = w.stage

/-- Every step of a subscriber of a stopped backend is such a step. -/
theorem partyStep_subscriber {s : ProxyState} (hstop : s.backend.mKeepRunning = false)
    (options : ProxyOptions) (i : Nat) (w : Writer Tagged) (event : PartyEvent) :
    ∃ w', (partyStep options s i (.subscriber w) event).2 = .subscriber w' ∧
      SubscriberStep event w w' := by
  cases event with
  | publisher read => exact ⟨w, rfl, Nat.le_refl _, (fun own he ↦ by cases he), fun _ ↦ rfl⟩
  | subscriber own =>
    have hstep := Backend.writer_step options.getBackendOptions s.backend w own
    obtain ⟨hle, hlt⟩ := hstep.stepsToEnd_le (Or.inl hstop)
    refine ⟨_, rfl, hle, ?_, ?_⟩
    · intro other he
      cases he
      exact hlt
    · exact fun hno ↦ Backend.stage_writerStep options.getBackendOptions s.backend (hno own rfl)

variable [Platform] {options : ProxyOptions}

/-- No client gets steps to take when the backend has been told to stop and its server has been shut
down. -/
theorem clientStep_stepsToEnd_le {s : ServiceState} (hserver : s.backendServer ≠ .listening)
    (hstop : s.proxy.backend.mKeepRunning = false) (options : ProxyOptions) (i : Nat)
    (client : Client) (event : PartyEvent) :
    (clientStep options s i client event).2.stepsToEnd ≤ client.stepsToEnd := by
  cases client with
  | connecting arrival =>
    unfold clientStep
    dsimp only
    split
    · next hl =>
      cases arrival with
      | publish clientMetadata => exact Nat.le_refl 0
      | subscribe contextAddress clientMetadata => exact absurd hl hserver
    · exact Nat.le_refl 0
  | connected party =>
    cases party with
    | publisher publisher => cases event <;> exact Nat.le_refl 0
    | subscriber w =>
      obtain ⟨w', hw', hstep⟩ := partyStep_subscriber hstop options i w event
      show (Client.connected (partyStep options s.proxy i (.subscriber w) event).2).stepsToEnd ≤ _
      rw [hw']
      exact hstep.stepsToEnd_le

/-- A step of a client and the rank. -/
theorem stepsLeft_run (options : ProxyOptions) {s : Lib.Pool ServerImpl Client} {i : Nat}
    {client : Client} (ht : s.threads[i]? = some client) (event : PartyEvent) :
    stepsLeft ((program options).step s (.run i event)) + client.stepsToEnd =
      stepsLeft s + (clientStep options s.shared.mProxy i client event).2.stepsToEnd := by
  rw [Lib.Program.step_run ht]
  exact Lib.Program.sum_map_set_add ht

/-- The main thread waits for the subscribers, or has done so. -/
structure Departing (options : ProxyOptions) (s : Lib.Pool ServerImpl Client) : Prop where
  inv : MainInv options s
  awaits : s.shared.stage.awaits = true

namespace Departing

variable {s : Lib.Pool ServerImpl Client}

theorem server (h : Departing options s) : s.shared.mProxy.backendServer ≠ .listening :=
  h.inv.closes h.awaits

/-- The backend has been told to stop. -/
theorem stopped (h : Departing options s) :
    s.shared.mProxy.proxy.backend.mKeepRunning = false := by
  have hsettled := h.inv.server.settled_of_hasReturned (MainStage.hasReturned_of_awaits h.awaits)
  have hstage : s.shared.mProxy.proxy.backend.stopStage = .cleared := hsettled.2.1
  rw [h.inv.server.proxy.flags.running, hstage]
  rfl

/-- The main thread waits as long as a subscriber has steps left. -/
theorem subscribing_eq_zero (h : Departing options s) :
    s.shared.subscribing = 0 ↔ stepsLeft s = 0 := by
  have hcount : (s.threads.map Client.subscription).sum = s.threads.countP Client.subscribing :=
    Lib.Program.sum_map_eq_countP fun _ _ ↦ rfl
  have hzero : s.shared.subscribing = 0 ↔ s.threads.countP Client.subscribing = 0 := by
    have hcounted := h.inv.counted
    omega
  rw [hzero, List.countP_eq_zero, stepsLeft, List.sum_eq_zero_iff_forall_eq_nat]
  simp [Client.stepsToEnd_eq_zero]

/-- No move leaves the subscribers more steps. -/
theorem stepsLeft_step (h : Departing options s) (move : Lib.Move Arrival PartyEvent MainEvent) :
    stepsLeft ((program options).step s move) ≤ stepsLeft s := by
  cases move with
  | env event => exact Nat.le_refl _
  | spawn arrival =>
    show ((s.threads ++ [Client.connecting arrival]).map Client.stepsToEnd).sum ≤ _
    rw [List.map_append, List.sum_append]
    exact Nat.le_refl _
  | run i event =>
    cases ht : s.threads[i]? with
    | none => rw [Lib.Program.step_run_none ht]
    | some client =>
      have hsum := stepsLeft_run options ht event
      have hle := clientStep_stepsToEnd_le h.server h.stopped options i client event
      omega

/-- The main thread goes on when no subscriber is left. -/
theorem main_step (h : Departing options s) (hne : s.shared.stage ≠ .exited) (now : Int) :
    (s.shared.step now).stage =
      if s.shared.subscribing = 0 then .exited else .awaitSubscribers := by
  have hawaits := h.awaits
  unfold ServerImpl.step
  cases hs : s.shared.stage with
  | awaitSubscribers =>
    dsimp only
    split
    · rfl
    · exact hs
  | exited => exact absurd hs hne
  | _ =>
    rw [hs] at hawaits
    cases hawaits

/-- A program that has ended stays so. -/
theorem exited_step (h : Departing options s) (hs : s.shared.stage = .exited)
    (move : Lib.Move Arrival PartyEvent MainEvent) :
    ((program options).step s move).shared.stage = .exited := by
  by_cases hmain : ∃ now, move = .env (.main now)
  · obtain ⟨now, rfl⟩ := hmain
    show (s.shared.step now).stage = .exited
    unfold ServerImpl.step
    rw [hs]
    exact hs
  · rw [(h.inv.other_step fun now he ↦ hmain ⟨now, he⟩).1]
    exact hs

/-- Every move keeps the wait, or ends it. -/
theorem step (h : Departing options s) (move : Lib.Move Arrival PartyEvent MainEvent) :
    Departing options ((program options).step s move) := by
  refine ⟨h.inv.step move, ?_⟩
  by_cases hexited : s.shared.stage = .exited
  · rw [h.exited_step hexited move]
    rfl
  · by_cases hmain : ∃ now, move = .env (.main now)
    · obtain ⟨now, rfl⟩ := hmain
      show (s.shared.step now).stage.awaits = true
      rw [h.main_step hexited now]
      split <;> rfl
    · rw [(h.inv.other_step fun now he ↦ hmain ⟨now, he⟩).1]
      exact h.awaits

/-- Somebody's step brings the end of the wait nearer. -/
theorem exists_helps (h : Departing options s) : ∃ a, AwaitHelps s a := by
  by_cases hzero : s.shared.subscribing = 0
  · exact ⟨.main, hzero⟩
  · have hsteps : stepsLeft s ≠ 0 := fun hx ↦ hzero (h.subscribing_eq_zero.mpr hx)
    obtain ⟨steps, hmem, hne⟩ := List.exists_mem_ne_zero_of_sum_ne_zero hsteps
    obtain ⟨client, hclient, rfl⟩ := List.mem_map.mp hmem
    obtain ⟨i, hi⟩ := List.mem_iff_getElem?.mp hclient
    cases client with
    | connecting arrival => exact absurd rfl hne
    | connected party =>
      cases party with
      | publisher publisher => exact absurd rfl hne
      | subscriber w =>
        have hdeleted : w.stage ≠ .deleted := fun hs ↦ hne (Backend.stepsToEnd_eq_zero.mpr hs)
        by_cases hs : w.stage = .writing
        · exact ⟨.subscriber i .completion, w, hi, hdeleted, by simp [hs]⟩
        · exact ⟨.subscriber i .own, w, hi, hdeleted, by simp [hs]⟩

end Departing

/-- The steps that the subscribers have left rank the wait of the main thread. -/
theorem ranked_awaiting (options : ProxyOptions) :
    Lib.Ranked (program options).step awaitMover (Departing options)
      (fun s ↦ s.shared.stage = .exited) AwaitHelps stepsLeft where
  inv_step s move h := h.step move
  done_step s move h hd := h.exited_step hd move
  rank_step s move h _ := Or.inr (h.stepsLeft_step move)
  exists_helps s h _ := h.exists_helps
  helped s move a h hd ha hmove := by
    cases a with
    | main =>
      obtain ⟨now, rfl⟩ := awaitMover_eq_main.mp hmove
      exact Or.inl ((h.main_step hd now).trans (if_pos ha))
    | subscriber i wake =>
      obtain ⟨w, ht, hdeleted, hwake⟩ := ha
      obtain ⟨own, rfl, hresumes⟩ := (awaitMover_iff hwake).mp hmove
      obtain ⟨w', hw', hstep⟩ := partyStep_subscriber h.stopped options i w (.subscriber own)
      have hsum := stepsLeft_run options ht (.subscriber own)
      have hafter : (clientStep options s.shared.mProxy i (.connected (.subscriber w))
          (.subscriber own)).2 = .connected (.subscriber w') := congrArg Client.connected hw'
      have hlt := hstep.stepsToEnd_lt own rfl hresumes hdeleted
      rw [hafter] at hsum
      simp only [Client.stepsToEnd] at hsum
      right
      omega
  kept s move a h hd ha hmove := by
    right; right
    cases a with
    | main =>
      have hle := h.stepsLeft_step move
      rw [h.subscribing_eq_zero.mp ha, Nat.le_zero] at hle
      exact (h.step move).subscribing_eq_zero.mpr hle
    | subscriber i wake =>
      obtain ⟨w, ht, hdeleted, hwake⟩ := ha
      by_cases hown : ∃ event, move = .run i event
      · obtain ⟨event, rfl⟩ := hown
        obtain ⟨w', hw', hstep⟩ := partyStep_subscriber h.stopped options i w event
        have hsame : w'.stage = w.stage := hstep.waits fun own he ↦ by
          by_contra hresumes
          exact hmove ((awaitMover_iff hwake).mpr ⟨own, by rw [he], by simpa using hresumes⟩)
        refine ⟨w', ?_, hsame ▸ hdeleted, hsame ▸ hwake⟩
        rw [Lib.Program.getElem?_step_run ht event]
        exact congrArg (fun party ↦ some (Client.connected party)) hw'
      · exact ⟨w, Lib.Program.getElem?_step_of_ne ht fun event he ↦ hown ⟨event, he⟩,
          hdeleted, hwake⟩

end ImportProxy.Proxy
