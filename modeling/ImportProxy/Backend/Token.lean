import ImportProxy.Backend.Lifecycle

/-!
# The token of a subscriber

The constructor of an `AsynchronousWriter` lets no RPC past its first test whose
metadata do not carry the access token, and every RPC that carries it subscribes
and gets to pump unless the maximum is hit or the server has stopped
(`src/backend.cpp:46–62,355–424`).
-/

namespace ImportProxy.Backend

open ImportProxy.Base

universe u

variable {π : Type u} {options : BackendOptions} {token : Bytes} {s s' : BackendState π}
  {w w' : Writer π} {event : WriterEvent} {log : List (WriterEffect π)}

/-- `setGRPCOptions`; `src/backendOptions.cpp:55–58`. -/
def BackendOptions.setGRPCOptions (options : BackendOptions) (grpcOptions : GRPCOptions) :
    BackendOptions := { options with mGRPCOptions := grpcOptions }

/-- The RPC has got past the test of its token. -/
def Writer.authenticated (w : Writer π) : Bool :=
  w.stage != .authenticate && w.status != some subscriberNotValidated

/-- What the constructor requires of the server at its next step. -/
def admits (options : BackendOptions) (s : BackendState π)
    (t : Writer π × List (WriterEffect π)) : Bool :=
  match t.1.stage with
  | .loadSize => decide (s.mSubscriptionManager.getNumberOfSubscribers <
      options.getMaximumNumberOfSubscribers)
  | .loadRunning => s.mSubscriptionManager.mKeepRunning
  | _ => true

/-- The steps of a constructor are its own, and no cancellation. -/
def countProceed : WriterEvent → Nat
  | .proceed => 1
  | .writeDone _ | .cancel => 0

/-- The token is enforced on the subscribers. -/
structure TokenEnforced (π : Type u) (options : BackendOptions) (token : Bytes) : Prop where
  /-- In every schedule, an RPC that is past the test, or is subscribed, carries the token. -/
  enforced : ∀ moves, ∀ t ∈ (recordedRun (π := π) options moves).threads,
    t.1.authenticated = true ∨ .subscribed ∈ t.2 → (accessTokenKey, token) ∈ t.1.clientMetadata
  /-- An RPC that carries the token, and finds the maximum not hit and the manager running, is
  subscribed and pumps after the six steps of its constructor. -/
  admitted : ∀ before contextAddress clientMetadata moves,
    (accessTokenKey, token) ∈ clientMetadata →
    Lib.Along (recordedSubscribers (π := π) options).step (fun s move ↦ Lib.Program.meets
      (admits options) (recordedRun (π := π) options before).threads.length s move = true)
      (recordedRun options (before ++ [.spawn (contextAddress, clientMetadata)])) moves →
    Lib.Program.ownSteps countProceed (recordedRun (π := π) options before).threads.length moves =
      6 →
    ∃ w log, (recordedRun (π := π) options
        (before ++ .spawn (contextAddress, clientMetadata) :: moves)).threads[
          (recordedRun (π := π) options before).threads.length]? = some (w, log) ∧
      w.clientMetadata = clientMetadata ∧ .subscribed ∈ log ∧ w.stage = .pump

/-- The RPC is none that the test refuses, once it is past the test or has subscribed. -/
structure NotRefused (options : BackendOptions) (w : Writer π) (log : List (WriterEffect π)) :
    Prop where
  passed : w.stage ≠ .authenticate →
    w.stage.finishes = 0 ∨ w.status ≠ some subscriberNotValidated →
      options.refuses w.clientMetadata = false
  subscribed : .subscribed ∈ log → options.refuses w.clientMetadata = false

/-- A subscription is logged by the locked section of `subscribe`. -/
theorem StepEffects.stage_of_subscribed_mem {effects : List (WriterEffect π)}
    (heffects : StepEffects w effects) (h : .subscribed ∈ effects) : w.stage = .subscribe := by
  rw [subscribed_mem_iff] at h
  cases heffects with
  | subscribes hs => exact hs
  | none | rejects | alarm | writeDone => exact (h rfl).elim
  | sends => exact (h (entries_send w).1).elim
  | fetches => exact (h (entries_send _).1).elim
  | leaves status => exact (h (entries_leave status).1).elim
  | unsubscribes status => exact (h (entries_leave status).1).elim

/-- Every step keeps an RPC that is not to be refused, and lets no other one past the test. -/
theorem NotRefused.step (h : NotRefused options w log)
    (hstep : WriterStep options s w event s' w') :
    NotRefused options w' (log ++ writerEffects options s w event) := by
  have hpassed := h.passed
  refine ⟨?_, ?_⟩
  · rw [hstep.clientMetadata_eq]
    cases hstep with
    | refused hs hno =>
      intro _ hstatus
      rcases hstatus with hzero | hother
      · cases hzero
      · exact (hother rfl).elim
    | validated hs hok => exact fun _ _ ↦ hok
    | takesSubscribed status hs | notSubscribed status hs | unsubscribes status hs
    | unsubscribesStopped status hs | unsubscribed status hs =>
      cases status with
      | none =>
        exact fun _ hstatus ↦ hpassed (by rw [hs]; nofun) (Or.inr (hstatus.resolve_left nofun))
      | some status => exact fun _ _ ↦ hpassed (by rw [hs]; nofun) (Or.inl (by rw [hs]; rfl))
    | done hs | deleted hs =>
      exact fun _ hstatus ↦ hpassed (by rw [hs]; nofun) (Or.inr (hstatus.resolve_left nofun))
    | cancel | waits | notWriting => exact hpassed
    | exhausted hs | belowMaximum hs | subscribes hs | subscribesStopped hs | failed hs
    | subscribed _ hs | stored hs | counted hs | pumps hs | pumpsStopped hs | pumpsCancelled hs
    | queueEmpty hs | sendsQueued hs | stops hs | fetches hs | fetchesStopped hs | fetchFailed hs
    | fetched _ _ hs | alarm hs | writeDone _ hs =>
      exact fun _ _ ↦ hpassed (by rw [hs]; nofun) (Or.inl (by rw [hs]; rfl))
  · intro hmem
    rw [hstep.clientMetadata_eq]
    rcases List.mem_append.mp hmem with hmem | hmem
    · exact h.subscribed hmem
    · have hs := (step_effects options s w event).stage_of_subscribed_mem hmem
      exact hpassed (by rw [hs]; nofun) (Or.inl (by rw [hs]; rfl))

theorem notRefused_stable (options : BackendOptions) :
    Lib.Program.Stable (recordedSubscribers (π := π) options) (fun _ ↦ True)
      (fun _ _ t ↦ NotRefused options t.1 t.2) where
  start _ _ _ _ := ⟨fun hs ↦ (hs rfl).elim, nofun⟩
  act s _ t event _ h := ⟨trivial, h.step (writer_step options s t.1 event)⟩
  other _ _ _ _ _ _ _ _ _ h := h
  env _ _ _ := trivial
  envThread _ _ _ _ _ h := h

/-- The capacity with which streams are made stays that of the options. -/
theorem WriterStep.mQueueCapacity_eq (hstep : WriterStep options s w event s' w') :
    s'.mSubscriptionManager.mQueueCapacity = s.mSubscriptionManager.mQueueCapacity := by
  cases hstep with
  | subscribed manager hs hm => exact (SubscriptionManager.subscribe_members hm).2
  | fetched packetsBuffer manager hs hm =>
    obtain ⟨stream, -, -, rfl⟩ := SubscriptionManager.getNextPackets_eq_some_iff.mp hm
    rfl
  | refused | validated | exhausted | belowMaximum | subscribes | subscribesStopped | failed
  | stored | counted | pumps | pumpsStopped | pumpsCancelled | queueEmpty | sendsQueued | stops
  | fetches | fetchesStopped | fetchFailed | alarm | takesSubscribed | notSubscribed
  | unsubscribes | unsubscribesStopped | unsubscribed | done | deleted | writeDone | cancel
  | waits | notWriting => rfl

theorem backendEvent_mQueueCapacity (s : BackendState π) (e : BackendEvent π) :
    (backendEvent s e).mSubscriptionManager.mQueueCapacity =
      s.mSubscriptionManager.mQueueCapacity := by
  cases e with
  | enqueuePacket packet => rfl
  | stop =>
    unfold backendEvent stopStep
    cases s.stopStage <;> rfl

/-- A positive capacity makes every subscription succeed. -/
theorem exists_subscribe {manager : SubscriptionManager π} (h : 1 ≤ manager.mQueueCapacity)
    (contextAddress : Nat) : ∃ manager', manager.subscribe contextAddress = some manager' := by
  have hnew : ∃ packetStream : PacketStream π,
      PacketStream.new manager.mQueueCapacity = some packetStream := by
    unfold PacketStream.new
    rw [dif_neg (not_lt.mpr h)]
    exact ⟨_, rfl⟩
  obtain ⟨packetStream, hnew⟩ := hnew
  unfold SubscriptionManager.subscribe
  cases manager.mSubscribers[contextAddress]? with
  | some stream => exact ⟨_, rfl⟩
  | none =>
    rw [hnew]
    exact ⟨_, rfl⟩

/-- An RPC after `n` steps of its constructor. -/
def Constructed (clientMetadata : Metadata) (n : Nat) (t : Writer π × List (WriterEffect π)) :
    Prop :=
  t.1.clientMetadata = clientMetadata ∧ (4 ≤ n → .subscribed ∈ t.2) ∧
    [WriterStage.authenticate, .loadSize, .loadRunning, .subscribe, .storeSubscribed,
      .countSubscribers, .pump][n]? = some t.1.stage

/-- Each step of a constructor that is not to be refused leads to the next one. -/
theorem constructed_step {clientMetadata : Metadata} {n : Nat}
    (hcapacity : 1 ≤ s.mSubscriptionManager.mQueueCapacity)
    (hok : options.refuses clientMetadata = false) (hadmits : admits options s (w, log) = true)
    (h : Constructed clientMetadata n (w, log)) (hn : n + 1 ≤ 6) :
    Constructed clientMetadata (n + 1)
      ((writerStep options s w .proceed).2, log ++ writerEffects options s w .proceed) := by
  obtain ⟨rfl, hlog, hstage⟩ := h
  unfold admits at hadmits
  unfold writerStep proceed writerEffects proceedEffects
  match n, hn with
  | 0, _ =>
    have hs : w.stage = .authenticate := (Option.some.inj hstage).symm
    simp only [hs, hok, Bool.false_eq_true, if_false]
    exact ⟨rfl, nofun, rfl⟩
  | 1, _ =>
    have hs : w.stage = .loadSize := (Option.some.inj hstage).symm
    simp only [hs, decide_eq_true_eq] at hadmits ⊢
    rw [if_neg (not_le.mpr hadmits)]
    exact ⟨rfl, nofun, rfl⟩
  | 2, _ =>
    have hs : w.stage = .loadRunning := (Option.some.inj hstage).symm
    simp only [hs] at hadmits ⊢
    rw [if_pos hadmits]
    exact ⟨rfl, nofun, rfl⟩
  | 3, _ =>
    have hs : w.stage = .subscribe := (Option.some.inj hstage).symm
    obtain ⟨manager, hm⟩ := exists_subscribe hcapacity w.contextAddress
    simp only [hs, hm]
    exact ⟨rfl, fun _ ↦ List.mem_append_right _ List.mem_cons_self, rfl⟩
  | 4, _ =>
    have hs : w.stage = .storeSubscribed := (Option.some.inj hstage).symm
    simp only [hs]
    exact ⟨rfl, fun _ ↦ List.mem_append_left _ (hlog (Nat.le_refl 4)), rfl⟩
  | 5, _ =>
    have hs : w.stage = .countSubscribers := (Option.some.inj hstage).symm
    simp only [hs]
    exact ⟨rfl, fun _ ↦ List.mem_append_left _ (hlog (by decide)), rfl⟩

/-- A cancellation does not stop a constructor, and no write completes in it. -/
theorem constructed_other {clientMetadata : Metadata} {n : Nat} (hne : event ≠ .proceed)
    (h : Constructed clientMetadata n (w, log)) :
    Constructed clientMetadata n
      ((writerStep options s w event).2, log ++ writerEffects options s w event) := by
  obtain ⟨rfl, hlog, hstage⟩ := h
  cases event with
  | proceed => exact (hne rfl).elim
  | cancel => exact ⟨rfl, fun hn ↦ List.mem_append_left _ (hlog hn), hstage⟩
  | writeDone ok =>
    have hs : w.stage ≠ .writing := by
      intro hs
      rw [hs] at hstage
      have hmem := List.mem_of_getElem? hstage
      simp at hmem
    simp only [writerStep, writerEffects, if_neg hs, List.append_nil]
    exact ⟨rfl, hlog, hstage⟩

theorem mQueueCapacity_reached (options : BackendOptions)
    (moves : List (Lib.Move (Nat × Metadata) WriterEvent (BackendEvent π))) :
    1 ≤ (recordedRun options moves).shared.mSubscriptionManager.mQueueCapacity := by
  have hstable : Lib.Program.Stable (recordedSubscribers (π := π) options)
      (fun s ↦ 1 ≤ s.mSubscriptionManager.mQueueCapacity) (fun _ _ _ ↦ True) := by
    refine ⟨fun _ _ _ _ ↦ trivial, fun s _ t event hs _ ↦ ⟨?_, trivial⟩,
      fun _ _ _ _ _ _ _ _ _ _ ↦ trivial, fun s e hs ↦ ?_, fun _ _ _ _ _ _ ↦ trivial⟩
    · rw [← (writer_step options s t.1 event).mQueueCapacity_eq] at hs
      exact hs
    · rw [← backendEvent_mQueueCapacity s e] at hs
      exact hs
  exact (hstable.after ⟨options.mQueueCapacity.le, fun _ _ _ ↦ trivial⟩ moves).1

/-- A token that is not empty is carried under its key. -/
theorem refuses_eq_false_iff (htoken : options.mGRPCOptions.getAccessToken = some token)
    (hsecured : options.mGRPCOptions.secured = true) (hne : token ≠ [])
    (clientMetadata : Metadata) :
    options.refuses clientMetadata = false ↔ (accessTokenKey, token) ∈ clientMetadata := by
  rw [← carriesToken_iff hne, BackendOptions.refuses, htoken]
  simp [hsecured, validateSubscriber]

/-- A token that is set on a secured server is enforced. -/
theorem tokenEnforced (htoken : options.mGRPCOptions.getAccessToken = some token)
    (hsecured : options.mGRPCOptions.secured = true) (hne : token ≠ []) :
    TokenEnforced π options token where
  enforced moves t hmem hpast := by
    rw [← refuses_eq_false_iff htoken hsecured hne]
    have hinv := ((notRefused_stable options).after ⟨trivial, by simp⟩ moves).of_mem hmem
    rcases hpast with hauth | hsub
    · simp only [Writer.authenticated, Bool.and_eq_true, bne_iff_ne] at hauth
      exact hinv.passed hauth.1 (Or.inr hauth.2)
    · exact hinv.subscribed hsub
  admitted before contextAddress clientMetadata moves hcarried halong hsteps := by
    have hok := (refuses_eq_false_iff htoken hsecured hne clientMetadata).mpr hcarried
    have hspawn : (recordedRun (π := π) options
        (before ++ [.spawn (contextAddress, clientMetadata)])).threads[
          (recordedRun (π := π) options before).threads.length]? =
        some ({ contextAddress, clientMetadata }, []) := by
      rw [recordedRun, Lib.Program.after_append]
      exact List.getElem?_concat_length
    obtain ⟨⟨w, log⟩, hw, hmetadata, hlog, hstage⟩ := Lib.Program.progress (n := 0) (N := 6)
      (I := fun s ↦ 1 ≤ s.mSubscriptionManager.mQueueCapacity) (Q := Constructed clientMetadata)
      (c := countProceed)
      (fun s j t event hs ↦ by
        rw [← (writer_step options s t.1 event).mQueueCapacity_eq] at hs
        exact hs)
      (fun s e hs ↦ by
        rw [← backendEvent_mQueueCapacity s e] at hs
        exact hs)
      (fun n s t event hs hadmits h hn ↦ by
        cases event with
        | proceed => exact constructed_step hs hok hadmits h hn
        | writeDone ok => exact constructed_other (by rintro ⟨⟩) h
        | cancel => exact constructed_other (by rintro ⟨⟩) h)
      (mQueueCapacity_reached options _) hspawn ⟨rfl, by rintro ⟨⟩, rfl⟩ halong (by omega)
    rw [hsteps] at hlog hstage
    refine ⟨w, log, ?_, hmetadata, hlog (by decide), (Option.some.inj hstage).symm⟩
    rw [← hw, List.append_cons, recordedRun, Lib.Program.after_append]
    rfl

end ImportProxy.Backend
