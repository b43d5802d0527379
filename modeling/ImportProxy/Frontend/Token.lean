import ImportProxy.Frontend.Accounting

/-!
# The token of a publisher

The constructor of an `AsynchronousReader` lets no RPC past its second test whose
metadata do not carry the access token, and every RPC that carries it gets to read
unless the maximum is hit or the server has stopped (`src/frontend.cpp:43–151`).
-/

namespace ImportProxy.Frontend

open ImportProxy.Base

variable {options : FrontendOptions} {token : Bytes}

/-- `setGRPCOptions`; `src/frontendOptions.cpp:56–59`. -/
def FrontendOptions.setGRPCOptions (options : FrontendOptions) (grpcOptions : GRPCOptions) :
    FrontendOptions := { options with mGRPCOptions := grpcOptions }

/-- The RPC has got past the test of its token. -/
def PublishRpc.authenticated (rpc : PublishRpc) : Bool :=
  rpc.stage != .loadCounter && rpc.stage != .authenticate && !rpc.rejected

/-- What the constructor requires of the server at its next step. -/
def admits (options : FrontendOptions) (s : FrontendState) (rpc : PublishRpc) : Bool :=
  match rpc.stage with
  | .loadCounter => decide (s.mNumberOfPublishers < options.getMaximumNumberOfPublishers)
  | .loadRunning => s.mKeepRunning
  | _ => true

/-- The token is enforced on the publishers. -/
structure TokenEnforced (options : FrontendOptions) (token : Bytes) : Prop where
  /-- In every schedule, an RPC that is past the test, or is counted, carries the token. -/
  enforced : ∀ moves, ∀ rpc ∈ (reached options moves).threads,
    rpc.authenticated = true ∨ rpc.registered = true →
      (accessTokenKey, token) ∈ rpc.clientMetadata
  /-- An RPC that carries the token, and finds the maximum not hit and the server running, is
  counted and reads after the four steps of its constructor. -/
  admitted : ∀ before clientMetadata moves, (accessTokenKey, token) ∈ clientMetadata →
    Lib.Along (publishers options).step (fun s move ↦ Lib.Program.meets (admits options)
      (reached options before).threads.length s move = true)
      (reached options (before ++ [.spawn clientMetadata])) moves →
    Lib.Program.ownSteps (fun _ ↦ 1) (reached options before).threads.length moves = 4 →
    ∃ rpc, (reached options (before ++ .spawn clientMetadata :: moves)).threads[
        (reached options before).threads.length]? = some rpc ∧
      rpc.clientMetadata = clientMetadata ∧ rpc.registered = true ∧ rpc.stage = .reading

/-- A secured server with a token refuses the clients that do not carry it. -/
theorem refuses_eq_false_iff (htoken : options.mGRPCOptions.getAccessToken = some token)
    (hsecured : options.mGRPCOptions.secured = true) (hne : token ≠ [])
    (clientMetadata : Metadata) :
    options.refuses clientMetadata = false ↔ (accessTokenKey, token) ∈ clientMetadata := by
  rw [← carriesToken_iff hne, FrontendOptions.refuses, htoken]
  simp [hsecured, validatePublisher]

/-- No RPC that is about to be counted, or was, is one to refuse. -/
theorem PublishStep.not_refused {s s' : FrontendState} {rpc rpc' : PublishRpc}
    (hstep : PublishStep options s rpc s' rpc')
    (h : rpc.stage = .register ∨ rpc.registered = true →
      options.refuses rpc.clientMetadata = false) :
    rpc'.stage = .register ∨ rpc'.registered = true →
      options.refuses rpc'.clientMetadata = false := by
  cases hstep with
  | validated hs hok => exact fun _ ↦ hok
  | registered hs => exact fun _ ↦ h (Or.inl hs)
  | gone hs => exact h
  | belowMaximum | exhausted | refused | reads | finishes | leaves | leavesStopped | released
  | reloaded => exact fun h' ↦ h (Or.inr (h'.resolve_left nofun))

theorem not_refused_stable (options : FrontendOptions) :
    Lib.Program.Stable (publishers options) (fun _ ↦ True) (fun _ _ rpc ↦
      rpc.stage = .register ∨ rpc.registered = true →
        options.refuses rpc.clientMetadata = false) where
  start _ _ _ _ h := by rcases h with h | h <;> cases h
  act s _ rpc event _ h := ⟨trivial, (publish_step options s rpc event).not_refused h⟩
  other _ _ _ _ _ _ _ _ _ h := h
  env _ _ _ := trivial
  envThread _ _ _ _ _ h := h

/-- An RPC past the test of its token was not refused. -/
theorem not_refused_of_reached (options : FrontendOptions)
    (moves : List (Lib.Move Metadata ReadEvent FrontendEvent)) {rpc : PublishRpc}
    (hmem : rpc ∈ (reached options moves).threads)
    (h : rpc.authenticated = true ∨ rpc.registered = true) :
    options.refuses rpc.clientMetadata = false := by
  have hpassed := ((not_refused_stable options).after (s := started) ⟨trivial, by simp [started]⟩
    moves).of_mem hmem
  have hinv := publishInv_reached options moves hmem
  refine hpassed (h.elim (fun hauth ↦ ?_) Or.inr)
  simp only [PublishRpc.authenticated, Bool.and_eq_true, bne_iff_ne, ne_eq,
    Bool.not_eq_true'] at hauth
  cases hs : rpc.stage with
  | loadCounter => exact (hauth.1.1 hs).elim
  | authenticate => exact (hauth.1.2 hs).elim
  | register => exact Or.inl rfl
  | loadRunning => exact Or.inr (hinv.admitted (Or.inl hs)).1
  | reading => exact Or.inr (hinv.admitted (Or.inr hs)).1
  | finished | release | reload | deleted =>
    have hregistered := hinv.finished (by simp [hs])
    rw [hauth.2] at hregistered
    exact Or.inr hregistered

/-- An RPC after `n` steps of its constructor. -/
def Constructed (clientMetadata : Metadata) (n : Nat) (rpc : PublishRpc) : Prop :=
  rpc.clientMetadata = clientMetadata ∧ (3 ≤ n → rpc.registered = true) ∧
    [PublishStage.loadCounter, .authenticate, .register, .loadRunning, .reading][n]? =
      some rpc.stage

/-- Each step of a constructor that is not to be refused leads to the next one. -/
theorem constructed_step {s : FrontendState} {rpc : PublishRpc} {clientMetadata : Metadata}
    {n : Nat} (hok : options.refuses clientMetadata = false) (event : ReadEvent)
    (hadmits : admits options s rpc = true) (h : Constructed clientMetadata n rpc)
    (hn : n + 1 ≤ 4) : Constructed clientMetadata (n + 1) (publishStep options s rpc event).2 := by
  obtain ⟨rfl, hreg, hstage⟩ := h
  unfold admits at hadmits
  unfold publishStep
  match n, hn with
  | 0, _ =>
    have hs : rpc.stage = .loadCounter := (Option.some.inj hstage).symm
    simp only [hs, decide_eq_true_eq] at hadmits ⊢
    rw [if_neg (not_le.mpr hadmits)]
    exact ⟨rfl, nofun, rfl⟩
  | 1, _ =>
    have hs : rpc.stage = .authenticate := (Option.some.inj hstage).symm
    simp only [hs, hok, Bool.false_eq_true, if_false]
    exact ⟨rfl, nofun, rfl⟩
  | 2, _ =>
    have hs : rpc.stage = .register := (Option.some.inj hstage).symm
    simp only [hs]
    exact ⟨rfl, fun _ ↦ rfl, rfl⟩
  | 3, _ =>
    have hs : rpc.stage = .loadRunning := (Option.some.inj hstage).symm
    simp only [hs] at hadmits ⊢
    rw [if_pos hadmits]
    exact ⟨rfl, fun _ ↦ hreg (Nat.le_refl 3), rfl⟩

/-- A token that is set on a secured server is enforced. -/
theorem tokenEnforced (htoken : options.mGRPCOptions.getAccessToken = some token)
    (hsecured : options.mGRPCOptions.secured = true) (hne : token ≠ []) :
    TokenEnforced options token where
  enforced moves rpc hmem hpast :=
    (refuses_eq_false_iff htoken hsecured hne _).mp
      (not_refused_of_reached options moves hmem hpast)
  admitted before clientMetadata moves hcarried halong hsteps := by
    have hok := (refuses_eq_false_iff htoken hsecured hne clientMetadata).mpr hcarried
    have hspawn : (reached options (before ++ [.spawn clientMetadata])).threads[
        (reached options before).threads.length]? = some { clientMetadata } := by
      rw [reached, Lib.Program.after_append]
      exact List.getElem?_concat_length
    obtain ⟨rpc, hrpc, hmetadata, hregistered, hstage⟩ := Lib.Program.progress (n := 0) (N := 4)
      (I := fun _ ↦ True) (Q := Constructed clientMetadata) (fun _ _ _ _ _ ↦ trivial)
      (fun _ _ _ ↦ trivial)
      (fun n s rpc event _ hadmits h hn ↦ constructed_step hok event hadmits h hn) trivial hspawn
      ⟨rfl, by rintro ⟨⟩, rfl⟩ halong (by omega)
    rw [hsteps] at hregistered hstage
    refine ⟨rpc, ?_, hmetadata, hregistered (by decide), (Option.some.inj hstage).symm⟩
    rw [← hrpc, List.append_cons, reached, Lib.Program.after_append]
    rfl

end ImportProxy.Frontend
