import ImportProxy.Base.Grpc
import ImportProxy.Lib.Pool
import Mathlib.Data.List.Induction
import Mathlib.Tactic.Linarith

/-!
# Admission of publishers

The `Publish` RPCs of the frontend as threads on the counter of publishers:
`src/frontend.cpp:61–151,276–295`. Each load, `fetch_add` and `fetch_sub` is a
step of its own. A run starts after `start` and ends before `stop` resets the
counter.
-/

namespace ImportProxy.Frontend

open ImportProxy.Base

/-- The default of `mMaximumNumberOfPublishers`. -/
def defaultMaximumNumberOfPublishers : AtLeast 1 := ⟨64, by decide⟩

/-- The default of `mMaximumConsecutiveInvalidMessages`. -/
def defaultMaximumConsecutiveInvalidMessages : AtLeast 0 := ⟨10, by decide⟩

/-- `FrontendOptions`, with what its setters check; `src/frontendOptions.cpp:9–16`. -/
structure FrontendOptions where
  mGRPCOptions : GRPCOptions := {}
  mMaximumNumberOfPublishers : AtLeast 1 := defaultMaximumNumberOfPublishers
  mMaximumConsecutiveInvalidMessages : AtLeast 0 := defaultMaximumConsecutiveInvalidMessages
  deriving DecidableEq, Repr

/-- `getMaximumNumberOfPublishers`; `src/frontendOptions.cpp:110–113`. -/
def FrontendOptions.getMaximumNumberOfPublishers (options : FrontendOptions) : Int :=
  options.mMaximumNumberOfPublishers.value

/-- `setMaximumNumberOfPublishers`, none for its exception; `src/frontendOptions.cpp:100–108`. -/
def FrontendOptions.setMaximumNumberOfPublishers (options : FrontendOptions)
    (maxPublishers : Int) : Option FrontendOptions :=
  (AtLeast.check 1 maxPublishers).map fun n ↦ { options with mMaximumNumberOfPublishers := n }

/-- `getMaximumNumberOfConsecutiveInvalidMessages`; `src/frontendOptions.cpp:78–82`. -/
def FrontendOptions.getMaximumNumberOfConsecutiveInvalidMessages (options : FrontendOptions) :
    Int := options.mMaximumConsecutiveInvalidMessages.value

/-- `setMaximumNumberOfConsecutiveInvalidMessages`, none for its exception;
`src/frontendOptions.cpp:67–76`. -/
def FrontendOptions.setMaximumNumberOfConsecutiveInvalidMessages (options : FrontendOptions)
    (nMessages : Int) : Option FrontendOptions :=
  (AtLeast.check 0 nMessages).map fun n ↦
    { options with mMaximumConsecutiveInvalidMessages := n }

/-- `validatePublisher`; `src/frontend.cpp:43–59`. -/
def validatePublisher (clientMetadata : Metadata) (accessToken : Bytes) : Bool :=
  carriesToken clientMetadata accessToken

/-- The status of a publisher over the maximum; `src/frontend.cpp:104–105`. -/
def maxPublishersHit : Status := ⟨.resourceExhausted, ascii "Max publishers hit - try again later"⟩

/-- The status of a publisher without the token; `src/frontend.cpp:115–118`. -/
def publisherNotValidated : Status :=
  ⟨.unauthenticated,
    ascii "\nPublisher must provide access token in x-custom-auth-token header field.\n"⟩

/-- The status of a publisher of too many invalid messages; `src/frontend.cpp:232–233`. -/
def tooManyInvalidMessages : Status :=
  ⟨.invalidArgument,
    ascii "Too many conseuctive messages were invalid - double check API"⟩

/-- The status of a publisher whose next read a shutdown prevents; `src/frontend.cpp:244–245`. -/
def serverShutdown : Status := ⟨.unavailable, ascii "Server shutdown - try again later"⟩

/-- The next step of an `AsynchronousReader`. -/
inductive PublishStage where
  /-- The constructor loads the counter. -/
  | loadCounter
  /-- The constructor checks the token. -/
  | authenticate
  /-- The constructor adds one to the counter. -/
  | register
  /-- The constructor loads `mKeepRunning`. -/
  | loadRunning
  /-- A read is outstanding. -/
  | reading
  /-- `Finish` was called, and `OnDone` has not started. -/
  | finished
  /-- `OnDone` subtracts one from the counter. -/
  | release
  /-- `OnDone` loads the counter for its log. -/
  | reload
  /-- `OnDone` has returned. -/
  | deleted
  deriving DecidableEq, Repr

/-- A `Publish` RPC: what the client sent, where it is, the status it was finished with, and
whether it has added to and subtracted from the counter. -/
structure PublishRpc where
  clientMetadata : Metadata
  stage : PublishStage := .loadCounter
  status : Option Status := none
  registered : Bool := false
  released : Bool := false
  deriving DecidableEq, Repr

/-- What an outstanding read ends in: a message after which the reader goes on, one that exceeds
the limit of invalid messages, or no message. -/
inductive ReadEvent where
  | message
  | tooManyInvalid
  | endOfStream
  deriving DecidableEq, Repr

/-- The members of `FrontendImpl` that the RPCs share; `src/frontend.cpp:451–452`. -/
structure FrontendState where
  mNumberOfPublishers : Int := 0
  mKeepRunning : Bool := true
  deriving DecidableEq, Repr

/-- The first step of `FrontendImpl::stop`; `src/frontend.cpp:363`. -/
inductive FrontendEvent where
  | stop
  deriving DecidableEq, Repr

/-- `Finish`. -/
def PublishRpc.finish (rpc : PublishRpc) (status : Status) : PublishRpc :=
  { rpc with stage := .finished, status := some status }

/-- Whether the constructor asks for a token that the client does not carry. -/
def FrontendOptions.refuses (options : FrontendOptions) (clientMetadata : Metadata) : Bool :=
  match options.mGRPCOptions.getAccessToken with
  | some accessToken =>
    options.mGRPCOptions.secured && !validatePublisher clientMetadata accessToken
  | none => false

/-- One step of an RPC. -/
def publishStep (options : FrontendOptions) (s : FrontendState) (rpc : PublishRpc)
    (event : ReadEvent) : FrontendState × PublishRpc :=
  match rpc.stage with
  | .loadCounter =>
    if s.mNumberOfPublishers ≥ options.getMaximumNumberOfPublishers then
      (s, rpc.finish maxPublishersHit)
    else (s, { rpc with stage := .authenticate })
  | .authenticate =>
    if options.refuses rpc.clientMetadata then (s, rpc.finish publisherNotValidated)
    else (s, { rpc with stage := .register })
  | .register =>
    ({ s with mNumberOfPublishers := s.mNumberOfPublishers + 1 },
      { rpc with stage := .loadRunning, registered := true })
  | .loadRunning =>
    if s.mKeepRunning then (s, { rpc with stage := .reading }) else (s, rpc.finish ⟨.ok, []⟩)
  | .reading =>
    match event with
    | .message => if s.mKeepRunning then (s, rpc) else (s, rpc.finish serverShutdown)
    | .tooManyInvalid => (s, rpc.finish tooManyInvalidMessages)
    | .endOfStream => (s, rpc.finish ⟨.ok, []⟩)
  | .finished =>
    if s.mKeepRunning then (s, { rpc with stage := .release })
    else (s, { rpc with stage := .deleted })
  | .release =>
    ({ s with mNumberOfPublishers := s.mNumberOfPublishers - 1 },
      { rpc with stage := .reload, released := true })
  | .reload => (s, { rpc with stage := .deleted })
  | .deleted => (s, rpc)

/-- The frontend: RPCs arrive with their metadata, and `stop` may come at any time. -/
def publishers (options : FrontendOptions) :
    Lib.Program FrontendState PublishRpc Metadata ReadEvent FrontendEvent where
  start clientMetadata := { clientMetadata }
  act s _ rpc event := publishStep options s rpc event
  env s _ := { s with mKeepRunning := false }

/-- The frontend after `start`. -/
def started : Lib.Pool FrontendState PublishRpc := ⟨{}, []⟩

/-- `getNumberOfPublishers`; `src/frontend.cpp:475–478`. -/
def getNumberOfPublishers (s : Lib.Pool FrontendState PublishRpc) : Int :=
  max 0 s.shared.mNumberOfPublishers

namespace PublishRpc

/-- The constructor has finished the RPC with one of its two errors. -/
def rejected (rpc : PublishRpc) : Bool :=
  rpc.status == some maxPublishersHit || rpc.status == some publisherNotValidated

/-- Admitted, and its `OnDone` has not returned. -/
def unfinished (rpc : PublishRpc) : Bool := rpc.registered && rpc.stage != .deleted

/-- What the steps of the RPC have added to the counter. -/
def weight (rpc : PublishRpc) : Int :=
  (if rpc.registered then 1 else 0) - if rpc.released then 1 else 0

/-- Neither the constructor nor `OnDone` is midway. -/
def AtRest (rpc : PublishRpc) : Prop :=
  rpc.stage = .reading ∨ rpc.stage = .finished ∨ rpc.stage = .deleted

instance (rpc : PublishRpc) : Decidable rpc.AtRest := inferInstanceAs (Decidable (_ ∨ _))

end PublishRpc

/-- The steps of an RPC: what is known at the step, and what it leaves. -/
inductive PublishStep (options : FrontendOptions) (s : FrontendState) (rpc : PublishRpc) :
    FrontendState → PublishRpc → Prop
  | belowMaximum (hs : rpc.stage = .loadCounter)
      (hlt : s.mNumberOfPublishers < options.getMaximumNumberOfPublishers) :
      PublishStep options s rpc s { rpc with stage := .authenticate }
  | exhausted (hs : rpc.stage = .loadCounter)
      (hge : options.getMaximumNumberOfPublishers ≤ s.mNumberOfPublishers) :
      PublishStep options s rpc s (rpc.finish maxPublishersHit)
  | validated (hs : rpc.stage = .authenticate) (hok : options.refuses rpc.clientMetadata = false) :
      PublishStep options s rpc s { rpc with stage := .register }
  | refused (hs : rpc.stage = .authenticate) (hno : options.refuses rpc.clientMetadata = true) :
      PublishStep options s rpc s (rpc.finish publisherNotValidated)
  | registered (hs : rpc.stage = .register) :
      PublishStep options s rpc { s with mNumberOfPublishers := s.mNumberOfPublishers + 1 }
        { rpc with stage := .loadRunning, registered := true }
  | reads (hs : rpc.stage = .loadRunning ∨ rpc.stage = .reading) (hrun : s.mKeepRunning = true) :
      PublishStep options s rpc s { rpc with stage := .reading }
  | finishes (status : Status) (hs : rpc.stage = .loadRunning ∨ rpc.stage = .reading)
      (hother : status ≠ maxPublishersHit ∧ status ≠ publisherNotValidated) :
      PublishStep options s rpc s (rpc.finish status)
  | leaves (hs : rpc.stage = .finished) (hrun : s.mKeepRunning = true) :
      PublishStep options s rpc s { rpc with stage := .release }
  | leavesStopped (hs : rpc.stage = .finished) (hstop : s.mKeepRunning = false) :
      PublishStep options s rpc s { rpc with stage := .deleted }
  | released (hs : rpc.stage = .release) :
      PublishStep options s rpc { s with mNumberOfPublishers := s.mNumberOfPublishers - 1 }
        { rpc with stage := .reload, released := true }
  | reloaded (hs : rpc.stage = .reload) :
      PublishStep options s rpc s { rpc with stage := .deleted }
  | gone (hs : rpc.stage = .deleted) : PublishStep options s rpc s rpc

/-- A step is one of the listed ones. -/
theorem publish_step (options : FrontendOptions) (s : FrontendState) (rpc : PublishRpc)
    (event : ReadEvent) :
    PublishStep options s rpc (publishStep options s rpc event).1
      (publishStep options s rpc event).2 := by
  unfold publishStep
  cases hs : rpc.stage with
  | loadCounter =>
    dsimp only
    split
    · next h => exact .exhausted hs h
    · next h => exact .belowMaximum hs (not_le.mp h)
  | authenticate =>
    dsimp only
    split
    · next h => exact .refused hs h
    · next h => exact .validated hs (by simpa using h)
  | register => exact .registered hs
  | loadRunning =>
    dsimp only
    split
    · next h => exact .reads (Or.inl hs) h
    · exact .finishes _ (Or.inl hs) (by decide)
  | reading =>
    cases event with
    | message =>
      dsimp only
      split
      · next h =>
        have hsame : rpc = { rpc with stage := .reading } := by rw [← hs]
        rw [hsame]
        exact .reads (Or.inr rfl) h
      · exact .finishes _ (Or.inr hs) (by decide)
    | tooManyInvalid => exact .finishes _ (Or.inr hs) (by decide)
    | endOfStream => exact .finishes _ (Or.inr hs) (by decide)
  | finished =>
    dsimp only
    split
    · next h => exact .leaves hs h
    · next h => exact .leavesStopped hs (by simpa using h)
  | release => exact .released hs
  | reload => exact .reloaded hs
  | deleted => exact .gone hs

/-- How the history of an RPC agrees with its stage. -/
structure PublishInv (s : FrontendState) (rpc : PublishRpc) : Prop where
  early : rpc.stage = .loadCounter ∨ rpc.stage = .authenticate ∨ rpc.stage = .register →
    rpc.registered = false ∧ rpc.released = false ∧ rpc.status = none
  admitted : rpc.stage = .loadRunning ∨ rpc.stage = .reading →
    rpc.registered = true ∧ rpc.released = false ∧ rpc.status = none
  ended : rpc.stage = .finished ∨ rpc.stage = .release → rpc.released = false
  reload : rpc.stage = .reload → rpc.released = true
  deleted : rpc.stage = .deleted → s.mKeepRunning = true → rpc.released = true
  finished : rpc.stage = .finished ∨ rpc.stage = .release ∨ rpc.stage = .reload ∨
    rpc.stage = .deleted → rpc.registered = !rpc.rejected

/-- Every step keeps the history of its RPC in agreement with the stage. -/
theorem PublishInv.step {options : FrontendOptions} {s s' : FrontendState}
    {rpc rpc' : PublishRpc} (h : PublishInv s rpc) (hstep : PublishStep options s rpc s' rpc') :
    PublishInv s' rpc' := by
  cases hstep with
  | belowMaximum hs hlt =>
    have hearly := h.early (Or.inl hs)
    constructor <;> simp [hearly]
  | exhausted hs hge =>
    have hearly := h.early (Or.inl hs)
    constructor <;> simp [PublishRpc.finish, PublishRpc.rejected, hearly]
  | validated hs hok =>
    have hearly := h.early (Or.inr (Or.inl hs))
    constructor <;> simp [hearly]
  | refused hs hno =>
    have hearly := h.early (Or.inr (Or.inl hs))
    constructor <;> simp [PublishRpc.finish, PublishRpc.rejected, hearly]
  | registered hs =>
    have hearly := h.early (Or.inr (Or.inr hs))
    constructor <;> simp [hearly]
  | reads hs hrun =>
    have hadm := h.admitted hs
    constructor <;> simp [hadm]
  | finishes status hs hother =>
    have hadm := h.admitted hs
    constructor <;> simp [PublishRpc.finish, PublishRpc.rejected, hadm, hother]
  | leaves hs hrun =>
    have hrel := h.ended (Or.inl hs)
    have hfin := h.finished (Or.inl hs)
    constructor <;> simp [PublishRpc.rejected, hrel, hfin]
  | leavesStopped hs hstop =>
    have hfin := h.finished (Or.inl hs)
    constructor <;> simp [PublishRpc.rejected, hstop, hfin]
  | released hs =>
    have hfin := h.finished (Or.inr (Or.inl hs))
    constructor <;> simp [PublishRpc.rejected, hfin]
  | reloaded hs =>
    have hrel := h.reload hs
    have hfin := h.finished (Or.inr (Or.inr (Or.inl hs)))
    constructor <;> simp [PublishRpc.rejected, hrel, hfin]
  | gone hs => exact h

/-- No step of an RPC restarts the frontend or stops it. -/
theorem PublishStep.mKeepRunning_eq {options : FrontendOptions} {s s' : FrontendState}
    {rpc rpc' : PublishRpc} (hstep : PublishStep options s rpc s' rpc') :
    s'.mKeepRunning = s.mKeepRunning := by
  cases hstep <;> rfl

/-- The counter changes by what the step changes the weight. -/
theorem PublishStep.weight_sub {options : FrontendOptions} {s s' : FrontendState}
    {rpc rpc' : PublishRpc} (h : PublishInv s rpc) (hstep : PublishStep options s rpc s' rpc') :
    s'.mNumberOfPublishers - s.mNumberOfPublishers = rpc'.weight - rpc.weight := by
  have same {rpc' : PublishRpc} (he : rpc'.weight = rpc.weight) :
      s.mNumberOfPublishers - s.mNumberOfPublishers = rpc'.weight - rpc.weight := by
    rw [he, sub_self, sub_self]
  cases hstep with
  | registered hs =>
    have hearly := h.early (Or.inr (Or.inr hs))
    simp [PublishRpc.weight, hearly]
  | released hs =>
    have hrel := h.ended (Or.inr hs)
    simp only [PublishRpc.weight, hrel]
    split <;> simp
  | belowMaximum | exhausted | validated | refused | reads | finishes | leaves | leavesStopped |
    reloaded | gone => exact same rfl

/-- The steps of the RPCs are what changes the counter. -/
theorem weighs (options : FrontendOptions) :
    (publishers options).Weighs (fun _ ↦ True) (fun s _ rpc ↦ PublishInv s rpc)
      FrontendState.mNumberOfPublishers PublishRpc.weight where
  start s _ clientMetadata _ := by constructor <;> simp [publishers]
  act s _ rpc event _ h := ⟨trivial, h.step (publish_step options s rpc event)⟩
  other s _ rpc _ other event _ _ _ h := by
    have hrun : (publishStep options s rpc event).1.mKeepRunning = s.mKeepRunning :=
      (publish_step options s rpc event).mKeepRunning_eq
    exact ⟨h.early, h.admitted, h.ended, h.reload, fun hd hk ↦ h.deleted hd (hrun ▸ hk),
      h.finished⟩
  env _ _ _ := trivial
  envThread s _ _ rpc _ h :=
    ⟨h.early, h.admitted, h.ended, h.reload, fun _ hk ↦ Bool.noConfusion hk, h.finished⟩
  weight_start _ := rfl
  weight_act s _ rpc event _ h := (publish_step options s rpc event).weight_sub h
  weight_env _ _ _ := rfl

end ImportProxy.Frontend
