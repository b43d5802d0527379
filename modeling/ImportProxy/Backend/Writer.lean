import ImportProxy.Backend.Subscriptions
import ImportProxy.Lib.Pool

/-!
# Subscribers

The `Subscribe` RPCs of the backend as threads on the subscription manager:
`AsynchronousWriter`, `src/backend.cpp:328–590`. Each atomic load, store and
exchange and each section that holds the mutex is a step of its own. The
environment broadcasts packets and takes the steps of `stop`.
-/

namespace ImportProxy.Backend

open ImportProxy.Base

universe u

/-- `validateSubscriber`; `src/backend.cpp:46–62`. -/
def validateSubscriber (clientMetadata : Metadata) (accessToken : Bytes) : Bool :=
  carriesToken clientMetadata accessToken

/-- The status of a subscriber without the token; `src/backend.cpp:363–366`. -/
def subscriberNotValidated : Status :=
  ⟨.unauthenticated,
    ascii "\nSubscriber must provide access token in x-custom-auth-token header field.\n"⟩

/-- The status of a subscriber over the maximum; `src/backend.cpp:389–390`. -/
def maxSubscribersHit : Status :=
  ⟨.resourceExhausted, ascii "Max subscribers hit - try again later"⟩

/-- The status of a subscriber whose subscription throws; `src/backend.cpp:417–418`. -/
def failedToSubscribe : Status := ⟨.internal, ascii "Failed to subscribe"⟩

/-- The status after a failed write; `src/backend.cpp:444–445`. -/
def unexpectedFailure : Status := ⟨.unknown, ascii "Unexpected failure"⟩

/-- `mMaximumWriteQueueSize`; `src/backend.cpp:586`. -/
def mMaximumWriteQueueSize : Nat := 128

/-- The next step of an `AsynchronousWriter`. The steps of leaving carry the status to finish with,
or none in `OnDone`. -/
inductive WriterStage where
  /-- The constructor checks the token. -/
  | authenticate
  /-- The constructor compares the number of subscribers with the maximum. -/
  | loadSize
  /-- `subscribe` loads the manager's `mKeepRunning`. -/
  | loadRunning
  /-- `subscribe` inserts into the map. -/
  | subscribe
  /-- The constructor stores `mSubscribed`. -/
  | storeSubscribed
  /-- The constructor reads the number of subscribers for its log. -/
  | countSubscribers
  /-- `pump` loads `mKeepRunning`. -/
  | pump
  /-- `pump` asks whether the client has cancelled. -/
  | pumpCancelled
  /-- `pump` asks for the status to finish with. -/
  | stopCancelled
  /-- `getNextPackets` loads the manager's `mKeepRunning`. -/
  | fetchRunning
  /-- `getNextPackets` takes a batch. -/
  | fetch
  /-- A write is in flight. -/
  | writing
  /-- The alarm is armed. -/
  | idle
  /-- Exchanges `mSubscribed`. -/
  | exchange (status : Option Status)
  /-- `unsubscribe` loads the manager's `mKeepRunning`. -/
  | unsubscribeRunning (status : Option Status)
  /-- `unsubscribe` erases from the map. -/
  | unsubscribe (status : Option Status)
  /-- `Finish` was called, and `OnDone` has not started. -/
  | finished
  /-- `OnDone` reads the number of subscribers for its log. -/
  | countDone
  /-- `OnDone` has returned. -/
  | deleted
  deriving DecidableEq, Repr

/-- A `Subscribe` RPC: its context, its members, the status it was finished with, and the packets
that it has given to `StartWrite`. -/
structure Writer (π : Type u) where
  contextAddress : Nat
  clientMetadata : Metadata
  stage : WriterStage := .authenticate
  cancelled : Bool := false
  mSubscribed : Bool := false
  mPacketsQueue : List π := []
  status : Option Status := none
  written : List π := []
  deriving DecidableEq

/-- What moves an RPC: its own next step, the completion of the write in flight, or a cancellation
by the client. -/
inductive WriterEvent where
  | proceed
  | writeDone (ok : Bool)
  | cancel
  deriving DecidableEq, Repr

/-- The steps of `BackendImpl::stop`; `src/backend.cpp:156–163,608–612`. -/
inductive StopStage where
  | notCalled
  | storedRunning
  | storedManager
  | counted
  | cleared
  deriving DecidableEq, Repr

/-- The members of `BackendImpl` that the RPCs share. -/
structure BackendState (π : Type u) where
  mSubscriptionManager : SubscriptionManager π
  mKeepRunning : Bool := true
  stopStage : StopStage := .notCalled

/-- What the environment does: it broadcasts a packet, or takes the next step of `stop`. -/
inductive BackendEvent (π : Type u) where
  | enqueuePacket (packet : π)
  | stop

variable {π : Type u}

/-- Whether the constructor asks for a token that the client does not carry. -/
def BackendOptions.refuses (options : BackendOptions) (clientMetadata : Metadata) : Bool :=
  match options.mGRPCOptions.getAccessToken with
  | some accessToken =>
    options.mGRPCOptions.secured && !validateSubscriber clientMetadata accessToken
  | none => false

namespace Writer

/-- `Finish`. -/
def finish (w : Writer π) (status : Status) : Writer π :=
  { w with stage := .finished, status := some status }

/-- Put the front packet on the wire, or arm the alarm; `src/backend.cpp:536–556`. -/
def send (w : Writer π) : Writer π :=
  match w.mPacketsQueue with
  | [] => { w with stage := .idle }
  | packet :: _ => { w with stage := .writing, written := w.written ++ [packet] }

/-- Queue a batch, dropping the front of a queue that exceeds its maximum;
`src/backend.cpp:520–529`. -/
def pushPackets (w : Writer π) (packetsBuffer : List π) : Writer π :=
  { w with
    mPacketsQueue := packetsBuffer.foldl (fun queue packet ↦
      (if queue.length > mMaximumWriteQueueSize then queue.tail else queue) ++ [packet])
      w.mPacketsQueue }

/-- After leaving the map: `Finish`, or the rest of `OnDone`. -/
def leave (w : Writer π) : Option Status → Writer π
  | some status => w.finish status
  | none => { w with stage := .countDone }

end Writer

/-- The next step of an RPC itself. -/
def proceed (options : BackendOptions) (s : BackendState π) (w : Writer π) :
    BackendState π × Writer π :=
  match w.stage with
  | .authenticate =>
    if options.refuses w.clientMetadata then (s, w.finish subscriberNotValidated)
    else (s, { w with stage := .loadSize })
  | .loadSize =>
    if s.mSubscriptionManager.getNumberOfSubscribers ≥ options.getMaximumNumberOfSubscribers then
      (s, w.finish maxSubscribersHit)
    else (s, { w with stage := .loadRunning })
  | .loadRunning =>
    if s.mSubscriptionManager.mKeepRunning then (s, { w with stage := .subscribe })
    else (s, { w with stage := .storeSubscribed })
  | .subscribe =>
    match s.mSubscriptionManager.subscribe w.contextAddress with
    | none => (s, w.finish failedToSubscribe)
    | some manager =>
      ({ s with mSubscriptionManager := manager }, { w with stage := .storeSubscribed })
  | .storeSubscribed => (s, { w with stage := .countSubscribers, mSubscribed := true })
  | .countSubscribers => (s, { w with stage := .pump })
  | .pump =>
    if s.mKeepRunning then (s, { w with stage := .pumpCancelled })
    else (s, { w with stage := .stopCancelled })
  | .pumpCancelled =>
    if w.cancelled then (s, { w with stage := .stopCancelled })
    else if w.mPacketsQueue.isEmpty then (s, { w with stage := .fetchRunning })
    else (s, w.send)
  | .stopCancelled =>
    (s, { w with stage := .exchange (some ⟨if w.cancelled then .cancelled else .ok, []⟩) })
  | .fetchRunning =>
    if s.mSubscriptionManager.mKeepRunning then (s, { w with stage := .fetch }) else (s, w.send)
  | .fetch =>
    match s.mSubscriptionManager.getNextPackets w.contextAddress mMaximumWriteQueueSize with
    | none => (s, w.send)
    | some (packetsBuffer, manager) =>
      ({ s with mSubscriptionManager := manager }, (w.pushPackets packetsBuffer).send)
  | .writing => (s, w)
  | .idle => (s, { w with stage := .pump })
  | .exchange status =>
    if w.mSubscribed then
      (s, { w with stage := .unsubscribeRunning status, mSubscribed := false })
    else (s, w.leave status)
  | .unsubscribeRunning status =>
    if s.mSubscriptionManager.mKeepRunning then (s, { w with stage := .unsubscribe status })
    else (s, w.leave status)
  | .unsubscribe status =>
    ({ s with mSubscriptionManager := s.mSubscriptionManager.unsubscribe w.contextAddress },
      w.leave status)
  | .finished => (s, { w with stage := .exchange none })
  | .countDone => (s, { w with stage := .deleted })
  | .deleted => (s, w)

/-- `OnWriteDone`; `src/backend.cpp:433–451`. -/
def onWriteDone (w : Writer π) (ok : Bool) : Writer π :=
  if ok then { w with stage := .pump, mPacketsQueue := w.mPacketsQueue.tail }
  else if w.cancelled then { w with stage := .exchange (some ⟨.cancelled, []⟩) }
  else { w with stage := .exchange (some unexpectedFailure) }

/-- One step of an RPC. -/
def writerStep (options : BackendOptions) (s : BackendState π) (w : Writer π)
    (event : WriterEvent) : BackendState π × Writer π :=
  match event with
  | .proceed => proceed options s w
  | .writeDone ok => if w.stage = .writing then (s, onWriteDone w ok) else (s, w)
  | .cancel => (s, { w with cancelled := true })

/-- The next step of `stop`. -/
def stopStep (s : BackendState π) : BackendState π :=
  match s.stopStage with
  | .notCalled => { s with mKeepRunning := false, stopStage := .storedRunning }
  | .storedRunning =>
    { s with
      mSubscriptionManager := { s.mSubscriptionManager with mKeepRunning := false }
      stopStage := .storedManager }
  | .storedManager => { s with stopStage := .counted }
  | .counted =>
    { s with mSubscriptionManager := s.mSubscriptionManager.clear, stopStage := .cleared }
  | .cleared => s

/-- What the environment does to the backend. -/
def backendEvent (s : BackendState π) : BackendEvent π → BackendState π
  | .enqueuePacket packet =>
    { s with mSubscriptionManager := (s.mSubscriptionManager.enqueuePacket packet).1 }
  | .stop => stopStep s

/-- The backend: RPCs arrive with their context and metadata. -/
def subscribers (options : BackendOptions) :
    Lib.Program (BackendState π) (Writer π) (Nat × Metadata) WriterEvent (BackendEvent π) where
  start context := { contextAddress := context.1, clientMetadata := context.2 }
  act s _ w event := writerStep options s w event
  env := backendEvent

/-- The backend after `start`. -/
def started (options : BackendOptions) : Lib.Pool (BackendState π) (Writer π) :=
  ⟨{ mSubscriptionManager := { mQueueCapacity := options.getQueueCapacity } }, []⟩

/-- The steps of an RPC: what is known at the step, and what it leaves. -/
inductive WriterStep (options : BackendOptions) (s : BackendState π) (w : Writer π) :
    WriterEvent → BackendState π → Writer π → Prop
  | refused (hs : w.stage = .authenticate) (hno : options.refuses w.clientMetadata = true) :
      WriterStep options s w .proceed s (w.finish subscriberNotValidated)
  | validated (hs : w.stage = .authenticate) (hok : options.refuses w.clientMetadata = false) :
      WriterStep options s w .proceed s { w with stage := .loadSize }
  | exhausted (hs : w.stage = .loadSize)
      (hge : options.getMaximumNumberOfSubscribers ≤
        s.mSubscriptionManager.getNumberOfSubscribers) :
      WriterStep options s w .proceed s (w.finish maxSubscribersHit)
  | belowMaximum (hs : w.stage = .loadSize)
      (hlt : s.mSubscriptionManager.getNumberOfSubscribers <
        options.getMaximumNumberOfSubscribers) :
      WriterStep options s w .proceed s { w with stage := .loadRunning }
  | subscribes (hs : w.stage = .loadRunning) (hrun : s.mSubscriptionManager.mKeepRunning = true) :
      WriterStep options s w .proceed s { w with stage := .subscribe }
  | subscribesStopped (hs : w.stage = .loadRunning)
      (hstop : s.mSubscriptionManager.mKeepRunning = false) :
      WriterStep options s w .proceed s { w with stage := .storeSubscribed }
  | failed (hs : w.stage = .subscribe)
      (hm : s.mSubscriptionManager.subscribe w.contextAddress = none) :
      WriterStep options s w .proceed s (w.finish failedToSubscribe)
  | subscribed (manager : SubscriptionManager π) (hs : w.stage = .subscribe)
      (hm : s.mSubscriptionManager.subscribe w.contextAddress = some manager) :
      WriterStep options s w .proceed { s with mSubscriptionManager := manager }
        { w with stage := .storeSubscribed }
  | stored (hs : w.stage = .storeSubscribed) :
      WriterStep options s w .proceed s { w with stage := .countSubscribers, mSubscribed := true }
  | counted (hs : w.stage = .countSubscribers) :
      WriterStep options s w .proceed s { w with stage := .pump }
  | pumps (hs : w.stage = .pump) (hrun : s.mKeepRunning = true) :
      WriterStep options s w .proceed s { w with stage := .pumpCancelled }
  | pumpsStopped (hs : w.stage = .pump) (hstop : s.mKeepRunning = false) :
      WriterStep options s w .proceed s { w with stage := .stopCancelled }
  | pumpsCancelled (hs : w.stage = .pumpCancelled) (hc : w.cancelled = true) :
      WriterStep options s w .proceed s { w with stage := .stopCancelled }
  | queueEmpty (hs : w.stage = .pumpCancelled) (hc : w.cancelled = false)
      (hq : w.mPacketsQueue = []) :
      WriterStep options s w .proceed s { w with stage := .fetchRunning }
  | sendsQueued (hs : w.stage = .pumpCancelled) (hc : w.cancelled = false)
      (hq : w.mPacketsQueue ≠ []) : WriterStep options s w .proceed s w.send
  | stops (hs : w.stage = .stopCancelled) :
      WriterStep options s w .proceed s
        { w with stage := .exchange (some ⟨if w.cancelled then .cancelled else .ok, []⟩) }
  | fetches (hs : w.stage = .fetchRunning) (hrun : s.mSubscriptionManager.mKeepRunning = true) :
      WriterStep options s w .proceed s { w with stage := .fetch }
  | fetchesStopped (hs : w.stage = .fetchRunning)
      (hstop : s.mSubscriptionManager.mKeepRunning = false) :
      WriterStep options s w .proceed s w.send
  | fetchFailed (hs : w.stage = .fetch)
      (hm : s.mSubscriptionManager.getNextPackets w.contextAddress mMaximumWriteQueueSize = none) :
      WriterStep options s w .proceed s w.send
  | fetched (packetsBuffer : List π) (manager : SubscriptionManager π) (hs : w.stage = .fetch)
      (hm : s.mSubscriptionManager.getNextPackets w.contextAddress mMaximumWriteQueueSize =
        some (packetsBuffer, manager)) :
      WriterStep options s w .proceed { s with mSubscriptionManager := manager }
        (w.pushPackets packetsBuffer).send
  | alarm (hs : w.stage = .idle) : WriterStep options s w .proceed s { w with stage := .pump }
  | takesSubscribed (status : Option Status) (hs : w.stage = .exchange status)
      (hsub : w.mSubscribed = true) :
      WriterStep options s w .proceed s
        { w with stage := .unsubscribeRunning status, mSubscribed := false }
  | notSubscribed (status : Option Status) (hs : w.stage = .exchange status)
      (hsub : w.mSubscribed = false) : WriterStep options s w .proceed s (w.leave status)
  | unsubscribes (status : Option Status) (hs : w.stage = .unsubscribeRunning status)
      (hrun : s.mSubscriptionManager.mKeepRunning = true) :
      WriterStep options s w .proceed s { w with stage := .unsubscribe status }
  | unsubscribesStopped (status : Option Status) (hs : w.stage = .unsubscribeRunning status)
      (hstop : s.mSubscriptionManager.mKeepRunning = false) :
      WriterStep options s w .proceed s (w.leave status)
  | unsubscribed (status : Option Status) (hs : w.stage = .unsubscribe status) :
      WriterStep options s w .proceed
        { s with mSubscriptionManager := s.mSubscriptionManager.unsubscribe w.contextAddress }
        (w.leave status)
  | done (hs : w.stage = .finished) :
      WriterStep options s w .proceed s { w with stage := .exchange none }
  | deleted (hs : w.stage = .countDone) :
      WriterStep options s w .proceed s { w with stage := .deleted }
  | writeDone (ok : Bool) (hs : w.stage = .writing) :
      WriterStep options s w (.writeDone ok) s (onWriteDone w ok)
  | cancel : WriterStep options s w .cancel s { w with cancelled := true }
  | waits (hs : w.stage = .writing ∨ w.stage = .deleted) : WriterStep options s w .proceed s w
  | notWriting (ok : Bool) (hs : w.stage ≠ .writing) : WriterStep options s w (.writeDone ok) s w

/-- A step is one of the listed ones. -/
theorem writer_step (options : BackendOptions) (s : BackendState π) (w : Writer π)
    (event : WriterEvent) :
    WriterStep options s w event (writerStep options s w event).1
      (writerStep options s w event).2 := by
  cases event with
  | cancel => exact .cancel
  | writeDone ok =>
    unfold writerStep
    dsimp only
    split
    · next h => exact .writeDone ok h
    · next h => exact .notWriting ok h
  | proceed =>
    unfold writerStep proceed
    dsimp only
    cases hs : w.stage with
    | authenticate =>
      dsimp only
      split
      · next h => exact .refused hs h
      · next h => exact .validated hs (by simpa using h)
    | loadSize =>
      dsimp only
      split
      · next h => exact .exhausted hs h
      · next h => exact .belowMaximum hs (not_le.mp h)
    | loadRunning =>
      dsimp only
      split
      · next h => exact .subscribes hs h
      · next h => exact .subscribesStopped hs (by simpa using h)
    | subscribe =>
      dsimp only
      split
      · next h => exact .failed hs h
      · next manager h => exact .subscribed manager hs h
    | storeSubscribed => exact .stored hs
    | countSubscribers => exact .counted hs
    | pump =>
      dsimp only
      split
      · next h => exact .pumps hs h
      · next h => exact .pumpsStopped hs (by simpa using h)
    | pumpCancelled =>
      by_cases hc : w.cancelled = true
      · rw [if_pos hc]
        exact .pumpsCancelled hs hc
      · rw [if_neg hc]
        rw [Bool.not_eq_true] at hc
        by_cases hq : w.mPacketsQueue.isEmpty = true
        · rw [if_pos hq]
          exact .queueEmpty hs hc (List.isEmpty_iff.mp hq)
        · rw [if_neg hq]
          exact .sendsQueued hs hc fun he ↦ hq (List.isEmpty_iff.mpr he)
    | stopCancelled => exact .stops hs
    | fetchRunning =>
      dsimp only
      split
      · next h => exact .fetches hs h
      · next h => exact .fetchesStopped hs (by simpa using h)
    | fetch =>
      dsimp only
      split
      · next h => exact .fetchFailed hs h
      · next packetsBuffer manager h => exact .fetched packetsBuffer manager hs h
    | writing => exact .waits (Or.inl hs)
    | idle => exact .alarm hs
    | exchange status =>
      dsimp only
      split
      · next h => exact .takesSubscribed status hs h
      · next h => exact .notSubscribed status hs (by simpa using h)
    | unsubscribeRunning status =>
      dsimp only
      split
      · next h => exact .unsubscribes status hs h
      · next h => exact .unsubscribesStopped status hs (by simpa using h)
    | unsubscribe status => exact .unsubscribed status hs
    | finished => exact .done hs
    | countDone => exact .deleted hs
    | deleted => exact .waits (Or.inr hs)

end ImportProxy.Backend
