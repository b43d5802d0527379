import ImportProxy.Frontend.Reader
import ImportProxy.Lib.Recorded
import ImportProxy.Lib.Refinement

/-!
# Publish sessions

An `AsynchronousReader` from its constructor to `OnDone`, `src/frontend.cpp:61–295`:
its RPC, its counters and the callback that it calls. Every step is recorded with
what it asks of the reactor, so that reads and calls of `Finish` are counted from
the calls themselves.
-/

namespace ImportProxy.Frontend

open ImportProxy.Base

/-- An `AsynchronousReader`, with the packet of the callback that it waits for. -/
structure Session where
  rpc : PublishRpc
  reader : Reader := {}
  submitting : Option Packet := none
  deriving DecidableEq

/-- What happens to a session: its own next step, the end of its read with a message or without
one, or the end of its callback, which may have thrown. -/
inductive SessionEvent where
  | proceed
  | message (packet : Packet)
  | endOfStream
  | submitted (threw : Bool)
  deriving DecidableEq

/-- What a step of a session asks of its reactor, or the completion that it begins with. -/
inductive SessionEffect where
  /-- `StartRead`. -/
  | startRead
  /-- `OnReadDone`, with the message that was read, if any. -/
  | readDone (message : Option Packet)
  /-- The callback has returned or thrown. -/
  | submitted (threw : Bool)
  /-- `Finish`, with the response that goes with it. -/
  | finish (status : Status) (response : PublishResponse)
  deriving DecidableEq

/-- The effects of one step of an RPC. -/
def publishEffects (options : FrontendOptions) (s : FrontendState) (rpc : PublishRpc)
    (response : PublishResponse) (event : ReadEvent) : List SessionEffect :=
  match rpc.stage with
  | .loadCounter =>
    if s.mNumberOfPublishers ≥ options.getMaximumNumberOfPublishers then
      [.finish maxPublishersHit response]
    else []
  | .authenticate =>
    if options.refuses rpc.clientMetadata then [.finish publisherNotValidated response] else []
  | .loadRunning => if s.mKeepRunning then [.startRead] else [.finish ⟨.ok, []⟩ response]
  | .reading =>
    match event with
    | .message => if s.mKeepRunning then [.startRead] else [.finish serverShutdown response]
    | .tooManyInvalid => [.finish tooManyInvalidMessages response]
    | .endOfStream => [.finish ⟨.ok, []⟩ response]
  | .register | .finished | .release | .reload | .deleted => []

namespace Session

variable (options : FrontendOptions) (s : FrontendState)

/-- A step of the RPC on the shared members of the frontend. -/
def rpcStep (session : Session) (event : ReadEvent) : FrontendState × Session :=
  ((publishStep options s session.rpc event).1,
    { session with rpc := (publishStep options s session.rpc event).2 })

/-- The effects of a step of the RPC. -/
def rpcEffects (session : Session) (event : ReadEvent) : List SessionEffect :=
  publishEffects options s session.rpc session.reader.mPublishResponse event

/-- A read is outstanding. -/
def waiting (session : Session) : Bool :=
  session.rpc.stage == .reading && session.submitting.isNone

/-- The members after a message, up to the callback; `src/frontend.cpp:154–202`. -/
def receive (session : Session) (message : Packet) : Session :=
  { session with
    reader := (session.reader.receive message).1
    submitting := (session.reader.receive message).2 }

/-- The members after the callback; `src/frontend.cpp:203–211`. -/
def submitted (session : Session) (threw : Bool) : Session :=
  { session with reader := session.reader.submitted threw, submitting := none }

/-- The members after the end of the stream; `src/frontend.cpp:254–255`. -/
def endOfStream (session : Session) : Session :=
  { session with reader := session.reader.endOfStream }

/-- One step of a session: after a message, the callback of a valid one is under way; after the
callback or an invalid message the reader goes on or finishes. -/
def step (session : Session) (event : SessionEvent) : FrontendState × Session :=
  match event with
  | .proceed =>
    if session.rpc.stage = .reading then (s, session) else session.rpcStep options s .message
  | .message message =>
    if session.waiting then
      let session := session.receive message
      if session.submitting.isSome then (s, session)
      else session.rpcStep options s (session.reader.afterMessage options)
    else (s, session)
  | .endOfStream =>
    if session.waiting then session.endOfStream.rpcStep options s .endOfStream else (s, session)
  | .submitted threw =>
    if session.submitting.isSome then
      let session := session.submitted threw
      session.rpcStep options s (session.reader.afterMessage options)
    else (s, session)

/-- The effects of one step of a session. -/
def effects (session : Session) (event : SessionEvent) : List SessionEffect :=
  match event with
  | .proceed =>
    if session.rpc.stage = .reading then [] else session.rpcEffects options s .message
  | .message message =>
    if session.waiting then
      let session := session.receive message
      .readDone (some message) :: if session.submitting.isSome then []
        else session.rpcEffects options s (session.reader.afterMessage options)
    else []
  | .endOfStream =>
    if session.waiting then
      .readDone none :: session.endOfStream.rpcEffects options s .endOfStream
    else []
  | .submitted threw =>
    if session.submitting.isSome then
      let session := session.submitted threw
      .submitted threw :: session.rpcEffects options s (session.reader.afterMessage options)
    else []

end Session

/-- The frontend with the sessions of its RPCs, each with a log of its effects. -/
def sessions (options : FrontendOptions) :
    Lib.Program FrontendState (Session × List SessionEffect) Metadata SessionEvent FrontendEvent :=
  Lib.Program.recorded
    { start := fun clientMetadata ↦ { rpc := { clientMetadata } }
      act := fun s _ session event ↦ session.step options s event
      env := fun s _ ↦ { s with mKeepRunning := false } }
    (Session.effects options)

/-- The sessions after a schedule. -/
def sessionRun (options : FrontendOptions)
    (moves : List (Lib.Move Metadata SessionEvent FrontendEvent)) :
    Lib.Pool FrontendState (Session × List SessionEffect) := (sessions options).after ⟨{}, []⟩ moves

namespace SessionEffect

/-- What an effect adds to the reads in flight. -/
def inFlight : SessionEffect → Int
  | startRead => 1
  | readDone _ => -1
  | submitted _ | finish _ _ => 0

/-- A message was read. -/
def isMessage : SessionEffect → Bool
  | readDone message => message.isSome
  | startRead | submitted _ | finish _ _ => false

/-- The callback has returned normally. -/
def isReturn : SessionEffect → Bool
  | submitted threw => !threw
  | startRead | readDone _ | finish _ _ => false

/-- `Finish` was called. -/
def isFinish : SessionEffect → Bool
  | finish _ _ => true
  | startRead | readDone _ | submitted _ => false

end SessionEffect

/-- The reads that were started and have not ended. -/
def readsInFlight (log : List SessionEffect) : Int := (log.map SessionEffect.inFlight).sum

/-- The number of messages that were read. -/
def messagesRead (log : List SessionEffect) : Nat := log.countP SessionEffect.isMessage

/-- The number of callbacks that have returned normally. -/
def callbacksReturned (log : List SessionEffect) : Nat := log.countP SessionEffect.isReturn

/-- The number of calls of `Finish`. -/
def finishCalls (log : List SessionEffect) : Nat := log.countP SessionEffect.isFinish

namespace Session

/-- Whether a callback is under way, as a number. -/
def callbacksUnderWay (session : Session) : Nat := if session.submitting.isSome then 1 else 0

/-- None of the handlers of the reactor is midway. -/
def AtRest (session : Session) : Prop := session.rpc.AtRest ∧ session.submitting = none

/-- The counters, as the response gives them. -/
def totals (session : Session) : PublishResponse :=
  ⟨session.reader.mTotalPackets, session.reader.mPacketsRejected⟩

end Session

/-- What holds of a session and its log at every point of a run. The counters of the reader have
64 bits. -/
structure PublishSummary (session : Session) (log : List SessionEffect) : Prop where
  finishesOnce : finishCalls log ≤ 1
  /-- `Finish` is not called while a read is in flight, and nothing comes after it. -/
  finishLast : ∀ before status response rest, log = before ++ .finish status response :: rest →
    readsInFlight before = 0 ∧ rest = []
  /-- After every handler, either a read is in flight or `Finish` was called. -/
  oneAtRest : session.AtRest → (readsInFlight log = 1 ∧ finishCalls log = 0) ∨
    (readsInFlight log = 0 ∧ finishCalls log = 1)
  total : session.reader.mTotalPackets = UInt64.ofNat (messagesRead log)
  /-- What was not rejected was returned from, or its callback is under way. -/
  accepted : session.reader.mTotalPackets - session.reader.mPacketsRejected =
    UInt64.ofNat (callbacksReturned log + session.callbacksUnderWay)
  rejected_le : messagesRead log < 2 ^ 64 →
    session.reader.mPacketsRejected ≤ session.reader.mTotalPackets
  /-- The response of an RPC that is finished well has the totals. -/
  response : ∀ status response, .finish status response ∈ log → status.code = .ok →
    response = session.totals

section Logs

variable (log effects : List SessionEffect)

@[simp] theorem readsInFlight_append :
    readsInFlight (log ++ effects) = readsInFlight log + readsInFlight effects := by
  simp only [readsInFlight, List.map_append, List.sum_append]

@[simp] theorem messagesRead_append :
    messagesRead (log ++ effects) = messagesRead log + messagesRead effects :=
  List.countP_append

@[simp] theorem callbacksReturned_append :
    callbacksReturned (log ++ effects) = callbacksReturned log + callbacksReturned effects :=
  List.countP_append

@[simp] theorem finishCalls_append :
    finishCalls (log ++ effects) = finishCalls log + finishCalls effects :=
  List.countP_append

end Logs

/-- A call of `Finish` is counted. -/
theorem finishCalls_pos {log : List SessionEffect} {status : Status} {response : PublishResponse}
    (h : .finish status response ∈ log) : 0 < finishCalls log :=
  List.countP_pos_iff.mpr ⟨_, h, rfl⟩

namespace PublishStage

/-- The constructor has not decided yet. -/
def constructing : PublishStage → Bool
  | loadCounter | authenticate | register | loadRunning => true
  | reading | finished | release | reload | deleted => false

/-- `Finish` was called. -/
def ended : PublishStage → Bool
  | finished | release | reload | deleted => true
  | loadCounter | authenticate | register | loadRunning | reading => false

end PublishStage

/-- What a step of an RPC comes to: nothing for the reactor, a read, or a call of `Finish`. -/
inductive PublishOutcome (rpc : PublishRpc) (response : PublishResponse) (event : ReadEvent) :
    PublishRpc → List SessionEffect → Prop
  | silent (rpc' : PublishRpc) (hs : rpc.stage ≠ .reading) (hs' : rpc'.stage ≠ .reading)
      (hended : rpc'.stage.ended = rpc.stage.ended)
      (hearly : rpc'.stage.constructing = true → rpc.stage.constructing = true) :
      PublishOutcome rpc response event rpc' []
  | reads (rpc' : PublishRpc) (hopen : rpc.stage.ended = false) (hs' : rpc'.stage = .reading) :
      PublishOutcome rpc response event rpc' [.startRead]
  | finishes (status : Status) (hopen : rpc.stage.ended = false)
      (hok : status.code = .ok →
        rpc.stage.constructing = true ∨ (rpc.stage = .reading ∧ event = .endOfStream))
      (hmany : status = tooManyInvalidMessages → event = .tooManyInvalid) :
      PublishOutcome rpc response event (rpc.finish status) [.finish status response]

/-- A step of an RPC has one of the three outcomes. -/
theorem publish_outcome (options : FrontendOptions) (s : FrontendState) (rpc : PublishRpc)
    (response : PublishResponse) (event : ReadEvent) :
    PublishOutcome rpc response event (publishStep options s rpc event).2
      (publishEffects options s rpc response event) := by
  unfold publishStep publishEffects
  cases hs : rpc.stage with
  | loadCounter =>
    dsimp only
    split
    · exact .finishes _ (by rw [hs]; rfl) nofun nofun
    · exact .silent _ (by rw [hs]; nofun) nofun (by rw [hs]; rfl) fun _ ↦ by rw [hs]; rfl
  | authenticate =>
    dsimp only
    split
    · exact .finishes _ (by rw [hs]; rfl) nofun nofun
    · exact .silent _ (by rw [hs]; nofun) nofun (by rw [hs]; rfl) fun _ ↦ by rw [hs]; rfl
  | register =>
    exact .silent _ (by rw [hs]; nofun) nofun (by rw [hs]; rfl) fun _ ↦ by rw [hs]; rfl
  | loadRunning =>
    dsimp only
    split
    · exact .reads _ (by rw [hs]; rfl) rfl
    · exact .finishes _ (by rw [hs]; rfl) (fun _ ↦ Or.inl (by rw [hs]; rfl)) nofun
  | reading =>
    cases event with
    | message =>
      dsimp only
      split
      · exact .reads _ (by rw [hs]; rfl) hs
      · exact .finishes _ (by rw [hs]; rfl) nofun nofun
    | tooManyInvalid => exact .finishes _ (by rw [hs]; rfl) nofun fun _ ↦ rfl
    | endOfStream => exact .finishes _ (by rw [hs]; rfl) (fun _ ↦ Or.inr ⟨hs, rfl⟩) nofun
  | finished =>
    dsimp only
    split <;> exact .silent _ (by rw [hs]; nofun) nofun (by rw [hs]; rfl) nofun
  | release | reload =>
    exact .silent _ (by rw [hs]; nofun) nofun (by rw [hs]; rfl) nofun
  | deleted =>
    exact .silent _ (by rw [hs]; nofun) (by rw [hs]; nofun) rfl id

variable {options : FrontendOptions} {s s' : FrontendState} {session session' : Session}
  {log effects : List SessionEffect} {event : SessionEvent}

/-- What a step of a session does, and its effects: nothing, a step of the constructor or of
`OnDone`, the call of the callback, or what follows a message, the callback or the last read. -/
inductive SessionStep (options : FrontendOptions) (s : FrontendState) (session : Session) :
    SessionEvent → FrontendState → Session → List SessionEffect → Prop
  | ignored (event : SessionEvent) : SessionStep options s session event s session []
  | proceeds (hs : session.rpc.stage ≠ .reading) :
      SessionStep options s session .proceed (session.rpcStep options s .message).1
        (session.rpcStep options s .message).2 (session.rpcEffects options s .message)
  | forwards (message packet : Packet) (hw : session.waiting = true)
      (hf : forwarded message = some packet) :
      SessionStep options s session (.message message) s (session.receive message)
        [.readDone (some message)]
  | refuses (message : Packet) (read : ReadEvent) (hw : session.waiting = true)
      (hf : forwarded message = none)
      (hread : read = (session.receive message).reader.afterMessage options) :
      SessionStep options s session (.message message)
        ((session.receive message).rpcStep options s read).1
        ((session.receive message).rpcStep options s read).2
        (.readDone (some message) :: (session.receive message).rpcEffects options s read)
  | ends (hw : session.waiting = true) :
      SessionStep options s session .endOfStream
        (session.endOfStream.rpcStep options s .endOfStream).1
        (session.endOfStream.rpcStep options s .endOfStream).2
        (.readDone none :: session.endOfStream.rpcEffects options s .endOfStream)
  | returns (threw : Bool) (read : ReadEvent) (hsub : session.submitting.isSome = true)
      (hread : read = (session.submitted threw).reader.afterMessage options) :
      SessionStep options s session (.submitted threw)
        ((session.submitted threw).rpcStep options s read).1
        ((session.submitted threw).rpcStep options s read).2
        (.submitted threw :: (session.submitted threw).rpcEffects options s read)

/-- The callback of a forwarded packet is under way, and of no other. -/
theorem submitting_receive (session : Session) (message : Packet) :
    (session.receive message).submitting = forwarded message :=
  session.reader.receive_snd message

/-- A step of a session is one of these. -/
theorem session_step (options : FrontendOptions) (s : FrontendState) (session : Session)
    (event : SessionEvent) :
    SessionStep options s session event (session.step options s event).1
      (session.step options s event).2 (session.effects options s event) := by
  unfold Session.step Session.effects
  cases event with
  | proceed =>
    dsimp only
    split
    · exact .ignored _
    · next hs => exact .proceeds hs
  | message message =>
    dsimp only
    by_cases hw : session.waiting = true
    · rw [if_pos hw, if_pos hw, submitting_receive]
      cases hf : forwarded message with
      | none => exact .refuses message _ hw hf rfl
      | some packet => exact .forwards message packet hw hf
    · rw [if_neg hw, if_neg hw]
      exact .ignored _
  | endOfStream =>
    dsimp only
    split
    · next hw => exact .ends hw
    · exact .ignored _
  | submitted threw =>
    dsimp only
    split
    · next hsub => exact .returns threw _ hsub rfl
    · exact .ignored _

/-- After a message the reader reads on or has had too many invalid ones. -/
theorem afterMessage_ne (reader : Reader) : reader.afterMessage options ≠ .endOfStream := by
  unfold Reader.afterMessage
  split <;> rintro ⟨⟩

/-- The counters of a session agree with its log. -/
structure Tally (session : Session) (log : List SessionEffect) : Prop where
  total : session.reader.mTotalPackets = UInt64.ofNat (messagesRead log)
  rejected : ∃ n, session.reader.mPacketsRejected = UInt64.ofNat n ∧
    messagesRead log = n + callbacksReturned log + session.callbacksUnderWay

/-- The log ends with its only call of `Finish`, made with no read in flight. -/
def Closed (session : Session) (log : List SessionEffect) : Prop :=
  ∃ before status response, log = before ++ [.finish status response] ∧
    finishCalls before = 0 ∧ readsInFlight before = 0 ∧
      (status.code = .ok → response = session.totals)

/-- What holds of a session and its log, apart from the reads in flight. -/
structure LogInv (session : Session) (log : List SessionEffect) : Prop extends
    Tally session log where
  fresh : session.rpc.stage.constructing = true → session.reader = {}
  submitting : session.submitting.isSome = true → session.rpc.stage = .reading
  unfinished : session.rpc.stage.ended = false → finishCalls log = 0
  closed : session.rpc.stage.ended = true → Closed session log

/-- What holds of a session and its log between two steps. -/
structure SessionInv (session : Session) (log : List SessionEffect) : Prop extends
    LogInv session log where
  inFlight : readsInFlight log = if session.waiting then 1 else 0

/-- Effects that neither read a message nor end a callback, and a step that keeps the totals. -/
theorem Tally.keep (h : Tally session log) (htotals : session'.totals = session.totals)
    (hsub : session'.submitting = session.submitting) (hmessages : messagesRead effects = 0)
    (hreturned : callbacksReturned effects = 0) : Tally session' (log ++ effects) := by
  obtain ⟨n, hn, hcount⟩ := h.rejected
  constructor
  · rw [messagesRead_append, hmessages]
    exact (congrArg PublishResponse.totalPackets htotals).trans h.total
  · refine ⟨n, (congrArg PublishResponse.packetsRejected htotals).trans hn, ?_⟩
    rw [messagesRead_append, callbacksReturned_append, hmessages, hreturned,
      Session.callbacksUnderWay, hsub]
    exact hcount

theorem waiting_iff (session : Session) :
    session.waiting = true ↔ session.rpc.stage = .reading ∧ session.submitting = none := by
  simp [Session.waiting]

/-- With nothing in flight, a step of the RPC starts a read, finishes, or leaves it at that. -/
theorem LogInv.outcome (h : LogInv session log) (hidle : session.submitting = none)
    (hquiet : readsInFlight log = 0) {read : ReadEvent} {rpc : PublishRpc}
    (hresponse : read = .endOfStream → session.reader.mPublishResponse = session.totals)
    (houtcome : PublishOutcome session.rpc session.reader.mPublishResponse read rpc effects) :
    SessionInv { session with rpc } (log ++ effects) := by
  have hnone : session.submitting.isSome ≠ true := by simp [hidle]
  cases houtcome with
  | silent rpc hs hs' hended hearly =>
    rw [List.append_nil]
    refine ⟨⟨⟨h.total, h.rejected⟩, fun hc ↦ h.fresh (hearly hc), fun hsub ↦ (hnone hsub).elim,
      fun ho ↦ h.unfinished (hended ▸ ho), fun hc ↦ h.closed (hended ▸ hc)⟩, ?_⟩
    rw [hquiet, if_neg]
    rw [waiting_iff]
    exact fun hw ↦ hs' hw.1
  | reads rpc hopen hs' =>
    refine ⟨⟨h.toTally.keep rfl rfl rfl rfl, ?_, fun _ ↦ hs', ?_, ?_⟩, ?_⟩
    · intro hc
      rw [hs'] at hc
      cases hc
    · intro _
      rw [finishCalls_append, h.unfinished hopen]
      rfl
    · intro hc
      rw [hs'] at hc
      cases hc
    · have hwaiting : ({ session with rpc } : Session).waiting = true :=
        (waiting_iff _).mpr ⟨hs', hidle⟩
      rw [readsInFlight_append, hquiet, hwaiting]
      rfl
  | finishes status hopen hok hmany =>
    refine ⟨⟨h.toTally.keep rfl rfl rfl rfl, nofun, fun hsub ↦ (hnone hsub).elim, nofun,
      fun _ ↦ ?_⟩, ?_⟩
    · refine ⟨log, status, _, rfl, h.unfinished hopen, hquiet, fun hcode ↦ ?_⟩
      rcases hok hcode with hearly | ⟨-, hend⟩
      · simp only [Session.totals, h.fresh hearly]
      · exact hresponse hend
    · rw [readsInFlight_append, hquiet]
      rfl

/-- A message is counted once, whether it is invalid or its callback is under way. -/
theorem Tally.receive (h : Tally session log) (hidle : session.submitting = none)
    (message : Packet) : Tally (session.receive message) (log ++ [.readDone (some message)]) := by
  obtain ⟨n, hn, hcount⟩ := h.rejected
  rw [Session.callbacksUnderWay, hidle] at hcount
  change messagesRead log = n + callbacksReturned log + 0 at hcount
  have htotal : session.reader.mTotalPackets + 1 = UInt64.ofNat (messagesRead log + 1) := by
    rw [UInt64.ofNat_add, ← h.total]
    rfl
  unfold Session.receive Reader.receive
  cases forwarded message with
  | none =>
    refine ⟨by rw [messagesRead_append]; exact htotal, n + 1, ?_, ?_⟩
    · rw [UInt64.ofNat_add, ← hn]
      rfl
    · rw [messagesRead_append, callbacksReturned_append]
      show messagesRead log + 1 = n + 1 + (callbacksReturned log + 0) + 0
      omega
  | some packet =>
    refine ⟨by rw [messagesRead_append]; exact htotal, n, hn, ?_⟩
    rw [messagesRead_append, callbacksReturned_append]
    show messagesRead log + 1 = n + (callbacksReturned log + 0) + 1
    omega

/-- A callback that has returned is counted as such, and one that threw as a rejection. -/
theorem Tally.submitted (h : Tally session log) (hsub : session.submitting.isSome = true)
    (threw : Bool) : Tally (session.submitted threw) (log ++ [.submitted threw]) := by
  obtain ⟨n, hn, hcount⟩ := h.rejected
  rw [Session.callbacksUnderWay, if_pos hsub] at hcount
  have htotal := h.total
  unfold Session.submitted Reader.submitted
  cases threw with
  | true =>
    refine ⟨by rw [messagesRead_append]; exact htotal, n + 1, ?_, ?_⟩
    · rw [UInt64.ofNat_add, ← hn]
      rfl
    · rw [messagesRead_append, callbacksReturned_append]
      show messagesRead log + 0 = n + 1 + (callbacksReturned log + 0) + 0
      omega
  | false =>
    refine ⟨by rw [messagesRead_append]; exact htotal, n, hn, ?_⟩
    rw [messagesRead_append, callbacksReturned_append]
    show messagesRead log + 0 = n + (callbacksReturned log + 1) + 0
    omega

/-- The members of an open session may change with what is read and returned. -/
theorem LogInv.members (h : LogInv session log) {effect : SessionEffect}
    (htally : Tally session' (log ++ [effect])) (hs : session.rpc.stage = .reading)
    (hrpc : session'.rpc = session.rpc) (heffect : effect.isFinish = false) :
    LogInv session' (log ++ [effect]) := by
  refine ⟨htally, ?_, fun _ ↦ hrpc ▸ hs, fun _ ↦ ?_, ?_⟩
  · intro hc
    rw [hrpc, hs] at hc
    cases hc
  · rw [finishCalls_append, h.unfinished (by rw [hs]; rfl), finishCalls, List.countP_singleton,
      heffect]
    rfl
  · intro hc
    rw [hrpc, hs] at hc
    cases hc

/-- The read that was waited for is over. -/
theorem SessionInv.readDone (h : SessionInv session log) (hw : session.waiting = true)
    (message : Option Packet) : readsInFlight (log ++ [.readDone message]) = 0 := by
  rw [readsInFlight_append, h.inFlight, if_pos hw]
  rfl

/-- Every step of a session keeps it in agreement with its log. -/
theorem SessionInv.step (h : SessionInv session log)
    (hstep : SessionStep options s session event s' session' effects) :
    SessionInv session' (log ++ effects) := by
  cases hstep with
  | ignored =>
    rw [List.append_nil]
    exact h
  | proceeds hs =>
    have hidle : session.submitting = none := by
      by_contra hne
      exact hs (h.submitting (Option.isSome_iff_ne_none.mpr hne))
    have hquiet : readsInFlight log = 0 := by
      rw [h.inFlight, if_neg]
      rw [waiting_iff]
      exact fun hw ↦ hs hw.1
    exact h.toLogInv.outcome hidle hquiet (by rintro ⟨⟩) (publish_outcome options s _ _ _)
  | forwards message packet hw hf =>
    obtain ⟨hs, hidle⟩ := (waiting_iff session).mp hw
    refine ⟨h.toLogInv.members (h.toTally.receive hidle message) hs rfl rfl, ?_⟩
    rw [h.readDone hw, if_neg]
    rw [waiting_iff, submitting_receive, hf]
    exact fun hw' ↦ Option.some_ne_none packet hw'.2
  | refuses message read hw hf hread =>
    obtain ⟨hs, hidle⟩ := (waiting_iff session).mp hw
    have hlog := h.toLogInv.members (h.toTally.receive hidle message) hs rfl rfl
    rw [List.append_cons]
    refine hlog.outcome ((submitting_receive session message).trans hf) (h.readDone hw _) ?_
      (publish_outcome options s _ _ _)
    exact fun hend ↦ (afterMessage_ne _ (hread.symm.trans hend)).elim
  | ends hw =>
    obtain ⟨hs, hidle⟩ := (waiting_iff session).mp hw
    have htally : Tally session.endOfStream (log ++ [.readDone none]) :=
      h.toTally.keep rfl rfl rfl rfl
    rw [List.append_cons]
    exact (h.toLogInv.members htally hs rfl rfl).outcome hidle (h.readDone hw _) (fun _ ↦ rfl)
      (publish_outcome options s _ _ _)
  | returns threw read hsub hread =>
    have hlog := h.toLogInv.members (h.toTally.submitted hsub threw) (h.submitting hsub) rfl rfl
    have hquiet : readsInFlight (log ++ [.submitted threw]) = 0 := by
      rw [readsInFlight_append, h.inFlight, if_neg]
      · rfl
      · rw [waiting_iff]
        exact fun hw ↦ Option.isSome_iff_ne_none.mp hsub hw.2
    rw [List.append_cons]
    refine hlog.outcome rfl hquiet ?_ (publish_outcome options s _ _ _)
    exact fun hend ↦ (afterMessage_ne _ (hread.symm.trans hend)).elim

/-- A log that ends with its only call of `Finish` has nothing after any call. -/
theorem Closed.finish_eq (h : Closed session log) {before rest : List SessionEffect}
    {status : Status} {response : PublishResponse}
    (hlog : log = before ++ .finish status response :: rest) :
    rest = [] ∧ readsInFlight before = 0 ∧ (status.code = .ok → response = session.totals) := by
  obtain ⟨before', status', response', rfl, hfinish, hreads, hok⟩ := h
  rcases Lib.concat_eq_append_cons hlog with ⟨rfl, rfl, heffect⟩ | ⟨rest, hbefore⟩
  · cases heffect
    exact ⟨rfl, hreads, hok⟩
  · have hpos : 0 < finishCalls before' := by
      rw [hbefore]
      exact finishCalls_pos (List.mem_append_right _ List.mem_cons_self)
    omega

/-- A call of `Finish` closes its log. -/
theorem SessionInv.closed_of_finish (h : SessionInv session log) {status : Status}
    {response : PublishResponse} (hmem : .finish status response ∈ log) : Closed session log := by
  apply h.closed
  by_contra hopen
  have hpos := finishCalls_pos hmem
  rw [h.unfinished (by simpa using hopen)] at hpos
  exact Nat.lt_irrefl 0 hpos

/-- A session that agrees with its log keeps to what the summary promises. -/
theorem SessionInv.summary (h : SessionInv session log) : PublishSummary session log := by
  obtain ⟨n, hn, hcount⟩ := h.rejected
  have hfinish : session.rpc.stage.ended = true → finishCalls log = 1 := by
    intro hended
    obtain ⟨before, status, response, rfl, hbefore, -⟩ := h.closed hended
    rw [finishCalls_append, hbefore]
    rfl
  refine ⟨?_, ?_, ?_, h.total, ?_, ?_, ?_⟩
  · by_cases hended : session.rpc.stage.ended = true
    · rw [hfinish hended]
    · rw [h.unfinished (by simpa using hended)]
      exact Nat.zero_le 1
  · intro before status response rest hlog
    have hclosed := h.closed_of_finish (hlog ▸ List.mem_append_right _ List.mem_cons_self)
    obtain ⟨hrest, hreads, -⟩ := hclosed.finish_eq hlog
    exact ⟨hreads, hrest⟩
  · rintro ⟨hs | hs | hs, hidle⟩
    · left
      rw [h.inFlight, if_pos ((waiting_iff session).mpr ⟨hs, hidle⟩),
        h.unfinished (by rw [hs]; rfl)]
      exact ⟨rfl, rfl⟩
    · right
      rw [h.inFlight, hfinish (by rw [hs]; rfl), Session.waiting, hs]
      exact ⟨rfl, rfl⟩
    · right
      rw [h.inFlight, hfinish (by rw [hs]; rfl), Session.waiting, hs]
      exact ⟨rfl, rfl⟩
  · rw [h.total, hn, hcount, Nat.add_assoc, Nat.add_comm n, UInt64.ofNat_add]
    exact UInt64.add_sub_cancel _ _
  · intro hlt
    have hle : n ≤ messagesRead log := by omega
    rw [h.total, hn, UInt64.le_iff_toNat_le, UInt64.toNat_ofNat_of_lt' hlt,
      UInt64.toNat_ofNat_of_lt' (hle.trans_lt hlt)]
    exact hle
  · intro status response hmem hok
    obtain ⟨before, rest, hlog⟩ := List.append_of_mem hmem
    exact ((h.closed_of_finish hmem).finish_eq hlog).2.2 hok

/-- A step of a session is a step of its RPC, or changes neither the RPC nor the frontend. -/
theorem SessionStep.publishStep_eq
    (hstep : SessionStep options s session event s' session' effects) :
    (∃ read, publishStep options s session.rpc read = (s', session'.rpc)) ∨
      (s' = s ∧ session'.rpc = session.rpc) := by
  cases hstep with
  | ignored | forwards => exact Or.inr ⟨rfl, rfl⟩
  | proceeds => exact Or.inl ⟨.message, rfl⟩
  | refuses _ read | returns _ read => exact Or.inl ⟨read, rfl⟩
  | ends => exact Or.inl ⟨.endOfStream, rfl⟩

/-- The RPCs of the sessions are publishers. -/
theorem sessions_refines (options : FrontendOptions) :
    (sessions options).Refines (publishers options) (fun t ↦ t.1.rpc) where
  start _ := rfl
  act s _ t event := (session_step options s t.1 event).publishStep_eq
  env _ _ := rfl

/-- The RPCs of a run of sessions are those of a run of publishers. -/
theorem exists_reached (options : FrontendOptions)
    (moves : List (Lib.Move Metadata SessionEvent FrontendEvent)) :
    ∃ moves', (sessionRun options moves).mapThreads (fun t ↦ t.1.rpc) =
      (publishers options).after started moves' :=
  (sessions_refines options).exists_after ⟨{}, []⟩ moves

theorem sessionInv_stable (options : FrontendOptions) :
    Lib.Program.Stable (sessions options) (fun _ ↦ True) (fun _ _ t ↦ SessionInv t.1 t.2) where
  start _ _ _ _ := ⟨⟨⟨rfl, 0, rfl, rfl⟩, fun _ ↦ rfl, nofun, fun _ ↦ rfl, nofun⟩, rfl⟩
  act s _ t event _ h := ⟨trivial, h.step (session_step options s t.1 event)⟩
  other _ _ _ _ _ _ _ _ _ h := h
  env _ _ _ := trivial
  envThread _ _ _ _ _ h := h

/-- In every schedule, every session keeps to what the summary promises. -/
theorem publish_summary (options : FrontendOptions)
    (moves : List (Lib.Move Metadata SessionEvent FrontendEvent)) :
    ∀ t ∈ (sessionRun options moves).threads, PublishSummary t.1 t.2 := by
  intro t hmem
  have hinv := (sessionInv_stable options).after (s := ⟨{}, []⟩) ⟨trivial, by simp⟩ moves
  exact (hinv.of_mem hmem).summary

section Runs

/-- A packet that is forwarded. -/
def validPacket : Packet where
  streamIdentifier := ⟨ascii "UU", ascii "FTU", ascii "HHZ", ascii "01"⟩
  startTime := ⟨1, 0⟩
  samplingRate := .finite 100
  dataType := .integer32
  numberOfSamples := 100
  data := []

/-- A publisher reads. -/
def publisherReads : List (Lib.Move Metadata SessionEvent FrontendEvent) :=
  .spawn [] :: List.replicate 4 (.run 0 .proceed)

/-- The session that reads. -/
def readingSession : Session where
  rpc := { clientMetadata := [], stage := .reading, registered := true }

/-- It sends valid messages, and the callback of each returns. -/
def acceptedMessages (n : Nat) : List (Lib.Move Metadata SessionEvent FrontendEvent) :=
  (List.replicate n [.run 0 (.message validPacket), .run 0 (.submitted false)]).flatten

/-- A publisher that ends its stream after one message. -/
theorem publish_summary_oneMessage :
    ∃ t ∈ (sessionRun {} (publisherReads ++ acceptedMessages 1 ++ [.run 0 .endOfStream])).threads,
      finishCalls t.2 = 1 ∧ PublishSummary t.1 t.2 := by
  have hne : (sessionRun {} (publisherReads ++ acceptedMessages 1 ++
      [.run 0 .endOfStream])).threads ≠ [] := by decide +kernel
  have hone : ∀ t ∈ (sessionRun {} (publisherReads ++ acceptedMessages 1 ++
      [.run 0 .endOfStream])).threads, finishCalls t.2 = 1 := by decide +kernel
  have hmem := List.head_mem hne
  exact ⟨_, hmem, hone _ hmem, publish_summary _ _ _ hmem⟩

/-- The only session of a frontend takes its steps. -/
theorem sessions_step (s : FrontendState) (session : Session) (log : List SessionEffect)
    (event : SessionEvent) : (sessions options).step ⟨s, [(session, log)]⟩ (.run 0 event) =
      ⟨(session.step options s event).1,
        [((session.step options s event).2, log ++ session.effects options s event)]⟩ := rfl

/-- After a message whose callback returns, a session reads again. -/
theorem after_accepted (hrun : s.mKeepRunning = true) (hs : session.waiting = true) :
    ∃ session' log',
      (sessions options).after ⟨s, [(session, log)]⟩
        [.run 0 (.message validPacket), .run 0 (.submitted false)] = ⟨s, [(session', log')]⟩ ∧
      session'.waiting = true ∧ messagesRead log' = messagesRead log + 1 := by
  obtain ⟨hstage, hidle⟩ := (waiting_iff session).mp hs
  have hmessage : session.step options s (.message validPacket) =
      (s, session.receive validPacket) := by
    rw [Session.step, if_pos hs]
    rfl
  have hread : session.effects options s (.message validPacket) =
      [.readDone (some validPacket)] := by
    rw [Session.effects, if_pos hs]
    rfl
  have hgoesOn : ((session.receive validPacket).submitted false).reader.afterMessage options =
      .message := if_neg (not_lt.mpr options.mMaximumConsecutiveInvalidMessages.le)
  have hrpc : ((session.receive validPacket).submitted false).rpc.stage = .reading := hstage
  have hreturned : (session.receive validPacket).step options s (.submitted false) =
      (s, (session.receive validPacket).submitted false) := by
    show ((session.receive validPacket).submitted false).rpcStep options s _ = _
    rw [hgoesOn, Session.rpcStep, publishStep, hrpc]
    simp only [hrun, if_true]
  have hagain : (session.receive validPacket).effects options s (.submitted false) =
      [.submitted false, .startRead] := by
    show .submitted false :: ((session.receive validPacket).submitted false).rpcEffects
      options s _ = _
    rw [hgoesOn, Session.rpcEffects, publishEffects, hrpc]
    simp only [hrun, if_true]
  refine ⟨(session.receive validPacket).submitted false,
    log ++ [.readDone (some validPacket)] ++ [.submitted false, .startRead], ?_,
    (waiting_iff _).mpr ⟨hstage, rfl⟩, ?_⟩
  · simp only [Lib.Program.after, List.foldl_cons, List.foldl_nil, sessions_step, hmessage, hread,
      hreturned, hagain]
  · rw [messagesRead_append, messagesRead_append]
    rfl

/-- A session reads any number of messages whose callbacks return. -/
theorem after_acceptedMessages (n : Nat) (hrun : s.mKeepRunning = true)
    (hs : session.waiting = true) : ∃ session' log',
      (sessions options).after ⟨s, [(session, log)]⟩ (acceptedMessages n) =
        ⟨s, [(session', log')]⟩ ∧ messagesRead log' = messagesRead log + n := by
  induction n generalizing session log with
  | zero => exact ⟨session, log, rfl, rfl⟩
  | succ n ih =>
    obtain ⟨session₁, log₁, hfirst, hs₁, hone⟩ := after_accepted hrun hs
    obtain ⟨session₂, log₂, hrest, hmore⟩ := ih hs₁
    refine ⟨session₂, log₂, ?_, ?_⟩
    · rw [acceptedMessages, List.replicate_succ, List.flatten_cons, Lib.Program.after_append,
        hfirst]
      exact hrest
    · rw [hmore, hone]
      omega

/-- A message is no longer rejected and not yet returned from while its callback is under way, and
the total of `2 ^ 64` messages is zero. -/
theorem totals_inexact :
    (∃ t ∈ (sessionRun {} (publisherReads ++ [.run 0 (.message validPacket)])).threads,
      t.1.reader.mTotalPackets - t.1.reader.mPacketsRejected ≠
        UInt64.ofNat (callbacksReturned t.2)) ∧
    (∃ t ∈ (sessionRun {} (publisherReads ++ acceptedMessages (2 ^ 64))).threads,
      t.1.reader.mTotalPackets.toNat ≠ messagesRead t.2) := by
  constructor
  · decide +kernel
  · have hreads : sessionRun {} publisherReads =
        ⟨{ mNumberOfPublishers := 1 }, [(readingSession, [.startRead])]⟩ := rfl
    have hafter : ∃ session log, (sessions {}).after (sessionRun {} publisherReads)
        (acceptedMessages (2 ^ 64)) = ⟨{ mNumberOfPublishers := 1 }, [(session, log)]⟩ ∧
          messagesRead log = messagesRead [.startRead] + 2 ^ 64 := by
      rw [hreads]
      exact after_acceptedMessages (2 ^ 64) rfl rfl
    obtain ⟨session, log, hafter, hcount⟩ := hafter
    have hrun : sessionRun {} (publisherReads ++ acceptedMessages (2 ^ 64)) =
        ⟨{ mNumberOfPublishers := 1 }, [(session, log)]⟩ := by
      rw [← hafter]
      exact Lib.Program.after_append _ _
    have hmem : (session, log) ∈
        (sessionRun {} (publisherReads ++ acceptedMessages (2 ^ 64))).threads := by
      rw [hrun]
      exact List.mem_cons_self
    refine ⟨_, hmem, ?_⟩
    have hinv := (sessionInv_stable {}).after (s := ⟨{}, []⟩) ⟨trivial, by simp⟩
      (publisherReads ++ acceptedMessages (2 ^ 64))
    rw [(hinv.of_mem hmem).total, hcount]
    decide

end Runs

end ImportProxy.Frontend
