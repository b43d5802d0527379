import ImportProxy.Backend.Delivery
import ImportProxy.Detector.Allow
import ImportProxy.Frontend.Reader
import ImportProxy.Proxy.ImportQueue

/-!
# The proxy

Frontend, import queue, propagator and backend as one program:
`src/proxy.cpp:36–169`. Publishers and subscribers are its threads; the
propagator is its environment. A run starts after `start` and ends before
`stop`, so every load of the proxy's own `mKeepRunning` finds it set. With each
packet goes the position of its publisher, which the source does not keep.
-/

namespace ImportProxy.Proxy

open ImportProxy.Base
open ImportProxy.Detector (DuplicatePacketDetector DuplicatePacketDetectorOptions OptionsError)
open ImportProxy.Frontend (FrontendOptions FrontendState PublishRpc PublishStep ReadEvent Reader
  forwarded publishStep publish_step)
open ImportProxy.Backend (BackendOptions BackendState Writer WriterEvent WriterStep writerStep
  writer_step backendEvent trail)

/-- The default of `mQueueCapacity` of the proxy. -/
def defaultQueueCapacity : AtLeast 1 := ⟨8192, by decide⟩

/-- `ProxyOptions`, with what its setters check; `src/proxyOptions.cpp:13–18`. -/
structure ProxyOptions where
  mFrontendOptions : FrontendOptions := {}
  mBackendOptions : BackendOptions := {}
  mDuplicatePacketDetectorOptions : DuplicatePacketDetectorOptions := {}
  mQueueCapacity : AtLeast 1 := defaultQueueCapacity
  mHaveDuplicatePacketDetectorOptions : Bool := false
  deriving DecidableEq, Repr

namespace ProxyOptions

/-- `getFrontendOptions`; `src/proxyOptions.cpp:60–63`. -/
def getFrontendOptions (options : ProxyOptions) : FrontendOptions := options.mFrontendOptions

/-- `getBackendOptions`; `src/proxyOptions.cpp:71–74`. -/
def getBackendOptions (options : ProxyOptions) : BackendOptions := options.mBackendOptions

/-- `getQueueCapacity`; `src/proxyOptions.cpp:86–89`. -/
def getQueueCapacity (options : ProxyOptions) : Int := options.mQueueCapacity.value

/-- `setQueueCapacity`, none for its exception; `src/proxyOptions.cpp:77–84`. -/
def setQueueCapacity (options : ProxyOptions) (maxQueueCapacity : Int) : Option ProxyOptions :=
  (AtLeast.check 1 maxQueueCapacity).map fun n ↦ { options with mQueueCapacity := n }

/-- `getDuplicatePacketDetectorOptions`; `src/proxyOptions.cpp:105–113`. -/
def getDuplicatePacketDetectorOptions (options : ProxyOptions) :
    Option DuplicatePacketDetectorOptions :=
  if options.mHaveDuplicatePacketDetectorOptions then
    some options.mDuplicatePacketDetectorOptions
  else none

/-- `setDuplicatePacketDetectorOptions`, none for its exception; `src/proxyOptions.cpp:92–103`. -/
def setDuplicatePacketDetectorOptions (options : ProxyOptions)
    (detectorOptions : DuplicatePacketDetectorOptions) : Option ProxyOptions :=
  if detectorOptions.getCircularBufferSize.isNone &&
      detectorOptions.getCircularBufferDuration.isNone then none
  else some { options with
    mDuplicatePacketDetectorOptions := detectorOptions
    mHaveDuplicatePacketDetectorOptions := true }

end ProxyOptions

/-- A packet with the position of the publisher that it came from. -/
abbrev Tagged := Nat × Packet

/-- The next step of the propagator; `src/proxy.cpp:112–169`. -/
inductive PropagatorStage where
  /-- Tries to remove a packet from the import queue. -/
  | tryPop
  /-- Asks the detector about the packet. -/
  | check (packet : Tagged)
  /-- Calls `enqueuePacket` of the backend, which loads `mKeepRunning` of the manager. -/
  | enqueue (packet : Tagged)
  /-- The manager hands the packet to every subscriber. -/
  | broadcast (packet : Tagged)
  deriving DecidableEq

/-- `ProxyImpl`, with the packets that were passed to `Backend::enqueuePacket` so far. -/
structure ProxyState where
  frontend : FrontendState := {}
  importQueue : ImportQueue Tagged
  propagator : PropagatorStage := .tryPop
  mDuplicateDetector : Option DuplicatePacketDetector := none
  backend : BackendState Tagged
  enqueued : List Tagged := []

/-- The constructor; `src/proxy.cpp:36–69`. -/
def ProxyState.new (options : ProxyOptions) : Except OptionsError ProxyState :=
  let state : ProxyState := {
    importQueue := { mImportExportQueue := Lib.Fifo.empty options.getQueueCapacity.toNat }
    backend := (Backend.started options.getBackendOptions).shared }
  match options.getDuplicatePacketDetectorOptions with
  | none => .ok state
  | some duplicateDetectorOptions =>
    match DuplicatePacketDetector.new duplicateDetectorOptions with
    | .error e => .error e
    | .ok detector => .ok { state with mDuplicateDetector := some detector }

/-- The constructor leaves everything empty. -/
theorem ProxyState.new_spec {options : ProxyOptions} {state : ProxyState}
    (h : ProxyState.new options = .ok state) :
    state.enqueued = [] ∧ state.propagator = .tryPop ∧
      state.importQueue.mImportExportQueue.toList = [] ∧
      ∀ a, state.backend.mSubscriptionManager.queueOf a = [] := by
  have hqueue (a : Nat) : (Backend.started (π := Tagged)
      options.getBackendOptions).shared.mSubscriptionManager.queueOf a = [] := by
    unfold Backend.SubscriptionManager.queueOf Backend.started
    rw [Std.ExtTreeMap.getElem?_empty]
  unfold ProxyState.new at h
  dsimp only at h
  split at h
  · cases h
    exact ⟨rfl, rfl, rfl, hqueue⟩
  · split at h
    · cases h
    · cases h
      exact ⟨rfl, rfl, rfl, hqueue⟩

section Propagator

variable [Platform]

/-- The next step of the propagator. -/
def propagatorStep (s : ProxyState) : ProxyState :=
  match s.propagator with
  | .tryPop =>
    match s.importQueue.mImportExportQueue.tryPop with
    | none => s
    | some (packet, _) =>
      { s with importQueue := propagatorPop s.importQueue, propagator := .check packet }
  | .check packet =>
    match s.mDuplicateDetector with
    | none => { s with propagator := .enqueue packet }
    | some detector =>
      let (allow, detector) := detector.allow packet.2
      { s with
        mDuplicateDetector := some detector
        propagator := if allow = .ok true then .enqueue packet else .tryPop }
  | .enqueue packet =>
    { s with
      enqueued := s.enqueued ++ [packet]
      propagator :=
        if s.backend.mSubscriptionManager.mKeepRunning then .broadcast packet else .tryPop }
  | .broadcast packet =>
    { s with backend := backendEvent s.backend (.enqueuePacket packet), propagator := .tryPop }

/-- The steps of the propagator: what is known at the step, and what it leaves. -/
inductive PropagatorStep (s : ProxyState) : ProxyState → Prop
  | sleeps (hs : s.propagator = .tryPop)
      (hempty : s.importQueue.mImportExportQueue.toList = []) : PropagatorStep s s
  | pops (packet : Tagged) (importQueue : ImportQueue Tagged) (hs : s.propagator = .tryPop)
      (hpop : s.importQueue.mImportExportQueue.toList =
        packet :: importQueue.mImportExportQueue.toList) :
      PropagatorStep s { s with importQueue, propagator := .check packet }
  | unchecked (packet : Tagged) (hs : s.propagator = .check packet)
      (hd : s.mDuplicateDetector = none) :
      PropagatorStep s { s with propagator := .enqueue packet }
  | allowed (packet : Tagged) (detector : DuplicatePacketDetector)
      (hs : s.propagator = .check packet) (hd : s.mDuplicateDetector = some detector)
      (hallow : (detector.allow packet.2).1 = .ok true) :
      PropagatorStep s { s with
        mDuplicateDetector := some (detector.allow packet.2).2
        propagator := .enqueue packet }
  | dropped (packet : Tagged) (detector : DuplicatePacketDetector)
      (hs : s.propagator = .check packet) (hd : s.mDuplicateDetector = some detector)
      (hallow : (detector.allow packet.2).1 ≠ .ok true) :
      PropagatorStep s { s with
        mDuplicateDetector := some (detector.allow packet.2).2
        propagator := .tryPop }
  | enqueues (packet : Tagged) (hs : s.propagator = .enqueue packet)
      (hrun : s.backend.mSubscriptionManager.mKeepRunning = true) :
      PropagatorStep s { s with
        enqueued := s.enqueued ++ [packet]
        propagator := .broadcast packet }
  | enqueuesStopped (packet : Tagged) (hs : s.propagator = .enqueue packet)
      (hstop : s.backend.mSubscriptionManager.mKeepRunning = false) :
      PropagatorStep s { s with
        enqueued := s.enqueued ++ [packet]
        propagator := .tryPop }
  | broadcasts (packet : Tagged) (hs : s.propagator = .broadcast packet) :
      PropagatorStep s { s with
        backend := backendEvent s.backend (.enqueuePacket packet)
        propagator := .tryPop }

/-- A step of the propagator is one of the listed ones. -/
theorem propagator_step (s : ProxyState) : PropagatorStep s (propagatorStep s) := by
  unfold propagatorStep
  cases hs : s.propagator with
  | tryPop =>
    dsimp only
    split
    · next hpop => exact .sleeps hs (Lib.Fifo.tryPop_eq_none_iff.mp hpop)
    · next packet queue hpop =>
      have hqueue : (propagatorPop s.importQueue).mImportExportQueue = queue := by
        simp only [propagatorPop, hpop]
      refine .pops packet _ hs ?_
      rw [hqueue]
      exact (Lib.Fifo.tryPop_eq_some_iff.mp hpop).1
  | check packet =>
    dsimp only
    split
    · next hd => exact .unchecked packet hs hd
    · next detector hd =>
      by_cases hallow : (detector.allow packet.2).1 = .ok true
      · rw [if_pos hallow]
        exact .allowed packet detector hs hd hallow
      · rw [if_neg hallow]
        exact .dropped packet detector hs hd hallow
  | enqueue packet =>
    dsimp only
    by_cases hrun : s.backend.mSubscriptionManager.mKeepRunning = true
    · rw [if_pos hrun]
      exact .enqueues packet hs hrun
    · rw [if_neg hrun]
      exact .enqueuesStopped packet hs (by simpa using hrun)
  | broadcast packet => exact .broadcasts packet hs

end Propagator

/-- What an outstanding read of a publisher ends in. -/
inductive ReadDone where
  | message (packet : Packet)
  | endOfStream
  deriving DecidableEq

/-- A publisher: its RPC, the counters of its reader, the call of `addPacketCallback` that it is
in, and the messages that it has sent so far. -/
structure Publisher where
  rpc : PublishRpc
  reader : Reader := {}
  call : Option (AddCall Tagged) := none
  sent : List Packet := []
  deriving DecidableEq

namespace Publisher

/-- A step of the RPC on the shared members of the frontend. -/
def rpcStep (options : ProxyOptions) (s : ProxyState) (publisher : Publisher)
    (event : ReadEvent) : ProxyState × Publisher :=
  let (frontend, rpc) := publishStep options.getFrontendOptions s.frontend publisher.rpc event
  ({ s with frontend }, { publisher with rpc })

/-- After a message: the reader finishes, or goes on to the load of `mKeepRunning`. -/
def afterMessage (options : ProxyOptions) (s : ProxyState) (publisher : Publisher) :
    ProxyState × Publisher :=
  publisher.rpcStep options s (publisher.reader.afterMessage options.getFrontendOptions)

/-- One step of the publisher at position `i`. -/
def step (options : ProxyOptions) (s : ProxyState) (i : Nat) (publisher : Publisher)
    (read : ReadDone) : ProxyState × Publisher :=
  match publisher.call with
  | some call =>
    match call.stage with
    | .returned _ =>
      -- `addPacketCallback` catches every exception.
      { publisher with
        call := none
        reader := publisher.reader.submitted false }.afterMessage options s
    | _ =>
      let (importQueue, call) := addPacketStep s.importQueue call
      ({ s with importQueue }, { publisher with call := some call })
  | none =>
    if publisher.rpc.stage = .reading then
      match read with
      | .message message =>
        let publisher := { publisher with sent := publisher.sent ++ [message] }
        match publisher.reader.receive message with
        | (reader, some packet) =>
          (s, { publisher with reader, call := some { packet := (i, packet) } })
        | (reader, none) => { publisher with reader }.afterMessage options s
      | .endOfStream =>
        { publisher with reader := publisher.reader.endOfStream }.rpcStep options s .endOfStream
    else publisher.rpcStep options s .message

end Publisher

/-- A thread of the proxy. -/
inductive Party where
  | publisher (publisher : Publisher)
  | subscriber (writer : Writer Tagged)
  deriving DecidableEq

/-- An RPC arrives. -/
inductive Arrival where
  | publish (clientMetadata : Metadata)
  | subscribe (contextAddress : Nat) (clientMetadata : Metadata)
  deriving DecidableEq

/-- The outcome of a step that the environment chooses. -/
inductive PartyEvent where
  | publisher (read : ReadDone)
  | subscriber (event : WriterEvent)
  deriving DecidableEq

/-- One step of a thread. -/
def partyStep (options : ProxyOptions) (s : ProxyState) (i : Nat) :
    Party → PartyEvent → ProxyState × Party
  | .publisher publisher, .publisher read =>
    let left := publisher.step options s i read
    (left.1, .publisher left.2)
  | .subscriber writer, .subscriber event =>
    let left := writerStep options.getBackendOptions s.backend writer event
    ({ s with backend := left.1 }, .subscriber left.2)
  | party, _ => (s, party)

/-- The proxy with any number of publishers and subscribers. -/
def proxy [Platform] (options : ProxyOptions) :
    Lib.Program ProxyState Party Arrival PartyEvent Unit where
  start
    | .publish clientMetadata => .publisher { rpc := { clientMetadata } }
    | .subscribe contextAddress clientMetadata =>
      .subscriber { contextAddress, clientMetadata }
  act := partyStep options
  env s _ := propagatorStep s

/-- The steps of a publisher: what is known at the step, and what it leaves. -/
inductive PublisherStep (options : ProxyOptions) (s : ProxyState) (i : Nat)
    (publisher : Publisher) : ReadDone → ProxyState → Publisher → Prop
  | adds (read : ReadDone) (call call' : AddCall Tagged) (importQueue : ImportQueue Tagged)
      (hc : publisher.call = some call) (hs : ∀ pushed, call.stage ≠ .returned pushed)
      (hadd : AddStep s.importQueue call importQueue call') :
      PublisherStep options s i publisher read { s with importQueue }
        { publisher with call := some call' }
  | resumes (read : ReadDone) (call : AddCall Tagged) (pushed : Bool) (frontend : FrontendState)
      (rpc : PublishRpc) (hc : publisher.call = some call) (hs : call.stage = .returned pushed)
      (hrpc : PublishStep options.getFrontendOptions s.frontend publisher.rpc frontend rpc) :
      PublisherStep options s i publisher read { s with frontend }
        { publisher with call := none, reader := publisher.reader.submitted false, rpc }
  | calls (message packet : Packet) (hc : publisher.call = none)
      (hs : publisher.rpc.stage = .reading) (hf : forwarded message = some packet) :
      PublisherStep options s i publisher (.message message) s
        { publisher with
          sent := publisher.sent ++ [message]
          reader := (publisher.reader.receive message).1
          call := some { packet := (i, packet) } }
  | rejects (message : Packet) (frontend : FrontendState) (rpc : PublishRpc)
      (hc : publisher.call = none) (hs : publisher.rpc.stage = .reading)
      (hf : forwarded message = none)
      (hrpc : PublishStep options.getFrontendOptions s.frontend publisher.rpc frontend rpc) :
      PublisherStep options s i publisher (.message message) { s with frontend }
        { publisher with
          sent := publisher.sent ++ [message]
          reader := (publisher.reader.receive message).1
          call := none
          rpc }
  | ends (frontend : FrontendState) (rpc : PublishRpc) (hc : publisher.call = none)
      (hs : publisher.rpc.stage = .reading)
      (hrpc : PublishStep options.getFrontendOptions s.frontend publisher.rpc frontend rpc) :
      PublisherStep options s i publisher .endOfStream { s with frontend }
        { publisher with reader := publisher.reader.endOfStream, call := none, rpc }
  | proceeds (read : ReadDone) (frontend : FrontendState) (rpc : PublishRpc)
      (hc : publisher.call = none) (hs : publisher.rpc.stage ≠ .reading)
      (hrpc : PublishStep options.getFrontendOptions s.frontend publisher.rpc frontend rpc) :
      PublisherStep options s i publisher read { s with frontend } { publisher with rpc }

/-- A step of the RPC is one of the frontend, and changes nothing else of the proxy. -/
theorem rpc_step (options : ProxyOptions) (s : ProxyState) (publisher : Publisher)
    (event : ReadEvent) : ∃ frontend rpc,
      publisher.rpcStep options s event = ({ s with frontend }, { publisher with rpc }) ∧
      PublishStep options.getFrontendOptions s.frontend publisher.rpc frontend rpc :=
  ⟨_, _, rfl, publish_step options.getFrontendOptions s.frontend publisher.rpc event⟩

theorem after_message (options : ProxyOptions) (s : ProxyState) (publisher : Publisher) :
    ∃ frontend rpc,
      publisher.afterMessage options s = ({ s with frontend }, { publisher with rpc }) ∧
      PublishStep options.getFrontendOptions s.frontend publisher.rpc frontend rpc :=
  rpc_step options s publisher (publisher.reader.afterMessage options.getFrontendOptions)

/-- A step is one of the listed ones. -/
theorem publisher_step (options : ProxyOptions) (s : ProxyState) (i : Nat)
    (publisher : Publisher) (read : ReadDone) :
    PublisherStep options s i publisher read (publisher.step options s i read).1
      (publisher.step options s i read).2 := by
  unfold Publisher.step
  cases hc : publisher.call with
  | some call =>
    dsimp only
    split
    · next pushed hs =>
      obtain ⟨frontend, rpc, he, hrpc⟩ := after_message options s { publisher with
        call := none, reader := publisher.reader.submitted false }
      rw [he]
      exact .resumes read call pushed frontend rpc hc hs hrpc
    · next hs => exact .adds read call _ _ hc hs (add_step s.importQueue call)
  | none =>
    dsimp only
    by_cases hs : publisher.rpc.stage = .reading
    · rw [if_pos hs]
      cases read with
      | message message =>
        dsimp only
        have hf := publisher.reader.receive_snd message
        split
        · next reader packet hr =>
          rw [hr] at hf
          have hreader : reader = (publisher.reader.receive message).1 := by rw [hr]
          rw [hreader]
          exact .calls message packet hc hs hf.symm
        · next reader hr =>
          rw [hr] at hf
          have hreader : reader = (publisher.reader.receive message).1 := by rw [hr]
          rw [hreader]
          obtain ⟨frontend, rpc, he, hrpc⟩ := after_message options s { publisher with
            sent := publisher.sent ++ [message], call := none
            reader := (publisher.reader.receive message).1 }
          rw [he]
          exact .rejects message frontend rpc hc hs hf.symm hrpc
      | endOfStream =>
        dsimp only
        obtain ⟨frontend, rpc, he, hrpc⟩ := rpc_step options s { publisher with
          call := none, reader := publisher.reader.endOfStream } .endOfStream
        rw [he]
        exact .ends frontend rpc hc hs hrpc
    · rw [if_neg hs]
      obtain ⟨frontend, rpc, he, hrpc⟩ := rpc_step options s publisher .message
      rw [he]
      exact .proceeds read frontend rpc hc hs hrpc

end ImportProxy.Proxy
