import ImportProxy.Lib.Spelling
import ImportProxy.Proxy.Configuration
import Std.Data.String.ToInt

/-!
# Options that are written down

Every valid value of the options whose access tokens fit on a line is what some initialization
file gives: its values are single lines without blanks around them, as `read_ini` gives them, its
numbers are spelled as the conversions read them, and its keys and certificates are the contents
of the files that it names.
-/

namespace ImportProxy.Proxy

open ImportProxy.Base
open ImportProxy.Detector (DuplicatePacketDetectorOptions)
open ImportProxy.Frontend (FrontendOptions)
open ImportProxy.Backend (BackendOptions)

/-- The path names a file with these contents; none is named for an empty text. -/
def FileAt (surroundings : Surroundings) (path contents : Bytes) : Prop :=
  (path = [] ∧ contents = []) ∨ (path ≠ [] ∧ contents ≠ [] ∧ surroundings.fileExists path = true ∧
    surroundings.readFile path = some contents)

/-- A section in which these options are written down. -/
structure SectionOf (surroundings : Surroundings) (name : Bytes) (options : GRPCOptions) :
    Prop where
  host : surroundings.getOptional (name ++ ascii ".host") = some options.mHost
  port : (surroundings.getOptional (name ++ ascii ".port")).bind surroundings.toUInt16 =
    some options.mPort
  key : FileAt surroundings (surroundings.get (name ++ ascii ".serverKey") [])
    options.mServerKey
  certificate : FileAt surroundings (surroundings.get (name ++ ascii ".serverCertificate") [])
    options.mServerCertificate
  token : surroundings.getOptional (name ++ ascii ".accessToken") = options.getAccessToken
  client : FileAt surroundings (surroundings.get (name ++ ascii ".clientCertificate") [])
    options.mClientCertificate

section Written

variable {surroundings : Surroundings} {name : Bytes} {options options' : GRPCOptions}

/-- Reading a file that is there. -/
theorem loadStringFromFile_eq_ok {path contents : Bytes}
    (hexists : surroundings.fileExists path = true)
    (hread : surroundings.readFile path = some contents) :
    surroundings.loadStringFromFile path = .ok contents := by
  simp [Surroundings.loadStringFromFile, hexists, hread]

theorem withServerCredentials_eq_ok (h : SectionOf surroundings name options)
    (hvalid : ValidGRPC options) :
    withServerCredentials surroundings name options' = .ok
      (if options.mHaveServerKey then { options' with
        mHaveServerKey := true
        mServerKey := options.mServerKey
        mHaveServerCertificate := true
        mServerCertificate := options.mServerCertificate }
      else options') := by
  have hkey := hvalid.key
  have hcertificate := hvalid.certificate
  have htogether := hvalid.together
  unfold withServerCredentials
  dsimp only
  rcases h.key with ⟨hpath, hcontents⟩ | ⟨hpath, hcontents, hexists, hread⟩
  · have hnone : options.mHaveServerKey = false := by simp [hkey, hcontents]
    rw [if_neg (by simp [hpath]), if_neg (by simp [hnone])]
    rfl
  · have hsome : options.mHaveServerKey = true := by simp [hkey, hcontents]
    rcases h.certificate with ⟨hpath', hcontents'⟩ | ⟨hpath', hcontents', hexists', hread'⟩
    · have hnone : options.mHaveServerCertificate = false := by simp [hcertificate, hcontents']
      rw [← htogether, hsome] at hnone
      cases hnone
    · have hload := loadStringFromFile_eq_ok hexists hread
      have hload' := loadStringFromFile_eq_ok hexists' hread'
      rw [if_pos (by simp [hpath, hpath']), if_neg (by simp [hexists]),
        if_neg (by simp [hexists']), if_pos hsome]
      exact bind_eq_ok.mpr ⟨_, hload, bind_eq_ok.mpr ⟨_, setServerKey_eq_ok.mpr ⟨hcontents, rfl⟩,
        bind_eq_ok.mpr ⟨_, hload', setServerCertificate_eq_ok.mpr ⟨hcontents', rfl⟩⟩⟩⟩

theorem withAccessToken_eq_ok (h : SectionOf surroundings name options)
    (hvalid : ValidGRPC options) (hkey : options'.mHaveServerKey = options.mHaveServerKey)
    (hcertificate : options'.mHaveServerCertificate = options.mHaveServerCertificate) :
    withAccessToken surroundings name options' = .ok
      (if options.mHaveAccessToken then { options' with
        mHaveAccessToken := true
        mAccessToken := options.mAccessToken }
      else options') := by
  have htoken := hvalid.token
  unfold withAccessToken
  rw [h.token]
  unfold GRPCOptions.getAccessToken
  cases hhave : options.mHaveAccessToken with
  | false => rfl
  | true =>
    have hserver := hvalid.secured hhave
    have hserver' := hvalid.together.symm.trans hserver
    have hsecured : (options'.getServerKey.isNone || options'.getServerCertificate.isNone) =
        false := by
      simp [GRPCOptions.getServerKey, GRPCOptions.getServerCertificate, hkey, hcertificate,
        hserver, hserver']
    rw [hhave] at htoken
    simp only [if_true, hsecured]
    exact setAccessToken_eq_ok.mpr ⟨by simpa using htoken.symm, rfl⟩

theorem withClientCertificate_eq_ok (h : SectionOf surroundings name options)
    (hvalid : ValidGRPC options) :
    withClientCertificate surroundings name options' = .ok
      (if options.mHaveClientCertificate then { options' with
        mHaveClientCertificate := true
        mClientCertificate := options.mClientCertificate }
      else options') := by
  have hclient := hvalid.client
  unfold withClientCertificate
  dsimp only
  rcases h.client with ⟨hpath, hcontents⟩ | ⟨hpath, hcontents, hexists, hread⟩
  · have hnone : options.mHaveClientCertificate = false := by simp [hclient, hcontents]
    rw [if_neg (by simp [hpath]), if_neg (by simp [hnone])]
    rfl
  · have hsome : options.mHaveClientCertificate = true := by simp [hclient, hcontents]
    rw [if_pos (by simp [hpath]), if_neg (by simp [hexists]), if_pos hsome]
    exact bind_eq_ok.mpr ⟨_, loadStringFromFile_eq_ok hexists hread,
      setClientCertificate_eq_ok.mpr ⟨hcontents, rfl⟩⟩

/-- What a section writes down is read from it. -/
theorem getGRPCOptions_eq_ok (h : SectionOf surroundings name options) (hvalid : ValidGRPC options)
    (isFrontEnd : Bool) : getGRPCOptions surroundings name isFrontEnd = .ok options := by
  have hhost (default : Bytes) :
      surroundings.get (name ++ ascii ".host") default = options.mHost := by
    rw [Surroundings.get, h.host, Option.getD_some]
  have hport (default : UInt16) :
      surroundings.getUInt16 (name ++ ascii ".port") default = options.mPort := by
    rw [Surroundings.getUInt16, h.port, Option.getD_some]
  have hfilter : (options.mHost.filter fun c ↦ !Frontend.isspace c) = options.mHost := by
    apply List.filter_eq_self.mpr
    intro c hc
    rw [hvalid.graphic c hc, Bool.not_false]
  have hset : setHost {} options.mHost = .ok { mHost := options.mHost } := by
    refine setHost_eq_ok.mpr ⟨?_, ?_⟩
    · rw [hfilter]
      exact hvalid.host
    · rw [hfilter]
  have hdefault : (if isFrontEnd then 50000 else 50001 : UInt16) ≠ 0 := by
    cases isFrontEnd <;> decide
  unfold getGRPCOptions
  simp only [hhost, hport]
  rw [if_neg (by simpa using hvalid.host)]
  refine bind_eq_ok.mpr ⟨_, hset, bind_eq_ok.mpr ⟨_, setPort_eq_ok.mpr ⟨hdefault, rfl⟩,
    bind_eq_ok.mpr ⟨_, setPort_eq_ok.mpr ⟨hvalid.port, rfl⟩, bind_eq_ok.mpr ⟨_,
      withServerCredentials_eq_ok h hvalid, bind_eq_ok.mpr ⟨_,
        withAccessToken_eq_ok h hvalid ?_ ?_, ?_⟩⟩⟩⟩⟩
  · cases hkey : options.mHaveServerKey <;> simp
  · rw [← hvalid.together]
    cases hkey : options.mHaveServerKey <;> simp
  · rw [withClientCertificate_eq_ok h hvalid]
    -- a text without its flag is empty, as in the defaults
    have hempty {flag : Bool} {text : Bytes} (hflag : flag = !text.isEmpty)
        (hnot : flag = false) : text = [] := by
      simpa [hnot] using hflag.symm
    have hkey := hempty hvalid.key
    have hcertificate := hempty hvalid.certificate
    have hclient := hempty hvalid.client
    have htoken := hempty hvalid.token
    have htogether := hvalid.together
    clear hset hfilter hhost hport h hvalid hdefault hempty
    obtain ⟨host, port, key, certificate, client, token, haveKey, haveCertificate, haveClient,
      haveToken⟩ := options
    dsimp only at hkey hcertificate hclient htoken htogether ⊢
    subst htogether
    cases haveKey <;> cases haveClient <;> cases haveToken <;> simp_all

end Written

/-- What `read_ini` gives as a value: the rest of a line, without the blanks around it. -/
def SingleLine (value : Bytes) : Prop := 10 ∉ value ∧ Frontend.trim value = value

instance (value : Bytes) : Decidable (SingleLine value) := inferInstanceAs (Decidable (_ ∧ _))

/-- A text without blanks is a single line. -/
theorem singleLine_of_graphic {value : Bytes} (h : ∀ c ∈ value, Frontend.isspace c = false) :
    SingleLine value := by
  refine ⟨fun hmem ↦ absurd (h 10 hmem) (by decide), ?_⟩
  show Lib.strip Frontend.isspace value = value
  rw [Lib.strip_eq_self_iff]
  exact ⟨fun hne ↦ h _ (List.head_mem hne), fun hne ↦ h _ (List.getLast_mem hne)⟩

/-- Conversions of Boost that read back how a number is spelled. -/
structure Spelling where
  toUInt16 : Bytes → Option UInt16
  toInt : Bytes → Option Int32
  toInt64 : Bytes → Option Int64
  ofUInt16 : UInt16 → Bytes
  ofInt : Int32 → Bytes
  toUInt16_ofUInt16 : ∀ n, toUInt16 (ofUInt16 n) = some n
  toInt_ofInt : ∀ n, toInt (ofInt n) = some n
  singleLine_ofUInt16 : ∀ n, SingleLine (ofUInt16 n)
  singleLine_ofInt : ∀ n, SingleLine (ofInt n)

/-- The property tree comes from `read_ini`, and its numbers are read with these conversions. -/
structure IniFile.ReadBy (ini : IniFile) (spelling : Spelling) : Prop where
  singleLine : ∀ path value, ini.getOptional path = some value → SingleLine value
  toUInt16 : ini.toUInt16 = spelling.toUInt16
  toInt : ini.toInt = spelling.toInt
  toInt64 : ini.toInt64 = spelling.toInt64

/-- The two sections with options of gRPC. -/
inductive Server where
  | frontend
  | backend
  deriving DecidableEq

/-- The name of a section. -/
def Server.name : Server → Bytes
  | .frontend => ascii "Frontend"
  | .backend => ascii "Backend"

/-- What `getProxyOptions` looks up. -/
inductive Key where
  | host (server : Server)
  | port (server : Server)
  | serverKey (server : Server)
  | serverCertificate (server : Server)
  | accessToken (server : Server)
  | clientCertificate (server : Server)
  | maximumMessageSizeInBytes
  | maximumNumberOfPublishers
  | maximumNumberOfConsecutiveInvalidMessages
  | maximumNumberOfSubscribers
  | streamCapacity
  | queueCapacity
  | circularBufferSize
  | circularBufferDuration
  deriving DecidableEq

namespace Key

/-- The path of a key in the property tree. -/
def path : Key → Bytes
  | host server => server.name ++ ascii ".host"
  | port server => server.name ++ ascii ".port"
  | serverKey server => server.name ++ ascii ".serverKey"
  | serverCertificate server => server.name ++ ascii ".serverCertificate"
  | accessToken server => server.name ++ ascii ".accessToken"
  | clientCertificate server => server.name ++ ascii ".clientCertificate"
  | maximumMessageSizeInBytes => ascii "Frontend" ++ ascii ".maximumMessageSizeInBytes"
  | maximumNumberOfPublishers => ascii "Frontend" ++ ascii ".maximumNumberOfPublishers"
  | maximumNumberOfConsecutiveInvalidMessages =>
    ascii "Frontend" ++ ascii ".maximumNumberOfConsecutiveInvalidMessages"
  | maximumNumberOfSubscribers => ascii "Backend" ++ ascii ".maximumNumberOfSubscribers"
  | streamCapacity => ascii "Backend" ++ ascii ".queueCapacity"
  | queueCapacity => ascii "Proxy.queueCapacity"
  | circularBufferSize => ascii "Proxy.duplicateDetectorCircularBufferSize"
  | circularBufferDuration => ascii "Proxy.duplicateDetectorCircularBufferDurationInSeconds"

/-- All keys. -/
def all : List Key :=
  [.frontend, .backend].flatMap (fun server ↦ [host server, port server, serverKey server,
    serverCertificate server, accessToken server, clientCertificate server]) ++
  [maximumMessageSizeInBytes, maximumNumberOfPublishers,
    maximumNumberOfConsecutiveInvalidMessages, maximumNumberOfSubscribers, streamCapacity,
    queueCapacity, circularBufferSize, circularBufferDuration]

theorem mem_all (key : Key) : key ∈ all := by
  cases key with
  | host server | port server | serverKey server | serverCertificate server
  | accessToken server | clientCertificate server => cases server <;> decide
  | maximumMessageSizeInBytes | maximumNumberOfPublishers
  | maximumNumberOfConsecutiveInvalidMessages | maximumNumberOfSubscribers | streamCapacity
  | queueCapacity | circularBufferSize | circularBufferDuration => decide

/-- Different keys are looked up at different paths. -/
theorem path_injective : Function.Injective path := by
  have hall : ∀ key ∈ all, ∀ key' ∈ all, key.path = key'.path → key = key' := by decide +kernel
  exact fun key key' ↦ hall key (mem_all key) key' (mem_all key')

theorem path_ne_nil (key : Key) : key.path ≠ [] := by
  have hall : ∀ key ∈ all, key.path ≠ [] := by decide +kernel
  exact hall key (mem_all key)

/-- Paths are single lines, so that they name files as well. -/
theorem singleLine_path (key : Key) : SingleLine key.path := by
  have hall : ∀ key ∈ all, SingleLine key.path := by decide +kernel
  exact hall key (mem_all key)

/-- What has these values at the paths of the keys. -/
def tree (value : Key → Option Bytes) (path : Bytes) : Option Bytes :=
  (all.find? fun key ↦ key.path = path).bind value

theorem tree_path (value : Key → Option Bytes) (key : Key) : tree value key.path = value key := by
  unfold tree
  cases h : all.find? fun key' ↦ key'.path = key.path with
  | none =>
    have hnone := List.find?_eq_none.mp h key (mem_all key)
    simp at hnone
  | some key' =>
    have hfound := List.find?_some h
    have heq : key' = key := path_injective (by simpa using hfound)
    rw [heq, Option.bind_some]

/-- It has no other values. -/
theorem exists_of_tree {value : Key → Option Bytes} {path text : Bytes}
    (h : tree value path = some text) : ∃ key, value key = some text := by
  obtain ⟨key, -, hvalue⟩ := Option.bind_eq_some_iff.mp h
  exact ⟨key, hvalue⟩

end Key

section

variable (spelling : Spelling) (settings : ProxySettings)

/-- The options of gRPC of a server. -/
def ProxySettings.grpcOptions : Server → GRPCOptions
  | .frontend => settings.mFrontendOptions.mGRPCOptions
  | .backend => settings.mBackendOptions.mGRPCOptions

/-- How a number of the options is spelled. -/
def Spelling.spell (n : Int) : Bytes := spelling.ofInt (Int32.ofInt n)

/-- The texts that are the contents of files. -/
def contentsOf : Key → Bytes
  | .serverKey server => (settings.grpcOptions server).mServerKey
  | .serverCertificate server => (settings.grpcOptions server).mServerCertificate
  | .clientCertificate server => (settings.grpcOptions server).mClientCertificate
  | .host _ | .port _ | .accessToken _ | .maximumMessageSizeInBytes | .maximumNumberOfPublishers
  | .maximumNumberOfConsecutiveInvalidMessages | .maximumNumberOfSubscribers | .streamCapacity
  | .queueCapacity | .circularBufferSize | .circularBufferDuration => []

/-- A text that is not empty is in a file, whose name is the path of the key. -/
def fileOf (key : Key) : Option Bytes :=
  if contentsOf settings key = [] then none else some key.path

/-- What the initialization file has under each key. -/
def valueOf : Key → Option Bytes
  | .host server => some (settings.grpcOptions server).mHost
  | .port server => some (spelling.ofUInt16 (settings.grpcOptions server).mPort)
  | .serverKey server => fileOf settings (.serverKey server)
  | .serverCertificate server => fileOf settings (.serverCertificate server)
  | .accessToken server => (settings.grpcOptions server).getAccessToken
  | .clientCertificate server => fileOf settings (.clientCertificate server)
  | .maximumMessageSizeInBytes => some (spelling.spell settings.mMaximumMessageSizeInBytes.value)
  | .maximumNumberOfPublishers =>
    some (spelling.spell settings.mFrontendOptions.mMaximumNumberOfPublishers.value)
  | .maximumNumberOfConsecutiveInvalidMessages =>
    some (spelling.spell settings.mFrontendOptions.mMaximumConsecutiveInvalidMessages.value)
  | .maximumNumberOfSubscribers =>
    some (spelling.spell settings.mBackendOptions.mMaximumNumberOfSubscribers.value)
  | .streamCapacity => some (spelling.spell settings.mBackendOptions.mQueueCapacity.value)
  | .queueCapacity => some (spelling.spell settings.mQueueCapacity.value)
  | .circularBufferSize => settings.getDuplicatePacketDetectorOptions.bind fun options ↦
      options.getCircularBufferSize.map spelling.spell
  | .circularBufferDuration => settings.getDuplicatePacketDetectorOptions.bind fun options ↦
      options.getCircularBufferDuration.map spelling.spell

/-- An initialization file with these options, beside the files that it names. -/
def written : IniFile where
  getOptional := Key.tree (valueOf spelling settings)
  toUInt16 := spelling.toUInt16
  toInt := spelling.toInt
  toInt64 := spelling.toInt64
  fileExists path := (Key.tree (fun key ↦ some (contentsOf settings key)) path).isSome
  readFile := Key.tree fun key ↦ some (contentsOf settings key)

/-- The access tokens of both servers fit on a line. -/
def TokensOnLines : Prop :=
  ∀ server token, (settings.grpcOptions server).getAccessToken = some token → SingleLine token

end

variable {spelling : Spelling} {settings : ProxySettings}

theorem sectionOf_written (spelling : Spelling) (settings : ProxySettings) (server : Server) :
    SectionOf (written spelling settings).toSurroundings server.name
      (settings.grpcOptions server) := by
  have hget (key : Key) :
      (written spelling settings).getOptional key.path = valueOf spelling settings key :=
    Key.tree_path _ key
  have hfile (key : Key) (hkey : valueOf spelling settings key = fileOf settings key) :
      FileAt (written spelling settings).toSurroundings
        ((written spelling settings).get key.path []) (contentsOf settings key) := by
    rw [Surroundings.get, hget, hkey, fileOf]
    by_cases hempty : contentsOf settings key = []
    · exact Or.inl ⟨by rw [if_pos hempty, Option.getD_none], hempty⟩
    · have hread : (written spelling settings).readFile key.path =
          some (contentsOf settings key) := Key.tree_path _ key
      rw [if_neg hempty, Option.getD_some]
      refine Or.inr ⟨Key.path_ne_nil key, hempty, ?_, hread⟩
      show ((written spelling settings).readFile key.path).isSome = true
      rw [hread, Option.isSome_some]
  constructor
  · exact hget (.host server)
  · have hport := hget (.port server)
    have hbind : ((written spelling settings).getOptional (Key.port server).path).bind
        spelling.toUInt16 = some (settings.grpcOptions server).mPort := by
      rw [hport]
      exact spelling.toUInt16_ofUInt16 _
    exact hbind
  · exact hfile (.serverKey server) rfl
  · exact hfile (.serverCertificate server) rfl
  · exact hget (.accessToken server)
  · exact hfile (.clientCertificate server) rfl

/-- A number is read as it is spelled. -/
theorem getOptionalInt_written (key : Key) {n : Int} (hn : InInt32 n)
    (hkey : valueOf spelling settings key = some (spelling.spell n)) :
    (written spelling settings).getOptionalInt key.path = some n := by
  have hget : (written spelling settings).getOptional key.path = some (spelling.spell n) :=
    (Key.tree_path _ key).trans hkey
  have hread : (written spelling settings).toInt (spelling.spell n) = some (Int32.ofInt n) :=
    spelling.toInt_ofInt _
  rw [IniFile.getOptionalInt, hget, Option.bind_some, hread, Option.map_some,
    Int32.toInt_ofInt_of_le hn.1 hn.2]

theorem getInt_written (key : Key) {n : Int} (hn : InInt32 n)
    (hkey : valueOf spelling settings key = some (spelling.spell n)) (default : Int) :
    (written spelling settings).getInt key.path default = n := by
  rw [IniFile.getInt, getOptionalInt_written key hn hkey, Option.getD_some]

theorem getFrontendOptions_written (spelling : Spelling) (h : ValidSettings settings) :
    getFrontendOptions (written spelling settings) = .ok settings.frontend := by
  have hnumbers := h.frontendNumbers
  simp only [FrontendSettings.numbers, List.forall_mem_cons] at hnumbers
  obtain ⟨hsize, hpublishers, hmessages, -⟩ := hnumbers
  have hgrpc := getGRPCOptions_eq_ok (sectionOf_written spelling settings .frontend) h.frontend true
  have hget : ∀ default, (written spelling settings).getInt
      (ascii "Frontend" ++ ascii ".maximumMessageSizeInBytes") default =
        settings.mMaximumMessageSizeInBytes.value :=
    getInt_written .maximumMessageSizeInBytes hsize rfl
  have hget' : ∀ default, (written spelling settings).getInt
      (ascii "Frontend" ++ ascii ".maximumNumberOfPublishers") default =
        settings.mFrontendOptions.mMaximumNumberOfPublishers.value :=
    getInt_written .maximumNumberOfPublishers hpublishers rfl
  have hget'' : ∀ default, (written spelling settings).getInt
      (ascii "Frontend" ++ ascii ".maximumNumberOfConsecutiveInvalidMessages") default =
        settings.mFrontendOptions.mMaximumConsecutiveInvalidMessages.value :=
    getInt_written .maximumNumberOfConsecutiveInvalidMessages hmessages rfl
  unfold getFrontendOptions
  simp only [hget, hget', hget'']
  exact bind_eq_ok.mpr ⟨_, mapError_eq_ok.mpr hgrpc, bind_eq_ok.mpr ⟨_,
    orThrow_eq_ok.mpr (setMaximumMessageSizeInBytes_eq_some.mpr ⟨AtLeast.le _, rfl⟩),
    bind_eq_ok.mpr ⟨_,
      orThrow_eq_ok.mpr (setMaximumNumberOfPublishers_eq_some.mpr ⟨AtLeast.le _, rfl⟩),
      bind_eq_ok.mpr ⟨_, orThrow_eq_ok.mpr
        (setMaximumNumberOfConsecutiveInvalidMessages_eq_some.mpr ⟨AtLeast.le _, rfl⟩), rfl⟩⟩⟩⟩

theorem getBackendOptions_written (spelling : Spelling) (h : ValidSettings settings) :
    getBackendOptions (written spelling settings) = .ok settings.mBackendOptions := by
  have hnumbers := h.backendNumbers
  simp only [backendNumbers, List.forall_mem_cons] at hnumbers
  obtain ⟨hsubscribers, hcapacity, -⟩ := hnumbers
  have hgrpc := getGRPCOptions_eq_ok (sectionOf_written spelling settings .backend) h.backend false
  have hget : ∀ default, (written spelling settings).getInt
      (ascii "Backend" ++ ascii ".maximumNumberOfSubscribers") default =
        settings.mBackendOptions.mMaximumNumberOfSubscribers.value :=
    getInt_written .maximumNumberOfSubscribers hsubscribers rfl
  have hget' : ∀ default, (written spelling settings).getInt
      (ascii "Backend" ++ ascii ".queueCapacity") default =
        settings.mBackendOptions.mQueueCapacity.value :=
    getInt_written .streamCapacity hcapacity rfl
  unfold getBackendOptions
  simp only [hget, hget']
  exact bind_eq_ok.mpr ⟨_, mapError_eq_ok.mpr hgrpc, bind_eq_ok.mpr ⟨_,
    orThrow_eq_ok.mpr (setMaximumNumberOfSubscribers_eq_some.mpr ⟨AtLeast.le _, rfl⟩),
    orThrow_eq_ok.mpr (setStreamCapacity_eq_some.mpr ⟨AtLeast.le _, rfl⟩)⟩⟩

theorem getOptionalInt_written_none (key : Key) (hkey : valueOf spelling settings key = none) :
    (written spelling settings).getOptionalInt key.path = none := by
  have hget : (written spelling settings).getOptional key.path = none :=
    (Key.tree_path _ key).trans hkey
  rw [IniFile.getOptionalInt, hget, Option.bind_none, Option.map_none]

/-- The options of the detector are read as they are written. -/
theorem withDuplicatePacketDetectorOptions_written (spelling : Spelling)
    (h : ValidSettings settings) {options : ProxyOptions}
    (hhave : options.mHaveDuplicatePacketDetectorOptions = false)
    (hdefault : options.mDuplicatePacketDetectorOptions = {}) :
    withDuplicatePacketDetectorOptions (written spelling settings) options = .ok { options with
      mDuplicatePacketDetectorOptions := settings.mDuplicatePacketDetectorOptions
      mHaveDuplicatePacketDetectorOptions := settings.mHaveDuplicatePacketDetectorOptions } := by
  unfold withDuplicatePacketDetectorOptions
  dsimp only
  cases hset : settings.mHaveDuplicatePacketDetectorOptions with
  | false =>
    have hnone : settings.getDuplicatePacketDetectorOptions = none := by
      simp [ProxyOptions.getDuplicatePacketDetectorOptions, hset]
    have hsize : (written spelling settings).getOptionalInt
        (ascii "Proxy.duplicateDetectorCircularBufferSize") = none :=
      getOptionalInt_written_none .circularBufferSize (by simp [valueOf, hnone])
    have hduration : (written spelling settings).getOptionalInt
        (ascii "Proxy.duplicateDetectorCircularBufferDurationInSeconds") = none :=
      getOptionalInt_written_none .circularBufferDuration (by simp [valueOf, hnone])
    simp only [hsize, hduration]
    rw [h.noDetector hset, ← hdefault, ← hhave]
  | true =>
    obtain ⟨n, hn, hrange, hsized⟩ := h.detector hset
    have hpos : n > 0 := hn
    have hsome : settings.getDuplicatePacketDetectorOptions =
        some settings.mDuplicatePacketDetectorOptions := by
      simp [ProxyOptions.getDuplicatePacketDetectorOptions, hset]
    have hsetDetector := setDuplicatePacketDetectorOptions_of_sizedBy options hn hsized
    rcases hsized with he | he
    · have hsize : (written spelling settings).getOptionalInt
          (ascii "Proxy.duplicateDetectorCircularBufferSize") = some n :=
        getOptionalInt_written .circularBufferSize hrange (by
          simp [valueOf, hsome, he, DuplicatePacketDetectorOptions.getCircularBufferSize, hpos])
      simp only [hsize]
      rw [if_neg (by omega)]
      refine bind_eq_ok.mpr ⟨_, mapError_eq_ok.mpr (if_neg (by omega)), ?_⟩
      rw [← he]
      exact orThrow_eq_ok.mpr hsetDetector
    · have hsize : (written spelling settings).getOptionalInt
          (ascii "Proxy.duplicateDetectorCircularBufferSize") = none :=
        getOptionalInt_written_none .circularBufferSize (by
          simp [valueOf, hsome, he, DuplicatePacketDetectorOptions.getCircularBufferSize])
      have hduration : (written spelling settings).getOptionalInt
          (ascii "Proxy.duplicateDetectorCircularBufferDurationInSeconds") = some n :=
        getOptionalInt_written .circularBufferDuration hrange (by
          simp [valueOf, hsome, he, DuplicatePacketDetectorOptions.getCircularBufferDuration,
            hpos])
      simp only [hsize, hduration]
      rw [if_neg (by omega)]
      refine bind_eq_ok.mpr ⟨_, mapError_eq_ok.mpr (if_neg (by omega)), ?_⟩
      rw [← he]
      exact orThrow_eq_ok.mpr hsetDetector

/-- Valid options are read as they are written. -/
theorem getProxyOptions_written (spelling : Spelling) (h : ValidSettings settings) :
    getProxyOptions (written spelling settings) = .ok settings := by
  have hget : ∀ default, (written spelling settings).getInt (ascii "Proxy.queueCapacity") default =
      settings.mQueueCapacity.value :=
    getInt_written .queueCapacity h.queueCapacity rfl
  have hapart : ¬(settings.frontend.mGRPCOptions.getHost =
      settings.mBackendOptions.mGRPCOptions.getHost ∧ settings.frontend.mGRPCOptions.getPort =
        settings.mBackendOptions.mGRPCOptions.getPort) := by
    rintro ⟨hhost, hport⟩
    apply h.apart
    show makeAddress settings.frontend.mGRPCOptions = _
    rw [makeAddress, makeAddress, hhost, hport]
  unfold getProxyOptions
  simp only [hget]
  refine bind_eq_ok.mpr ⟨_, orThrow_eq_ok.mpr (setQueueCapacity_eq_some.mpr ⟨AtLeast.le _, rfl⟩),
    bind_eq_ok.mpr ⟨_, getFrontendOptions_written spelling h, bind_eq_ok.mpr ⟨_,
      getBackendOptions_written spelling h, ?_⟩⟩⟩
  dsimp only
  rw [if_neg hapart]
  exact bind_eq_ok.mpr ⟨_, withDuplicatePacketDetectorOptions_written spelling h rfl rfl, rfl⟩

/-- The values that are written down are single lines. -/
theorem readBy_written (spelling : Spelling) (h : ValidSettings settings)
    (htokens : TokensOnLines settings) : (written spelling settings).ReadBy spelling := by
  refine ⟨fun path value hvalue ↦ ?_, rfl, rfl, rfl⟩
  obtain ⟨key, hkey⟩ := Key.exists_of_tree hvalue
  have hfile (hfile : fileOf settings key = some value) : SingleLine value := by
    unfold fileOf at hfile
    split at hfile
    · cases hfile
    · cases hfile
      exact Key.singleLine_path key
  cases key with
  | host server =>
    cases hkey
    cases server with
    | frontend => exact singleLine_of_graphic h.frontend.graphic
    | backend => exact singleLine_of_graphic h.backend.graphic
  | port server =>
    cases hkey
    exact spelling.singleLine_ofUInt16 _
  | serverKey server | serverCertificate server | clientCertificate server => exact hfile hkey
  | accessToken server => exact htokens server value hkey
  | maximumMessageSizeInBytes | maximumNumberOfPublishers
  | maximumNumberOfConsecutiveInvalidMessages | maximumNumberOfSubscribers | streamCapacity
  | queueCapacity =>
    cases hkey
    exact spelling.singleLine_ofInt _
  | circularBufferSize | circularBufferDuration =>
    obtain ⟨options, -, hnumber⟩ := Option.bind_eq_some_iff.mp hkey
    obtain ⟨n, -, rfl⟩ := Option.map_eq_some_iff.mp hnumber
    exact spelling.singleLine_ofInt _

/-- The access tokens are values of the property tree. -/
theorem tokensOnLines_of_getProxyOptions {ini : IniFile} (hread : ini.ReadBy spelling)
    (h : getProxyOptions ini = .ok settings) : TokensOnLines settings := by
  obtain ⟨hfrontend, hbackend, -⟩ := getProxyOptions_ok h
  intro server token htoken
  cases server with
  | frontend =>
    have hget := (getAccessToken_of_getGRPCOptions hfrontend).symm.trans htoken
    exact hread.singleLine _ token hget
  | backend =>
    have hget := (getAccessToken_of_getGRPCOptions hbackend).symm.trans htoken
    exact hread.singleLine _ token hget

/-- The options that an initialization file can give are the valid ones whose access tokens fit on
a line. -/
theorem configurable_iff (spelling : Spelling) (settings : ProxySettings) :
    (∃ ini : IniFile, ini.ReadBy spelling ∧ getProxyOptions ini = .ok settings) ↔
      ValidSettings settings ∧ TokensOnLines settings := by
  constructor
  · rintro ⟨ini, hread, h⟩
    exact ⟨validSettings_of_getProxyOptions h, tokensOnLines_of_getProxyOptions hread h⟩
  · rintro ⟨h, htokens⟩
    exact ⟨written spelling settings, readBy_written spelling h htokens,
      getProxyOptions_written spelling h⟩

section Decimal

/-- The characters of an integer are its sign and its digits. -/
theorem minus_or_isDigit_of_mem {n : Int} {c : Char} (hc : c ∈ (toString n).toList) :
    c = '-' ∨ c.isDigit = true := by
  have hrepr : toString n = if 0 ≤ n then n.toNat.repr else "-" ++ (-n).toNat.repr :=
    Int.repr_eq_if
  have hdigit {m : Nat} (hm : c ∈ m.repr.toList) : c.isDigit = true := isDigit_of_mem_toString hm
  rw [hrepr] at hc
  split at hc
  · exact Or.inr (hdigit hc)
  · rw [String.toList_append] at hc
    rcases List.mem_append.mp hc with hminus | hm
    · exact Or.inl (List.mem_singleton.mp hminus)
    · exact Or.inr (hdigit hm)

theorem toNat_of_mem_toString {n : Int} {c : Char} (hc : c ∈ (toString n).toList) :
    45 ≤ c.toNat ∧ c.toNat.toUInt8.toNat = c.toNat := by
  rcases minus_or_isDigit_of_mem hc with rfl | hdigit
  · exact ⟨Nat.le_refl _, rfl⟩
  · obtain ⟨hlow, -, hbyte⟩ := toNat_of_isDigit hdigit
    exact ⟨by omega, hbyte⟩

/-- An integer is a single line. -/
theorem singleLine_decimal (n : Int) : SingleLine (ascii (toString n)) := by
  apply singleLine_of_graphic
  intro b hb
  obtain ⟨c, hc, rfl⟩ := List.mem_map.mp hb
  obtain ⟨hlow, hbyte⟩ := toNat_of_mem_toString hc
  have hblank : ¬c.toNat.toUInt8 = 32 := by
    intro h
    rw [h] at hbyte
    have h32 : (32 : UInt8).toNat = 32 := rfl
    omega
  have hhigh : ¬c.toNat.toUInt8 ≤ 13 := by
    rw [UInt8.le_iff_toNat_le, hbyte]
    have h13 : (13 : UInt8).toNat = 13 := rfl
    omega
  simp [Frontend.isspace, hblank, hhigh]

/-- The integer that a text spells in decimals. -/
def ofDecimal (text : Bytes) : Option Int :=
  (String.ofList (text.map fun b ↦ Char.ofNat b.toNat)).toInt?

theorem ofDecimal_ascii (n : Int) : ofDecimal (ascii (toString n)) = some n := by
  rw [ofDecimal, map_ascii fun _ hc ↦ (toNat_of_mem_toString hc).2, String.ofList_toList]
  exact Int.toInt?_repr n

/-- Decimal numbers. -/
def decimal : Spelling where
  toUInt16 text := (ofDecimal text).bind fun n ↦
    if 0 ≤ n ∧ n < 2 ^ 16 then some (UInt16.ofNat n.toNat) else none
  toInt text := (ofDecimal text).bind fun n ↦ if InInt32 n then some (Int32.ofInt n) else none
  toInt64 text := (ofDecimal text).bind fun n ↦
    if -2 ^ 63 ≤ n ∧ n < 2 ^ 63 then some (Int64.ofInt n) else none
  ofUInt16 n := ascii (toString (n.toNat : Int))
  ofInt n := ascii (toString n.toInt)
  toUInt16_ofUInt16 n := by
    have hlt := n.toNat_lt
    rw [ofDecimal_ascii, Option.bind_some, if_pos (by omega), Int.toNat_natCast,
      UInt16.ofNat_toNat]
  toInt_ofInt n := by
    rw [ofDecimal_ascii, Option.bind_some, if_pos ⟨n.le_toInt, n.toInt_lt⟩, Int32.ofInt_toInt]
  singleLine_ofUInt16 n := singleLine_decimal n.toNat
  singleLine_ofInt n := singleLine_decimal n.toInt

/-- Options with a token for the publishers, another port of the backend, and a detector. -/
def securedSettings : ProxySettings where
  mFrontendOptions := { mGRPCOptions := {
    mServerKey := ascii "key"
    mHaveServerKey := true
    mServerCertificate := ascii "certificate"
    mHaveServerCertificate := true
    mAccessToken := ascii "secret"
    mHaveAccessToken := true } }
  mBackendOptions := { mGRPCOptions := { mPort := 50001 } }
  mDuplicatePacketDetectorOptions := { mCircularBufferSize := 60, mCircularBufferDuration := -1 }
  mHaveDuplicatePacketDetectorOptions := true

theorem configurable_secured :
    ∃ ini : IniFile, ini.ReadBy decimal ∧ getProxyOptions ini = .ok securedSettings := by
  refine (configurable_iff decimal securedSettings).mpr ⟨?_, ?_⟩
  · exact {
      frontend := ⟨by decide, by decide +kernel, by decide, rfl, rfl, rfl, rfl, rfl, fun _ ↦ rfl⟩
      backend := ⟨by decide, by decide +kernel, by decide, rfl, rfl, rfl, rfl, rfl, nofun⟩
      apart := by decide +kernel
      frontendNumbers := by decide
      backendNumbers := by decide
      queueCapacity := by decide
      detector := fun _ ↦ ⟨60, by decide, by decide, Or.inl rfl⟩
      noDetector := nofun }
  · intro server token htoken
    cases server with
    | frontend =>
      cases htoken
      decide
    | backend => cases htoken

end Decimal
end ImportProxy.Proxy
