import ImportProxy.Frontend.Reader

/-!
# gRPC options from the initialization file

`getGRPCOptions` and the setters that it calls:
`src/modules/programOptions.cppm:162–254`, `src/grpcOptions.cpp:78–182`. An option
that is set is not empty, and a token is only set together with a key and a
certificate.
-/

namespace ImportProxy.Proxy

open ImportProxy.Base

/-- The exceptions of `getGRPCOptions`. -/
inductive ConfigError where
  | hostIsEmpty (name : Bytes)
  | noHost
  | portNotPositive
  | noServerKeyFile (path : Bytes)
  | noServerCertificateFile (path : Bytes)
  | noClientCertificateFile (path : Bytes)
  | notOpened (path : Bytes)
  | serverKeyEmpty
  | serverCertificateEmpty
  | clientCertificateEmpty
  | tokenNotSecured
  | tokenEmpty
  deriving DecidableEq, Repr

/-- The text of an exception. -/
def ConfigError.what : ConfigError → Bytes
  | hostIsEmpty name => name ++ ascii ".host is empty"
  | noHost => ascii "Host is empty"
  | portNotPositive => ascii "port must be positive"
  | noServerKeyFile path => ascii "gRPC server key file " ++ path ++ ascii " does not exist"
  | noServerCertificateFile path =>
    ascii "gRPC server certificate file " ++ path ++ ascii " does not exist"
  | noClientCertificateFile path =>
    ascii "gRPC client certificate file " ++ path ++ ascii " does not exist"
  | notOpened path => ascii "Failed to open " ++ path
  | serverKeyEmpty => ascii "Server key is empty"
  | serverCertificateEmpty => ascii "Server certificate is empty"
  | clientCertificateEmpty => ascii "Client certificate is empty"
  | tokenNotSecured => ascii "Must set server certificate and key to use access token"
  | tokenEmpty => ascii "Token is empty"

/-- What the parser takes from outside the repository: the property tree that was read from the
initialization file, by what it has at a path, the conversion of a value to `uint16_t`, and the
file system. -/
structure Surroundings where
  getOptional : Bytes → Option Bytes
  toUInt16 : Bytes → Option UInt16
  fileExists : Bytes → Bool
  /-- The contents of a file that can be opened. -/
  readFile : Bytes → Option Bytes

namespace Surroundings

/-- `propertyTree.get<std::string>` with a default. -/
def get (surroundings : Surroundings) (path default : Bytes) : Bytes :=
  (surroundings.getOptional path).getD default

/-- `propertyTree.get<uint16_t>` with a default. -/
def getUInt16 (surroundings : Surroundings) (path : Bytes) (default : UInt16) : UInt16 :=
  ((surroundings.getOptional path).bind surroundings.toUInt16).getD default

/-- `loadStringFromFile`; `src/modules/programOptions.cppm:162–178`. -/
def loadStringFromFile (surroundings : Surroundings) (path : Bytes) : Except ConfigError Bytes :=
  if !surroundings.fileExists path then .ok []
  else
    match surroundings.readFile path with
    | some contents => .ok contents
    | none => .error (.notOpened path)

end Surroundings

/-- `setHost`; `src/grpcOptions.cpp:80–91`. -/
def setHost (options : GRPCOptions) (hostIn : Bytes) : Except ConfigError GRPCOptions :=
  let host := hostIn.filter fun c ↦ !Frontend.isspace c
  if host.isEmpty then .error .noHost else .ok { options with mHost := host }

/-- `setPort`; `src/grpcOptions.cpp:104–111`. -/
def setPort (options : GRPCOptions) (port : UInt16) : Except ConfigError GRPCOptions :=
  if port < 1 then .error .portNotPositive else .ok { options with mPort := port }

/-- `setServerKey`; `src/grpcOptions.cpp:141–149`. -/
def setServerKey (options : GRPCOptions) (key : Bytes) : Except ConfigError GRPCOptions :=
  if key.isEmpty then .error .serverKeyEmpty
  else .ok { options with mHaveServerKey := true, mServerKey := key }

/-- `setServerCertificate`; `src/grpcOptions.cpp:119–127`. -/
def setServerCertificate (options : GRPCOptions) (cert : Bytes) : Except ConfigError GRPCOptions :=
  if cert.isEmpty then .error .serverCertificateEmpty
  else .ok { options with mHaveServerCertificate := true, mServerCertificate := cert }

/-- `setClientCertificate`; `src/grpcOptions.cpp:159–167`. -/
def setClientCertificate (options : GRPCOptions) (cert : Bytes) : Except ConfigError GRPCOptions :=
  if cert.isEmpty then .error .clientCertificateEmpty
  else .ok { options with mHaveClientCertificate := true, mClientCertificate := cert }

/-- `setAccessToken`; `src/grpcOptions.cpp:177–182`. -/
def setAccessToken (options : GRPCOptions) (token : Bytes) : Except ConfigError GRPCOptions :=
  if token.isEmpty then .error .tokenEmpty
  else .ok { options with mHaveAccessToken := true, mAccessToken := token }

section

variable (surroundings : Surroundings) (name : Bytes)

/-- The server key and certificate of a section that names files for both;
`src/modules/programOptions.cppm:206–226`. -/
def withServerCredentials (options : GRPCOptions) : Except ConfigError GRPCOptions := do
  let serverKey := surroundings.get (name ++ ascii ".serverKey") []
  let serverCertificate := surroundings.get (name ++ ascii ".serverCertificate") []
  if !serverKey.isEmpty && !serverCertificate.isEmpty then
    if !surroundings.fileExists serverKey then throw (.noServerKeyFile serverKey)
    if !surroundings.fileExists serverCertificate then
      throw (.noServerCertificateFile serverCertificate)
    let options ← setServerKey options (← surroundings.loadStringFromFile serverKey)
    setServerCertificate options (← surroundings.loadStringFromFile serverCertificate)
  else return options

/-- The access token of a section; `src/modules/programOptions.cppm:228–239`. -/
def withAccessToken (options : GRPCOptions) : Except ConfigError GRPCOptions :=
  match surroundings.getOptional (name ++ ascii ".accessToken") with
  | none => .ok options
  | some accessToken =>
    if options.getServerKey.isNone || options.getServerCertificate.isNone then
      .error .tokenNotSecured
    else setAccessToken options accessToken

/-- The client certificate of a section; `src/modules/programOptions.cppm:241–251`. -/
def withClientCertificate (options : GRPCOptions) : Except ConfigError GRPCOptions := do
  let clientCertificate := surroundings.get (name ++ ascii ".clientCertificate") []
  if !clientCertificate.isEmpty then
    if !surroundings.fileExists clientCertificate then
      throw (.noClientCertificateFile clientCertificate)
    setClientCertificate options (← surroundings.loadStringFromFile clientCertificate)
  else return options

/-- `getGRPCOptions`; `src/modules/programOptions.cppm:181–254`. -/
def getGRPCOptions (isFrontEnd : Bool) : Except ConfigError GRPCOptions := do
  let options : GRPCOptions := {}
  let host := surroundings.get (name ++ ascii ".host") options.getHost
  if host.isEmpty then throw (.hostIsEmpty name)
  let options ← setHost options host
  let options ← setPort options (if isFrontEnd then 50000 else 50001)
  let options ← setPort options (surroundings.getUInt16 (name ++ ascii ".port") options.getPort)
  let options ← withServerCredentials surroundings name options
  let options ← withAccessToken surroundings name options
  withClientCertificate surroundings name options

end

variable {surroundings : Surroundings} {name : Bytes} {options options' : GRPCOptions}

/-- A computation with an exception goes on only after its first part. -/
theorem bind_eq_ok {ε α β : Type} {x : Except ε α} {f : α → Except ε β} {b : β} :
    (x >>= f) = .ok b ↔ ∃ a, x = .ok a ∧ f a = .ok b := by
  cases x with
  | error e => exact ⟨nofun, fun ⟨_, h, _⟩ ↦ nomatch h⟩
  | ok a => exact ⟨fun h ↦ ⟨a, rfl, h⟩, fun ⟨_, h, hf⟩ ↦ by cases h; exact hf⟩

/-- A token of the section is set, and only with a key and a certificate. -/
theorem withAccessToken_ok {token : Bytes} (h : withAccessToken surroundings name options =
      .ok options')
    (htoken : surroundings.getOptional (name ++ ascii ".accessToken") = some token) :
    token ≠ [] ∧ options'.getAccessToken = some token ∧ options'.secured = true := by
  unfold withAccessToken setAccessToken at h
  rw [htoken] at h
  dsimp only at h
  split at h
  · cases h
  · next hsecured =>
    split at h
    · cases h
    · next hempty =>
      cases h
      refine ⟨fun he ↦ hempty (by rw [he]; rfl), rfl, ?_⟩
      simpa [GRPCOptions.secured, GRPCOptions.getServerKey, GRPCOptions.getServerCertificate]
        using hsecured

/-- A client certificate changes neither the token nor the credentials of the server. -/
theorem withClientCertificate_ok
    (h : withClientCertificate surroundings name options = .ok options') :
    options'.getAccessToken = options.getAccessToken ∧ options'.secured = options.secured := by
  unfold withClientCertificate at h
  dsimp only at h
  split at h
  · split at h
    · cases h
    · obtain ⟨contents, -, hset⟩ := bind_eq_ok.mp h
      unfold setClientCertificate at hset
      split at hset
      · cases hset
      · cases hset
        exact ⟨rfl, rfl⟩
  · cases h
    exact ⟨rfl, rfl⟩

/-- Where the section of the returned options has a token, the token is set and is asked for. -/
theorem getGRPCOptions_ok {isFrontEnd : Bool} {token : Bytes}
    (h : getGRPCOptions surroundings name isFrontEnd = .ok options)
    (htoken : surroundings.getOptional (name ++ ascii ".accessToken") = some token) :
    token ≠ [] ∧ options.getAccessToken = some token ∧ options.secured = true := by
  unfold getGRPCOptions at h
  dsimp only at h
  split at h
  · cases h
  · obtain ⟨withHost, -, h⟩ := bind_eq_ok.mp h
    obtain ⟨withDefaultPort, -, h⟩ := bind_eq_ok.mp h
    obtain ⟨withPort, -, h⟩ := bind_eq_ok.mp h
    obtain ⟨withCredentials, -, h⟩ := bind_eq_ok.mp h
    obtain ⟨withToken, htok, hclient⟩ := bind_eq_ok.mp h
    obtain ⟨hne, hget, hsecured⟩ := withAccessToken_ok htok htoken
    obtain ⟨hget', hsecured'⟩ := withClientCertificate_ok hclient
    exact ⟨hne, hget'.trans hget, hsecured'.trans hsecured⟩

end ImportProxy.Proxy
