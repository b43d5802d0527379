import ImportProxy.Base.Packet

/-!
# Remote procedure calls

What both ends of the proxy share: the statuses with which a call is finished,
the metadata that a client sends, and the options of `src/grpcOptions.cpp` that
decide whether a token is asked for.
-/

namespace ImportProxy.Base

/-- The codes of `grpc::StatusCode` that the proxy uses. -/
inductive StatusCode where
  | ok
  | cancelled
  | unknown
  | invalidArgument
  | resourceExhausted
  | unauthenticated
  | unavailable
  | internal
  deriving DecidableEq, Repr

/-- `grpc::Status`. -/
structure Status where
  code : StatusCode
  message : Bytes := []
  deriving DecidableEq, Repr

/-- What `client_metadata` returns: keys and values. -/
abbrev Metadata := List (Bytes × Bytes)

/-- `GRPCOptions`; `src/grpcOptions.cpp:33–47`. -/
structure GRPCOptions where
  mHost : Bytes := ascii "localhost"
  mPort : UInt16 := 50000
  mServerKey : Bytes := []
  mServerCertificate : Bytes := []
  mClientCertificate : Bytes := []
  mAccessToken : Bytes := []
  mHaveServerKey : Bool := false
  mHaveServerCertificate : Bool := false
  mHaveClientCertificate : Bool := false
  mHaveAccessToken : Bool := false
  deriving DecidableEq, Repr

namespace GRPCOptions

/-- `getHost`; `src/grpcOptions.cpp:93–96`. -/
def getHost (options : GRPCOptions) : Bytes := options.mHost

/-- `getPort`; `src/grpcOptions.cpp:113–116`. -/
def getPort (options : GRPCOptions) : UInt16 := options.mPort

/-- `getServerKey`; `src/grpcOptions.cpp:151–156`. -/
def getServerKey (options : GRPCOptions) : Option Bytes :=
  if options.mHaveServerKey then some options.mServerKey else none

/-- `getServerCertificate`; `src/grpcOptions.cpp:134–139`. -/
def getServerCertificate (options : GRPCOptions) : Option Bytes :=
  if options.mHaveServerCertificate then some options.mServerCertificate else none

/-- `getAccessToken`; `src/grpcOptions.cpp:184–188`. -/
def getAccessToken (options : GRPCOptions) : Option Bytes :=
  if options.mHaveAccessToken then some options.mAccessToken else none

/-- `mSecured` as `start` sets it on either end; `src/frontend.cpp:389–416`,
`src/backend.cpp:621–646`. -/
def secured (options : GRPCOptions) : Bool :=
  options.getServerKey.isSome && options.getServerCertificate.isSome

end GRPCOptions

/-- An `int` that a setter of the options has checked. -/
structure AtLeast (least : Int) where
  value : Int
  le : least ≤ value
  deriving DecidableEq, Repr

namespace AtLeast

/-- The check of a setter, none for its exception. -/
def check (least n : Int) : Option (AtLeast least) :=
  if h : n < least then none else some ⟨n, Int.not_lt.mp h⟩

/-- The smallest `int` that the setter accepts. -/
def least (n : Int) : AtLeast n := ⟨n, Int.le_refl n⟩

end AtLeast

/-- The key under which a client sends its token. -/
def accessTokenKey : Bytes := ascii "x-custom-auth-token"

/-- Whether the metadata carry the token; an empty token is always carried. -/
def carriesToken (clientMetadata : Metadata) (accessToken : Bytes) : Bool :=
  accessToken.isEmpty ||
    clientMetadata.any fun item ↦ item.1 == accessTokenKey && item.2 == accessToken

/-- The metadata carry a token that is not empty when they have it under its key. -/
theorem carriesToken_iff {token : Bytes} (hne : token ≠ []) (clientMetadata : Metadata) :
    carriesToken clientMetadata token = true ↔ (accessTokenKey, token) ∈ clientMetadata := by
  have hempty : token.isEmpty = false := by simpa using hne
  rw [carriesToken, hempty, Bool.false_or, List.any_eq_true]
  constructor
  · rintro ⟨⟨key, value⟩, hmem, hitem⟩
    simp only [Bool.and_eq_true, beq_iff_eq] at hitem
    rwa [hitem.1, hitem.2] at hmem
  · intro hmem
    exact ⟨_, hmem, by simp⟩

end ImportProxy.Base
