import ImportProxy.Backend.Token
import ImportProxy.Frontend.Token
import ImportProxy.Proxy.ProgramOptions

/-!
# A token of the initialization file

From the parser of the options to the constructors of the RPCs: a section with an
`accessToken` either fails to parse, or its end of the proxy asks every client for
exactly that token.
-/

namespace ImportProxy.Proxy

open ImportProxy.Base Frontend Backend

universe u

/-- The token of a section is enforced on the publishers and the subscribers of a server that
has the options of that section. -/
theorem configured_token_enforced {π : Type u} {surroundings : Surroundings} {name token : Bytes}
    {isFrontEnd : Bool} {grpcOptions : GRPCOptions}
    (h : getGRPCOptions surroundings name isFrontEnd = .ok grpcOptions)
    (htoken : surroundings.getOptional (name ++ ascii ".accessToken") = some token) :
    (∀ options : FrontendOptions,
      Frontend.TokenEnforced (options.setGRPCOptions grpcOptions) token) ∧
    (∀ options : BackendOptions,
      Backend.TokenEnforced π (options.setGRPCOptions grpcOptions) token) := by
  obtain ⟨hne, hget, hsecured⟩ := getGRPCOptions_ok h htoken
  constructor
  · intro options
    exact Frontend.tokenEnforced hget hsecured hne
  · intro options
    exact Backend.tokenEnforced hget hsecured hne

/-- A section with a key, a certificate and a token, and the two files that it names. -/
def securedSection : Surroundings where
  getOptional path :=
    if path == ascii "Frontend.serverKey" then some (ascii "server.key")
    else if path == ascii "Frontend.serverCertificate" then some (ascii "server.crt")
    else if path == ascii "Frontend.accessToken" then some (ascii "secret")
    else none
  toUInt16 _ := none
  fileExists path := path == ascii "server.key" || path == ascii "server.crt"
  readFile path :=
    if path == ascii "server.key" then some (ascii "key")
    else if path == ascii "server.crt" then some (ascii "certificate")
    else none

theorem configured_token_enforced_secret :
    getGRPCOptions securedSection (ascii "Frontend") true = .ok
      { mServerKey := ascii "key", mServerCertificate := ascii "certificate",
        mAccessToken := ascii "secret", mHaveServerKey := true,
        mHaveServerCertificate := true, mHaveAccessToken := true } ∧
    Frontend.TokenEnforced (({} : FrontendOptions).setGRPCOptions
      { mServerKey := ascii "key", mServerCertificate := ascii "certificate",
        mAccessToken := ascii "secret", mHaveServerKey := true,
        mHaveServerCertificate := true, mHaveAccessToken := true }) (ascii "secret") := by
  have hparsed : getGRPCOptions securedSection (ascii "Frontend") true = .ok
      { mServerKey := ascii "key", mServerCertificate := ascii "certificate",
        mAccessToken := ascii "secret", mHaveServerKey := true,
        mHaveServerCertificate := true, mHaveAccessToken := true } := by
    decide +kernel
  exact ⟨hparsed, (configured_token_enforced (π := Packet) hparsed rfl).1 _⟩

end ImportProxy.Proxy
