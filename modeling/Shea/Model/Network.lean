import Shea.Computation.Logged
import Shea.Model.Tools

/-!
# The network adapter

`app/adapters/network_local.py`, with `security/runtime_checks.py`, `tls_pinning.py`, `proxy_policy.py`,
`security/destination.py` and `credentials/destination.py`.

What answers on the network is left open: the addresses of each lookup, what becomes of each connection
and of the handshake on it, and each response. They are numbered by the hop they belong to; the lookup
before the loop has the number 0, that of a hop the number after the hop's. `http.client` opens the
connection when a request is sent.
-/

set_option autoImplicit false

namespace Shea.Model

open Shea.Computation

/-! ## What the adapter is given, and the check of a URL -/

/-- Functions of `urllib.parse`, `str`, `int`, `bytes` and `http.client`. -/
structure NetworkLib where
  /-- `urlparse(url).port`; `none` is its `ValueError`. -/
  port : String → Option (Option ℕ)
  /-- `urlparse(url).path`. -/
  path : String → String
  /-- `urlparse(url).query`. -/
  query : String → String
  /-- `urljoin(base, url)`; `none` is its `ValueError`. -/
  urljoin : (base url : String) → Option String
  /-- `urlunparse((scheme, netloc, path, "", query, ""))`. -/
  urlunparse : (scheme netloc path query : String) → String
  /-- `text.strip()`. -/
  strip : String → String
  /-- `text.upper()`. -/
  upper : String → String
  /-- `int(value)`. -/
  int : Value → Except Err ℤ
  /-- `body.decode("utf-8", errors="replace")`. -/
  decode : List UInt8 → String
  /-- What `conn.request` raises before it opens the connection. -/
  checkRequest : (method path : String) → (headers : List (String × String)) → Except Err Unit

/-- How a lookup fails. -/
inductive LookupFailure
  | gaierror (text : String)
  | other (e : Err)

/-- What goes wrong on the network: `ssl.SSLError`, another `OSError`, or some other exception. -/
inductive NetworkFailure
  | ssl (text : String)
  | os (text : String)
  | other (e : Err)

/-- A peer after the handshake: what `spki_sha256_b64` makes of its certificate, if it has one, and what
`getpeercert()` tells. -/
structure Peer where
  spki : Option String
  subject : Option String
  sans : List String
  verified : Bool
  deriving DecidableEq, Repr

structure HttpResponse where
  status : ℤ
  /-- `response.getheader("Location")`. -/
  location : Option String
  /-- What reading the body gives, or how it fails. -/
  body : Except NetworkFailure (List UInt8)
  /-- The connection is closed behind the response. -/
  willClose : Bool

/-- What answers on the network. -/
structure Network where
  /-- `socket.getaddrinfo(host, port)`: the addresses. -/
  lookup : ℕ → (host : String) → (port : ℕ) → Except LookupFailure (List String)
  /-- Opening a connection. -/
  dial : ℕ → (address : String) → (port : ℕ) → Except NetworkFailure Unit
  /-- `context.wrap_socket(sock, server_hostname=sni)`. -/
  handshake : ℕ → (sni : String) → Except NetworkFailure Peer
  /-- Sending the request and `conn.getresponse()`. -/
  respond : ℕ → Except NetworkFailure HttpResponse

/-- What the adapter does on the network. -/
inductive NetworkEvent
  | dialed (hop : ℕ) (url address : String) (port : ℕ)
  | shookHands (hop : ℕ) (peer : Peer)
  | pinVerified (hop : ℕ) (observed : Option String)
  | requested (hop : ℕ) (url method path : String) (headers : List (String × String))
  deriving DecidableEq, Repr

structure ResolvedUrl where
  url : String
  host : String
  port : ℕ
  resolvedIp : String
  deriving DecidableEq, Repr

section Checks

variable (py : Stdlib) (lib : NetworkLib)

/-- `parsed.port or (443 if parsed.scheme == "https" else 80)`. -/
def portOr (parsedPort : Option ℕ) (scheme : String) : ℕ :=
  match parsedPort with
  | some (port + 1) => port + 1
  | _ => if scheme = "https" then 443 else 80

/-- `SecurityViolationError(tool, "network", reason)`. -/
def networkViolation (tool reason : String) : Err := .securityViolation tool "network" reason

/-- The address that is pinned: the first one, if all of them are publicly routable. -/
def pinnedAddress (policy : NetworkPolicy) (tool host : String) (addresses : List String) :
    Except Err String :=
  match addresses with
  | [] => .error (networkViolation tool
      ("DNS resolution returned no addresses for " ++ py.reprOf (.str host)))
  | first :: _ =>
    match if policy.blockPrivateNetworks then addresses.find? (isBlockedIpLiteral py) else none with
    | some address => .error (networkViolation tool ("Resolved address " ++ address ++ " for host " ++
        py.reprOf (.str host) ++ " is not publicly routable"))
    | none => .ok first

def resolveAndCheckUrl (lookup : (host : String) → (port : ℕ) → Except LookupFailure (List String))
    (policy : NetworkPolicy) (tool url : String) : Except Err ResolvedUrl :=
  match py.urlparse url with
  | none => .error (.valueError "Invalid IPv6 URL")
  | some (scheme, host) =>
    if host = "" then
      .error (networkViolation tool ("URL has no host: " ++ py.reprOf (.str url)))
    else do
      if !(← isUrlAllowed py policy url) then
        .error (networkViolation tool ("URL blocked by policy: " ++ py.reprOf (.str url)))
      else
        match lib.port url with
        | none => .error (.valueError "Port out of range 0-65535")
        | some parsedPort =>
          let port := portOr parsedPort scheme
          match lookup host port with
          | .error (.gaierror text) => .error (networkViolation tool ("DNS resolution failed: " ++ text))
          | .error (.other e) => .error e
          | .ok addresses => do
            let address ← pinnedAddress py policy tool host addresses
            pure { url := url, host := host, port := port, resolvedIp := address }

/-- `ProxyDecision`. -/
inductive ProxyDecision
  | direct
  | proxy (url : String)

def decideProxy (allowProxy : Bool) (proxyUrl : Option String) (targetUrl : String)
    (policy : NetworkPolicy) (tool : String) : Except Err ProxyDecision :=
  let configured := proxyUrl.getD ""
  if !allowProxy then
    if configured ≠ "" then .error (networkViolation tool "proxy_url set but allow_proxy is False")
    else .ok .direct
  else if configured = "" then
    .error (networkViolation tool "allow_proxy True but proxy_url missing")
  else
    match py.urlparse configured with
    | none => .error (.valueError "Invalid IPv6 URL")
    | some (scheme, host) =>
      if scheme ∉ ["http", "https", "socks5"] then
        .error (networkViolation tool ("unsupported proxy scheme: " ++ py.reprOf (.str scheme)))
      else if host = "" then .error (networkViolation tool "proxy_url missing host")
      else do
        if !(← isUrlAllowed py policy configured) then
          .error (networkViolation tool
            ("proxy endpoint blocked by policy: " ++ py.reprOf (.str configured)))
        else if !(← isUrlAllowed py policy targetUrl) then
          .error (networkViolation tool ("target blocked by policy: " ++ py.reprOf (.str targetUrl)))
        else pure (.proxy configured)

/-! ## Pins, credentials and identities -/

/-- `text.rstrip("=")`. -/
def rstripEquals (text : String) : String :=
  String.ofList (text.toList.reverse.dropWhile (· = '=')).reverse

/-- `verify_spki_pin`. -/
def verifySpkiPin (peer : Peer) (allowedPins : List String) : Bool × Option String :=
  if allowedPins = [] then (true, peer.spki)
  else
    match peer.spki with
    | none => (false, none)
    | some observed =>
      let allowed := allowedPins.map lib.strip
      (observed ∈ allowed || rstripEquals observed ∈ allowed.map rstripEquals, some observed)

/-- `credential_ref_for_host`. -/
def credentialRefForHost (hostname : String) (destinationCredentials : List (String × String)) :
    Option String :=
  let host := String.ofList ((py.lower hostname).toList.reverse.dropWhile (· = '.')).reverse
  destinationCredentials.lookup host

/-- `is_ref`, `is_credential_ref`. -/
def isRef : Value → Bool
  | .dict entries => (entries.lookup credentialRefKey).isSome
  | _ => false

def bindDestinationCredentialRef (arguments : Dict) (url : String)
    (destinationCredentials : List (String × String)) : Except Err Dict :=
  match py.urlparse url with
  | none => .error (.valueError "Invalid IPv6 URL")
  | some (_, host) =>
    if host = "" then .ok arguments
    else
      match credentialRefForHost py host destinationCredentials with
      | none => .ok arguments
      | some credentialId =>
        let bound := arguments.set "authorization" (.dict [(credentialRefKey, .str credentialId),
          ("name", .str credentialId), ("bound_host", .str (py.lower host))])
        match arguments.get "authorization" with
        | .str existing =>
          if existing ≠ "" then
            .error (.securityViolation "network" "credential"
              ("raw secret material in arguments['authorization'] is forbidden; " ++
                "use credential refs only"))
          else .ok bound
        | existing => .ok (if isRef existing then arguments else bound)

/-- `canonicalize_url`. -/
def canonicalizeUrl (url : String) : Except Err String :=
  let stripped := lib.strip url
  match py.urlparse stripped with
  | none => .error (.valueError "Invalid IPv6 URL")
  | some (parsedScheme, parsedHost) =>
    let scheme := py.lower (if parsedScheme = "" then "https" else parsedScheme)
    let host := py.lower parsedHost
    if host = "" then .ok url
    else
      match lib.port stripped with
      | none => .error (.valueError "Port out of range 0-65535")
      | some port =>
        let netloc := match port with
          | none => host
          | some port =>
            if (scheme = "https" ∧ port = 443) ∨ (scheme = "http" ∧ port = 80) then host
            else host ++ ":" ++ toString port
        let path := if lib.path stripped = "" then "/" else lib.path stripped
        .ok (lib.urlunparse scheme netloc path (lib.query stripped))

structure DestinationIdentity where
  requestedUrl : String
  canonicalUrl : String
  hostname : String
  resolvedIp : String
  port : ℕ
  scheme : String
  tlsPeerSubject : Option String := none
  tlsPeerSans : List String := []
  tlsVerified : Option Bool := none
  redirectIndex : ℕ := 0
  deriving DecidableEq, Repr

def DestinationIdentity.toEvidence (identity : DestinationIdentity) : Dict := [
  ("requested_url", .str identity.requestedUrl),
  ("canonical_url", .str identity.canonicalUrl),
  ("hostname", .str identity.hostname),
  ("resolved_ip", .str identity.resolvedIp),
  ("port", .int identity.port),
  ("scheme", .str identity.scheme),
  ("tls_peer_subject", .ofOption identity.tlsPeerSubject),
  ("tls_peer_sans", .list (identity.tlsPeerSans.map .str)),
  ("tls_verified", identity.tlsVerified.elim .none .bool),
  ("redirect_index", .int identity.redirectIndex)]

/-- `build_identity`, for a hop. -/
def buildIdentity (resolved : ResolvedUrl) (scheme : String) (redirectIndex : ℕ) (tls : Option Peer) :
    Except Err DestinationIdentity := do
  let canonicalUrl ← canonicalizeUrl py lib resolved.url
  pure { requestedUrl := resolved.url
         canonicalUrl := canonicalUrl
         hostname := resolved.host
         resolvedIp := resolved.resolvedIp
         port := resolved.port
         scheme := scheme
         tlsPeerSubject := tls.bind (·.subject)
         tlsPeerSans := tls.elim [] (·.sans)
         tlsVerified := tls.map (·.verified)
         redirectIndex := redirectIndex }

end Checks

/-! ## Connections and their content -/

/-- A connection of `http.client`: `_resolved_ip` is there for a `PinnedHTTPSConnection` only, and `sock`
once it is open, with the peer of a handshake. -/
structure HttpConnection where
  host : String
  port : ℕ
  resolvedIp : Option String
  timeoutMs : ℕ
  sock : Option (Option Peer) := none

/-- `HTTPConnection(host, port, timeout)`. -/
def httpConnection (host : String) (port timeoutMs : ℕ) : HttpConnection :=
  { host := host
    port := port
    resolvedIp := none
    timeoutMs := timeoutMs }

/-- `PinnedHTTPSConnection(host, port, resolved_ip, sni_hostname, timeout)`. -/
def pinnedHttpsConnection (port : ℕ) (resolvedIp sniHostname : String) (timeoutMs : ℕ) : HttpConnection :=
  { host := sniHostname
    port := port
    resolvedIp := some resolvedIp
    timeoutMs := timeoutMs }

/-- How the handling of a hop ends early: with an answer of the adapter, or with an exception. -/
inductive Exit
  | answer (result : AdapterResult)
  | raised (failure : NetworkFailure)

abbrev NetworkProc := Logged NetworkEvent Exit

/-- What raises on the network goes to the handlers around the loop. -/
def onNetwork {α : Type} (x : Except NetworkFailure α) : NetworkProc α :=
  Logged.ofExcept (x.mapError .raised)

namespace HttpConnection

variable (network : Network) (hop : ℕ) (url : String)

/-- `connect`: a pinned connection goes to the resolved address and shakes hands under its host name. -/
def connect (conn : HttpConnection) : NetworkProc HttpConnection := do
  let address := conn.resolvedIp.getD conn.host
  Logged.write (.dialed hop url address conn.port)
  onNetwork (network.dial hop address conn.port)
  match conn.resolvedIp with
  | none => pure { conn with sock := some none }
  | some _ => do
      let peer ← onNetwork (network.handshake hop conn.host)
      Logged.write (.shookHands hop peer)
      pure { conn with sock := some (some peer) }

/-- `send`, before anything is sent: the connection is opened unless it is open. -/
def autoOpen (conn : HttpConnection) : NetworkProc HttpConnection :=
  match conn.sock with
  | none => conn.connect network hop url
  | some _ => pure conn

/-- `request`. -/
def request (lib : NetworkLib) (conn : HttpConnection) (method path : String)
    (headers : List (String × String)) : NetworkProc HttpConnection := do
  Logged.ofExcept ((lib.checkRequest method path headers).mapError fun e => .raised (.other e))
  let conn ← conn.autoOpen network hop url
  Logged.write (.requested hop url method path headers)
  pure conn

/-- `getresponse`: the socket is gone if the connection is closed behind the response. -/
def getresponse (conn : HttpConnection) : NetworkProc (HttpConnection × HttpResponse) := do
  let response ← onNetwork (network.respond hop)
  pure (if response.willClose then { conn with sock := none } else conn, response)

end HttpConnection

structure UntrustedExternalData where
  sourceUrl : String
  contentType : String
  payload : String

def UntrustedExternalData.toSafePromptBlock (data : UntrustedExternalData) : String :=
  let escaped := ((data.payload.replace "```" "\\`\\`\\`").replace "<" "&lt;").replace ">" "&gt;"
  "<UNTRUSTED_DATA source='" ++ data.sourceUrl ++ "' type='" ++ data.contentType ++ "'>\n" ++ escaped ++
    "\n</UNTRUSTED_DATA>"

/-! ## The adapter -/

structure LocalNetworkAdapter where
  defaultPolicy : NetworkPolicy := {}
  credentialBroker : Option CredentialBroker := none

/-- What stays the same over the hops of a call. -/
structure NetworkCall where
  policy : NetworkPolicy
  pinnedSpkiSha256 : List String
  timeoutMs : ℕ
  maxBytes : ℕ
  url : String
  arguments : Dict
  profileId : String
  maxRedirects : ℕ
  base : Dict

/-- The variables of the loop. -/
structure HopState where
  currentUrl : String
  hop : ℕ
  method : String
  chain : List String
  identities : List Dict

/-- What the loop leaves behind when it ends by `break`. -/
structure Arrival where
  state : HopState
  status : ℤ
  body : List UInt8
  truncated : Bool

namespace LocalNetworkAdapter

/-- The name the adapter checks URLs and resolves credentials under. -/
def toolName : String := "network.local"

/-- An `OSError` raised in the loop is caught there, whatever its class. -/
def failureOf (host : Host) (e : Err) : NetworkFailure :=
  match e with
  | .osError _ => .os (host.errText e)
  | .permission => .os (host.errText e)
  | .processLookup => .os (host.errText e)
  | e => .other e

/-- An answer that nothing was sent. -/
def refusal (error : String) (evidence : Dict) : AdapterResult :=
  { outcome := .failure
    error := some error
    evidence := evidence }

section Loop

variable (host : Host) (lib : NetworkLib) (network : Network) (adapter : LocalNetworkAdapter)
  (call : NetworkCall)

/-- The check of a hop's URL. -/
def checkHop (s : HopState) : NetworkProc ResolvedUrl :=
  Logged.ofExcept <|
    match resolveAndCheckUrl host.py lib (network.lookup (s.hop + 1)) call.policy toolName s.currentUrl with
    | .ok resolved => .ok resolved
    | .error (.securityViolation tool category reason) =>
      .error (.answer (refusal (host.errText (.securityViolation tool category reason))
        (call.base ++ [("url", .str call.url), ("failed_url", .str s.currentUrl),
          ("redirect_chain", .list (s.chain.map .str))])))
    | .error e => .error (.raised (failureOf host e))

/-- `urlparse(url).scheme`, of a URL that was checked. -/
def schemeOf (py : Stdlib) (url : String) : String := ((py.urlparse url).map Prod.fst).getD ""

/-- `parsed.path or "/"`, with the query. -/
def requestPath (url : String) : String :=
  let path := if lib.path url = "" then "/" else lib.path url
  if lib.query url = "" then path else path ++ "?" ++ lib.query url

/-- The connection of a hop, before it is opened. -/
def connectionFor (s : HopState) (resolved : ResolvedUrl) : NetworkProc HttpConnection :=
  let scheme := schemeOf host.py s.currentUrl
  if scheme = "https" then
    pure (pinnedHttpsConnection resolved.port resolved.resolvedIp resolved.host call.timeoutMs)
  else if scheme = "http" then
    pure (httpConnection resolved.resolvedIp resolved.port call.timeoutMs)
  else
    Logged.ofExcept (.error (.answer (refusal
      ("unsupported scheme: " ++ host.py.reprOf (.str scheme)) (call.base ++ [("url", .str s.currentUrl)]))))

/-- The check of the pins, on the socket the connection has. -/
def checkPins (s : HopState) (conn : HttpConnection) : NetworkProc Unit :=
  match conn.sock with
  | some (some peer) =>
    if call.pinnedSpkiSha256 = [] then pure ()
    else
      match verifySpkiPin lib peer call.pinnedSpkiSha256 with
      | (true, observed) => Logged.write (.pinVerified s.hop observed)
      | (false, observed) =>
        Logged.ofExcept (.error (.answer (refusal
          ("SPKI pin mismatch (observed=" ++ host.py.reprOf (.ofOption observed) ++ ")")
          (call.base ++ [("url", .str s.currentUrl), ("spki_observed", .ofOption observed),
            ("spki_allowed", .list ((sortedTexts call.pinnedSpkiSha256).map .str))]))))
  | _ => pure ()

/-- The headers of a hop's request. A credential reference is resolved anew each time. -/
def headersFor (s : HopState) (resolved : ResolvedUrl) : NetworkProc (List (String × String)) :=
  let headers := [("Host", resolved.host), ("User-Agent", "shea-network.local/1")]
  match call.arguments.get "authorization" with
  | .str secret => pure (headers ++ [("Authorization", "Bearer " ++ secret)])
  | authorization =>
    if isRef authorization then
      match adapter.credentialBroker with
      | none => Logged.ofExcept (.error (.answer (refusal
          "credential broker required for authorization reference" call.base)))
      | some broker => do
          let arguments ← Logged.ofExcept <|
            (resolveArgumentCredentials host.py broker toolName call.profileId s.hop
              call.arguments).mapError fun e => .raised (failureOf host e)
          pure (headers ++
            [("Authorization", "Bearer " ++ pyStr host.py (arguments.get "authorization"))])
    else pure headers

/-- The statuses that are followed. -/
def redirectStatuses : List ℤ := [301, 302, 303, 307, 308]

/-- The end of a hop: a redirect is followed, or the loop ends. -/
def follow (s : HopState) (response : HttpResponse) (identity : DestinationIdentity) (body : List UInt8) :
    NetworkProc (Logged.Step HopState Arrival) :=
  let identities := s.identities ++ [identity.toEvidence]
  let location := response.location.getD ""
  if response.status ∈ redirectStatuses ∧ location ≠ "" ∧ s.hop < call.maxRedirects then
    match lib.urljoin s.currentUrl location with
    | none => Logged.ofExcept (.error (.raised (.other (.valueError "Invalid IPv6 URL"))))
    | some nextUrl =>
      pure (.again
        { currentUrl := nextUrl
          hop := s.hop + 1
          method := if response.status ∈ [301, 302, 303] then "GET" else s.method
          chain := s.chain ++ [nextUrl]
          identities := identities })
  else
    pure (.done
      { state := { s with identities := identities }
        status := response.status
        body := body.take call.maxBytes
        truncated := call.maxBytes < body.length })

/-- The body of the loop. -/
def hopBody (s : HopState) : NetworkProc (Logged.Step HopState Arrival) := do
  let resolved ← checkHop host lib network call s
  let conn ← connectionFor host call s resolved
  checkPins host lib call s conn
  let headers ← headersFor host adapter call s resolved
  let conn ← conn.request network s.hop s.currentUrl lib (if s.hop = 0 then s.method else "GET")
    (requestPath lib s.currentUrl) headers
  let (conn, response) ← conn.getresponse network s.hop
  let identity ← Logged.ofExcept <|
    (buildIdentity host.py lib resolved (schemeOf host.py s.currentUrl) s.hop (conn.sock.getD none)).mapError
      fun e => .raised (failureOf host e)
  let body ← onNetwork response.body
  follow lib call s response identity (body.take (call.maxBytes + 1))

/-- The handlers around the loop: an answer of the adapter, or the exception they let through. -/
def handlers (s : HopState) : Exit → Except Err AdapterResult
  | .answer result => .ok result
  | .raised (.ssl text) =>
    .ok (refusal ("TLS identity failure: " ++ text) (call.base ++ [("url", .str call.url),
      ("redirect_chain", .list (s.chain.map .str)), ("tls_failure", .str text)]))
  | .raised (.os text) =>
    .ok { outcome := .unknown
          error := some ("network error: " ++ text)
          evidence := call.base ++
            [("url", .str call.url), ("redirect_chain", .list (s.chain.map .str))] }
  | .raised (.other e) => .error e

/-- One hop, with the handlers. -/
def hopStep (s : HopState) :
    Logged NetworkEvent (Except Err AdapterResult) (Logged.Step HopState Arrival) :=
  (hopBody host lib network adapter call s).mapError (handlers call s)

end Loop

section Invoke

variable (host : Host) (lib : NetworkLib) (network : Network) (adapter : LocalNetworkAdapter)

/-- `_base`. -/
def base (receipt : ExecutionReceipt) (attempt : ExecutionAttempt) : Dict :=
  [("receipt_id", .str receipt.id), ("attempt_id", .str attempt.id)]

/-- The policy of a scope; without an allowlist there, that of the adapter, if it has one. -/
def policyFor (scope : NetworkScope) : NetworkPolicy :=
  if scope.allowedHosts.isNone ∧ adapter.defaultPolicy.allowedHosts.isSome then
    { allowedHosts := adapter.defaultPolicy.allowedHosts
      blockedHostnames := adapter.defaultPolicy.blockedHostnames
      blockPrivateNetworks := scope.blockPrivate }
  else
    { allowedHosts := scope.allowedHosts
      blockPrivateNetworks := scope.blockPrivate }

/-- `contract.arguments.get("url") or contract.target`, which has to be a text that is not blank. -/
def urlOf (contract : ExecutionContract) : Option String :=
  let url := contract.arguments.get "url"
  match if url.truthy then url else .str contract.target with
  | .str url => if lib.strip url = "" then none else some url
  | _ => none

/-- An answer to a violation; any other exception goes on. -/
def onViolation {α : Type} (x : Except Err α) (evidence : Dict) : Except (Except Err AdapterResult) α :=
  match x with
  | .ok a => .ok a
  | .error (.securityViolation tool category reason) =>
    .error (.ok (refusal (host.errText (.securityViolation tool category reason)) evidence))
  | .error e => .error (.error e)

/-- `int(contract.arguments.get("max_redirects", 3))`. -/
def maxRedirectsOf (contract : ExecutionContract) : Except Err ℤ :=
  match contract.arguments.lookup "max_redirects" with
  | none => .ok 3
  | some value => lib.int value

/-- From the method on: what the loop is called with. -/
def prepareLoop (contract : ExecutionContract) (scope : ExecutionScope) (base : Dict)
    (policy : NetworkPolicy) (url method : String) :
    Except (Except Err AdapterResult) (NetworkCall × HopState) :=
  if method ∉ ["GET", "HEAD"] then .error (.ok (refusal "V1 network.local only allows GET/HEAD" base))
  else do
    let _ ← onViolation host (resolveAndCheckUrl host.py lib (network.lookup 0) policy toolName url)
      (base ++ [("url", .str url)])
    let arguments ← onViolation host
      (bindDestinationCredentialRef host.py contract.arguments url scope.network.destinationCredentials) base
    let maxRedirects ← (maxRedirectsOf lib contract).mapError .error
    if maxRedirects < 0 ∨ 5 < maxRedirects then .error (.ok (refusal "max_redirects must be 0..5" base))
    else
      pure ({ policy := policy
              pinnedSpkiSha256 := scope.network.pinnedSpkiSha256
              timeoutMs := scope.resources.wallTimeMs.getD 30000
              maxBytes := scope.resources.outputBytes.getD 1000000
              url := url
              arguments := arguments
              profileId := pyStr host.py ((contract.metadata.lookup "_profile_id").getD (.str "system"))
              maxRedirects := maxRedirects.toNat
              base := base },
            { currentUrl := url
              hop := 0
              method := method
              chain := [url]
              identities := [] })

/-- `invoke`, up to the loop: the loop's variables, or an answer or an exception. -/
def prepare (contract : ExecutionContract) (receipt : ExecutionReceipt) (attempt : ExecutionAttempt) :
    Except (Except Err AdapterResult) (NetworkCall × HopState) :=
  let base := base receipt attempt
  match contract.adapterContext with
  | none => .error (.ok (refusal "network.local requires scope + AdapterContext" base))
  | some context =>
    let policy := policyFor adapter context.scope.network
    match urlOf lib contract with
    | none => .error (.ok (refusal "url must be a non-empty str (arguments.url or target)" base))
    | some url => do
      let decision ← (decideProxy host.py context.scope.network.allowProxy context.scope.network.proxyUrl url
        policy toolName).mapError .error
      match decision with
      | .proxy proxyUrl =>
        .error (.ok (refusal
          ("proxy mode authorized but HTTP CONNECT tunneling not enabled in V1 (proxy=" ++
            host.py.reprOf (.str proxyUrl) ++ "); use direct or extend adapter")
          (base ++ [("proxy", .str proxyUrl)])))
      | .direct =>
        prepareLoop host lib network contract context.scope base policy url
          (lib.upper (pyStr host.py ((contract.arguments.lookup "method").getD (.str "GET"))))

/-- `text[:2000]`. -/
def preview (text : String) : String := String.ofList (text.toList.take 2000)

/-- `all(…)` over the identities of https hops; `None` without any identity. -/
def tlsVerified (identities : List Dict) : Value :=
  if identities = [] then .none
  else .bool ((identities.filter fun identity => identity.get "scheme" = .str "https").all fun identity =>
    (identity.get "tls_verified").truthy)

/-- The answer after the loop. -/
def finalAnswer (call : NetworkCall) (arrival : Arrival) : Except Err AdapterResult := do
  let text := lib.decode arrival.body
  let outcome : AppOutcome := if 200 ≤ arrival.status ∧ arrival.status < 300 then .success else .failure
  let canonicalUrl ← canonicalizeUrl host.py lib call.url
  let finalUrl := arrival.state.currentUrl
  let finalCanonicalUrl ← canonicalizeUrl host.py lib finalUrl
  pure
    { outcome := outcome
      error := if outcome = .success then none else some ("HTTP " ++ toString arrival.status)
      evidence := call.base ++ [
        ("url", .str call.url),
        ("canonical_url", .str canonicalUrl),
        ("final_url", .str finalUrl),
        ("final_canonical_url", .str finalCanonicalUrl),
        ("status", .int arrival.status),
        ("outcome", .str outcome.value),
        ("method", .str arrival.state.method),
        ("redirect_hops", .int arrival.state.hop),
        ("redirect_chain", .list (arrival.state.chain.map .str)),
        ("destination_identity_chain", .list (arrival.state.identities.map .dict)),
        ("tls_verified", tlsVerified arrival.state.identities),
        ("untrusted_content_block", .str (UntrustedExternalData.toSafePromptBlock
          { sourceUrl := finalUrl
            contentType := "text/plain"
            payload := preview text })),
        ("_raw_body_preview", .str (preview text)),
        ("bytes_read", .int arrival.body.length),
        ("truncated", .bool arrival.truncated),
        ("postcondition", .str "response_received"),
        ("transport_complete", .bool true),
        ("business_success", .none)] }

/-- What comes of a call whose loop has ended. -/
def finish (call : NetworkCall) (run : Logged NetworkEvent (Except Err AdapterResult) Arrival) :
    Logged NetworkEvent Err AdapterResult :=
  { result := match run.result with
      | .ok arrival => finalAnswer host lib call arrival
      | .error answer => answer
    log := run.log }

/-- `invoke`, with a number of hops that the loop may take at most. -/
def invoke (fuel : ℕ) (contract : ExecutionContract) (receipt : ExecutionReceipt)
    (attempt : ExecutionAttempt) : Option (Logged NetworkEvent Err AdapterResult) :=
  match prepare host lib network adapter contract receipt attempt with
  | .error answer => some ⟨answer, []⟩
  | .ok (call, start) =>
    (Logged.loop (hopStep host lib network adapter call) fuel start).map (finish host lib call)

end Invoke

end LocalNetworkAdapter

end Shea.Model
