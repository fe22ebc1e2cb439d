import Shea.Model.Network

/-!
# The hops of a network call

At each hop the adapter checks the URL, makes a connection to the address that was checked, and sends one
request on it. A redirect is followed as long as the number of hops allows it; the next hop starts with a
check of its own.
-/

set_option autoImplicit false

namespace Shea.Analysis

open Shea.Computation Shea.Model

/-! ## The check of a URL -/

/-- The URL has an allowed host, the address is the first one that the lookup of this host has answered,
and, if private networks are blocked, none of the answers is in one. -/
def Validated (py : Stdlib) (lib : NetworkLib)
    (lookup : (host : String) → (port : ℕ) → Except LookupFailure (List String)) (policy : NetworkPolicy)
    (url address : String) (port : ℕ) : Prop :=
  ∃ scheme host parsedPort addresses, py.urlparse url = some (scheme, host) ∧ host ≠ "" ∧
    isHostAllowed py policy host = true ∧ lib.port url = some parsedPort ∧ port = portOr parsedPort scheme ∧
    lookup host port = .ok addresses ∧ addresses.head? = some address ∧
    (policy.blockPrivateNetworks = true → ∀ answer ∈ addresses, isBlockedIpLiteral py answer = false)

section Check

variable {py : Stdlib} {lib : NetworkLib} {policy : NetworkPolicy}
  {lookup : (host : String) → (port : ℕ) → Except LookupFailure (List String)}

/-- INTERNAL: the address that is pinned.
SOURCE: security/runtime_checks.py:60-90 -/
theorem pinnedAddress_ok {tool host address : String} {addresses : List String}
    (h : pinnedAddress py policy tool host addresses = .ok address) :
    addresses.head? = some address ∧
      (policy.blockPrivateNetworks = true → ∀ answer ∈ addresses, isBlockedIpLiteral py answer = false) := by
  cases addresses with
  | nil => cases h
  | cons first rest =>
    unfold pinnedAddress at h
    dsimp only at h
    split at h
    · cases h
    · next hfind =>
      obtain rfl := Except.ok.inj h
      refine ⟨rfl, fun hblock answer hanswer => ?_⟩
      rw [if_pos hblock, List.find?_eq_none] at hfind
      simpa using hfind answer hanswer

/-- What the check of a URL vouches for.
SOURCE: security/runtime_checks.py:28-90 -/
theorem resolveAndCheckUrl_ok {tool url : String} {resolved : ResolvedUrl}
    (h : resolveAndCheckUrl py lib lookup policy tool url = .ok resolved) :
    resolved.url = url ∧ (py.urlparse url).map Prod.snd = some resolved.host ∧
      Validated py lib lookup policy url resolved.resolvedIp resolved.port := by
  unfold resolveAndCheckUrl at h
  split at h
  · cases h
  · next scheme host hparse =>
    split at h
    · cases h
    · next hhost =>
      unfold isUrlAllowed at h
      rw [hparse] at h
      cases hallowed : isHostAllowed py policy host with
      | false => simp [hallowed, bind, Except.bind] at h
      | true =>
        have hchecked : (!(decide (host ≠ "") && isHostAllowed py policy host)) = false := by
          simp [hallowed, hhost]
        simp only [bind, Except.bind, hchecked, Bool.false_eq_true, if_false] at h
        split at h
        · cases h
        · next parsedPort hport =>
          split at h
          · cases h
          · cases h
          · next addresses hlookup =>
            split at h
            · cases h
            · next address hpinned =>
              obtain rfl := Except.ok.inj h
              obtain ⟨hhead, hpublic⟩ := pinnedAddress_ok hpinned
              exact ⟨rfl, by rw [hparse]; rfl, ⟨scheme, host, parsedPort, addresses, hparse, hhost,
                hallowed, hport, rfl, hlookup, hhead, hpublic⟩⟩

end Check

/-! ## One request -/

section Request

variable {network : Network} {hop : ℕ} {url : String} {lib : NetworkLib} {conn : HttpConnection}
  {method path : String} {headers : List (String × String)}

/-- The address a connection goes to. -/
def dialAddress (conn : HttpConnection) : String := conn.resolvedIp.getD conn.host

/-- A request comes to be sent: `http.client` accepts it, the connection is opened, and the handshake of
a pinned one succeeds. -/
structure Opens (network : Network) (hop : ℕ) (lib : NetworkLib) (conn : HttpConnection)
    (method path : String) (headers : List (String × String)) : Prop where
  accepted : lib.checkRequest method path headers = .ok ()
  dialed : network.dial hop (dialAddress conn) conn.port = .ok ()
  shaken : conn.resolvedIp.isSome = true → ∃ peer, network.handshake hop conn.host = .ok peer

/-- What a request leaves in the log: nothing, the attempt at a connection, or the connection and the
request. -/
inductive RequestLog (network : Network) (hop : ℕ) (url : String) (lib : NetworkLib)
    (conn : HttpConnection) (method path : String) (headers : List (String × String)) :
    List NetworkEvent → Prop
  | refused : ¬ Opens network hop lib conn method path headers →
      RequestLog network hop url lib conn method path headers []
  | failed : ¬ Opens network hop lib conn method path headers →
      RequestLog network hop url lib conn method path headers
        [.dialed hop url (dialAddress conn) conn.port]
  | plain : Opens network hop lib conn method path headers → conn.resolvedIp = none →
      RequestLog network hop url lib conn method path headers
        [.dialed hop url (dialAddress conn) conn.port, .requested hop url method path headers]
  | pinned (peer : Peer) : Opens network hop lib conn method path headers →
      conn.resolvedIp.isSome = true → network.handshake hop conn.host = .ok peer →
      RequestLog network hop url lib conn method path headers
        [.dialed hop url (dialAddress conn) conn.port, .shookHands hop peer,
          .requested hop url method path headers]

/-- INTERNAL: what the network answers. -/
theorem onNetwork_ok {α : Type} {x : Except NetworkFailure α} {a : α} (h : x = .ok a) :
    onNetwork x = ⟨.ok a, []⟩ := by
  rw [h]
  rfl

/-- INTERNAL: what it raises. -/
theorem onNetwork_error {α : Type} {x : Except NetworkFailure α} {failure : NetworkFailure}
    (h : x = .error failure) : onNetwork x = ⟨.error (.raised failure), []⟩ := by
  rw [h]
  rfl

/-- INTERNAL: neither is logged. -/
theorem log_onNetwork {α : Type} (x : Except NetworkFailure α) : (onNetwork x).log = [] := rfl

/-- INTERNAL: the log of a connection that is opened.
SOURCE: app/adapters/network_local.py:45-51 -/
theorem connect_cases (network : Network) (hop : ℕ) (url : String) (conn : HttpConnection) :
    ((∃ exit, conn.connect network hop url =
          ⟨.error exit, [.dialed hop url (dialAddress conn) conn.port]⟩) ∧
        ∀ lib method path headers, ¬ Opens network hop lib conn method path headers) ∨
      (∃ opened, network.dial hop (dialAddress conn) conn.port = .ok () ∧ conn.resolvedIp = none ∧
        conn.connect network hop url = ⟨.ok opened, [.dialed hop url (dialAddress conn) conn.port]⟩) ∨
      ∃ opened peer, network.dial hop (dialAddress conn) conn.port = .ok () ∧
        conn.resolvedIp.isSome = true ∧ network.handshake hop conn.host = .ok peer ∧
        conn.connect network hop url =
          ⟨.ok opened, [.dialed hop url (dialAddress conn) conn.port, .shookHands hop peer]⟩ := by
  unfold HttpConnection.connect
  cases hdial : network.dial hop (dialAddress conn) conn.port with
  | error failure =>
    refine .inl ⟨⟨.raised failure, ?_⟩, fun lib method path headers hopens => ?_⟩
    · unfold dialAddress at hdial ⊢
      dsimp only
      rw [onNetwork_error hdial]
      rfl
    · exact absurd (hdial.symm.trans hopens.dialed) (by simp)
  | ok dialed =>
    unfold dialAddress at hdial ⊢
    dsimp only
    rw [onNetwork_ok hdial]
    cases hpinned : conn.resolvedIp with
    | none => exact .inr (.inl ⟨_, rfl, rfl, rfl⟩)
    | some address =>
      cases hshake : network.handshake hop conn.host with
      | error failure =>
        refine .inl ⟨⟨.raised failure, ?_⟩, fun lib method path headers hopens => ?_⟩
        · rfl
        · obtain ⟨peer, hpeer⟩ := hopens.shaken (by rw [hpinned]; rfl)
          exact absurd (hshake.symm.trans hpeer) (by simp)
      | ok peer =>
        exact .inr (.inr ⟨_, peer, rfl, rfl, rfl, rfl⟩)

/-- INTERNAL: the log of a request on a connection that is not open.
SOURCE: app/adapters/network_local.py:262 -/
theorem requestLog_request (hsock : conn.sock = none) :
    RequestLog network hop url lib conn method path headers
      (conn.request network hop url lib method path headers).log := by
  unfold HttpConnection.request HttpConnection.autoOpen
  cases hcheck : lib.checkRequest method path headers with
  | error e =>
    refine .refused fun hopens => ?_
    exact absurd (hcheck.symm.trans hopens.accepted) (by simp)
  | ok accepted =>
    rw [hsock]
    dsimp only
    rcases connect_cases network hop url conn with
      ⟨⟨exit, hconnect⟩, hnot⟩ | ⟨opened, hdial, hplain, hconnect⟩ |
        ⟨opened, peer, hdial, hpinned, hshake, hconnect⟩
    · rw [hconnect]
      exact .failed (hnot lib method path headers)
    · rw [hconnect]
      exact .plain ⟨hcheck, hdial, fun hsome => by rw [hplain] at hsome; cases hsome⟩ hplain
    · rw [hconnect]
      exact .pinned peer ⟨hcheck, hdial, fun _ => ⟨peer, hshake⟩⟩ hpinned hshake

/-- The requests among the events. -/
def isRequested : NetworkEvent → Bool
  | .requested .. => true
  | _ => false

section RequestLog

variable {log : List NetworkEvent} (h : RequestLog network hop url lib conn method path headers log)

include h

/-- The address that is dialled. -/
theorem RequestLog.dialed_mem {hop' : ℕ} {url' address : String} {port : ℕ}
    (hmem : .dialed hop' url' address port ∈ log) :
    hop' = hop ∧ url' = url ∧ address = dialAddress conn ∧ port = conn.port := by
  cases h with
  | refused _ => cases hmem
  | failed _ => simpa using hmem
  | plain _ _ => simpa using hmem
  | pinned _ _ _ _ => simpa using hmem

/-- The request that is sent, if the connection opens. -/
theorem RequestLog.requested_mem_iff {hop' : ℕ} {url' method' path' : String}
    {headers' : List (String × String)} :
    .requested hop' url' method' path' headers' ∈ log ↔
      (hop' = hop ∧ url' = url ∧ method' = method ∧ path' = path ∧ headers' = headers) ∧
        Opens network hop lib conn method path headers := by
  cases h with
  | refused hnot => simp [hnot]
  | failed hnot => simp [hnot]
  | plain hopens => simp [hopens]
  | pinned peer hopens => simp [hopens]

/-- The handshake, on a connection that was pinned. -/
theorem RequestLog.shookHands_mem {hop' : ℕ} {peer : Peer} (hmem : .shookHands hop' peer ∈ log) :
    Opens network hop lib conn method path headers ∧ conn.resolvedIp.isSome = true := by
  cases h with
  | refused _ => cases hmem
  | failed _ => simp at hmem
  | plain _ _ => simp at hmem
  | pinned _ hopens hpinned _ => exact ⟨hopens, hpinned⟩

/-- INTERNAL: a request verifies no pin. -/
theorem RequestLog.pinVerified_not_mem (hop' : ℕ) (observed : Option String) :
    .pinVerified hop' observed ∉ log := by
  cases h <;> simp

/-- At most one request is sent. -/
theorem RequestLog.countP_requested : log.countP isRequested ≤ 1 := by
  cases h <;> simp [isRequested]

end RequestLog

end Request

/-! ## Hops -/

section Hop

open LocalNetworkAdapter

variable (host : Host) (lib : NetworkLib) (network : Network) (adapter : LocalNetworkAdapter)
  (call : NetworkCall)

/-- What a connection is made for: the scheme of the URL, and the address that was checked. -/
structure ConnectionOf (s : HopState) (resolved : ResolvedUrl) (conn : HttpConnection) : Prop where
  closed : conn.sock = none
  address : dialAddress conn = resolved.resolvedIp
  port : conn.port = resolved.port
  scheme : conn.resolvedIp.isSome = true ∧ schemeOf host.py s.currentUrl = "https" ∨
    conn.resolvedIp = none ∧ schemeOf host.py s.currentUrl = "http"

/-- INTERNAL: the connection of a hop is not open yet.
SOURCE: app/adapters/network_local.py:207-242 -/
theorem connectionFor_ok {s : HopState} {resolved : ResolvedUrl} {conn : HttpConnection}
    (h : (connectionFor host call s resolved).result = .ok conn) : ConnectionOf host s resolved conn := by
  unfold connectionFor at h
  dsimp only at h
  split at h
  · next hscheme =>
    obtain rfl := Except.ok.inj h
    exact ⟨rfl, rfl, rfl, .inl ⟨rfl, hscheme⟩⟩
  · split at h
    · next hscheme =>
      obtain rfl := Except.ok.inj h
      exact ⟨rfl, rfl, rfl, .inr ⟨rfl, hscheme⟩⟩
    · cases h

/-- INTERNAL: the URL of a hop has passed the check. -/
theorem checkHop_ok {s : HopState} {resolved : ResolvedUrl}
    (h : (checkHop host lib network call s).result = .ok resolved) :
    resolveAndCheckUrl host.py lib (network.lookup (s.hop + 1)) call.policy toolName s.currentUrl =
      .ok resolved := by
  unfold checkHop at h
  rw [Logged.result_ofExcept] at h
  split at h
  · next found hfound =>
    rw [hfound, Except.ok.inj h]
  · cases h
  · cases h

/-- INTERNAL: a connection is made without a sound. -/
theorem log_connectionFor (s : HopState) (resolved : ResolvedUrl) :
    (connectionFor host call s resolved).log = [] := by
  unfold connectionFor
  dsimp only
  split
  · rfl
  · split <;> rfl

/-- INTERNAL: the pins are not looked at while the connection is not open.
SOURCE: app/adapters/network_local.py:216-230 -/
theorem checkPins_of_closed (s : HopState) {conn : HttpConnection} (h : conn.sock = none) :
    checkPins host lib call s conn = pure () := by
  unfold checkPins
  rw [h]

/-- INTERNAL: so are the headers. -/
theorem log_headersFor (s : HopState) (resolved : ResolvedUrl) :
    (headersFor host adapter call s resolved).log = [] := by
  unfold headersFor
  dsimp only
  split
  · rfl
  · split
    · split
      · rfl
      · next broker _ =>
        cases hresolved : resolveArgumentCredentials host.py broker toolName call.profileId s.hop
          call.arguments <;> rfl
    · rfl

/-- A hop has a checked URL, a connection and headers: all that comes before its request. -/
structure Ready (s : HopState) (resolved : ResolvedUrl) (conn : HttpConnection)
    (headers : List (String × String)) : Prop where
  checked : (checkHop host lib network call s).result = .ok resolved
  connected : (connectionFor host call s resolved).result = .ok conn
  headed : (headersFor host adapter call s resolved).result = .ok headers

/-- The method of a hop's request. -/
def methodOf (s : HopState) : String := if s.hop = 0 then s.method else "GET"

/-- INTERNAL: the request of a hop.
SOURCE: app/adapters/network_local.py:262 -/
def requestOf (s : HopState) (conn : HttpConnection) (headers : List (String × String)) :
    NetworkProc HttpConnection :=
  conn.request network s.hop s.currentUrl lib (methodOf s) (requestPath lib s.currentUrl) headers

/-- INTERNAL: what comes after the request writes nothing.
SOURCE: app/adapters/network_local.py:263-296 -/
theorem log_follow (s : HopState) (response : HttpResponse) (identity : DestinationIdentity)
    (body : List UInt8) : (follow lib call s response identity body).log = [] := by
  unfold follow
  dsimp only
  split
  · split <;> rfl
  · rfl

/-- INTERNAL: and the response is read so. -/
theorem log_getresponse (hop : ℕ) (conn : HttpConnection) : (conn.getresponse network hop).log = [] := by
  unfold HttpConnection.getresponse
  cases hrespond : network.respond hop <;> rfl

/-- The log of a hop is the log of its request, or there is none.
SOURCE: app/adapters/network_local.py:185-296 -/
theorem log_hopBody (s : HopState) :
    (∃ resolved conn headers, Ready host lib network adapter call s resolved conn headers ∧
        (hopBody host lib network adapter call s).log = (requestOf lib network s conn headers).log) ∨
      ((∀ resolved conn headers, ¬ Ready host lib network adapter call s resolved conn headers) ∧
        (hopBody host lib network adapter call s).log = []) := by
  have hchecklog : (checkHop host lib network call s).log = [] := rfl
  unfold hopBody
  cases hcheck : (checkHop host lib network call s).result with
  | error exit =>
    rw [Logged.bind_of_error hcheck]
    refine .inr ⟨fun resolved _ _ h => ?_, hchecklog⟩
    exact absurd (hcheck.symm.trans h.checked) (by simp)
  | ok resolved =>
    rw [Logged.bind_of_ok hcheck, hchecklog, List.nil_append]
    cases hconn : (connectionFor host call s resolved).result with
    | error exit =>
      rw [Logged.bind_of_error hconn]
      refine .inr ⟨fun resolved' _ _ h => ?_, log_connectionFor host call s resolved⟩
      obtain rfl := Except.ok.inj (hcheck.symm.trans h.checked)
      exact absurd (hconn.symm.trans h.connected) (by simp)
    | ok conn =>
      have hclosed := (connectionFor_ok host call hconn).closed
      rw [Logged.bind_of_ok hconn, log_connectionFor, List.nil_append,
        checkPins_of_closed host lib call s hclosed, Logged.bind_of_ok (Logged.result_pure ()),
        Logged.log_pure, List.nil_append]
      cases hheaders : (headersFor host adapter call s resolved).result with
      | error exit =>
        rw [Logged.bind_of_error hheaders]
        refine .inr ⟨fun resolved' conn' _ h => ?_, log_headersFor host adapter call s resolved⟩
        obtain rfl := Except.ok.inj (hcheck.symm.trans h.checked)
        exact absurd (hheaders.symm.trans h.headed) (by simp)
      | ok headers =>
        refine .inl ⟨resolved, conn, headers, ⟨hcheck, hconn, hheaders⟩, ?_⟩
        rw [Logged.bind_of_ok hheaders, log_headersFor, List.nil_append]
        refine Logged.log_bind_of_silent fun sent => ?_
        rw [Logged.log_bind_of_silent, log_getresponse]
        intro answered
        rw [Logged.log_bind_of_silent, Logged.log_ofExcept]
        intro identity
        rw [Logged.log_bind_of_silent, log_onNetwork]
        exact fun body => log_follow lib call s answered.2 identity _

/-- A hop sends its request. -/
structure Sends (s : HopState) (resolved : ResolvedUrl) (conn : HttpConnection)
    (headers : List (String × String)) : Prop
    extends Ready host lib network adapter call s resolved conn headers where
  opens : Opens network s.hop lib conn (methodOf s) (requestPath lib s.currentUrl) headers

/-- The log of a hop: that of its request, or nothing.
SOURCE: app/adapters/network_local.py:185-296 -/
theorem requestLog_hopStep (s : HopState) :
    (∃ resolved conn headers, Ready host lib network adapter call s resolved conn headers ∧
        RequestLog network s.hop s.currentUrl lib conn (methodOf s) (requestPath lib s.currentUrl) headers
          (hopStep host lib network adapter call s).log) ∨
      ((∀ resolved conn headers, ¬ Ready host lib network adapter call s resolved conn headers) ∧
        (hopStep host lib network adapter call s).log = []) := by
  unfold hopStep
  rw [Logged.log_mapError]
  rcases log_hopBody host lib network adapter call s with
    ⟨resolved, conn, headers, hprepared, hlog⟩ | ⟨hnone, hlog⟩
  · refine .inl ⟨resolved, conn, headers, hprepared, ?_⟩
    rw [hlog]
    exact requestLog_request (connectionFor_ok host call hprepared.connected).closed
  · exact .inr ⟨hnone, hlog⟩

variable {host lib network adapter call}

/-- A hop has one URL check, one connection and one set of headers. -/
theorem Ready.unique {s : HopState} {resolved resolved' : ResolvedUrl} {conn conn' : HttpConnection}
    {headers headers' : List (String × String)}
    (h : Ready host lib network adapter call s resolved conn headers)
    (h' : Ready host lib network adapter call s resolved' conn' headers') :
    conn' = conn ∧ headers' = headers := by
  obtain rfl := Except.ok.inj (h.checked.symm.trans h'.checked)
  exact ⟨(Except.ok.inj (h.connected.symm.trans h'.connected)).symm,
    (Except.ok.inj (h.headed.symm.trans h'.headed)).symm⟩

/-- The connections of a hop are to the address that was checked for its URL.
SOURCE: app/adapters/network_local.py:187-242 -/
theorem dialed_mem_hop {s : HopState} {hop : ℕ} {url address : String} {port : ℕ}
    (h : .dialed hop url address port ∈ (hopStep host lib network adapter call s).log) :
    hop = s.hop ∧ url = s.currentUrl ∧ ∃ resolved, (checkHop host lib network call s).result = .ok resolved ∧
      address = resolved.resolvedIp ∧ port = resolved.port := by
  rcases requestLog_hopStep host lib network adapter call s with
    ⟨resolved, conn, headers, hprepared, hlog⟩ | ⟨-, hlog⟩
  · have hconn := connectionFor_ok host call hprepared.connected
    obtain ⟨rfl, rfl, rfl, rfl⟩ := hlog.dialed_mem h
    exact ⟨rfl, rfl, resolved, hprepared.checked, hconn.address, hconn.port⟩
  · rw [hlog] at h
    cases h

/-- A request is in the log of a hop if the hop sends it.
SOURCE: app/adapters/network_local.py:244-262 -/
theorem requested_mem_hop_iff {s : HopState} {hop : ℕ} {url method path : String}
    {headers : List (String × String)} :
    .requested hop url method path headers ∈ (hopStep host lib network adapter call s).log ↔
      (hop = s.hop ∧ url = s.currentUrl ∧ method = methodOf s ∧ path = requestPath lib s.currentUrl) ∧
        ∃ resolved conn, Sends host lib network adapter call s resolved conn headers := by
  rcases requestLog_hopStep host lib network adapter call s with
    ⟨resolved, conn, sent, hprepared, hlog⟩ | ⟨hnone, hlog⟩
  · rw [hlog.requested_mem_iff]
    constructor
    · rintro ⟨⟨rfl, rfl, rfl, rfl, rfl⟩, hopens⟩
      exact ⟨⟨rfl, rfl, rfl, rfl⟩, resolved, conn, ⟨hprepared, hopens⟩⟩
    · rintro ⟨⟨rfl, rfl, rfl, rfl⟩, resolved', conn', hsends⟩
      obtain ⟨rfl, rfl⟩ := hprepared.unique hsends.toReady
      exact ⟨⟨rfl, rfl, rfl, rfl, rfl⟩, hsends.opens⟩
  · rw [hlog]
    refine ⟨fun h => absurd h List.not_mem_nil, ?_⟩
    rintro ⟨-, resolved', conn', hsends⟩
    exact absurd hsends.toReady (hnone _ _ _)

/-- A handshake is in the log of an https hop only, one that sends its request.
SOURCE: app/adapters/network_local.py:45-51 -/
theorem shookHands_mem_hop {s : HopState} {hop : ℕ} {peer : Peer}
    (h : .shookHands hop peer ∈ (hopStep host lib network adapter call s).log) :
    schemeOf host.py s.currentUrl = "https" ∧
      ∃ resolved conn headers, Sends host lib network adapter call s resolved conn headers := by
  rcases requestLog_hopStep host lib network adapter call s with
    ⟨resolved, conn, headers, hprepared, hlog⟩ | ⟨-, hlog⟩
  · obtain ⟨hopens, hpinned⟩ := hlog.shookHands_mem h
    refine ⟨?_, resolved, conn, headers, ⟨hprepared, hopens⟩⟩
    rcases (connectionFor_ok host call hprepared.connected).scheme with ⟨-, hscheme⟩ | ⟨hnone, -⟩
    · exact hscheme
    · rw [hnone] at hpinned
      cases hpinned
  · rw [hlog] at h
    cases h

/-- The pins are never looked at.
SOURCE: app/adapters/network_local.py:216-230 -/
theorem pinVerified_not_mem_hop (s : HopState) (hop : ℕ) (observed : Option String) :
    .pinVerified hop observed ∉ (hopStep host lib network adapter call s).log := by
  rcases requestLog_hopStep host lib network adapter call s with ⟨_, _, _, -, hlog⟩ | ⟨-, hlog⟩
  · exact hlog.pinVerified_not_mem hop observed
  · rw [hlog]
    exact List.not_mem_nil

/-- A hop sends one request at most. -/
theorem countP_requested_hop (s : HopState) :
    (hopStep host lib network adapter call s).log.countP isRequested ≤ 1 := by
  rcases requestLog_hopStep host lib network adapter call s with ⟨_, _, _, -, hlog⟩ | ⟨-, hlog⟩
  · exact hlog.countP_requested
  · rw [hlog]
    exact Nat.zero_le _

/-- A redirect that is followed. -/
structure Redirected (lib : NetworkLib) (network : Network) (call : NetworkCall) (s t : HopState) :
    Prop where
  answered : ∃ response, network.respond s.hop = .ok response ∧ response.status ∈ redirectStatuses ∧
    ∃ location, response.location = some location ∧
      lib.urljoin s.currentUrl location = some t.currentUrl
  left : s.hop < call.maxRedirects
  next : t.hop = s.hop + 1

/-- INTERNAL: the end of a hop that is not the last one.
SOURCE: app/adapters/network_local.py:285-296 -/
theorem follow_again {s t : HopState} {response : HttpResponse} {identity : DestinationIdentity}
    {body : List UInt8} (hrespond : network.respond s.hop = .ok response)
    (h : (follow lib call s response identity body).result = .ok (.again t)) :
    Redirected lib network call s t := by
  unfold follow at h
  dsimp only at h
  split at h
  · next hfollowed =>
    obtain ⟨hstatus, hlocation, hleft⟩ := hfollowed
    split at h
    · cases h
    · next nextUrl hjoin =>
      obtain rfl := Logged.Step.again.inj (Except.ok.inj h)
      cases hheader : response.location with
      | none => simp [hheader] at hlocation
      | some location =>
        rw [hheader] at hjoin
        exact ⟨⟨response, hrespond, hstatus, location, hheader, hjoin⟩, hleft, rfl⟩
  · cases h

/-- A hop leads to the next one by a redirect only.
SOURCE: app/adapters/network_local.py:185-296 -/
theorem redirected_of_hopStep {s t : HopState}
    (h : (hopStep host lib network adapter call s).result = .ok (.again t)) :
    Redirected lib network call s t := by
  unfold hopStep at h
  rw [Logged.result_mapError_ok_iff] at h
  unfold hopBody at h
  obtain ⟨resolved, -, h⟩ := Logged.result_bind_ok_iff.mp h
  obtain ⟨conn, -, h⟩ := Logged.result_bind_ok_iff.mp h
  obtain ⟨-, -, h⟩ := Logged.result_bind_ok_iff.mp h
  obtain ⟨headers, -, h⟩ := Logged.result_bind_ok_iff.mp h
  obtain ⟨sent, -, h⟩ := Logged.result_bind_ok_iff.mp h
  obtain ⟨answered, hanswered, h⟩ := Logged.result_bind_ok_iff.mp h
  obtain ⟨identity, -, h⟩ := Logged.result_bind_ok_iff.mp h
  obtain ⟨body, -, h⟩ := Logged.result_bind_ok_iff.mp h
  refine follow_again ?_ h
  unfold HttpConnection.getresponse at hanswered
  cases hrespond : network.respond s.hop with
  | error failure =>
    rw [onNetwork_error hrespond] at hanswered
    cases hanswered
  | ok response =>
    rw [onNetwork_ok hrespond] at hanswered
    obtain rfl := Except.ok.inj hanswered
    rfl

/-- The hops that are left. -/
def hopsLeft (call : NetworkCall) (s : HopState) : ℕ := call.maxRedirects - s.hop

/-- Each hop leaves fewer. -/
theorem hopsLeft_of_hopStep {s t : HopState}
    (h : (hopStep host lib network adapter call s).result = .ok (.again t)) :
    hopsLeft call t < hopsLeft call s := by
  obtain ⟨-, hleft, hnext⟩ := redirected_of_hopStep h
  unfold hopsLeft
  omega

/-- The URL of a hop, as the servers before it have made it. -/
inductive HopUrl (lib : NetworkLib) (network : Network) (start : String) : ℕ → String → Prop
  | start : HopUrl lib network start 0 start
  | redirect {hop : ℕ} {url location next : String} {response : HttpResponse} :
      HopUrl lib network start hop url → network.respond hop = .ok response →
      response.status ∈ redirectStatuses → response.location = some location →
      lib.urljoin url location = some next → HopUrl lib network start (hop + 1) next

/-- A loop that has begun with the first hop is at the URL the servers have led it to.
SOURCE: app/adapters/network_local.py:285-296 -/
theorem hopUrl_of_reaches {start : String} {s u : HopState} (hs : s.hop = 0) (hurl : s.currentUrl = start)
    (h : Logged.Reaches (hopStep host lib network adapter call) s u) :
    HopUrl lib network start u.hop u.currentUrl := by
  refine h.invariant (I := fun u => HopUrl lib network start u.hop u.currentUrl) ?_ ?_
  · rw [hs, hurl]
    exact .start
  · intro u t hu hstep
    obtain ⟨⟨response, hrespond, hstatus, location, hlocation, hjoin⟩, -, hnext⟩ :=
      redirected_of_hopStep hstep
    rw [hnext]
    exact .redirect hu hrespond hstatus hlocation hjoin

end Hop

/-! ## Whole calls -/

section Call

open LocalNetworkAdapter

variable {host : Host} {lib : NetworkLib} {network : Network} {adapter : LocalNetworkAdapter}
  {contract : ExecutionContract} {receipt : ExecutionReceipt} {attempt : ExecutionAttempt}

/-- INTERNAL: the parts of a computation that has returned. -/
theorem except_bind_ok {ε α β : Type} {x : Except ε α} {f : α → Except ε β} {b : β}
    (h : x >>= f = .ok b) : ∃ a, x = .ok a ∧ f a = .ok b := by
  cases x with
  | ok a => exact ⟨a, rfl, h⟩
  | error e => cases h

/-- What the loop of a call begins with. -/
structure CallOf (host : Host) (lib : NetworkLib) (adapter : LocalNetworkAdapter)
    (contract : ExecutionContract) (call : NetworkCall) (start : HopState) : Prop where
  context : ∃ context, contract.adapterContext = some context ∧
    call.policy = policyFor adapter context.scope.network ∧
    call.pinnedSpkiSha256 = context.scope.network.pinnedSpkiSha256
  url : urlOf lib contract = some call.url
  redirects : maxRedirectsOf lib contract = .ok call.maxRedirects
  limited : call.maxRedirects ≤ 5
  startUrl : start.currentUrl = call.url
  startHop : start.hop = 0

/-- INTERNAL: from the method on.
SOURCE: app/adapters/network_local.py:127-181 -/
theorem prepareLoop_ok {scope : ExecutionScope} {base : Dict} {policy : NetworkPolicy}
    {url method : String} {call : NetworkCall} {start : HopState}
    (h : prepareLoop host lib network contract scope base policy url method = .ok (call, start)) :
    call.policy = policy ∧ call.pinnedSpkiSha256 = scope.network.pinnedSpkiSha256 ∧ call.url = url ∧
      maxRedirectsOf lib contract = .ok call.maxRedirects ∧ call.maxRedirects ≤ 5 ∧
      start.currentUrl = url ∧ start.hop = 0 := by
  unfold prepareLoop at h
  split at h
  · cases h
  · obtain ⟨resolved, -, h⟩ := except_bind_ok h
    obtain ⟨arguments, -, h⟩ := except_bind_ok h
    obtain ⟨maxRedirects, hmax, h⟩ := except_bind_ok h
    split at h
    · cases h
    · next hrange =>
      obtain ⟨rfl, rfl⟩ := Prod.mk.inj (Except.ok.inj h)
      refine ⟨rfl, rfl, rfl, ?_, ?_, rfl, rfl⟩
      · cases hof : maxRedirectsOf lib contract with
        | error e =>
          rw [hof] at hmax
          cases hmax
        | ok n =>
          rw [hof] at hmax
          obtain rfl := Except.ok.inj hmax
          simp only [Except.ok.injEq]
          omega
      · simp only
        omega

/-- What a call has found out when its loop begins.
SOURCE: app/adapters/network_local.py:70-181 -/
theorem callOf_prepare {call : NetworkCall} {start : HopState}
    (h : prepare host lib network adapter contract receipt attempt = .ok (call, start)) :
    CallOf host lib adapter contract call start := by
  unfold prepare at h
  dsimp only at h
  split at h
  · cases h
  · next context hcontext =>
    split at h
    · cases h
    · next url hurl =>
      obtain ⟨decision, -, h⟩ := except_bind_ok h
      split at h
      · cases h
      · obtain ⟨hpolicy, hpins, rfl, hredirects, hlimited, hstartUrl, hstartHop⟩ := prepareLoop_ok h
        exact ⟨⟨context, hcontext, hpolicy, hpins⟩, hurl, hredirects, hlimited, hstartUrl, hstartHop⟩

/-- The hops that a call comes to. -/
def HopOf (host : Host) (lib : NetworkLib) (network : Network) (adapter : LocalNetworkAdapter)
    (contract : ExecutionContract) (receipt : ExecutionReceipt) (attempt : ExecutionAttempt)
    (call : NetworkCall) (s : HopState) : Prop :=
  ∃ start, prepare host lib network adapter contract receipt attempt = .ok (call, start) ∧
    Logged.Reaches (hopStep host lib network adapter call) start s

/-- The events of a call are those of the hops it comes to.
SOURCE: app/adapters/network_local.py:70-345 -/
theorem mem_log_invoke {fuel : ℕ} {run : Logged NetworkEvent Err AdapterResult}
    (h : invoke host lib network adapter fuel contract receipt attempt = some run) (event : NetworkEvent) :
    event ∈ run.log ↔ ∃ call s, HopOf host lib network adapter contract receipt attempt call s ∧
      event ∈ (hopStep host lib network adapter call s).log := by
  unfold invoke at h
  unfold HopOf
  split at h
  · next answer hprepare =>
    obtain rfl := Option.some.inj h
    rw [hprepare]
    simp
  · next call start hprepare =>
    obtain ⟨ended, hended, rfl⟩ := Option.map_eq_some_iff.mp h
    rw [hprepare]
    show event ∈ ended.log ↔ _
    rw [Logged.mem_log_loop hended]
    constructor
    · rintro ⟨s, hreaches, hmem⟩
      exact ⟨call, s, ⟨start, rfl, hreaches⟩, hmem⟩
    · rintro ⟨call', s, ⟨start', hstart, hreaches⟩, hmem⟩
      obtain ⟨rfl, rfl⟩ := Prod.mk.inj (Except.ok.inj hstart)
      exact ⟨s, hreaches, hmem⟩

/-- A hop is at the URL that the servers have led the call to. -/
theorem hopUrl_of_hopOf {call : NetworkCall} {s : HopState}
    (h : HopOf host lib network adapter contract receipt attempt call s) :
    urlOf lib contract = some call.url ∧ HopUrl lib network call.url s.hop s.currentUrl := by
  obtain ⟨start, hprepare, hreaches⟩ := h
  have hcall := callOf_prepare hprepare
  exact ⟨hcall.url, hopUrl_of_reaches hcall.startHop hcall.startUrl hreaches⟩

/-- INTERNAL: six hops are enough.
SOURCE: app/adapters/network_local.py:168-174, app/adapters/network_local.py:285 -/
theorem exists_invoke (host : Host) (lib : NetworkLib) (network : Network) (adapter : LocalNetworkAdapter)
    (contract : ExecutionContract) (receipt : ExecutionReceipt) (attempt : ExecutionAttempt) :
    ∃ run, (∀ extra, invoke host lib network adapter (6 + extra) contract receipt attempt = some run) ∧
      run.log.countP isRequested ≤ 6 ∧
      ∀ n : ℕ, maxRedirectsOf lib contract = .ok n → run.log.countP isRequested ≤ n + 1 := by
  unfold invoke
  cases hprepare : prepare host lib network adapter contract receipt attempt with
  | error answer => exact ⟨⟨answer, []⟩, fun _ => rfl, Nat.zero_le _, fun _ _ => Nat.zero_le _⟩
  | ok prepared =>
    obtain ⟨call, start⟩ := prepared
    have hcall := callOf_prepare hprepare
    have hleft : hopsLeft call start = call.maxRedirects := by
      unfold hopsLeft
      rw [hcall.startHop, Nat.sub_zero]
    have henough : hopsLeft call start < 6 := by
      rw [hleft]
      exact Nat.lt_succ_of_le hcall.limited
    have hless := @hopsLeft_of_hopStep host lib network adapter call
    have hone := @countP_requested_hop host lib network adapter call
    obtain ⟨ended, hended⟩ := Option.isSome_iff_exists.mp
      (Logged.loop_isSome (hopsLeft call) (fun _ _ => hless) henough)
    have hcount := Logged.countP_log_loop (hopsLeft call) (fun _ _ => hless) hone hended
    rw [hleft] at hcount
    refine ⟨finish host lib call ended, fun extra => ?_,
      hcount.trans (Nat.succ_le_succ hcall.limited), fun n hn => ?_⟩
    · dsimp only
      rw [Logged.loop_add hended extra]
      rfl
    · obtain rfl := Int.ofNat.inj (Except.ok.inj (hcall.redirects.symm.trans hn))
      exact hcount

/-- Whatever the servers and the lookups answer, a call ends after six hops at most. It sends at most one
request more than it may follow redirects, and each of its connections is to an address that was checked for
the URL of that very hop, under the policy of the call.
SOURCE: app/adapters/network_local.py:145-296, security/runtime_checks.py:28-90 -/
theorem redirects_stay_validated (host : Host) (lib : NetworkLib) (network : Network)
    (adapter : LocalNetworkAdapter) (contract : ExecutionContract) (receipt : ExecutionReceipt)
    (attempt : ExecutionAttempt) :
    ∃ run, (∀ extra, invoke host lib network adapter (6 + extra) contract receipt attempt = some run) ∧
      run.log.countP isRequested ≤ 6 ∧
      (∀ n : ℕ, maxRedirectsOf lib contract = .ok n → run.log.countP isRequested ≤ n + 1) ∧
      ∀ hop url address port, .dialed hop url address port ∈ run.log →
        ∃ context start resolved, contract.adapterContext = some context ∧
          urlOf lib contract = some start ∧ HopUrl lib network start hop url ∧
          resolveAndCheckUrl host.py lib (network.lookup (hop + 1))
              (policyFor adapter context.scope.network) toolName url = .ok resolved ∧
          address = resolved.resolvedIp ∧ port = resolved.port ∧
          Validated host.py lib (network.lookup (hop + 1)) (policyFor adapter context.scope.network) url
            address port := by
  obtain ⟨run, hrun, hsix, hlimit⟩ := exists_invoke host lib network adapter contract receipt attempt
  refine ⟨run, hrun, hsix, hlimit, fun hop url address port hdialed => ?_⟩
  obtain ⟨call, s, hhop, hmem⟩ := (mem_log_invoke (hrun 0) _).mp hdialed
  obtain ⟨hurl, hled⟩ := hopUrl_of_hopOf hhop
  obtain ⟨start, hprepare, -⟩ := hhop
  obtain ⟨context, hcontext, hpolicy, -⟩ := (callOf_prepare hprepare).context
  obtain ⟨rfl, rfl, resolved, hchecked, rfl, rfl⟩ := dialed_mem_hop hmem
  have hresolved := checkHop_ok host lib network call hchecked
  rw [hpolicy] at hresolved
  exact ⟨context, call.url, resolved, hcontext, hurl, hled, hresolved, rfl, rfl,
    (resolveAndCheckUrl_ok hresolved).2.2⟩

end Call

end Shea.Analysis
