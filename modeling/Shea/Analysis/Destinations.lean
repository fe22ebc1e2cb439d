import Shea.Analysis.NetworkHops
import Shea.Model.Sample

/-!
# Where secrets go, and who receives requests

A credential reference may be bound to a host, and a scope may pin the certificates of the servers. The
adapter resolves the reference anew at each hop, without a look at the host it is bound to. It checks the
pins on the socket of a connection that has not been opened yet, which is to say never.
-/

set_option autoImplicit false

namespace Shea.Analysis

open Shea.Computation Shea.Model Shea.Model.LocalNetworkAdapter

/-- A hop ends before its request: the URL is refused or does not resolve, its scheme is neither http nor
https, the credential is not handed out, or no connection comes about. -/
def TurnedAway (host : Host) (lib : NetworkLib) (network : Network) (adapter : LocalNetworkAdapter)
    (call : NetworkCall) (s : HopState) : Prop :=
  ∀ resolved conn headers, Ready host lib network adapter call s resolved conn headers →
    ¬ Opens network s.hop lib conn (methodOf s) (requestPath lib s.currentUrl) headers

/-! ## A network with two hosts -/

/-- The URLs of two hosts, taken apart. -/
def sampleUrls : String → Option (String × String)
  | "https://api.example/" => some ("https", "api.example")
  | "https://api.example/v2" => some ("https", "api.example")
  | "https://files.example/" => some ("https", "files.example")
  | _ => some ("", "")

/-- A host that knows these URLs, and takes every address for a public one. -/
def sampleHost : Host :=
  { Host.plain [] [] with
    py := { Stdlib.plain with
      urlparse := sampleUrls
      ipAddress := fun _ => some ⟨false, false, false, false, false, false⟩ } }

/-- Functions that are right for these URLs. -/
def sampleLib : NetworkLib :=
  { port := fun _ => some none
    path := fun url => if url = "https://api.example/v2" then "/v2" else "/"
    query := fun _ => ""
    urljoin := fun _ location => some location
    urlunparse := fun scheme netloc path _ => scheme ++ "://" ++ netloc ++ path
    strip := fun text => text
    upper := fun text => text
    int := fun _ => .ok 3
    decode := fun _ => ""
    checkRequest := fun _ _ _ => .ok () }

/-- A peer whose key has this pin. -/
def samplePeer : Peer :=
  { spki := some "c2VydmVy"
    subject := none
    sans := []
    verified := true }

/-- A network whose first answer is a redirect, and what becomes of handshakes there. -/
def sampleNetwork (location : String) (handshake : Except NetworkFailure Peer) : Network :=
  { lookup := fun _ _ _ => .ok ["93.184.216.34"]
    dial := fun _ _ _ => .ok ()
    handshake := fun _ _ => handshake
    respond := fun hop =>
      .ok { status := if hop = 0 then 302 else 200
            location := if hop = 0 then some location else none
            body := .ok []
            willClose := true } }

/-- An adapter that resolves every reference. -/
def sampleAdapter : LocalNetworkAdapter := { credentialBroker := some fun _ _ _ _ => .ok "token" }

/-- The context of a call under a network scope. -/
def sampleContext (network : NetworkScope) : AdapterContext :=
  { verifiedIdentity :=
      { identity :=
          { kind := .url
            canonicalValue := "https://api.example/"
            requestedValue := "https://api.example/" }
        assurance := .basic
        verified := true
        method := "url" }
    scope :=
      { scopeId := "scope"
        network := network }
    enforcement :=
      { scopeId := "scope"
        limits := []
        isolation := []
        filesystem := [] } }

/-- A call of the first URL. -/
def sampleContract (network : NetworkScope) : ExecutionContract :=
  { contractId := "contract"
    authorizationId := "authorization"
    capability := "network.request"
    operation := "network.get"
    target := "https://api.example/"
    adapterContext := some (sampleContext network) }

/-- Its receipt. -/
def sampleReceipt : ExecutionReceipt :=
  { id := "receipt"
    contractId := "contract"
    authorizationId := "authorization"
    capability := "network.request"
    operation := "network.get"
    target := "https://api.example/"
    state := .attempting
    createdAt := 0 }

/-- The attempt. -/
def sampleAttempt : ExecutionAttempt :=
  { id := "attempt"
    receiptId := "receipt"
    attemptNumber := 1
    state := .invoked
    createdAt := 0 }

/-- The calls on that network. -/
def sampleInvoke (scope : NetworkScope) (location : String) (handshake : Except NetworkFailure Peer) :
    Option (Logged NetworkEvent Err AdapterResult) :=
  invoke sampleHost sampleLib (sampleNetwork location handshake) sampleAdapter 6 (sampleContract scope)
    sampleReceipt sampleAttempt

/-- INTERNAL: the sample invocation comes to an end. -/
theorem exists_sampleInvoke (scope : NetworkScope) (location : String)
    (handshake : Except NetworkFailure Peer) : ∃ run, sampleInvoke scope location handshake = some run := by
  obtain ⟨run, hrun, -⟩ := exists_invoke sampleHost sampleLib (sampleNetwork location handshake)
    sampleAdapter (sampleContract scope) sampleReceipt sampleAttempt
  exact ⟨run, hrun 0⟩

/-- Each hop there is at the first URL or at that of the redirect. -/
theorem hopUrl_sample {location start url : String} {handshake : Except NetworkFailure Peer} {hop : ℕ}
    (h : HopUrl sampleLib (sampleNetwork location handshake) start hop url) :
    url = start ∨ url = location := by
  cases h with
  | start => exact .inl rfl
  | @redirect hop url location' next response hled hrespond hstatus hlocation hjoin =>
    obtain rfl := Except.ok.inj hrespond
    by_cases hfirst : hop = 0
    · simp only [if_pos hfirst, Option.some.injEq] at hlocation
      exact .inr (hlocation ▸ (Option.some.inj hjoin).symm)
    · simp [hfirst] at hlocation

section Call

variable {host : Host} {lib : NetworkLib} {network : Network} {adapter : LocalNetworkAdapter}
  {contract : ExecutionContract} {receipt : ExecutionReceipt} {attempt : ExecutionAttempt}
  {fuel : ℕ} {run : Logged NetworkEvent Err AdapterResult}

/-- INTERNAL: a request that is sent was not turned away. -/
theorem Sends.not_turnedAway {call : NetworkCall} {s : HopState} {resolved : ResolvedUrl}
    {conn : HttpConnection} {headers : List (String × String)}
    (h : Sends host lib network adapter call s resolved conn headers) :
    ¬ TurnedAway host lib network adapter call s :=
  fun hturned => hturned resolved conn headers h.toReady h.opens

/-- A request is in the log of a call if a hop of the call sends it. -/
theorem requested_mem_invoke_iff
    (hrun : invoke host lib network adapter fuel contract receipt attempt = some run) {hop : ℕ}
    {url method path : String} {headers : List (String × String)} :
    .requested hop url method path headers ∈ run.log ↔
      ∃ call s, HopOf host lib network adapter contract receipt attempt call s ∧
        (hop = s.hop ∧ url = s.currentUrl ∧ method = methodOf s ∧ path = requestPath lib s.currentUrl) ∧
        ∃ resolved conn, Sends host lib network adapter call s resolved conn headers := by
  rw [mem_log_invoke hrun]
  constructor
  · rintro ⟨call, s, hhop, hmem⟩
    exact ⟨call, s, hhop, requested_mem_hop_iff.mp hmem⟩
  · rintro ⟨call, s, hhop, hsent⟩
    exact ⟨call, s, hhop, requested_mem_hop_iff.mpr hsent⟩

/-- A hop that is not turned away has sent its request. -/
theorem requested_of_not_turnedAway
    (hrun : invoke host lib network adapter fuel contract receipt attempt = some run)
    {call : NetworkCall} {s : HopState}
    (hhop : HopOf host lib network adapter contract receipt attempt call s)
    (h : ¬ TurnedAway host lib network adapter call s) :
    ∃ resolved headers, (headersFor host adapter call s resolved).result = .ok headers ∧
      .requested s.hop s.currentUrl (methodOf s) (requestPath lib s.currentUrl) headers ∈ run.log := by
  unfold TurnedAway at h
  simp only [not_forall, not_not] at h
  obtain ⟨resolved, conn, headers, hready, hopens⟩ := h
  exact ⟨resolved, headers, hready.headed, (requested_mem_invoke_iff hrun).mpr
    ⟨call, s, hhop, ⟨rfl, rfl, rfl, rfl⟩, resolved, conn, ⟨hready, hopens⟩⟩⟩

/-! ## Bound secrets -/

/-- The host that the reference in the authorization argument is bound to. -/
def boundHost (arguments : Dict) : Option String :=
  match arguments.get "authorization" with
  | .dict entries =>
    if isRef (.dict entries) then
      match Dict.get entries "bound_host" with
      | .str bound => some bound
      | _ => none
    else none
  | _ => none

/-- The host name of a URL. -/
def hostnameOf (py : Stdlib) (url : String) : Option String := (py.urlparse url).map Prod.snd

/-- A URL has the bound host, and not the scheme http if the first URL has https. -/
def KeepsDestination (py : Stdlib) (bound start url : String) : Prop :=
  (hostnameOf py url).map py.lower = some bound ∧
    (schemeOf py start = "https" → schemeOf py url ≠ "http")

/-- A bound reference's secret is sent on hops of its destination only. -/
def SecretStaysBound (host : Host) (lib : NetworkLib) (network : Network) (adapter : LocalNetworkAdapter)
    (contract : ExecutionContract) (receipt : ExecutionReceipt) (attempt : ExecutionAttempt)
    (log : List NetworkEvent) : Prop :=
  ∀ call start bound, prepare host lib network adapter contract receipt attempt = .ok (call, start) →
    boundHost call.arguments = some bound →
    ∀ hop url method path headers, .requested hop url method path headers ∈ log →
      (headers.lookup "Authorization").isSome = true → KeepsDestination host.py bound call.url url

/-- INTERNAL: a bound reference is a reference. -/
theorem isRef_of_boundHost {arguments : Dict} {bound : String} (h : boundHost arguments = some bound) :
    ∃ entries, arguments.get "authorization" = .dict entries ∧ isRef (.dict entries) = true := by
  unfold boundHost at h
  split at h
  · next entries hget =>
    split at h
    · next href => exact ⟨entries, hget, href⟩
    · cases h
  · cases h

/-- INTERNAL: each hop's request has the header, if the reference is bound.
SOURCE: app/adapters/network_local.py:244-261 -/
theorem authorization_of_boundHost {call : NetworkCall} {s : HopState} {resolved : ResolvedUrl}
    {bound : String} {headers : List (String × String)} (hbound : boundHost call.arguments = some bound)
    (h : (headersFor host adapter call s resolved).result = .ok headers) :
    (headers.lookup "Authorization").isSome = true := by
  obtain ⟨entries, hget, href⟩ := isRef_of_boundHost hbound
  unfold headersFor at h
  rw [hget] at h
  dsimp only at h
  rw [if_pos href] at h
  split at h
  · cases h
  · obtain ⟨arguments, -, h⟩ := Logged.result_bind_ok_iff.mp h
    obtain rfl := Except.ok.inj h
    rfl

/-- The adapter keeps the secret of a bound reference at its destination as long as each hop that the
servers lead it to has the bound host, and not http after https, or is turned away.
SOURCE: app/adapters/network_local.py:154-296, credentials/destination.py:21-60 -/
theorem secret_stays_bound_iff
    (hrun : invoke host lib network adapter fuel contract receipt attempt = some run) :
    SecretStaysBound host lib network adapter contract receipt attempt run.log ↔
      ∀ call s bound, HopOf host lib network adapter contract receipt attempt call s →
        boundHost call.arguments = some bound →
        KeepsDestination host.py bound call.url s.currentUrl ∨
          TurnedAway host lib network adapter call s := by
  constructor
  · intro hstays call s bound hhop hbound
    refine or_iff_not_imp_right.mpr fun hturned => ?_
    obtain ⟨resolved, headers, hheaded, hmem⟩ := requested_of_not_turnedAway hrun hhop hturned
    obtain ⟨start, hprepare, -⟩ := hhop
    exact hstays call start bound hprepare hbound _ _ _ _ _ hmem
      (authorization_of_boundHost hbound hheaded)
  · intro hkept call start bound hprepare hbound hop url method path headers hmem _
    obtain ⟨call', s, hhop, ⟨-, rfl, -, -⟩, resolved, conn, hsends⟩ :=
      (requested_mem_invoke_iff hrun).mp hmem
    obtain ⟨start', hprepare', -⟩ := id hhop
    obtain ⟨rfl, rfl⟩ := Prod.mk.inj (Except.ok.inj (hprepare'.symm.trans hprepare))
    rcases hkept call' s bound hhop hbound with hkeeps | hturned
    · exact hkeeps
    · exact absurd hturned hsends.not_turnedAway

/-- A scope with a secret for the first host. -/
def secretScope : NetworkScope :=
  { allowedHosts := some ["api.example", "files.example"]
    destinationCredentials := [("api.example", "api-key")] }

/-- The secret of the first host is bound to it. -/
theorem secret_bound {location : String} {handshake : Except NetworkFailure Peer} {call : NetworkCall}
    {start : HopState}
    (h : prepare sampleHost sampleLib (sampleNetwork location handshake) sampleAdapter
      (sampleContract secretScope) sampleReceipt sampleAttempt = .ok (call, start)) :
    call.url = "https://api.example/" ∧ boundHost call.arguments = some "api.example" := by
  have hprepared : (prepare sampleHost sampleLib (sampleNetwork "" (.ok samplePeer)) sampleAdapter
      (sampleContract secretScope) sampleReceipt sampleAttempt).toOption.map
        (fun prepared => (prepared.1.url, boundHost prepared.1.arguments)) =
      some ("https://api.example/", some "api.example") := by decide +kernel
  have hsame : prepare sampleHost sampleLib (sampleNetwork "" (.ok samplePeer)) sampleAdapter
      (sampleContract secretScope) sampleReceipt sampleAttempt = .ok (call, start) := h
  rw [hsame] at hprepared
  exact Prod.mk.inj (Option.some.inj hprepared)

/-- A redirect within the host keeps the secret bound. -/
theorem same_host_stays_bound :
    ∃ run, sampleInvoke secretScope "https://api.example/v2" (.ok samplePeer) = some run ∧
      SecretStaysBound sampleHost sampleLib (sampleNetwork "https://api.example/v2" (.ok samplePeer))
        sampleAdapter (sampleContract secretScope) sampleReceipt sampleAttempt run.log := by
  obtain ⟨run, hrun⟩ := exists_sampleInvoke secretScope "https://api.example/v2" (.ok samplePeer)
  refine ⟨run, hrun, (secret_stays_bound_iff hrun).mpr fun call s bound hhop hbound => .inl ?_⟩
  obtain ⟨-, hled⟩ := hopUrl_of_hopOf hhop
  obtain ⟨start, hprepare, -⟩ := hhop
  obtain ⟨hurl, hsecret⟩ := secret_bound hprepare
  obtain rfl := Option.some.inj (hsecret.symm.trans hbound)
  rcases hopUrl_sample hled with h | h
  · rw [h, hurl]
    exact ⟨by decide +kernel, fun _ => by decide +kernel⟩
  · rw [h, hurl]
    exact ⟨by decide +kernel, fun _ => by decide +kernel⟩

/-- A redirect takes the secret to another host. -/
theorem redirected_secret_leaves :
    ∃ run, sampleInvoke secretScope "https://files.example/" (.ok samplePeer) = some run ∧
      ¬ SecretStaysBound sampleHost sampleLib (sampleNetwork "https://files.example/" (.ok samplePeer))
        sampleAdapter (sampleContract secretScope) sampleReceipt sampleAttempt run.log := by
  obtain ⟨run, hrun⟩ := exists_sampleInvoke secretScope "https://files.example/" (.ok samplePeer)
  refine ⟨run, hrun, fun hstays => ?_⟩
  have hsent : (sampleInvoke secretScope "https://files.example/" (.ok samplePeer)).map (fun run =>
      decide (NetworkEvent.requested 1 "https://files.example/" "GET" "/"
        [("Host", "files.example"), ("User-Agent", "shea-network.local/1"),
          ("Authorization", "Bearer token")] ∈ run.log)) = some true := by decide +kernel
  rw [hrun] at hsent
  have hmem := of_decide_eq_true (Option.some.inj hsent)
  have hprepared : (prepare sampleHost sampleLib (sampleNetwork "https://files.example/" (.ok samplePeer))
      sampleAdapter (sampleContract secretScope) sampleReceipt sampleAttempt).toOption.isSome = true := by
    decide +kernel
  cases hprepare : prepare sampleHost sampleLib (sampleNetwork "https://files.example/" (.ok samplePeer))
      sampleAdapter (sampleContract secretScope) sampleReceipt sampleAttempt with
  | error answer =>
    rw [hprepare] at hprepared
    cases hprepared
  | ok prepared =>
    obtain ⟨-, hbound⟩ := secret_bound hprepare
    have hkeeps := (hstays prepared.1 prepared.2 _ hprepare hbound _ _ _ _ _ hmem rfl).1
    exact absurd hkeeps (by decide +kernel)

/-! ## Pins -/

/-- With pins, a request goes out on an https hop once the pins are verified there; a hop whose certificate
is not pinned sends none, and the call has failed. -/
def PinsEnforced (host : Host) (lib : NetworkLib) (contract : ExecutionContract)
    (run : Logged NetworkEvent Err AdapterResult) : Prop :=
  ∀ context, contract.adapterContext = some context → context.scope.network.pinnedSpkiSha256 ≠ [] →
    (∀ before hop url method path headers after,
        run.log = before ++ .requested hop url method path headers :: after →
        schemeOf host.py url = "https" → ∃ observed, .pinVerified hop observed ∈ before) ∧
      ∀ hop peer, .shookHands hop peer ∈ run.log →
        (verifySpkiPin lib peer context.scope.network.pinnedSpkiSha256).1 = false →
        (∀ url method path headers, .requested hop url method path headers ∉ run.log) ∧
          ∃ result, run.result = .ok result ∧ result.outcome = .failure

/-- With pins, the adapter enforces them where no https hop gets as far as its request.
SOURCE: app/adapters/network_local.py:207-268, security/tls_pinning.py:32-43 -/
theorem pins_enforced_iff {context : AdapterContext}
    (hrun : invoke host lib network adapter fuel contract receipt attempt = some run)
    (hcontext : contract.adapterContext = some context)
    (hpins : context.scope.network.pinnedSpkiSha256 ≠ []) :
    PinsEnforced host lib contract run ↔
      ∀ call s, HopOf host lib network adapter contract receipt attempt call s →
        schemeOf host.py s.currentUrl = "https" → TurnedAway host lib network adapter call s := by
  constructor
  · intro henforced call s hhop hscheme
    by_contra hturned
    obtain ⟨-, headers, -, hmem⟩ := requested_of_not_turnedAway hrun hhop hturned
    obtain ⟨before, after, hlog⟩ := List.append_of_mem hmem
    obtain ⟨observed, hverified⟩ :=
      (henforced context hcontext hpins).1 _ _ _ _ _ _ _ hlog hscheme
    have hverified' : .pinVerified s.hop observed ∈ run.log := by
      rw [hlog]
      exact List.mem_append_left _ hverified
    obtain ⟨call', s', -, hmem'⟩ := (mem_log_invoke hrun _).mp hverified'
    exact pinVerified_not_mem_hop s' _ _ hmem'
  · intro hturned context' hcontext' _
    refine ⟨fun before hop url method path headers after hlog hscheme => ?_,
      fun hop peer hshook _ => ?_⟩
    · have hmem : .requested hop url method path headers ∈ run.log := by
        rw [hlog]
        exact List.mem_append_right _ List.mem_cons_self
      obtain ⟨call, s, hhop, ⟨-, rfl, -, -⟩, resolved, conn, hsends⟩ :=
        (requested_mem_invoke_iff hrun).mp hmem
      exact absurd (hturned call s hhop hscheme) hsends.not_turnedAway
    · obtain ⟨call, s, hhop, hmem⟩ := (mem_log_invoke hrun _).mp hshook
      obtain ⟨hscheme, resolved, conn, headers, hsends⟩ := shookHands_mem_hop hmem
      exact absurd (hturned call s hhop hscheme) hsends.not_turnedAway

/-- A scope that pins a key. -/
def pinnedScope : NetworkScope :=
  { allowedHosts := some ["api.example"]
    pinnedSpkiSha256 := ["cGlubmVk"] }

/-- A handshake that is refused enforces every pin. -/
theorem refused_handshake_pinned :
    ∃ run, sampleInvoke pinnedScope "https://api.example/v2" (.error (.ssl "certificate verify failed")) =
        some run ∧ PinsEnforced sampleHost sampleLib (sampleContract pinnedScope) run := by
  obtain ⟨run, hrun⟩ := exists_sampleInvoke pinnedScope "https://api.example/v2"
    (.error (.ssl "certificate verify failed"))
  refine ⟨run, hrun, (pins_enforced_iff hrun rfl (by decide)).mpr fun call s _ hscheme => ?_⟩
  intro resolved conn headers hprepared hopens
  rcases (connectionFor_ok _ _ hprepared.connected).scheme with ⟨hpinned, -⟩ | ⟨-, hhttp⟩
  · obtain ⟨peer, hpeer⟩ := hopens.shaken hpinned
    cases hpeer
  · exact absurd (hscheme.symm.trans hhttp) (by decide)

/-- A request goes to a server whose key is not pinned. -/
theorem unpinned_server_receives :
    ∃ run, sampleInvoke pinnedScope "https://api.example/v2" (.ok samplePeer) = some run ∧
      ¬ PinsEnforced sampleHost sampleLib (sampleContract pinnedScope) run := by
  obtain ⟨run, hrun⟩ := exists_sampleInvoke pinnedScope "https://api.example/v2" (.ok samplePeer)
  refine ⟨run, hrun, fun henforced => ?_⟩
  have hsent : (sampleInvoke pinnedScope "https://api.example/v2" (.ok samplePeer)).map (fun run =>
      decide (NetworkEvent.shookHands 0 samplePeer ∈ run.log ∧
        NetworkEvent.requested 0 "https://api.example/" "GET" "/"
          [("Host", "api.example"), ("User-Agent", "shea-network.local/1")] ∈ run.log)) = some true := by
    decide +kernel
  rw [hrun] at hsent
  obtain ⟨hshook, hmem⟩ := of_decide_eq_true (Option.some.inj hsent)
  exact ((henforced _ rfl (by decide)).2 0 samplePeer hshook (by decide +kernel)).1 _ _ _ _ hmem

end Call

end Shea.Analysis
