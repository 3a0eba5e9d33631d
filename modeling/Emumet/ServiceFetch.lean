import Emumet.DriverFetch
import Emumet.ServiceActor
import Emumet.ServiceExclusion

/-! Fetching actor documents and WebFinger answers. The check of a URL is a second copy of the one the
signature verifier uses and the loop over redirects is written anew; it counts the redirects it has
followed. A WebFinger request follows none. -/

namespace Emumet

open Ssrf

namespace ActorFetch

/-! ### One hop -/

/-- `AP_TEST_ALLOWED_FETCH_HOSTS` names the host. -/
def isFetchHostAllowed (allowedFetchHosts : Option String) (hostLc : String) : Bool :=
  allowedFetchHosts.any fun value =>
    (value.toList.splitOn ',').any fun entry => eqIgnoreAsciiCase (trim (String.ofList entry)) hostLc

/-- The variable is read in every build; without test mode it lifts the check of the name alone. -/
def validateFetchUrl (libraries : FetchLibraries) (allowedFetchHosts : Option String)
    (exchange : Exchange) (url : FetchUrl) : Result (List SocketAddr) :=
  if url.scheme ≠ "http" ∧ url.scheme ≠ "https" then
    reject .Rejected ("SsrfBlocked: unsupported URL scheme '" ++ url.scheme ++ "'")
  else if url.username ≠ "" ∨ url.password ≠ none then
    reject .Rejected "SsrfBlocked: URL credentials are not allowed"
  else
    match url.host with
    | none => reject .Rejected "SsrfBlocked: URL host is empty"
    | some host =>
        let hostLc := hostLc host
        if !isFetchHostAllowed allowedFetchHosts hostLc && isLocalhost hostLc then
          reject .Rejected "SsrfBlocked: localhost URL is not allowed"
        else
          match url.portOrKnownDefault with
          | none => reject .Rejected "SsrfBlocked: URL has no usable port"
          | some port =>
              match libraries.parseIp hostLc with
              | some ip => do
                  validatePublicIp libraries .activitypub ip
                  pure [⟨ip, port⟩]
              | none => lookupPublic libraries .activitypub exchange hostLc port

/-- A client of its own for every request, pinned unless the host is an address. -/
def clientForUrl (libraries : FetchLibraries) (exchange : Exchange) (url : FetchUrl)
    (resolvedAddresses : List SocketAddr) : Result Client :=
  if exchange.builds then
    .ok ⟨match url.host with
      | some host =>
          if (libraries.parseIp host).isNone then [(host, resolvedAddresses)] else []
      | none => []⟩
  else reject .Internal "Failed to build pinned HTTP client"

/-- The actor of a response that is no redirect; the body has no limit. -/
def actorOf (libraries : FetchLibraries) (response : Response) : Result Actor :=
  if !response.status.isSuccess then
    reject .Rejected ("Remote actor endpoint returned " ++ response.status.text)
  else
    match response.body.bind libraries.actorFromSlice with
    | none => reject .Rejected "Remote actor JSON is invalid"
    | some actor => .ok actor

def fetcher (libraries : FetchLibraries) (allowedFetchHosts : Option String) : Fetcher Actor where
  validateFetchUrl := validateFetchUrl libraries allowedFetchHosts
  clientForUrl := clientForUrl libraries
  failed := "Remote actor fetch failed"
  withoutLocation := "Remote actor redirect without Location header"
  malformedLocation := "Remote actor redirect URL is invalid"
  read := actorOf libraries

/-! ### The loop -/

def tooManyRedirects : Report := ⟨.Rejected, "Too many redirects while resolving remote actor"⟩

/-- The loop of `resolve_remote_actor`. -/
def loop (libraries : FetchLibraries) (allowedFetchHosts : Option String) (network : Nat → Exchange)
    (redirects : Nat) (url : FetchUrl) : Chase.Trail Request (Result Actor) :=
  if redirects > 5 then ⟨[], .error tooManyRedirects⟩
  else
    match (fetcher libraries allowedFetchHosts).hop libraries (network redirects) url with
    | .stop sent result => ⟨sent.toList, result⟩
    | .follow sent url =>
        let rest := loop libraries allowedFetchHosts network (redirects + 1) url
        ⟨sent :: rest.sent, rest.result⟩
termination_by 6 - redirects

/-- The actor document under a URL. -/
def fetchActor (libraries : FetchLibraries) (allowedFetchHosts : Option String)
    (network : Nat → Exchange) (actorUrl : String) : Result Actor :=
  match libraries.parse actorUrl with
  | none => reject .Rejected "Invalid actor URL"
  | some url => (loop libraries allowedFetchHosts network 0 url).result

/-- The request of `resolve_remote_webfinger`; a redirect is an answer like any other. -/
def fetchWebfinger (libraries : FetchLibraries) (allowedFetchHosts : Option String)
    (exchange : Exchange) (user domain : String) (url : FetchUrl) :
    Chase.Trail Request (Result Json) :=
  match validateFetchUrl libraries allowedFetchHosts exchange url with
  | .error report => ⟨[], .error report⟩
  | .ok resolvedAddresses =>
      match clientForUrl libraries exchange url resolvedAddresses with
      | .error report => ⟨[], .error report⟩
      | .ok client =>
          ⟨[⟨url, exchange.connects client url⟩],
            match exchange.response with
            | none => reject .Rejected "WebFinger request failed"
            | some response =>
                if !response.status.isSuccess then
                  reject .Rejected ("WebFinger returned " ++ response.status.text ++ " for " ++ user ++
                    "@" ++ domain)
                else
                  match response.body.bind libraries.jsonFromSlice with
                  | none => reject .Rejected "WebFinger response is not valid JSON"
                  | some jrd => .ok jrd⟩

/-! ### Where requests go -/

variable {libraries : FetchLibraries} {allowedFetchHosts : Option String} {exchange : Exchange}
  {network : Nat → Exchange} {url : FetchUrl} {addresses : List SocketAddr}

theorem validateFetchUrl_ok
    (h : validateFetchUrl libraries allowedFetchHosts exchange url = .ok addresses) :
    Checked libraries .activitypub exchange url addresses := by
  simp only [validateFetchUrl, reject] at h
  split_ifs at h with hscheme hcredentials
  have hweb : url.scheme = "http" ∨ url.scheme = "https" := by
    by_contra hnot
    exact hscheme (not_or.mp hnot)
  obtain ⟨husername, hpassword⟩ := not_or.mp hcredentials
  refine ⟨hweb, not_not.mp husername, not_not.mp hpassword, ?_⟩
  cases hhost : url.host with
  | none =>
      rw [hhost] at h
      cases h
  | some host =>
      simp only [hhost] at h
      split_ifs at h
      cases hport : url.portOrKnownDefault with
      | none =>
          rw [hport] at h
          cases h
      | some port =>
          simp only [hport] at h
          cases hip : libraries.parseIp (hostLc host) with
          | some ip =>
              simp only [hip, Fallible.bind_eq_ok] at h
              obtain ⟨_, hpublic, haddresses⟩ := h
              cases haddresses
              refine ⟨host, port, rfl, rfl, fun address haddress => ?_, .inl ⟨ip, hip, rfl⟩⟩
              rw [List.mem_singleton.mp haddress]
              exact ⟨rfl, validatePublicIp_ok hpublic⟩
          | none =>
              rw [hip] at h
              obtain ⟨hpublic, hlookup⟩ := lookupPublic_ok h
              exact ⟨host, port, rfl, rfl, hpublic, .inr ⟨hip, hlookup⟩⟩

theorem clientForUrl_ok {client : Client}
    (h : clientForUrl libraries exchange url addresses = .ok client) (host : String)
    (hhost : url.host = some host) (hip : libraries.parseIp host = none) :
    client.pins = [(host, addresses)] := by
  simp only [clientForUrl, hhost, hip, Option.isNone_none, if_true, reject] at h
  split_ifs at h
  cases h
  rfl

theorem fetcher_safe (libraries : FetchLibraries) (allowedFetchHosts : Option String) :
    (fetcher libraries allowedFetchHosts).Safe libraries .activitypub :=
  ⟨validateFetchUrl_ok, clientForUrl_ok⟩

/-- The loop makes the hops that are left. -/
theorem loop_eq_chase (redirects fuel : Nat) (hfuel : fuel + redirects = 6) (url : FetchUrl) :
    loop libraries allowedFetchHosts network redirects url =
      Chase.chase (fun n => (fetcher libraries allowedFetchHosts).hop libraries (network n))
        (.error tooManyRedirects) fuel redirects url := by
  induction fuel generalizing redirects url with
  | zero =>
      rw [loop, if_pos (by omega)]
      rfl
  | succ fuel ih =>
      rw [loop, if_neg (by omega)]
      cases hhop : (fetcher libraries allowedFetchHosts).hop libraries (network redirects) url with
      | stop sent result => rw [Chase.chase_stop hhop]
      | follow sent next =>
          rw [Chase.chase_follow hhop, ← ih (redirects + 1) (by omega) next]

/-- There is at most one request for a WebFinger answer, and it is vetted. -/
theorem fetchWebfinger_sent (hexchange : Documented libraries exchange) (user domain : String) :
    let sent := (fetchWebfinger libraries allowedFetchHosts exchange user domain url).sent
    sent.length ≤ 1 ∧ ∀ request ∈ sent, request.url = url ∧
      Vetted .activitypub (validateFetchUrl libraries allowedFetchHosts exchange url) request := by
  unfold fetchWebfinger
  cases hvalidate : validateFetchUrl libraries allowedFetchHosts exchange url with
  | error report => exact ⟨Nat.zero_le 1, fun _ hrequest => by cases hrequest⟩
  | ok addresses =>
      dsimp only
      cases hclient : clientForUrl libraries exchange url addresses with
      | error report => exact ⟨Nat.zero_le 1, fun _ hrequest => by cases hrequest⟩
      | ok client =>
          refine ⟨Nat.le_refl 1, fun request hrequest => ?_⟩
          rw [List.mem_singleton.mp hrequest]
          exact ⟨rfl, (validateFetchUrl_ok hvalidate).vetted hexchange rfl (clientForUrl_ok hclient)⟩

/-- Whatever names resolve to, whatever is answered and whatever the environment allows, resolving a
remote actor sends at most six requests for its document, each to public addresses that were checked for
its URL in the same hop; an actor that is resolved is the answer to one of them and has the id that was
asked for. At most one request is sent for a WebFinger answer, and it is vetted in the same way. -/
theorem actor_fetch_stays_on_checked_addresses (libraries : FetchLibraries)
    (allowedFetchHosts : Option String) (network : Nat → Exchange)
    (hnetwork : ∀ n, Documented libraries (network n)) (url : FetchUrl) :
    let sent := (loop libraries allowedFetchHosts network 0 url).sent
    Confined libraries .activitypub (validateFetchUrl libraries allowedFetchHosts) network url sent ∧
      (∀ (server : Server) (outside : Outside) (actorUrl : String) (resolved : ResolvedRemoteActor),
        libraries.parse actorUrl = some url →
        resolveRemoteActor server
            { outside with fetchActor := fetchActor libraries allowedFetchHosts network } actorUrl =
          .ok resolved →
        ∃ actor, Delivered (actorOf libraries) network sent actor ∧ resolved.url = actor.id ∧
          sameActivitypubId actor.id actorUrl = true) ∧
      ∀ user domain,
        let asked := (fetchWebfinger libraries allowedFetchHosts (network 0) user domain url).sent
        asked.length ≤ 1 ∧ ∀ request ∈ asked, request.url = url ∧
          Vetted .activitypub (validateFetchUrl libraries allowedFetchHosts (network 0) url) request := by
  intro sent
  have hloop : loop libraries allowedFetchHosts network 0 url = _ := loop_eq_chase 0 6 rfl url
  refine ⟨?_, fun server outside actorUrl resolved hparse hresolved => ?_,
    fetchWebfinger_sent (hnetwork 0)⟩
  · rw [show sent = _ from congrArg Chase.Trail.sent hloop]
    exact (fetcher_safe libraries allowedFetchHosts).confined hnetwork url
  · obtain ⟨actor, _, hactor, hsame, _, rfl⟩ := Relations.resolveRemoteActor_ok hresolved
    refine ⟨actor, ?_, rfl, hsame⟩
    simp only [fetchActor, hparse] at hactor
    rw [hloop] at hactor
    have hdelivered := Fetcher.delivered hactor
    rw [← hloop] at hdelivered
    exact hdelivered

/-! ### Bob behind a redirect -/

open Exclusion (bob bobUrl localServer answering)
open KeyFetch (remoteIp remoteUrl remoteLibraries remoteNetwork documented_remoteNetwork)

def bobDocument : ActorDocument where
  context := [.string activitystreamsContext]
  id := bobUrl
  objectType := "Person"
  preferredUsername := "bob"
  name := none
  summary := none
  iconUrl := none
  bannerUrl := none
  url := bobUrl
  inbox := bobUrl ++ "/inbox"
  outbox := bobUrl ++ "/outbox"
  followers := bobUrl ++ "/followers"
  following := bobUrl ++ "/following"
  publicKey := ⟨bobUrl ++ "#main-key", bobUrl, "pem"⟩

def bobLibraries : FetchLibraries := remoteLibraries bobDocument.toJson (some bobDocument.toActor)

def bobNetwork : Nat → Exchange := remoteNetwork bobDocument.toJson

/-- A call that meets the network. -/
def outsideBob : Outside :=
  { answering 0 1 with fetchActor := fetchActor bobLibraries none bobNetwork }

theorem loop_bob : loop bobLibraries none bobNetwork 0 remoteUrl =
    Chase.chase (fun n => (fetcher bobLibraries none).hop bobLibraries (bobNetwork n))
      (.error tooManyRedirects) 6 0 remoteUrl :=
  loop_eq_chase 0 6 rfl remoteUrl

/-- Bob is resolved in two requests to the address that was checked, and not at what the name resolves to
by then. -/
theorem actor_fetch_stays_on_checked_addresses_bob :
    let sent := (loop bobLibraries none bobNetwork 0 remoteUrl).sent
    sent.map Request.targets = [[⟨remoteIp, 443⟩], [⟨remoteIp, 443⟩]] ∧
      ∃ resolved, resolveRemoteActor localServer outsideBob bobUrl = .ok resolved ∧
        ∃ actor, Delivered (actorOf bobLibraries) bobNetwork sent actor ∧ resolved.url = actor.id := by
  intro sent
  have hresult : fetchActor bobLibraries none bobNetwork bobUrl = .ok bob := by
    have hparse : bobLibraries.parse bobUrl = some remoteUrl := by decide +kernel
    simp only [fetchActor, hparse, loop_bob]
    decide +kernel
  have hresolved : resolveRemoteActor localServer outsideBob bobUrl =
      .ok ⟨"bob@remote.example", bobUrl, some bob.inbox, some bob.publicKeyPem⟩ := by
    have hfetched : outsideBob.fetchActor bobUrl = .ok bob := hresult
    rw [resolveRemoteActor, hfetched]
    decide +kernel
  refine ⟨?_, _, hresolved, ?_⟩
  · rw [show sent = _ from congrArg Chase.Trail.sent loop_bob]
    decide +kernel
  · obtain ⟨actor, hdelivered, hid, _⟩ := (actor_fetch_stays_on_checked_addresses bobLibraries none
      bobNetwork (documented_remoteNetwork _ _) remoteUrl).2.1 localServer outsideBob bobUrl _
      (by decide +kernel) hresolved
    exact ⟨actor, hdelivered, hid⟩

end ActorFetch

end Emumet
