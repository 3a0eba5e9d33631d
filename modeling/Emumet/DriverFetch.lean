import Emumet.LibChase
import Emumet.DriverSsrf
import Emumet.DriverVerifier

/-! Fetching the document a key id names. Every hop checks the URL and resolves its host, pins the client
to the addresses that were checked, sends one request and follows a redirect. What the network does in a
hop is an input: what names resolve to, whether a client can be built, where it connects and what is
answered. Texts that quote an error of a library are cut before the quotation. -/

namespace Emumet

open Ssrf

/-! ### The network -/

inductive IpAddr where
  | V4 (ip : Ipv4Addr)
  | V6 (ip : Ipv6Addr)
  deriving DecidableEq, Repr

structure SocketAddr where
  ip : IpAddr
  port : Nat
  deriving DecidableEq, Repr

/-- A URL with its credentials. Its host is a text, in which an IPv6 address stands in brackets. -/
structure FetchUrl extends Url where
  username : String
  password : Option String
  deriving DecidableEq, Repr

/-- A status with the text it is shown as. -/
structure StatusCode where
  code : Nat
  text : String
  deriving DecidableEq, Repr

namespace StatusCode

def isRedirection (status : StatusCode) : Bool := 300 ≤ status.code && status.code < 400

def isSuccess (status : StatusCode) : Bool := 200 ≤ status.code && status.code < 300

end StatusCode

/-- An answer: `location` is the `Location` header if it is there and is text, and a chunk that is
missing is one whose read fails. -/
structure Response where
  status : StatusCode
  location : Option String
  chunks : List (Option Bytes)
  deriving DecidableEq, Repr

/-- The whole body, if every read succeeds. -/
def Response.body (response : Response) : Option Bytes := (response.chunks.mapM id).map List.flatten

/-- A client that never follows a redirect, with the names `resolve_to_addrs` was called for. -/
structure Client where
  pins : List (String × List SocketAddr)
  deriving DecidableEq, Repr

/-- What the network does in one hop: the answer of `lookup_host`, whether a client can be built, the
addresses a client connects to for a URL, and the response. -/
structure Exchange where
  lookupHost : String → Option (List IpAddr)
  builds : Bool
  connects : Client → FetchUrl → List SocketAddr
  response : Option Response

/-- The functions of libraries a fetch uses. -/
structure FetchLibraries where
  parse : String → Option FetchUrl
  join : FetchUrl → String → Option FetchUrl
  parseIp : String → Option IpAddr
  renderIp : IpAddr → String
  jsonFromSlice : Bytes → Option Json
  actorFromSlice : Bytes → Option Actor

/-- `host.trim_end_matches('.').to_ascii_lowercase()`. -/
def hostLc (text : String) : String :=
  toAsciiLowercase (String.ofList (text.toList.reverse.dropWhile (· = '.')).reverse)

def isLocalhost (hostLc : String) : Bool :=
  hostLc = "localhost" || ".localhost".toList.isSuffixOf hostLc.toList

structure Request where
  url : FetchUrl
  targets : List SocketAddr
  deriving DecidableEq, Repr

/-! ### Addresses -/

def IpAddr.blocked (copy : Copy) : IpAddr → Bool
  | .V4 ip => copy.isBlockedIpv4 ip
  | .V6 ip => copy.isBlockedIpv6 ip

/-- `validate_public_ip`, the same in both copies. -/
def validatePublicIp (libraries : FetchLibraries) (copy : Copy) (ip : IpAddr) : Result Unit :=
  if ip.blocked copy then
    reject .Rejected ("SsrfBlocked: non-public IP address is not allowed: " ++ libraries.renderIp ip)
  else .ok ()

/-- The lookup of a name and the check of every address it has, the same in both copies. -/
def lookupPublic (libraries : FetchLibraries) (copy : Copy) (exchange : Exchange) (hostLc : String)
    (port : Nat) : Result (List SocketAddr) :=
  match exchange.lookupHost hostLc with
  | none => reject .Rejected "SsrfBlocked: DNS resolution failed"
  | some ips =>
      if ips.isEmpty then reject .Rejected "SsrfBlocked: DNS resolution returned no addresses"
      else do
        ips.forM fun ip => validatePublicIp libraries copy ip
        pure (ips.map fun ip => ⟨ip, port⟩)

theorem validatePublicIp_ok {libraries : FetchLibraries} {copy : Copy} {ip : IpAddr}
    (h : validatePublicIp libraries copy ip = .ok ()) : ip.blocked copy = false := by
  rw [validatePublicIp] at h
  split_ifs at h with hblocked
  · cases h
  · exact eq_false_of_ne_true hblocked

theorem lookupPublic_ok {libraries : FetchLibraries} {copy : Copy} {exchange : Exchange}
    {name : String} {port : Nat} {addresses : List SocketAddr}
    (h : lookupPublic libraries copy exchange name port = .ok addresses) :
    (∀ address ∈ addresses, address.port = port ∧ address.ip.blocked copy = false) ∧
      exchange.lookupHost name ≠ none := by
  rw [lookupPublic] at h
  cases hlookup : exchange.lookupHost name with
  | none =>
      rw [hlookup] at h
      cases h
  | some ips =>
      rw [hlookup] at h
      simp only [reject] at h
      split_ifs at h
      rw [Fallible.bind_eq_ok] at h
      obtain ⟨_, hall, haddresses⟩ := h
      cases haddresses
      refine ⟨fun address haddress => ?_, Option.some_ne_none _⟩
      obtain ⟨ip, hip, rfl⟩ := List.mem_map.mp haddress
      exact ⟨rfl, validatePublicIp_ok (Fallible.forM_eq_ok.mp hall ip hip)⟩

/-! ### One hop -/

/-- What the fetches of the program differ in: the check of a URL, the client, the texts of the errors
and what is read of a response that is no redirect. -/
structure Fetcher (Value : Type) where
  validateFetchUrl : Exchange → FetchUrl → Result (List SocketAddr)
  clientForUrl : Exchange → FetchUrl → List SocketAddr → Result Client
  failed : String
  withoutLocation : String
  malformedLocation : String
  read : Response → Result Value

namespace Fetcher

variable {Value : Type} (fetcher : Fetcher Value) (libraries : FetchLibraries)

/-- What follows a request. -/
def answered (request : Request) : Option Response → Chase.Hop FetchUrl Request (Result Value)
  | none => .stop (some request) (reject .Rejected fetcher.failed)
  | some response =>
      if response.status.isRedirection then
        match response.location with
        | none => .stop (some request) (reject .Rejected fetcher.withoutLocation)
        | some location =>
            match libraries.join request.url location with
            | none => .stop (some request) (reject .Rejected fetcher.malformedLocation)
            | some url => .follow request url
      else .stop (some request) (fetcher.read response)

/-- The body of a loop over redirects. -/
def hop (exchange : Exchange) (url : FetchUrl) : Chase.Hop FetchUrl Request (Result Value) :=
  match fetcher.validateFetchUrl exchange url with
  | .error report => .stop none (.error report)
  | .ok resolvedAddresses =>
      match fetcher.clientForUrl exchange url resolvedAddresses with
      | .error report => .stop none (.error report)
      | .ok client =>
          fetcher.answered libraries ⟨url, exchange.connects client url⟩ exchange.response

end Fetcher

namespace KeyFetch

def validateFetchUrl (libraries : FetchLibraries) (exchange : Exchange) (url : FetchUrl) :
    Result (List SocketAddr) :=
  if url.scheme ≠ "http" ∧ url.scheme ≠ "https" then
    reject .Rejected ("SsrfBlocked: unsupported keyId URL scheme '" ++ url.scheme ++ "'")
  else if url.username ≠ "" ∨ url.password ≠ none then
    reject .Rejected "SsrfBlocked: keyId URL credentials are not allowed"
  else
    match url.host with
    | none => reject .Rejected "SsrfBlocked: keyId URL host is empty"
    | some host =>
        let hostLc := hostLc host
        if isLocalhost hostLc then
          reject .Rejected "SsrfBlocked: localhost keyId URL is not allowed"
        else
          match libraries.parseIp hostLc with
          | some ip => do
              validatePublicIp libraries .httpSigning ip
              match url.portOrKnownDefault with
              | none => reject .Rejected "SsrfBlocked: keyId URL does not have a usable port"
              | some port => pure [⟨ip, port⟩]
          | none =>
              match url.portOrKnownDefault with
              | none => reject .Rejected "SsrfBlocked: keyId URL does not have a usable port"
              | some port => lookupPublic libraries .httpSigning exchange hostLc port

/-- A host that is an address needs no pin. -/
def clientForUrl (libraries : FetchLibraries) (exchange : Exchange) (client : Client) (url : FetchUrl)
    (resolvedAddresses : List SocketAddr) : Result Client :=
  match url.host with
  | none => .ok client
  | some host =>
      if (libraries.parseIp host).isSome then .ok client
      else if exchange.builds then .ok ⟨[(host, resolvedAddresses)]⟩
      else reject .Internal "Failed to build pinned HTTP client"

/-- The chunks read so far and those that follow. -/
def readLimited (maxResponseBytes : Nat) (bytes : Bytes) : List (Option Bytes) → Result Bytes
  | [] => .ok bytes
  | none :: _ => reject .Rejected "KeyFetchFailed: response read failed"
  | some chunk :: rest =>
      if bytes.length + chunk.length > maxResponseBytes then
        reject .Rejected "KeyFetchFailed: actor key response exceeds 1 MiB"
      else readLimited maxResponseBytes (bytes ++ chunk) rest

/-- What a response that is no redirect gives. -/
def documentOf (libraries : FetchLibraries) (maxResponseBytes : Nat) (response : Response) :
    Result Json :=
  if !response.status.isSuccess then
    reject .Rejected ("KeyFetchFailed: actor key endpoint returned " ++ response.status.text)
  else do
    let bytes ← readLimited maxResponseBytes [] response.chunks
    match libraries.jsonFromSlice bytes with
    | none => reject .Rejected "KeyFetchFailed: invalid actor JSON"
    | some document => pure document

def fetcher (libraries : FetchLibraries) (client : Client) (maxResponseBytes : Nat) : Fetcher Json where
  validateFetchUrl := validateFetchUrl libraries
  clientForUrl exchange := clientForUrl libraries exchange client
  failed := "KeyFetchFailed: actor key fetch failed"
  withoutLocation := "KeyFetchFailed: redirect without Location header"
  malformedLocation := "KeyFetchFailed: malformed redirect URL"
  read := documentOf libraries maxResponseBytes

def fetchLimitedJson (libraries : FetchLibraries) (client : Client) (maxResponseBytes : Nat)
    (network : Nat → Exchange) (url : FetchUrl) : Chase.Trail Request (Result Json) :=
  -- `for _ in 0..=5`
  Chase.chase (fun n => (fetcher libraries client maxResponseBytes).hop libraries (network n))
    (reject .Rejected "KeyFetchFailed: too many redirects while fetching actor key") 6 0 url

end KeyFetch

/-! ### Where requests go -/

/-- The request has a web URL without credentials, and goes only to addresses the check of this URL
returned, all of which are public. -/
structure Vetted (copy : Copy) (validated : Result (List SocketAddr)) (request : Request) : Prop where
  scheme : request.url.scheme = "http" ∨ request.url.scheme = "https"
  username : request.url.username = ""
  password : request.url.password = none
  addresses : ∃ addresses, validated = .ok addresses ∧
    (∀ target ∈ request.targets, target ∈ addresses) ∧
    ∀ address ∈ addresses, address.ip.blocked copy = false

/-- What is documented of the libraries in a hop without a proxy. An address has no dot at its end and is
read in either case; neither an address nor a name that resolves stands in brackets; a client connects to
an address as it stands in the URL, and for a name that is pinned to the addresses of the pin, always at
the port of the URL. -/
structure Documented (libraries : FetchLibraries) (exchange : Exchange) : Prop where
  trimmed : ∀ {text ip}, libraries.parseIp text = some ip → libraries.parseIp (hostLc text) = some ip
  bracketed : ∀ {text}, text.toList.head? = some '[' →
    libraries.parseIp text = none ∧ exchange.lookupHost text = none
  address : ∀ {client url host port ip}, url.host = some host → url.portOrKnownDefault = some port →
    libraries.parseIp host = some ip → ∀ target ∈ exchange.connects client url, target = ⟨ip, port⟩
  pinned : ∀ {client url host port addresses}, url.host = some host →
    url.portOrKnownDefault = some port → host.toList.head? ≠ some '[' → libraries.parseIp host = none →
    client.pins.lookup host = some addresses →
    ∀ target ∈ exchange.connects client url, ∃ address ∈ addresses, target = ⟨address.ip, port⟩

/-- The answer redirects from one URL to another. -/
def Redirects (libraries : FetchLibraries) (exchange : Exchange) (url next : FetchUrl) : Prop :=
  ∃ response location, exchange.response = some response ∧ response.status.isRedirection = true ∧
    response.location = some location ∧ libraries.join url location = some next

/-- What the check of a URL establishes. -/
structure Checked (libraries : FetchLibraries) (copy : Copy) (exchange : Exchange) (url : FetchUrl)
    (addresses : List SocketAddr) : Prop where
  scheme : url.scheme = "http" ∨ url.scheme = "https"
  username : url.username = ""
  password : url.password = none
  resolved : ∃ host port, url.host = some host ∧ url.portOrKnownDefault = some port ∧
    (∀ address ∈ addresses, address.port = port ∧ address.ip.blocked copy = false) ∧
    ((∃ ip, libraries.parseIp (hostLc host) = some ip ∧ addresses = [⟨ip, port⟩]) ∨
      (libraries.parseIp (hostLc host) = none ∧ exchange.lookupHost (hostLc host) ≠ none))

variable {libraries : FetchLibraries} {copy : Copy} {exchange : Exchange} {url : FetchUrl}
  {addresses : List SocketAddr}

/-- What stands in brackets still does without dots at the end and in lower case. -/
theorem head?_hostLc {text : String} (h : text.toList.head? = some '[') :
    (hostLc text).toList.head? = some '[' := by
  obtain ⟨rest, hrest⟩ := List.head?_eq_some_iff.mp h
  obtain ⟨kept, hkept⟩ : ∃ kept, ('[' :: rest).reverse.dropWhile (· = '.') = kept ++ ['['] := by
    rw [List.reverse_cons, List.dropWhile_append]
    split_ifs
    · exact ⟨[], by decide⟩
    · exact ⟨_, rfl⟩
  rw [hostLc, hrest, hkept, List.reverse_append, toAsciiLowercase, String.toList_ofList,
    String.toList_ofList]
  rfl

/-- A client that is pinned to what was checked, unless the host is an address, sends a vetted request. -/
theorem Checked.vetted (h : Checked libraries copy exchange url addresses)
    (hexchange : Documented libraries exchange) {validated : Result (List SocketAddr)}
    (hvalidated : validated = .ok addresses) {client : Client}
    (hpinned : ∀ host, url.host = some host → libraries.parseIp host = none →
      client.pins = [(host, addresses)]) :
    Vetted copy validated ⟨url, exchange.connects client url⟩ := by
  obtain ⟨host, port, hhost, hport, hpublic, hresolved⟩ := h.resolved
  refine ⟨h.scheme, h.username, h.password, addresses, hvalidated, fun target htarget => ?_,
    fun address haddress => (hpublic address haddress).2⟩
  cases hip : libraries.parseIp host with
  | some ip =>
      rw [hexchange.trimmed hip] at hresolved
      rcases hresolved with ⟨parsed, hparsed, rfl⟩ | ⟨hparsed, _⟩
      · obtain rfl := Option.some.inj hparsed
        exact List.mem_singleton.mpr (hexchange.address hhost hport hip target htarget)
      · cases hparsed
  | none =>
      have hname : host.toList.head? ≠ some '[' := by
        intro hbracket
        obtain ⟨hnoIp, hnoName⟩ := hexchange.bracketed (head?_hostLc hbracket)
        rcases hresolved with ⟨parsed, hparsed, _⟩ | ⟨_, hlookup⟩
        · cases hnoIp.symm.trans hparsed
        · exact hlookup hnoName
      have hpin : client.pins.lookup host = some addresses := by
        rw [hpinned host hhost hip, List.lookup_cons_self]
      obtain ⟨address, haddress, rfl⟩ := hexchange.pinned hhost hport hname hip hpin target htarget
      rw [← (hpublic address haddress).1]
      exact haddress

/-- The check and the client of a fetch do what they are for. -/
structure Fetcher.Safe {Value : Type} (fetcher : Fetcher Value) (libraries : FetchLibraries)
    (copy : Copy) : Prop where
  checked : ∀ {exchange url addresses}, fetcher.validateFetchUrl exchange url = .ok addresses →
    Checked libraries copy exchange url addresses
  pinned : ∀ {exchange url addresses client}, fetcher.clientForUrl exchange url addresses = .ok client →
    ∀ host, url.host = some host → libraries.parseIp host = none → client.pins = [(host, addresses)]

namespace Fetcher

variable {Value : Type} {fetcher : Fetcher Value} {request : Request} {response : Option Response}

theorem answered_sent (response : Option Response) :
    (fetcher.answered libraries request response).sent = some request := by
  cases response with
  | none => rfl
  | some response =>
      simp only [answered]
      split_ifs
      · cases response.location with
        | none => rfl
        | some location =>
            simp only
            cases libraries.join request.url location with
            | none => rfl
            | some next => rfl
      · rfl

theorem answered_follow {sent : Request} {next : FetchUrl}
    (h : fetcher.answered libraries request response = .follow sent next) :
    ∃ answer location, response = some answer ∧ answer.status.isRedirection = true ∧
      answer.location = some location ∧ libraries.join request.url location = some next := by
  cases response with
  | none => cases h
  | some response =>
      simp only [answered] at h
      split_ifs at h with hredirection
      cases hlocation : response.location with
      | none =>
          rw [hlocation] at h
          cases h
      | some location =>
          simp only [hlocation] at h
          cases hjoin : libraries.join request.url location with
          | none =>
              rw [hjoin] at h
              cases h
          | some url =>
              rw [hjoin] at h
              cases h
              exact ⟨response, location, rfl, hredirection, hlocation, hjoin⟩

/-- A value comes from a response that is no redirect. -/
theorem answered_stop {sent : Option Request} {value : Value}
    (h : fetcher.answered libraries request response = .stop sent (.ok value)) :
    sent = some request ∧ ∃ answer, response = some answer ∧ fetcher.read answer = .ok value := by
  have hsent := congrArg Chase.Hop.sent h
  rw [answered_sent] at hsent
  refine ⟨hsent.symm, ?_⟩
  cases response with
  | none => cases h
  | some response =>
      simp only [answered] at h
      split_ifs at h with hredirection
      · cases hlocation : response.location with
        | none =>
            rw [hlocation] at h
            cases h
        | some location =>
            simp only [hlocation] at h
            cases hjoin : libraries.join request.url location with
            | none =>
                rw [hjoin] at h
                cases h
            | some url =>
                rw [hjoin] at h
                cases h
      · exact ⟨response, rfl, (Chase.Hop.stop.inj h).2⟩

/-- A hop ends with a report before it sends anything, or it goes on with what is answered. -/
theorem hop_cases (fetcher : Fetcher Value) (libraries : FetchLibraries) (exchange : Exchange)
    (url : FetchUrl) :
    (∃ report, fetcher.hop libraries exchange url = .stop none (.error report)) ∨
      ∃ addresses client, fetcher.validateFetchUrl exchange url = .ok addresses ∧
        fetcher.clientForUrl exchange url addresses = .ok client ∧
        fetcher.hop libraries exchange url =
          fetcher.answered libraries ⟨url, exchange.connects client url⟩ exchange.response := by
  unfold hop
  cases hvalidate : fetcher.validateFetchUrl exchange url with
  | error report => exact .inl ⟨report, rfl⟩
  | ok addresses =>
      simp only
      cases hclient : fetcher.clientForUrl exchange url addresses with
      | error report => exact .inl ⟨report, rfl⟩
      | ok client => exact .inr ⟨addresses, client, rfl, hclient, rfl⟩

/-- A hop that sends a request has passed the check of its URL. -/
theorem Safe.hop_sent (hsafe : fetcher.Safe libraries copy) (hexchange : Documented libraries exchange)
    (h : (fetcher.hop libraries exchange url).sent = some request) :
    request.url = url ∧ Vetted copy (fetcher.validateFetchUrl exchange url) request := by
  rcases hop_cases fetcher libraries exchange url with
    ⟨report, hstop⟩ | ⟨addresses, client, hvalidate, hclient, hhop⟩
  · rw [hstop] at h
    cases h
  · rw [hhop, answered_sent] at h
    cases h
    exact ⟨rfl, (hsafe.checked hvalidate).vetted hexchange hvalidate (hsafe.pinned hclient)⟩

theorem hop_follow {next : FetchUrl} (h : fetcher.hop libraries exchange url = .follow request next) :
    Redirects libraries exchange url next := by
  rcases hop_cases fetcher libraries exchange url with ⟨report, hstop⟩ | ⟨_, _, _, _, hhop⟩
  · cases hstop.symm.trans h
  · rw [hhop] at h
    exact answered_follow h

theorem hop_stop {sent : Option Request} {value : Value}
    (h : fetcher.hop libraries exchange url = .stop sent (.ok value)) :
    ∃ request response, sent = some request ∧ request.url = url ∧
      exchange.response = some response ∧ fetcher.read response = .ok value := by
  rcases hop_cases fetcher libraries exchange url with ⟨report, hstop⟩ | ⟨_, _, _, _, hhop⟩
  · cases hstop.symm.trans h
  · rw [hhop] at h
    obtain ⟨hsent, response, hresponse, hread⟩ := answered_stop h
    exact ⟨_, response, hsent, rfl, hresponse, hread⟩

end Fetcher

/-- Where the requests of a fetch go: at most six, each vetted in its own hop, the first to the URL the
fetch starts from and every other one to where the answer to the one before it redirects. -/
structure Confined (libraries : FetchLibraries) (copy : Copy)
    (validate : Exchange → FetchUrl → Result (List SocketAddr)) (network : Nat → Exchange)
    (url : FetchUrl) (sent : List Request) : Prop where
  bounded : sent.length ≤ 6
  vetted : ∀ {i request}, sent[i]? = some request →
    Vetted copy (validate (network i) request.url) request
  first : ∀ {request}, sent[0]? = some request → request.url = url
  chained : ∀ {i request next}, sent[i]? = some request → sent[i + 1]? = some next →
    Redirects libraries (network i) request.url next.url

/-- The fetch ended with a request to which a response was sent that is read as the value. -/
def Delivered {Value : Type} (read : Response → Result Value) (network : Nat → Exchange)
    (sent : List Request) (value : Value) : Prop :=
  ∃ i request response, sent[i]? = some request ∧ (network i).response = some response ∧
    read response = .ok value

section Loops

variable {Value : Type} {fetcher : Fetcher Value} {network : Nat → Exchange} {exhausted : Report}

theorem Fetcher.Safe.confined (hsafe : fetcher.Safe libraries copy)
    (hnetwork : ∀ n, Documented libraries (network n)) (url : FetchUrl) :
    Confined libraries copy fetcher.validateFetchUrl network url
      (Chase.chase (fun n => fetcher.hop libraries (network n)) (.error exhausted) 6 0 url).sent := by
  -- the request at a place is sent by the hop of that number, at the URL reached by then
  have hplace : ∀ {i request}, (Chase.chase (fun n => fetcher.hop libraries (network n))
        (.error exhausted) 6 0 url).sent[i]? = some request →
      Chase.locate (fun n => fetcher.hop libraries (network n)) 0 url i = some request.url ∧
        Vetted copy (fetcher.validateFetchUrl (network i) request.url) request := by
    intro i request hrequest
    obtain ⟨here, hhere, hsent⟩ := Chase.exists_hop hrequest
    rw [Nat.zero_add] at hsent
    obtain ⟨hurl, hvetted⟩ := hsafe.hop_sent (hnetwork i) hsent
    rw [← hurl] at hhere hvetted
    exact ⟨hhere, hvetted⟩
  refine ⟨Chase.length_sent_le 6 0 url, fun hrequest => (hplace hrequest).2, fun hrequest => ?_,
    fun hrequest hnext => ?_⟩
  · exact (Option.some.inj (hplace hrequest).1).symm
  · obtain ⟨here, sent, hhere, hfollow⟩ := Chase.locate_succ (hplace hnext).1
    rw [Nat.zero_add] at hfollow
    rw [(hplace hrequest).1] at hhere
    rw [Option.some.inj hhere]
    exact Fetcher.hop_follow hfollow

theorem Fetcher.delivered {value : Value}
    (h : (Chase.chase (fun n => fetcher.hop libraries (network n)) (.error exhausted) 6 0 url).result =
      .ok value) :
    Delivered fetcher.read network
      (Chase.chase (fun n => fetcher.hop libraries (network n)) (.error exhausted) 6 0 url).sent
      value := by
  have hne : (Chase.chase (fun n => fetcher.hop libraries (network n)) (.error exhausted) 6 0
      url).result ≠ .error exhausted := by
    rw [h]
    exact fun hsame => by cases hsame
  obtain ⟨i, here, sent, _, hstop, hsent⟩ := Chase.exists_stop hne
  rw [Nat.zero_add, h] at hstop
  obtain ⟨request, response, rfl, _, hresponse, hread⟩ := Fetcher.hop_stop hstop
  exact ⟨i, request, response, hsent, hresponse, hread⟩

end Loops

namespace KeyFetch

theorem validateFetchUrl_ok (h : validateFetchUrl libraries exchange url = .ok addresses) :
    Checked libraries .httpSigning exchange url addresses := by
  simp only [validateFetchUrl, reject] at h
  split_ifs at h with hscheme hcredentials
  have hweb : url.scheme = "http" ∨ url.scheme = "https" := by
    by_contra hnot
    exact hscheme (not_or.mp hnot)
  obtain ⟨husername, hpassword⟩ := not_or.mp hcredentials
  refine ⟨hweb, not_not.mp husername, not_not.mp hpassword, ?_⟩
  cases hhost : url.host with
  | none =>
      rw [hhost] at h
      cases h
  | some host =>
      simp only [hhost] at h
      split_ifs at h
      cases hip : libraries.parseIp (hostLc host) with
      | some ip =>
          simp only [hip, Fallible.bind_eq_ok] at h
          obtain ⟨_, hpublic, hport⟩ := h
          cases hport' : url.portOrKnownDefault with
          | none =>
              rw [hport'] at hport
              cases hport
          | some port =>
              rw [hport'] at hport
              cases hport
              refine ⟨host, port, rfl, rfl, fun address haddress => ?_, .inl ⟨ip, hip, rfl⟩⟩
              rw [List.mem_singleton.mp haddress]
              exact ⟨rfl, validatePublicIp_ok hpublic⟩
      | none =>
          simp only [hip] at h
          cases hport : url.portOrKnownDefault with
          | none =>
              rw [hport] at h
              cases h
          | some port =>
              rw [hport] at h
              obtain ⟨hpublic, hlookup⟩ := lookupPublic_ok h
              exact ⟨host, port, rfl, rfl, hpublic, .inr ⟨hip, hlookup⟩⟩

variable {client pinned : Client}

theorem clientForUrl_ok (h : clientForUrl libraries exchange client url addresses = .ok pinned)
    (host : String) (hhost : url.host = some host) (hip : libraries.parseIp host = none) :
    pinned.pins = [(host, addresses)] := by
  simp only [clientForUrl, hhost, hip, Option.isSome_none, Bool.false_eq_true, if_false, reject] at h
  split_ifs at h
  cases h
  rfl

theorem fetcher_safe (libraries : FetchLibraries) (client : Client) (maxResponseBytes : Nat) :
    (fetcher libraries client maxResponseBytes).Safe libraries .httpSigning :=
  ⟨validateFetchUrl_ok, clientForUrl_ok⟩

/-- What is read is all that was sent, and keeps to the limit. -/
theorem readLimited_ok {maxResponseBytes : Nat} {bytes all : Bytes} {chunks : List (Option Bytes)}
    (hbytes : bytes.length ≤ maxResponseBytes)
    (h : readLimited maxResponseBytes bytes chunks = .ok all) :
    all.length ≤ maxResponseBytes ∧
      ∃ read, chunks.mapM id = some read ∧ all = bytes ++ read.flatten := by
  induction chunks generalizing bytes with
  | nil =>
      cases h
      exact ⟨hbytes, [], rfl, (List.append_nil _).symm⟩
  | cons chunk rest ih =>
      cases chunk with
      | none => cases h
      | some chunk =>
          simp only [readLimited, reject] at h
          split_ifs at h with hover
          have hlength : (bytes ++ chunk).length ≤ maxResponseBytes := by
            rw [List.length_append]
            exact not_lt.mp hover
          obtain ⟨hall, read, hread, rfl⟩ := ih hlength h
          refine ⟨hall, chunk :: read, ?_, by simp⟩
          rw [List.mapM_cons, hread]
          rfl

theorem documentOf_ok {maxResponseBytes : Nat} {response : Response} {document : Json}
    (h : documentOf libraries maxResponseBytes response = .ok document) :
    response.status.isSuccess = true ∧ ∃ bytes, response.body = some bytes ∧
      bytes.length ≤ maxResponseBytes ∧ libraries.jsonFromSlice bytes = some document := by
  simp only [documentOf, reject] at h
  split_ifs at h with hfailure
  obtain ⟨bytes, hread, hparse⟩ := Fallible.bind_eq_ok.mp h
  obtain ⟨hlength, read, hchunks, rfl⟩ := readLimited_ok (Nat.zero_le _) hread
  refine ⟨by simpa using hfailure, _, ?_, hlength, ?_⟩
  · rw [Response.body, hchunks]
    rfl
  · cases hjson : libraries.jsonFromSlice ([] ++ read.flatten) with
    | none =>
        rw [hjson] at hparse
        cases hparse
    | some parsed =>
        rw [hjson] at hparse
        cases hparse
        rfl

/-- The document was the answer to a request that succeeded, and no longer than the limit. -/
def Received (libraries : FetchLibraries) (maxResponseBytes : Nat) (network : Nat → Exchange)
    (sent : List Request) (document : Json) : Prop :=
  ∃ i request response bytes, sent[i]? = some request ∧ (network i).response = some response ∧
    response.status.isSuccess = true ∧ response.body = some bytes ∧
    bytes.length ≤ maxResponseBytes ∧ libraries.jsonFromSlice bytes = some document

theorem received_of_ok {maxResponseBytes : Nat} {network : Nat → Exchange} {document : Json}
    (h : (fetchLimitedJson libraries client maxResponseBytes network url).result = .ok document) :
    Received libraries maxResponseBytes network
      (fetchLimitedJson libraries client maxResponseBytes network url).sent document := by
  obtain ⟨i, request, response, hrequest, hresponse, hread⟩ := Fetcher.delivered h
  obtain ⟨hsuccess, bytes, hbody, hlength, hjson⟩ := documentOf_ok hread
  exact ⟨i, request, response, bytes, hrequest, hresponse, hsuccess, hbody, hlength, hjson⟩

theorem confined (client : Client) (maxResponseBytes : Nat) {network : Nat → Exchange}
    (hnetwork : ∀ n, Documented libraries (network n)) (url : FetchUrl) :
    Confined libraries .httpSigning (validateFetchUrl libraries) network url
      (fetchLimitedJson libraries client maxResponseBytes network url).sent :=
  (fetcher_safe libraries client maxResponseBytes).confined hnetwork url

/-- Whatever names resolve to and whatever is answered, the fetch of a key document sends at most six
requests, each to public addresses that were checked for its URL in the same hop, and follows redirects
from one to the next; a document it returns is no longer than the limit. -/
theorem key_fetch_stays_on_checked_addresses (libraries : FetchLibraries) (client : Client)
    (maxResponseBytes : Nat) (network : Nat → Exchange)
    (hnetwork : ∀ n, Documented libraries (network n)) (url : FetchUrl) :
    let trail := fetchLimitedJson libraries client maxResponseBytes network url
    Confined libraries .httpSigning (validateFetchUrl libraries) network url trail.sent ∧
      ∀ document, trail.result = .ok document →
        Received libraries maxResponseBytes network trail.sent document :=
  ⟨confined client maxResponseBytes hnetwork url, fun _ h => received_of_ok h⟩

/-! ### A document behind a redirect -/

def remoteUrl : FetchUrl where
  scheme := "https"
  host := some "remote.example"
  port := none
  portOrKnownDefault := some 443
  path := "/users/bob"
  query := none
  username := ""
  password := none

def remoteIp : IpAddr := .V4 ⟨93, 184, 215, 14⟩

/-- The libraries on the URL of a document, on the address of its server and on the text of the document;
the actor is what is read of the same text. -/
def remoteLibraries (document : Json) (actor : Option Actor) : FetchLibraries where
  parse text := if text = "https://remote.example/users/bob" then some remoteUrl else none
  join _ location := if location = "/users/bob" then some remoteUrl else none
  parseIp text := if text = "93.184.215.14" then some remoteIp else none
  renderIp ip := if ip = remoteIp then "93.184.215.14" else ""
  jsonFromSlice bytes := if bytes = utf8 document.render then some document else none
  actorFromSlice bytes := if bytes = utf8 document.render then actor else none

/-- The URL redirects to itself before the document is sent, in two chunks. A name that is not pinned
resolves to this machine by the time a client connects. -/
def remoteNetwork (document : Json) (n : Nat) : Exchange where
  lookupHost name := if name = "remote.example" then some [remoteIp] else none
  builds := true
  connects client url :=
    match url.host, url.portOrKnownDefault with
    | some host, some port =>
        if host = "93.184.215.14" then [⟨remoteIp, port⟩]
        else ((client.pins.lookup host).getD [⟨.V4 localhost, port⟩]).map fun address => ⟨address.ip, port⟩
    | _, _ => []
  response :=
    if n = 0 then some ⟨⟨302, "302 Found"⟩, some "/users/bob", []⟩
    else
      let bytes := utf8 document.render
      some ⟨⟨200, "200 OK"⟩, none, [some (bytes.take 16), some (bytes.drop 16)]⟩

theorem documented_remoteNetwork (document : Json) (actor : Option Actor) (n : Nat) :
    Documented (remoteLibraries document actor) (remoteNetwork document n) where
  trimmed {text ip} h := by
    simp only [remoteLibraries] at h ⊢
    split_ifs at h with htext
    have hsame : hostLc "93.184.215.14" = "93.184.215.14" := by decide +kernel
    rw [htext, hsame, if_pos rfl]
    exact h
  bracketed {text} h := by
    have hne : ∀ {other : String}, other.toList.head? ≠ some '[' → text ≠ other := by
      rintro _ hother rfl
      exact hother h
    exact ⟨if_neg (hne (by decide)), if_neg (hne (by decide))⟩
  address hhost hport hip target htarget := by
    simp only [remoteLibraries] at hip
    split_ifs at hip with htext
    obtain rfl := Option.some.inj hip
    simpa only [remoteNetwork, hhost, hport, htext, if_true, List.mem_singleton] using htarget
  pinned hhost hport _ hip hpin target htarget := by
    simp only [remoteLibraries] at hip
    split_ifs at hip with htext
    simp only [remoteNetwork, hhost, hport, if_neg htext, hpin, Option.getD_some] at htarget
    obtain ⟨address, haddress, rfl⟩ := List.mem_map.mp htarget
    exact ⟨address, haddress, rfl⟩

def remoteDocument : Json := .object [("id", .string "https://remote.example/users/bob")]

/-- Two requests reach the document, both at the address that was checked and not at what the name
resolves to by then. -/
theorem key_fetch_stays_on_checked_addresses_remote :
    let libraries := remoteLibraries remoteDocument none
    let trail := fetchLimitedJson libraries ⟨[]⟩ 64 (remoteNetwork remoteDocument) remoteUrl
    trail.sent.map Request.targets = [[⟨remoteIp, 443⟩], [⟨remoteIp, 443⟩]] ∧
      ∃ document, trail.result = .ok document ∧
        Received libraries 64 (remoteNetwork remoteDocument) trail.sent document := by
  intro libraries trail
  have hsucceeds : trail.result.toBool = true := by decide +kernel
  refine ⟨by decide +kernel, ?_⟩
  cases hresult : trail.result with
  | error report =>
      rw [hresult] at hsucceeds
      cases hsucceeds
  | ok document =>
      exact ⟨document, rfl, (key_fetch_stays_on_checked_addresses libraries ⟨[]⟩ 64
        (remoteNetwork remoteDocument) (documented_remoteNetwork _ _) remoteUrl).2 document hresult⟩

/-! ### The verifier -/

def maxResponseBytes : Nat := 1024 * 1024

/-- The document under the URL of a key id. -/
def fetchDocument (libraries : FetchLibraries) (client : Client) (network : Nat → Exchange)
    (url : String) : Result Json :=
  match libraries.parse url with
  | none => reject .Rejected "MalformedSignature: invalid keyId URL"
  | some url => (fetchLimitedJson libraries client maxResponseBytes network url).result

/-- Without cached keys a key comes from a document that was fetched from the URL of its id. -/
theorem fetchActorKey_fetched {http : HttpLibraries} {verifier : HttpSignatureVerifier}
    (htest : verifier.testStaticActorKeys = []) (hstatic : verifier.staticActorKeys = [])
    {network : Nat → Exchange} (hnetwork : ∀ n, Documented libraries (network n)) {keyId : String}
    {key : ActorPublicKey}
    (h : fetchActorKey http verifier (fetchDocument libraries client network) keyId = .ok key) :
    ∃ text url document, http.withoutFragment keyId = some text ∧ libraries.parse text = some url ∧
      key.id = keyId ∧ ContainsKey document key ∧
      let sent := (fetchLimitedJson libraries client maxResponseBytes network url).sent
      Confined libraries .httpSigning (validateFetchUrl libraries) network url sent ∧
        Received libraries maxResponseBytes network sent document := by
  obtain ⟨text, document, htext, hdocument, hid, hcontains⟩ := fetchActorKey_ok htest hstatic h
  rw [fetchDocument] at hdocument
  cases hurl : libraries.parse text with
  | none =>
      rw [hurl] at hdocument
      cases hdocument
  | some url =>
      rw [hurl] at hdocument
      exact ⟨text, url, document, htext, hurl, hid, hcontains,
        confined client maxResponseBytes hnetwork url, received_of_ok hdocument⟩

end KeyFetch

end Emumet
