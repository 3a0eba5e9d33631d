import Emumet.DriverSignatureRoundTrip
import Emumet.RouteInbox
import Emumet.ServiceExclusion

/-! What the inbox route establishes before an activity is handled: who signed the request, what the
signature covers, and which of several Host headers it covers. -/

namespace Emumet

variable {libraries : HttpLibraries} {publicBaseUrl : String} {verifier : HttpSignatureVerifier}
  {env : InboxEnv} {request : InboxRequest} {db : Db} {dto : InboxActivityDto}

/-! ### The checks a handled activity has passed -/

/-- The checks of the route: the host, the signature, the body, and the owner of the signing key. -/
structure Passed (libraries : HttpLibraries) (publicBaseUrl : String)
    (verifier : HttpSignatureVerifier) (env : InboxEnv) (request : InboxRequest)
    (activity : Activity) (parsed : CavageSignature) (signingString : Bytes)
    (key owner : ActorPublicKey) : Prop where
  host : ∃ expected, publicBaseHostHeader libraries publicBaseUrl = .ok expected ∧
    ensureHostMatchesPublicBaseUrl expected request.headers = .ok ()
  signature : ValidSignature libraries verifier env.clock env.fetchForSignature
    (verificationInput publicBaseUrl env request) parsed signingString key
  body : libraries.activityFromSlice request.body = some activity
  ownerKey : fetchActorKey libraries verifier env.fetchForOwner parsed.keyId = .ok owner
  ownerMatches : sameActivitypubId owner.owner activity.actor = true
  document : signatureKeyDocumentMatchesActor libraries parsed.keyId activity.actor = true

theorem checkedActivity_ok
    (h : checkedActivity libraries publicBaseUrl verifier env request db = .ok dto) :
    ∃ parsed signingString key owner, Passed libraries publicBaseUrl verifier env request dto.activity
      parsed signingString key owner := by
  simp only [checkedActivity, Fallible.bind_eq_ok] at h
  obtain ⟨_, _, accountId, _, expected, hexpected, _, hhost, keyId, hkeyId, activity, hactivity, _,
    howner, hdto⟩ := h
  cases hdto
  have hvalid : verify libraries verifier env.clock env.fetchForSignature
      (verificationInput publicBaseUrl env request) = .Valid keyId := by
    cases hverify : verify libraries verifier env.clock env.fetchForSignature
      (verificationInput publicBaseUrl env request) with
    | Valid found => simpa [hverify, verifiedKeyId] using hkeyId
    | Invalid reason => simp [hverify, verifiedKeyId] at hkeyId
  have hbody : libraries.activityFromSlice request.body = some activity := by
    cases hparsed : libraries.activityFromSlice request.body with
    | some found => simpa [hparsed, parsedActivity] using hactivity
    | none => simp [hparsed, parsedActivity] at hactivity
  obtain ⟨parsed, signingString, key, rfl, hsignature⟩ := verify_valid hvalid
  unfold ensureSignatureOwnerMatchesActor at howner
  split at howner
  · cases howner
  · rename_i owner hfetched
    split_ifs at howner with hmatches
    obtain ⟨howned, hdocument⟩ := Bool.and_eq_true_iff.mp hmatches
    exact ⟨parsed, signingString, key, owner, ⟨expected, hexpected, hhost⟩, hsignature, hbody, hfetched,
      howned, hdocument⟩

/-- A request that passes the checks is handed to the handlers. -/
theorem Passed.checkedActivity_eq {activity : Activity} {parsed : CavageSignature} {signingString : Bytes}
    {key owner : ActorPublicKey} {accountId : AccountId}
    (h : Passed libraries publicBaseUrl verifier env request activity parsed signingString key owner)
    (htype : ensureContentType request.headers = .ok ())
    (haccount : findAccountIdByNanoid db env.now request.nanoid = .ok accountId)
    (hscheme : (getHeader (verificationInput publicBaseUrl env request).headers
      "signature-input").isSome = false) :
    checkedActivity libraries publicBaseUrl verifier env request db =
      .ok ⟨accountId, request.nanoid, activity⟩ := by
  obtain ⟨expected, hexpected, hhost⟩ := h.host
  have howner : ensureSignatureOwnerMatchesActor libraries verifier env.fetchForOwner parsed.keyId
      activity = .ok () := by
    rw [ensureSignatureOwnerMatchesActor, h.ownerKey]
    exact if_pos (Bool.and_eq_true_iff.mpr ⟨h.ownerMatches, h.document⟩)
  simp only [checkedActivity, htype, haccount, hexpected, hhost, h.signature.verify_eq hscheme, verifiedKeyId,
    h.body, parsedActivity, bind, Except.bind, howner]
  rfl

/-- A body that is parsed is not empty. -/
theorem Passed.hasBody {activity : Activity} {parsed : CavageSignature} {signingString : Bytes}
    {key owner : ActorPublicKey} (hempty : libraries.activityFromSlice [] = none)
    (h : Passed libraries publicBaseUrl verifier env request activity parsed signingString key owner) :
    (verificationInput publicBaseUrl env request).hasBody = true := by
  cases hbody : request.body with
  | nil =>
      have hparsed := h.body
      rw [hbody, hempty] at hparsed
      cases hparsed
  | cons byte rest => simp [verificationInput, HttpSignatureVerificationInput.hasBody, hbody]

/-! ### Authenticity -/

/-- An activity is by its actor: the actor's document vouches for the key of a signature over the
target, the host, the date and the digest of the body the activity was parsed from. -/
structure Authentic (libraries : HttpLibraries) (publicBaseUrl : String) (env : InboxEnv)
    (request : InboxRequest) (activity : Activity) (parsed : CavageSignature) (url : String) :
    Prop where
  header : ∃ header,
    getHeader (verificationInput publicBaseUrl env request).headers "signature" = some header ∧
      parseCavageSignature libraries.base64Decode header = .ok parsed
  document : libraries.withoutFragment parsed.keyId = some url ∧
    trimEndSlashes url = trimEndSlashes activity.actor
  owner : ∃ document owner, env.fetchForOwner url = .ok document ∧ ContainsKey document owner ∧
    owner.id = parsed.keyId ∧ trimEndSlashes owner.owner = trimEndSlashes activity.actor
  signature : ∃ document key signingString, env.fetchForSignature url = .ok document ∧
    ContainsKey document key ∧ key.id = parsed.keyId ∧
    cavageSigningString libraries (verificationInput publicBaseUrl env request) parsed.headers =
      .ok signingString ∧
    (libraries.rsaVerify signingString parsed.signature (utf8 key.publicKeyPem) = some true ∨
      libraries.ed25519Verify signingString parsed.signature (utf8 key.publicKeyPem) = some true)
  headers : ∀ header ∈ ["(request-target)", "host", "date", "digest"], header ∈ parsed.headers
  date : ∃ date sentAt,
    getHeader (verificationInput publicBaseUrl env request).headers "date" = some date ∧
      libraries.parseHttpDate date = some sentAt ∧ |sentAt - env.clock| ≤ 300 * 1000000000
  digest : ∃ digest entry,
    getHeader (verificationInput publicBaseUrl env request).headers "digest" = some digest ∧
      sha256Entry digest = some entry ∧
      libraries.base64Decode entry = some (libraries.sha256 request.body)
  body : libraries.activityFromSlice request.body = some activity

/-- Every activity the inbox route hands to the handlers is by its actor, when no keys are cached. The
parser of activities rejects an empty body. -/
theorem inbox_activity_is_authentic (libraries : HttpLibraries)
    (hempty : libraries.activityFromSlice [] = none) (publicBaseUrl : String)
    (verifier : HttpSignatureVerifier) (htest : verifier.testStaticActorKeys = [])
    (hstatic : verifier.staticActorKeys = []) (env : InboxEnv) (request : InboxRequest) (db : Db)
    (dto : InboxActivityDto)
    (h : checkedActivity libraries publicBaseUrl verifier env request db = .ok dto) :
    ∃ parsed url, Authentic libraries publicBaseUrl env request dto.activity parsed url := by
  obtain ⟨parsed, signingString, key, owner, hpassed⟩ := checkedActivity_ok h
  have hbody := hpassed.hasBody hempty
  obtain ⟨htarget, hhost, hdate, hdigest⟩ :=
    validateRequiredSignedHeaders_ok hpassed.signature.required
  obtain ⟨url, document, hurl, hdocument, hid, hcontains⟩ :=
    fetchActorKey_ok htest hstatic hpassed.signature.fetched
  obtain ⟨url', owned, hurl', howned, hownerId, hownerContains⟩ :=
    fetchActorKey_ok htest hstatic hpassed.ownerKey
  obtain rfl : url = url' := Option.some.inj (hurl.symm.trans hurl')
  have hactor : trimEndSlashes url = trimEndSlashes dto.activity.actor := by
    simpa [signatureKeyDocumentMatchesActor, hurl, sameActivitypubId] using hpassed.document
  refine ⟨parsed, url, hpassed.signature.header, ⟨hurl, hactor⟩,
    ⟨owned, owner, howned, hownerContains, hownerId, by
      simpa [sameActivitypubId] using hpassed.ownerMatches⟩,
    ⟨document, key, signingString, hdocument, hcontains, hid, hpassed.signature.signed,
      verifyCavageSignature_ok hpassed.signature.verifies⟩, ?_,
    validateDateHeader_ok hpassed.signature.date,
    validateDigestHeader_ok hbody hpassed.signature.digest, hpassed.body⟩
  intro header hheader
  simp only [List.mem_cons, List.not_mem_nil, or_false] at hheader
  rcases hheader with rfl | rfl | rfl | rfl
  · exact htarget
  · exact hhost
  · exact hdate
  · exact hdigest hbody

/-! ### One value for each name -/

/-- A map whose names are different and in lower case. -/
structure Collected (map : List (String × String)) : Prop where
  nodup : (map.map Prod.fst).Nodup
  lowercase : ∀ entry ∈ map, toAsciiLowercase entry.1 = entry.1

theorem Collected.perm {map map' : List (String × String)} (h : Collected map)
    (hperm : map'.Perm map) : Collected map' :=
  ⟨(hperm.map Prod.fst).nodup_iff.mpr h.nodup, fun entry hentry =>
    h.lowercase entry (hperm.mem_iff.mp hentry)⟩

/-- In such a map a lower-case name is found exactly if it is there, in whatever order. -/
theorem Collected.getHeader_eq_some_iff {map : List (String × String)} (h : Collected map)
    {name value : String} (hname : toAsciiLowercase name = name) :
    getHeader map name = some value ↔ (name, value) ∈ map := by
  have hsame : ∀ entry ∈ map, eqIgnoreAsciiCase entry.1 name = true ↔ entry.1 = name := by
    intro entry hentry
    simp [eqIgnoreAsciiCase, h.lowercase entry hentry, hname]
  rw [getHeader, Option.map_eq_some_iff]
  constructor
  · rintro ⟨⟨found, _⟩, hfound, rfl⟩
    have hmem := List.mem_of_find?_eq_some hfound
    have hmatch := List.find?_some hfound
    obtain rfl : found = name := (hsame _ hmem).mp hmatch
    exact hmem
  · intro hmem
    cases hfound : map.find? fun entry => eqIgnoreAsciiCase entry.1 name with
    | none =>
        have hnot := List.find?_eq_none.mp hfound (name, value) hmem
        exact absurd ((hsame _ hmem).mpr rfl) hnot
    | some entry =>
        have hentry := List.mem_of_find?_eq_some hfound
        have hmatch := List.find?_some hfound
        have hkey : entry.1 = name := (hsame _ hentry).mp hmatch
        have hunique := List.inj_on_of_nodup_map h.nodup hentry hmem hkey
        exact ⟨entry, rfl, by rw [hunique]⟩

theorem Collected.insert {map : List (String × String)} (h : Collected map) {entry : String × String}
    (hentry : toAsciiLowercase entry.1 = entry.1) : Collected (insertHeader map entry) := by
  refine ⟨?_, ?_⟩
  · rw [insertHeader, List.map_cons, List.nodup_cons]
    refine ⟨?_, h.nodup.sublist (List.filter_sublist.map Prod.fst)⟩
    intro hmem
    obtain ⟨other, hother, hkey⟩ := List.mem_map.mp hmem
    simp [hkey] at hother
  · intro other hother
    rcases List.mem_cons.mp hother with rfl | hold
    · exact hentry
    · exact h.lowercase other (List.mem_filter.mp hold).1

/-- Of several values of a name the last one is kept. -/
theorem mem_foldl_insertHeader {entries : List (String × String)} {name value : String} :
    (name, value) ∈ entries.foldl insertHeader [] ↔
      ((entries.filter (·.1 = name)).map Prod.snd).getLast? = some value := by
  induction entries using List.reverseRecOn with
  | nil => simp
  | append_singleton entries entry ih =>
      rw [List.foldl_append, List.foldl_cons, List.foldl_nil, insertHeader, List.mem_cons,
        List.mem_filter, ih, List.filter_append, List.map_append]
      obtain ⟨key, last⟩ := entry
      by_cases hkey : key = name
      · subst hkey
        simp [eq_comm]
      · simp [hkey, Ne.symm hkey]

theorem collected_collectHeaders (headers : HeaderMap) : Collected (collectHeaders headers) := by
  have hlower : ∀ entry ∈ headers.entries.filterMap fun entry =>
      (toStr entry.2).map fun value => (entry.1, value), toAsciiLowercase entry.1 = entry.1 := by
    intro entry hentry
    obtain ⟨raw, hraw, htext⟩ := List.mem_filterMap.mp hentry
    obtain ⟨value, _, rfl⟩ := Option.map_eq_some_iff.mp htext
    exact headers.lowercase raw hraw
  have hempty : Collected [] := ⟨List.nodup_nil, fun entry hentry => nomatch hentry⟩
  exact List.foldlRecOn (motive := Collected) _ insertHeader hempty
    fun map hmap entry hentry => hmap.insert (hlower entry hentry)

/-- The verifier sees the last value of a header that is a text. -/
theorem getHeader_headersToMap (env : InboxEnv) (headers : HeaderMap) {name : String}
    (hname : toAsciiLowercase name = name) :
    getHeader (headersToMap env headers) name = (headers.texts name).getLast? := by
  have hcollected : Collected (headersToMap env headers) :=
    (collected_collectHeaders headers).perm (env.order_perm _)
  have htexts : headers.texts name = ((headers.entries.filterMap fun entry =>
      (toStr entry.2).map fun value => (entry.1, value)).filter (·.1 = name)).map Prod.snd := by
    simp only [HeaderMap.texts, HeaderMap.getAll]
    induction headers.entries with
    | nil => rfl
    | cons entry entries ih =>
        by_cases hkey : entry.1 = name <;> cases htext : toStr entry.2 <;>
          simp [hkey, htext, ih]
  apply Option.ext
  intro value
  rw [hcollected.getHeader_eq_some_iff hname, headersToMap, (env.order_perm _).mem_iff,
    collectHeaders, mem_foldl_insertHeader, ← htexts]

/-! ### The checked values and the signed ones -/

/-- The signing string has the line for the header. -/
def SignedLine (libraries : HttpLibraries) (input : HttpSignatureVerificationInput)
    (headers : List String) (signingString : Bytes) (header line : String) : Prop :=
  ∃ url lines, libraries.parseUrl input.url = some url ∧
    headers.mapM (signingLine input url.pathAndQuery) = .ok lines ∧
    signingString = utf8 ("\n".intercalate lines) ∧ (header, line) ∈ headers.zip lines

/-- A header's line holds the value the verifier sees. -/
theorem signedLine_iff {input : HttpSignatureVerificationInput} {headers : List String}
    {signingString : Bytes} {header value : String} (hheader : header ∈ headers)
    (hlower : toAsciiLowercase header = header) (htarget : header ≠ "(request-target)")
    (h : cavageSigningString libraries input headers = .ok signingString) :
    SignedLine libraries input headers signingString header (header ++ ": " ++ value) ↔
      getHeader input.headers header = some value := by
  obtain ⟨url, lines, hurl, hlines, rfl⟩ := cavageSigningString_ok h
  constructor
  · rintro ⟨url', lines', hurl', hlines', _, hmem⟩
    obtain ⟨found, hfound, hline⟩ := signingLine_ok htarget (Fallible.eq_ok_of_mem_zip hlines' hmem)
    rw [hlower] at hline
    rw [hfound, (String.append_right_inj _).mp hline]
  · intro hvalue
    obtain ⟨line, hmem⟩ := Fallible.exists_mem_zip hlines hheader
    obtain ⟨found, hfound, hline⟩ := signingLine_ok htarget (Fallible.eq_ok_of_mem_zip hlines hmem)
    obtain rfl : found = value := Option.some.inj (hfound.symm.trans hvalue)
    rw [hlower] at hline
    exact ⟨url, lines, hurl, hlines, rfl, hline ▸ hmem⟩

/-- The host that is compared, and the date and the digest that are validated, are the values in their
lines of the signing string. -/
structure ChecksWhatIsSigned (libraries : HttpLibraries) (publicBaseUrl : String) (env : InboxEnv)
    (request : InboxRequest) (headers : List String) (signingString : Bytes) : Prop where
  host : ∃ host, checkedHost request.headers = some host ∧
    SignedLine libraries (verificationInput publicBaseUrl env request) headers signingString "host"
      ("host: " ++ host)
  date : ∃ date,
    getHeader (verificationInput publicBaseUrl env request).headers "date" = some date ∧
    SignedLine libraries (verificationInput publicBaseUrl env request) headers signingString "date"
      ("date: " ++ date)
  digest : ∃ digest,
    getHeader (verificationInput publicBaseUrl env request).headers "digest" = some digest ∧
    SignedLine libraries (verificationInput publicBaseUrl env request) headers signingString "digest"
      ("digest: " ++ digest)

/-- The host that is compared is the first of the texts. -/
theorem head?_texts {headers : HeaderMap} {host : String} (h : checkedHost headers = some host) :
    (headers.texts "host").head? = some host := by
  obtain ⟨value, hvalue, htext⟩ := Option.bind_eq_some_iff.mp h
  obtain ⟨rest, hall⟩ := List.head?_eq_some_iff.mp hvalue
  rw [HeaderMap.texts, hall, List.filterMap_cons_some htext, List.head?_cons]

theorem checkedHost_of_ensure {expected : String} {headers : HeaderMap}
    (h : ensureHostMatchesPublicBaseUrl expected headers = .ok ()) :
    ∃ host, checkedHost headers = some host ∧ eqIgnoreAsciiCase host expected = true := by
  unfold ensureHostMatchesPublicBaseUrl at h
  split at h
  · cases h
  · rename_i host hhost
    split_ifs at h with hsame
    exact ⟨host, hhost, hsame⟩

/-- What is signed are the values the verifier sees, and of the hosts that is the last one. -/
theorem checksWhatIsSigned_iff {parsed : CavageSignature} {signingString : Bytes}
    {key : ActorPublicKey} {host : String} (hchecked : checkedHost request.headers = some host)
    (hbody : (verificationInput publicBaseUrl env request).hasBody = true)
    (h : ValidSignature libraries verifier env.clock env.fetchForSignature
      (verificationInput publicBaseUrl env request) parsed signingString key) :
    ChecksWhatIsSigned libraries publicBaseUrl env request parsed.headers signingString ↔
      (request.headers.texts "host").head? = (request.headers.texts "host").getLast? := by
  obtain ⟨_, hhost, hdate, hdigest⟩ := validateRequiredSignedHeaders_ok h.required
  obtain ⟨date, _, hdateValue, _⟩ := validateDateHeader_ok h.date
  obtain ⟨digest, _, hdigestValue, _⟩ := validateDigestHeader_ok hbody h.digest
  have hseen : getHeader (verificationInput publicBaseUrl env request).headers "host" =
      (request.headers.texts "host").getLast? := getHeader_headersToMap env request.headers (by decide)
  rw [head?_texts hchecked, eq_comm, ← hseen]
  constructor
  · rintro ⟨⟨other, hother, hline⟩, _, _⟩
    obtain rfl : host = other := Option.some.inj (hchecked.symm.trans hother)
    exact (signedLine_iff hhost (by decide) (by decide) h.signed).mp hline
  · intro hlast
    refine ⟨⟨host, hchecked, ?_⟩, ⟨date, hdateValue, ?_⟩, ⟨digest, hdigestValue, ?_⟩⟩
    · exact (signedLine_iff hhost (by decide) (by decide) h.signed).mpr hlast
    · exact (signedLine_iff hdate (by decide) (by decide) h.signed).mpr hdateValue
    · exact (signedLine_iff (hdigest hbody) (by decide) (by decide) h.signed).mpr hdigestValue

/-- For a request that reaches the handlers, the host that was compared, the date and the digest are
those that were signed exactly when the first and the last Host header that is a text are the same. -/
theorem checked_values_are_signed_iff (libraries : HttpLibraries)
    (hempty : libraries.activityFromSlice [] = none) (publicBaseUrl : String)
    (verifier : HttpSignatureVerifier) (env : InboxEnv) (request : InboxRequest) (db : Db)
    (dto : InboxActivityDto)
    (h : checkedActivity libraries publicBaseUrl verifier env request db = .ok dto) :
    ∃ parsed signingString key, ValidSignature libraries verifier env.clock env.fetchForSignature
        (verificationInput publicBaseUrl env request) parsed signingString key ∧
      (ChecksWhatIsSigned libraries publicBaseUrl env request parsed.headers signingString ↔
        (request.headers.texts "host").head? = (request.headers.texts "host").getLast?) := by
  obtain ⟨parsed, signingString, key, owner, hpassed⟩ := checkedActivity_ok h
  obtain ⟨expected, _, hensured⟩ := hpassed.host
  obtain ⟨host, hchecked, _⟩ := checkedHost_of_ensure hensured
  exact ⟨parsed, signingString, key, hpassed.signature,
    checksWhatIsSigned_iff hchecked (hpassed.hasBody hempty) hpassed.signature⟩

/-! ### A signed Follow

Bob on another server follows alice. The hash and the Ed25519 signatures are real ones. -/

open Exclusion (aliceDb bobUrl)

def bobKeyId : String := bobUrl ++ "#main-key"

def bobPublicKeyPem : String :=
  "-----BEGIN PUBLIC KEY-----\nMCowBQYDK2VwAyEAg4kdq9ytdsw2A18WN6AHSVFuF1bUwW1tX5BGUX8C4xw=\n" ++
    "-----END PUBLIC KEY-----\n"

def bobFollow : Activity where
  context := none
  id := "https://remote.example/follows/1"
  type_ := "Follow"
  actor := bobUrl
  object := some (.string "https://local.example/ap/accounts/alice-nanoid")
  target := none
  to_ := none
  cc := none

def bobBody : Bytes := utf8 bobFollow.render

def bobDigest : String := "eo1bDp3EP6Wiodd0Q3bdWgU/AR+tEnLyV/sjXpyLaH4="

def bobHash : Bytes :=
  [122, 141, 91, 14, 157, 196, 63, 165, 162, 161, 215, 116, 67, 118, 221, 90,
    5, 63, 1, 31, 173, 18, 114, 242, 87, 251, 35, 94, 156, 139, 104, 126]

/-- A signature in base64 and as bytes. -/
structure EncodedSignature where
  text : String
  bytes : Bytes

/-- The signature of the request to a host; alice's server is `local.example`. -/
def bobSignature (host : String) : EncodedSignature :=
  if host = "local.example" then
    ⟨"xC3Z3fvI+xyd7W7CWTvliPedSBOwVIQGmx8T0x8zpCYFVefSGT0RToq9H6GLf9VpeyBDXgDuaLTBJ3xkim45Bw==",
    [196, 45, 217, 221, 251, 200, 251, 28, 157, 237, 110, 194, 89, 59, 229, 136,
    247, 157, 72, 19, 176, 84, 132, 6, 155, 31, 19, 211, 31, 51, 164, 38,
    5, 85, 231, 210, 25, 61, 17, 78, 138, 189, 31, 161, 139, 127, 213, 105,
    123, 32, 67, 94, 0, 238, 104, 180, 193, 39, 124, 100, 138, 110, 57, 7]⟩
  else
    ⟨"/1khFSN3aFk6GOMXQFp4lrjpYwNMVZiixerPF7CsMEeFfM7vtDr/Dp/q3Yqh2YXDbj6OmcLKTiewGDmoYgOwDw==",
    [255, 89, 33, 21, 35, 119, 104, 89, 58, 24, 227, 23, 64, 90, 120, 150,
    184, 233, 99, 3, 76, 85, 152, 162, 197, 234, 207, 23, 176, 172, 48, 71,
    133, 124, 206, 239, 180, 58, 255, 14, 159, 234, 221, 138, 161, 217, 133, 195,
    110, 62, 142, 153, 194, 202, 78, 39, 176, 24, 57, 168, 98, 3, 176, 15]⟩

def bobSigningString (host : String) : String :=
  "(request-target): post /ap/accounts/alice-nanoid/inbox\nhost: " ++ host ++
    "\ndate: Sun, 06 Nov 1994 08:49:37 GMT\ndigest: SHA-256=" ++ bobDigest

/-- The libraries on the inputs of the request to a host. -/
def bobLibraries (host : String) : HttpLibraries where
  parseUrl text :=
    if text = "https://local.example" then
      some { scheme := "https", host := some "local.example", port := none
             portOrKnownDefault := some 443, path := "/", query := none }
    else if text = "https://local.example/ap/accounts/alice-nanoid/inbox" then
      some { scheme := "https", host := some "local.example", port := none
             portOrKnownDefault := some 443, path := "/ap/accounts/alice-nanoid/inbox", query := none }
    else none
  withoutFragment text := if text = bobKeyId then some bobUrl else none
  base64Decode text :=
    if text = bobDigest then some bobHash
    else if text = (bobSignature host).text then some (bobSignature host).bytes
    else none
  parseHttpDate text :=
    if text = "Sun, 06 Nov 1994 08:49:37 GMT" then some (784111777 * 1000000000) else none
  sha256 body := if body = bobBody then bobHash else []
  rsaVerify _ _ _ := none
  ed25519Verify message signature publicKeyPem :=
    if publicKeyPem = utf8 bobPublicKeyPem then
      some (message = utf8 (bobSigningString host) && signature = (bobSignature host).bytes)
    else none
  activityFromSlice body := if body = bobBody then some bobFollow else none

/-- A minute after the request was sent, bob's server answers with his actor document. -/
def bobEnv : InboxEnv where
  now := 0
  clock := 784111837 * 1000000000
  order := id
  order_perm _ := .refl _
  fetchForSignature := bobDocument
  fetchForOwner := bobDocument
where
  bobDocument (url : String) : Result Json :=
    if url = bobUrl then
      .ok (.object [("id", .string bobUrl), ("publicKey", .object [("id", .string bobKeyId),
        ("owner", .string bobUrl), ("publicKeyPem", .string bobPublicKeyPem)])])
    else reject .Rejected "KeyFetchFailed: actor key endpoint returned 404 Not Found"

def bobSignatureHeader (host : String) : String :=
  "keyId=\"" ++ bobKeyId ++ "\",algorithm=\"ed25519\"," ++
    "headers=\"(request-target) host date digest\",signature=\"" ++ (bobSignature host).text ++ "\""

def bobHeaders (hosts : List String) : List (String × Bytes) :=
  hosts.map (fun host => ("host", utf8 host)) ++
    [("content-type", utf8 "application/activity+json"),
      ("date", utf8 "Sun, 06 Nov 1994 08:49:37 GMT"), ("digest", utf8 ("SHA-256=" ++ bobDigest)),
      ("signature", utf8 (bobSignatureHeader (hosts.getLast?.getD "")))]

/-- The request with the given Host headers, signed for the last of them. -/
def bobRequest (hosts : List String) : InboxRequest where
  nanoid := "alice-nanoid"
  originalUri := "/ap/accounts/alice-nanoid/inbox"
  method := "POST"
  headers := ⟨bobHeaders hosts, by
    have hnames : ∀ name ∈ ["host", "content-type", "date", "digest", "signature"],
        toAsciiLowercase name = name := by decide
    intro entry hentry
    refine hnames entry.1 ?_
    simp only [bobHeaders, List.mem_append, List.mem_map, List.mem_cons, List.not_mem_nil,
      or_false] at hentry
    rcases hentry with ⟨_, _, rfl⟩ | rfl | rfl | rfl | rfl <;> simp⟩
  body := bobBody

section Header

open SignatureRoundTrip

theorem bobSignature_plain (host : String) :
    ((bobSignature host).text.toList.all fun c => c ≠ '"' && c ≠ '\\') = true := by
  unfold bobSignature
  split_ifs
  · decide +kernel
  · decide +kernel

def bobKeyParam : Param := plainParam (paramName "keyId" (by decide) (by decide)) bobKeyId

def bobParams (host : String) : List Param :=
  [plainParam (paramName "algorithm" (by decide) (by decide)) "ed25519",
    plainParam headersName "(request-target) host date digest",
    plainParam signatureName (bobSignature host).text]

theorem bobSignatureHeader_eq (host : String) :
    bobSignatureHeader host = renderHeader bobKeyParam (bobParams host) := by
  rw [renderHeader, bobKeyParam, bobParams, List.flatMap_cons, List.flatMap_cons, List.flatMap_cons,
    List.flatMap_nil, render_plainParam (by decide +kernel), render_plainParam (by decide +kernel),
    render_plainParam (by decide +kernel), render_plainParam (bobSignature_plain host)]
  apply String.ext
  simp only [bobSignatureHeader, String.toList_append, String.toList_ofList, List.append_assoc, paramName,
    headersName, signatureName, List.cons_append, List.append_nil]
  rfl

theorem entries_bobParams (host : String) : (bobKeyParam :: bobParams host).map Param.entry =
    [("keyid", bobKeyId), ("algorithm", "ed25519"), ("headers", "(request-target) host date digest"),
      ("signature", (bobSignature host).text)] := by
  have hkeyId : toAsciiLowercase "keyId" = "keyid" := by decide
  have halgorithm : toAsciiLowercase "algorithm" = "algorithm" := by decide
  have hheaders : toAsciiLowercase "headers" = "headers" := by decide
  have hsignature : toAsciiLowercase "signature" = "signature" := by decide
  simp only [bobKeyParam, bobParams, List.map_cons, List.map_nil, Param.entry, plainParam, paramName,
    headersName, signatureName, hkeyId, halgorithm, hheaders, hsignature]

theorem base64Decode_bobSignature (host : String) :
    (bobLibraries host).base64Decode (bobSignature host).text = some (bobSignature host).bytes := by
  have hne : (bobSignature host).text ≠ bobDigest := by
    unfold bobSignature
    split_ifs
    · decide +kernel
    · decide +kernel
  simp only [bobLibraries, if_neg hne, if_true]

/-- What bob's Signature header is parsed to. -/
theorem parse_bobSignatureHeader (host : String) :
    parseCavageSignature (bobLibraries host).base64Decode (bobSignatureHeader host) =
      .ok { keyId := bobKeyId, algorithm := "ed25519", signature := (bobSignature host).bytes
            headers := ["(request-target)", "host", "date", "digest"] } := by
  have hheaders : signedHeaders (some "(request-target) host date digest") =
      ["(request-target)", "host", "date", "digest"] := by decide +kernel
  have hentries := entries_bobParams host
  have hnames : ((bobKeyParam :: bobParams host).map (·.entry.1)).Nodup := by
    have hfirst := congrArg (List.map Prod.fst) hentries
    rw [List.map_map] at hfirst
    exact hfirst ▸ (by decide : ["keyid", "algorithm", "headers", "signature"].Nodup)
  rw [bobSignatureHeader_eq, ← hheaders]
  refine parse_renderHeader hnames ?_ ?_ ?_ ?_ (base64Decode_bobSignature host) <;> rw [hentries] <;> simp

end Header

/-- The request as it is verified. -/
def bobInput (hosts : List String) : HttpSignatureVerificationInput :=
  verificationInput "https://local.example" bobEnv (bobRequest hosts)

/-- What the checks read of the request with the given Host headers when it is signed for a host. -/
structure SentFor (hosts : List String) (host : String) : Prop where
  contentType : ensureContentType (bobRequest hosts).headers = .ok ()
  hostMatches : ensureHostMatchesPublicBaseUrl "local.example" (bobRequest hosts).headers = .ok ()
  scheme : (getHeader (bobInput hosts).headers "signature-input").isSome = false
  header : getHeader (bobInput hosts).headers "signature" = some (bobSignatureHeader host)
  required : validateRequiredSignedHeaders (bobInput hosts)
    ["(request-target)", "host", "date", "digest"] = .ok ()
  date : validateDateHeader (bobLibraries host) bobEnv.clock (bobInput hosts)
    HttpSignatureVerifier.dateTolerance = .ok ()
  digest : validateDigestHeader (bobLibraries host) (bobInput hosts) = .ok ()
  signed : cavageSigningString (bobLibraries host) (bobInput hosts)
    ["(request-target)", "host", "date", "digest"] = .ok (utf8 (bobSigningString host))

theorem sentFor_oneHost : SentFor ["local.example"] "local.example" where
  contentType := by decide +kernel
  hostMatches := by decide +kernel
  scheme := by decide +kernel
  header := by decide +kernel
  required := by decide +kernel
  date := by decide +kernel
  digest := by decide +kernel
  signed := by decide +kernel

theorem sentFor_twoHosts : SentFor ["local.example", "other.example"] "other.example" where
  contentType := by decide +kernel
  hostMatches := by decide +kernel
  scheme := by decide +kernel
  header := by decide +kernel
  required := by decide +kernel
  date := by decide +kernel
  digest := by decide +kernel
  signed := by decide +kernel

def bobKey : ActorPublicKey := ⟨bobKeyId, bobUrl, bobPublicKeyPem⟩

/-- With bob's key in both documents the request reaches the handlers. -/
theorem SentFor.checkedActivity_eq {hosts : List String} {host : String} (h : SentFor hosts host)
    {signing owning : String → Result Json}
    (hsigning : fetchActorKey (bobLibraries host) ⟨[], []⟩ signing bobKeyId = .ok bobKey)
    (howning : fetchActorKey (bobLibraries host) ⟨[], []⟩ owning bobKeyId = .ok bobKey) :
    checkedActivity (bobLibraries host) "https://local.example" ⟨[], []⟩
        { bobEnv with fetchForSignature := signing, fetchForOwner := owning } (bobRequest hosts) aliceDb =
      .ok ⟨7, "alice-nanoid", bobFollow⟩ := by
  have haccount : findAccountIdByNanoid aliceDb bobEnv.now "alice-nanoid" = .ok 7 := by decide +kernel
  have hexpected : publicBaseHostHeader (bobLibraries host) "https://local.example" =
      .ok "local.example" := by
    simp only [publicBaseHostHeader, bobLibraries, if_true]
  have hverifies : verifyCavageSignature (bobLibraries host) (utf8 (bobSigningString host))
      (bobSignature host).bytes (utf8 bobPublicKeyPem) "ed25519" = .ok true := by
    have halgorithm : toAsciiLowercase "ed25519" = "ed25519" := by decide
    simp only [verifyCavageSignature, halgorithm, true_or, if_true, bobLibraries, decide_true, Bool.and_self]
  have hbody : (bobLibraries host).activityFromSlice bobBody = some bobFollow := by
    simp only [bobLibraries, if_true]
  have hdocument : signatureKeyDocumentMatchesActor (bobLibraries host) bobKeyId bobUrl = true := by
    simp only [signatureKeyDocumentMatchesActor, bobLibraries, if_true, sameActivitypubId, decide_true]
  have hpassed : Passed (bobLibraries host) "https://local.example" ⟨[], []⟩
      { bobEnv with fetchForSignature := signing, fetchForOwner := owning } (bobRequest hosts) bobFollow
      ⟨bobKeyId, "ed25519", ["(request-target)", "host", "date", "digest"], (bobSignature host).bytes⟩
      (utf8 (bobSigningString host)) bobKey bobKey :=
    { host := ⟨"local.example", hexpected, h.hostMatches⟩
      signature :=
        { header := ⟨bobSignatureHeader host, h.header, parse_bobSignatureHeader host⟩
          required := h.required
          date := h.date
          digest := h.digest
          signed := h.signed
          fetched := hsigning
          verifies := hverifies }
      body := hbody
      ownerKey := howning
      ownerMatches := decide_eq_true rfl
      document := hdocument }
  exact hpassed.checkedActivity_eq h.contentType haccount h.scheme

theorem fetchActorKey_bob {host : String} :
    fetchActorKey (bobLibraries host) ⟨[], []⟩ bobEnv.bobDocument bobKeyId = .ok bobKey := by
  have hurl : (bobLibraries host).withoutFragment bobKeyId = some bobUrl := by
    simp only [bobLibraries, if_true]
  simp only [fetchActorKey, cachedActorKey, hurl, List.lookup_nil, Option.bind_some, Option.or_none,
    bobEnv.bobDocument, if_true]
  decide +kernel

theorem checkedActivity_oneHost :
    checkedActivity (bobLibraries "local.example") "https://local.example" ⟨[], []⟩ bobEnv
      (bobRequest ["local.example"]) aliceDb = .ok ⟨7, "alice-nanoid", bobFollow⟩ :=
  sentFor_oneHost.checkedActivity_eq fetchActorKey_bob fetchActorKey_bob

/-- The Follow of a request with one Host header is bob's. -/
theorem inbox_activity_is_authentic_bobRequest :
    ∃ dto, checkedActivity (bobLibraries "local.example") "https://local.example" ⟨[], []⟩ bobEnv
        (bobRequest ["local.example"]) aliceDb = .ok dto ∧
      ∃ parsed url, Authentic (bobLibraries "local.example") "https://local.example" bobEnv
        (bobRequest ["local.example"]) dto.activity parsed url := by
  have h := checkedActivity_oneHost
  exact ⟨_, h, inbox_activity_is_authentic (bobLibraries "local.example") (by decide +kernel)
    "https://local.example" ⟨[], []⟩ rfl rfl bobEnv (bobRequest ["local.example"]) aliceDb _ h⟩

/-- Its only Host header is compared and signed. -/
theorem checked_values_are_signed_bobRequest :
    ∃ parsed signingString key, ValidSignature (bobLibraries "local.example") ⟨[], []⟩ bobEnv.clock
        bobEnv.fetchForSignature (verificationInput "https://local.example" bobEnv
          (bobRequest ["local.example"])) parsed signingString key ∧
      ChecksWhatIsSigned (bobLibraries "local.example") "https://local.example" bobEnv
        (bobRequest ["local.example"]) parsed.headers signingString := by
  obtain ⟨parsed, signingString, key, hvalid, hiff⟩ :=
    checked_values_are_signed_iff (bobLibraries "local.example") (by decide +kernel)
      "https://local.example" ⟨[], []⟩ bobEnv (bobRequest ["local.example"]) aliceDb _
      checkedActivity_oneHost
  exact ⟨parsed, signingString, key, hvalid, hiff.mpr (by decide +kernel)⟩

/-- A request that was signed for another server reaches the handlers with alice's host put before the
signed one. -/
theorem second_host_is_signed :
    ∃ dto, checkedActivity (bobLibraries "other.example") "https://local.example" ⟨[], []⟩ bobEnv
        (bobRequest ["local.example", "other.example"]) aliceDb = .ok dto ∧
      ∀ parsed signingString key, ValidSignature (bobLibraries "other.example") ⟨[], []⟩ bobEnv.clock
          bobEnv.fetchForSignature (verificationInput "https://local.example" bobEnv
            (bobRequest ["local.example", "other.example"])) parsed signingString key →
        ¬ChecksWhatIsSigned (bobLibraries "other.example") "https://local.example" bobEnv
          (bobRequest ["local.example", "other.example"]) parsed.headers signingString := by
  have h := sentFor_twoHosts.checkedActivity_eq fetchActorKey_bob fetchActorKey_bob
  refine ⟨_, h, fun parsed signingString key hvalid hchecks => ?_⟩
  have hhost : checkedHost (bobRequest ["local.example", "other.example"]).headers =
      some "local.example" := by decide +kernel
  have hsame := (checksWhatIsSigned_iff hhost (by decide +kernel) hvalid).mp hchecks
  revert hsame
  decide +kernel

end Emumet
