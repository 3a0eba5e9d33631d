import Emumet.LibFallible
import Emumet.LibLines
import Emumet.DriverSignatureParser

/-! Cavage signatures: the signing string of a request and the checks on its headers. The functions of
libraries are parameters; texts that quote an error of a library are cut before the quotation. A time
is a number of nanoseconds. -/

namespace Emumet

/-- The functions of libraries the signature checks use. `withoutFragment` parses a URL, removes its
fragment and writes it again. -/
structure HttpLibraries where
  parseUrl : String → Option Url
  withoutFragment : String → Option String
  base64Decode : String → Option Bytes
  parseHttpDate : String → Option Int
  sha256 : Bytes → Bytes
  rsaVerify : Bytes → Bytes → Bytes → Option Bool
  ed25519Verify : Bytes → Bytes → Bytes → Option Bool
  activityFromSlice : Bytes → Option Activity

/-- The request a signature is verified for; the headers are the entries of a hash map in the order in
which it iterates. -/
structure HttpSignatureVerificationInput where
  method : String
  url : String
  headers : List (String × String)
  body : Option Bytes
  deriving DecidableEq, Repr

namespace HttpSignatureVerificationInput

def hasBody (request : HttpSignatureVerificationInput) : Bool :=
  request.body.any fun body => !body.isEmpty

theorem body_eq_some (request : HttpSignatureVerificationInput) (h : request.hasBody = true) :
    request.body = some (request.body.getD []) := by
  cases hbody : request.body with
  | none => simp [hasBody, hbody] at h
  | some body => rfl

end HttpSignatureVerificationInput

def getHeader (headers : List (String × String)) (name : String) : Option String :=
  (headers.find? fun entry => eqIgnoreAsciiCase entry.1 name).map Prod.snd

/-- What holds of the value of every entry holds of the one that is found. -/
theorem getHeader_forall {headers : List (String × String)} {P : String → Prop}
    (h : ∀ entry ∈ headers, P entry.2) {name value : String}
    (hvalue : getHeader headers name = some value) : P value := by
  obtain ⟨entry, hentry, rfl⟩ := Option.map_eq_some_iff.mp hvalue
  exact h entry (List.mem_of_find?_eq_some hentry)

/-! ### The signing string -/

def Url.pathAndQuery (url : Url) : String :=
  match url.query with
  | some query => url.path ++ "?" ++ query
  | none => url.path

/-- The line of one signed header. -/
def signingLine (request : HttpSignatureVerificationInput) (pathAndQuery header : String) :
    Except String String :=
  if header = "(request-target)" then
    .ok ("(request-target): " ++ toAsciiLowercase request.method ++ " " ++ pathAndQuery)
  else
    match getHeader request.headers header with
    | some value => .ok (toAsciiLowercase header ++ ": " ++ value)
    | none => .error ("MalformedSignature: signed header '" ++ header ++ "' is missing from request")

def cavageSigningString (libraries : HttpLibraries) (request : HttpSignatureVerificationInput)
    (headers : List String) : Except String Bytes :=
  match libraries.parseUrl request.url with
  | none => .error "MalformedSignature: request URL is invalid"
  | some url => do
      let lines ← headers.mapM (signingLine request url.pathAndQuery)
      pure (utf8 ("\n".intercalate lines))

def verifyCavageSignature (libraries : HttpLibraries) (signingString signature publicKeyPem : Bytes)
    (algorithm : String) : Except String Bool :=
  let algorithm := toAsciiLowercase algorithm
  if algorithm = "ed25519" ∨ algorithm = "ed25519-sha256" then
    match libraries.ed25519Verify signingString signature publicKeyPem with
    | some valid => .ok valid
    | none => .error "InvalidSignature: Ed25519 verification failed"
  else if algorithm = "rsa-sha256" ∨ algorithm = "hs2019" then
    match libraries.rsaVerify signingString signature publicKeyPem with
    | some valid => .ok valid
    | none =>
        if algorithm = "hs2019" then
          match libraries.ed25519Verify signingString signature publicKeyPem with
          | some valid => .ok valid
          | none => .error "InvalidSignature: hs2019 verification failed"
        else .error "InvalidSignature: RSA verification failed"
  else .error ("MalformedSignature: unsupported signature algorithm '" ++ algorithm ++ "'")

/-! ### The checks -/

/-- The date is compared with the clock in both directions. -/
def validateDateHeader (libraries : HttpLibraries) (now : Int)
    (request : HttpSignatureVerificationInput) (tolerance : Int) : Except String Unit :=
  match getHeader request.headers "date" with
  | none => .error "StaleDate: Date header is required"
  | some date =>
      match libraries.parseHttpDate date with
      | none => .error "StaleDate: Date header is malformed"
      | some parsed =>
          if parsed > now then
            if parsed - now > tolerance then
              .error "StaleDate: Date header is too far in the future"
            else .ok ()
          else if now - parsed > tolerance then .error "StaleDate: Date header is expired"
          else .ok ()

/-- The value of the first SHA-256 entry of a digest header. -/
def sha256Entry (digestHeader : String) : Option String :=
  (digestHeader.toList.splitOn ',').findSome? fun part =>
    match splitOnce '=' (trim (String.ofList part)) with
    | some (name, value) => if eqIgnoreAsciiCase name "sha-256" then some (trim value) else none
    | none => none

def validateDigestHeader (libraries : HttpLibraries) (request : HttpSignatureVerificationInput) :
    Except String Unit :=
  match getHeader request.headers "digest" with
  | none =>
      if request.hasBody then
        .error "DigestMismatch: Digest header is required for requests with a body"
      else .ok ()
  | some digestHeader =>
      match sha256Entry digestHeader with
      | none => .error "DigestMismatch: Digest header is missing SHA-256 value"
      | some entry =>
          match libraries.base64Decode entry with
          | none => .error "DigestMismatch: SHA-256 digest is not valid base64"
          | some expected =>
              if expected = libraries.sha256 (request.body.getD []) then .ok ()
              else .error "DigestMismatch: body digest does not match Digest header"

/-- A header that has to be signed. -/
def requireSigned (signedHeaders : List String) (required : String) : Except String Unit :=
  if required ∈ signedHeaders then .ok ()
  else .error ("MalformedSignature: required header '" ++ required ++ "' must be signed")

def validateRequiredSignedHeaders (request : HttpSignatureVerificationInput)
    (signedHeaders : List String) : Except String Unit := do
  ["(request-target)", "host", "date"].forM (requireSigned signedHeaders)
  if (request.hasBody || (getHeader request.headers "digest").isSome) && "digest" ∉ signedHeaders then
    .error "MalformedSignature: Digest header must be signed when a body is present"
  else .ok ()

/-! ### What the checks establish -/

variable {libraries : HttpLibraries} {request : HttpSignatureVerificationInput}

theorem requireSigned_ok {signedHeaders : List String} {required : String}
    (h : requireSigned signedHeaders required = .ok ()) : required ∈ signedHeaders := by
  unfold requireSigned at h
  split_ifs at h with hmem
  exact hmem

/-- The target, the host and the date are signed, and the digest whenever there is a body or a digest. -/
theorem validateRequiredSignedHeaders_ok {signedHeaders : List String}
    (h : validateRequiredSignedHeaders request signedHeaders = .ok ()) :
    "(request-target)" ∈ signedHeaders ∧ "host" ∈ signedHeaders ∧ "date" ∈ signedHeaders ∧
      (request.hasBody = true → "digest" ∈ signedHeaders) := by
  simp only [validateRequiredSignedHeaders, List.forM_eq_forM, List.forM_cons, Fallible.bind_eq_ok] at h
  obtain ⟨_, ⟨_, htarget, _, hhost, _, hdate, _⟩, hdigest⟩ := h
  refine ⟨requireSigned_ok htarget, requireSigned_ok hhost, requireSigned_ok hdate, fun hbody => ?_⟩
  split_ifs at hdigest with hmissing
  simpa [hbody] using hmissing

theorem validateDateHeader_ok {now tolerance : Int}
    (h : validateDateHeader libraries now request tolerance = .ok ()) :
    ∃ date parsed, getHeader request.headers "date" = some date ∧
      libraries.parseHttpDate date = some parsed ∧ |parsed - now| ≤ tolerance := by
  unfold validateDateHeader at h
  split at h
  · cases h
  · rename_i date hdate
    split at h
    · cases h
    · rename_i parsed hparsed
      refine ⟨date, parsed, hdate, hparsed, ?_⟩
      rw [abs_le]
      split_ifs at h <;> omega

/-- The digest of a request with a body is that of the body. -/
theorem validateDigestHeader_ok (hbody : request.hasBody = true)
    (h : validateDigestHeader libraries request = .ok ()) :
    ∃ digest entry, getHeader request.headers "digest" = some digest ∧
      sha256Entry digest = some entry ∧
      libraries.base64Decode entry = some (libraries.sha256 (request.body.getD [])) := by
  unfold validateDigestHeader at h
  split at h
  · rw [if_pos hbody] at h
    cases h
  · rename_i digest hdigest
    split at h
    · cases h
    · rename_i entry hentry
      split at h
      · cases h
      · rename_i expected hexpected
        split_ifs at h with hsame
        exact ⟨digest, entry, hdigest, hentry, hsame ▸ hexpected⟩

/-- The signing string is made of the lines of the signed headers. -/
theorem cavageSigningString_ok {headers : List String} {bytes : Bytes}
    (h : cavageSigningString libraries request headers = .ok bytes) :
    ∃ url lines, libraries.parseUrl request.url = some url ∧
      headers.mapM (signingLine request url.pathAndQuery) = .ok lines ∧
      bytes = utf8 ("\n".intercalate lines) := by
  unfold cavageSigningString at h
  split at h
  · cases h
  · rename_i url hurl
    obtain ⟨lines, hlines, hbytes⟩ := Fallible.bind_eq_ok.mp h
    cases hbytes
    exact ⟨url, lines, hurl, hlines, rfl⟩

theorem signingLine_target (request : HttpSignatureVerificationInput) (pathAndQuery : String) :
    signingLine request pathAndQuery "(request-target)" =
      .ok ("(request-target): " ++ toAsciiLowercase request.method ++ " " ++ pathAndQuery) := rfl

theorem signingLine_ok {pathAndQuery header line : String} (hheader : header ≠ "(request-target)")
    (h : signingLine request pathAndQuery header = .ok line) :
    ∃ value, getHeader request.headers header = some value ∧
      line = toAsciiLowercase header ++ ": " ++ value := by
  rw [signingLine, if_neg hheader] at h
  split at h
  · rename_i value hvalue
    cases h
    exact ⟨value, hvalue, rfl⟩
  · cases h

/-! ### A signature binds the request -/

/-- The URL parser leaves no line break in a URL and ends the path at the first question mark. -/
def HttpLibraries.CleanUrls (libraries : HttpLibraries) : Prop :=
  ∀ text url, libraries.parseUrl text = some url →
    '\n' ∉ url.path.toList ∧ '?' ∉ url.path.toList ∧ ∀ query ∈ url.query, '\n' ∉ query.toList

/-- The values of the headers are one line each, and the method is one word. -/
structure HttpSignatureVerificationInput.Plain (request : HttpSignatureVerificationInput) : Prop where
  values : ∀ entry ∈ request.headers, '\n' ∉ entry.2.toList
  method : ' ' ∉ request.method.toList

theorem notMem_toAsciiLowercase {text : String} (h : ' ' ∉ text.toList) :
    ' ' ∉ (toAsciiLowercase text).toList := by
  simp only [toAsciiLowercase, String.toList_ofList, List.mem_map, not_exists, not_and]
  intro c hc hlower
  -- Only capital letters change, and they become letters.
  have hsame : c = ' ' := by
    unfold Char.toLower at hlower
    split_ifs at hlower with hupper
    · have hval : (c.val + 32).toNat = 32 := congrArg (fun c => c.val.toNat) hlower
      have hlow : 65 ≤ c.val.toNat := UInt32.le_iff_toNat_le.mp hupper.1
      have hhigh : c.val.toNat ≤ 90 := UInt32.le_iff_toNat_le.mp hupper.2
      rw [UInt32.toNat_add] at hval
      have hthirty : (32 : UInt32).toNat = 32 := rfl
      omega
    · exact hlower
  exact h (hsame ▸ hc)

theorem notMem_pathAndQuery (hclean : libraries.CleanUrls) {text : String} {url : Url}
    (hurl : libraries.parseUrl text = some url) : '\n' ∉ url.pathAndQuery.toList := by
  obtain ⟨hpath, _, hquery⟩ := hclean text url hurl
  unfold Url.pathAndQuery
  cases hq : url.query with
  | none => exact hpath
  | some query => simpa [hpath] using hquery query hq

/-- The path and the query can be told from their concatenation. -/
theorem pathAndQuery_injective (hclean : libraries.CleanUrls) {text text' : String} {url url' : Url}
    (hurl : libraries.parseUrl text = some url) (hurl' : libraries.parseUrl text' = some url')
    (h : url.pathAndQuery = url'.pathAndQuery) : url.path = url'.path ∧ url.query = url'.query := by
  obtain ⟨_, hmark, _⟩ := hclean text url hurl
  obtain ⟨_, hmark', _⟩ := hclean text' url' hurl'
  have hlist := congrArg String.toList h
  unfold Url.pathAndQuery at hlist
  cases hq : url.query with
  | none =>
      cases hq' : url'.query with
      | none => exact ⟨String.toList_inj.mp (by simpa [hq, hq'] using hlist), rfl⟩
      | some query => simp [hq, hq'] at hlist; simp [hlist] at hmark
  | some query =>
      cases hq' : url'.query with
      | none => simp [hq, hq'] at hlist; simp [← hlist] at hmark'
      | some query' =>
          simp only [hq, hq', String.toList_append] at hlist
          obtain ⟨hpath, hquery⟩ := Lines.cut_unique hmark hmark' (by simpa using hlist)
          exact ⟨String.toList_inj.mp hpath, by rw [String.toList_inj.mp hquery]⟩

variable {first second : HttpSignatureVerificationInput}

/-- The lines of one signed header in two requests. -/
theorem signingLine_apart (hfirst : first.Plain) (hsecond : second.Plain)
    {pathAndQuery pathAndQuery' header line line' : String} (hpath : '\n' ∉ pathAndQuery.toList)
    (hpath' : '\n' ∉ pathAndQuery'.toList) (hline : signingLine first pathAndQuery header = .ok line)
    (hline' : signingLine second pathAndQuery' header = .ok line') :
    Lines.Apart '\n' line.toList line'.toList := by
  by_cases htarget : header = "(request-target)"
  · subst htarget
    cases hline
    cases hline'
    simp only [String.toList_append, List.append_assoc]
    refine Lines.Apart.append_left _ ?_
    exact Lines.apart_of_mark (notMem_toAsciiLowercase hfirst.method)
      (notMem_toAsciiLowercase hsecond.method) (Lines.apart_of_notMem hpath hpath')
  · obtain ⟨value, hvalue, rfl⟩ := signingLine_ok htarget hline
    obtain ⟨value', hvalue', rfl⟩ := signingLine_ok htarget hline'
    simp only [String.toList_append]
    refine Lines.Apart.append_left _ (Lines.apart_of_notMem ?_ ?_)
    · exact getHeader_forall (P := fun value => '\n' ∉ value.toList) hfirst.values hvalue
    · exact getHeader_forall (P := fun value => '\n' ∉ value.toList) hsecond.values hvalue'

/-- Requests with the same signing string have the same line for every signed header. -/
theorem signingLine_eq (hclean : libraries.CleanUrls) (hfirst : first.Plain) (hsecond : second.Plain)
    {headers : List String} {bytes : Bytes}
    (hbytes : cavageSigningString libraries first headers = .ok bytes)
    (hbytes' : cavageSigningString libraries second headers = .ok bytes) :
    ∃ url url', libraries.parseUrl first.url = some url ∧ libraries.parseUrl second.url = some url' ∧
      ∀ header ∈ headers, ∃ line, signingLine first url.pathAndQuery header = .ok line ∧
        signingLine second url'.pathAndQuery header = .ok line := by
  obtain ⟨url, lines, hurl, hlines, rfl⟩ := cavageSigningString_ok hbytes
  obtain ⟨url', lines', hurl', hlines', hsame⟩ := cavageSigningString_ok hbytes'
  have hapart : List.Forall₂ (fun line line' : String => Lines.Apart '\n' line.toList line'.toList)
      lines lines' :=
    Fallible.forall₂_of_mapM_eq_ok (fun header _ line line' hline hline' =>
      signingLine_apart hfirst hsecond (notMem_pathAndQuery hclean hurl)
        (notMem_pathAndQuery hclean hurl') hline hline') hlines hlines'
  have hjoined : ['\n'].intercalate (lines.map String.toList) =
      ['\n'].intercalate (lines'.map String.toList) := by
    have htext := congrArg String.toList (utf8_injective hsame)
    rwa [String.toList_intercalate, String.toList_intercalate] at htext
  have hlists : lines.map String.toList = lines'.map String.toList :=
    Lines.eq_of_intercalate_eq
      (List.forall₂_map_left_iff.mpr (List.forall₂_map_right_iff.mpr hapart)) hjoined
  obtain rfl : lines = lines' :=
    List.map_injective_iff.mpr (fun _ _ => String.toList_inj.mp) hlists
  refine ⟨url, url', hurl, hurl', fun header hheader => ?_⟩
  obtain ⟨line, _, hline⟩ := Fallible.exists_of_mapM_eq_ok hlines hheader
  exact ⟨line, hline, (Fallible.eq_of_mapM_eq_ok hlines hlines' hheader).symm.trans hline⟩

/-- Two requests with bodies whose required headers are signed and whose signing strings are the same
have the same method, the same path and query and the same value for every signed header; if both pass
the digest check and no two bodies have the same hash, they have the same body. -/
theorem signature_binds_request (libraries : HttpLibraries) (hclean : libraries.CleanUrls)
    (headers : List String) (first second : HttpSignatureVerificationInput)
    (hrequired : validateRequiredSignedHeaders first headers = .ok ())
    (_hrequired' : validateRequiredSignedHeaders second headers = .ok ())
    (hbody : first.hasBody = true) (hbody' : second.hasBody = true)
    (hplain : first.Plain) (hplain' : second.Plain) (bytes : Bytes)
    (hbytes : cavageSigningString libraries first headers = .ok bytes)
    (hbytes' : cavageSigningString libraries second headers = .ok bytes) :
    toAsciiLowercase first.method = toAsciiLowercase second.method ∧
      (∃ url url', libraries.parseUrl first.url = some url ∧
        libraries.parseUrl second.url = some url' ∧ url.path = url'.path ∧ url.query = url'.query) ∧
      (∀ header ∈ headers, header ≠ "(request-target)" →
        getHeader first.headers header = getHeader second.headers header) ∧
      (validateDigestHeader libraries first = .ok () → validateDigestHeader libraries second = .ok () →
        Function.Injective libraries.sha256 → first.body = second.body) := by
  obtain ⟨url, url', hurl, hurl', hlines⟩ := signingLine_eq hclean hplain hplain' hbytes hbytes'
  obtain ⟨htarget, _, _, hdigest⟩ := validateRequiredSignedHeaders_ok hrequired
  have hvalues : ∀ header ∈ headers, header ≠ "(request-target)" →
      getHeader first.headers header = getHeader second.headers header := by
    intro header hmem hheader
    obtain ⟨line, hline, hline'⟩ := hlines header hmem
    obtain ⟨value, hvalue, rfl⟩ := signingLine_ok hheader hline
    obtain ⟨value', hvalue', hsame⟩ := signingLine_ok hheader hline'
    rw [hvalue, hvalue', (String.append_right_inj _).mp hsame]
  obtain ⟨hmethod, hpathAndQuery⟩ :
      toAsciiLowercase first.method = toAsciiLowercase second.method ∧
        url.pathAndQuery = url'.pathAndQuery := by
    obtain ⟨line, hline, hline'⟩ := hlines _ htarget
    rw [signingLine_target] at hline hline'
    have htext := congrArg String.toList (Except.ok.inj (hline.trans hline'.symm))
    simp only [String.toList_append, List.append_assoc] at htext
    obtain ⟨hword, hrest⟩ := Lines.cut_unique (notMem_toAsciiLowercase hplain.method)
      (notMem_toAsciiLowercase hplain'.method) (List.append_cancel_left htext)
    exact ⟨String.toList_inj.mp hword, String.toList_inj.mp hrest⟩
  refine ⟨hmethod, ⟨url, url', hurl, hurl',
    pathAndQuery_injective hclean hurl hurl' hpathAndQuery⟩, hvalues, ?_⟩
  intro hchecked hchecked' hinjective
  obtain ⟨digest, entry, hheader, hentry, hhash⟩ := validateDigestHeader_ok hbody hchecked
  obtain ⟨digest', entry', hheader', hentry', hhash'⟩ := validateDigestHeader_ok hbody' hchecked'
  have hdigests : digest = digest' := by
    rw [hvalues "digest" (hdigest hbody) (by decide), hheader'] at hheader
    exact (Option.some.inj hheader).symm
  subst hdigests
  obtain rfl : entry = entry' := Option.some.inj (hentry.symm.trans hentry')
  have hbodies := hinjective (Option.some.inj (hhash.symm.trans hhash'))
  rw [first.body_eq_some hbody, second.body_eq_some hbody', hbodies]

/-- The SHA-256 hash of the empty object. -/
def emptyObjectHash : Bytes :=
  [68, 19, 111, 163, 85, 179, 103, 138, 17, 70, 173, 22, 247, 232, 100, 158,
    148, 251, 79, 194, 31, 231, 126, 131, 16, 192, 96, 246, 28, 170, 255, 138]

/-- Libraries for requests to one inbox with the body of an empty object, whose hash is the real one. -/
def emptyObjectLibraries : HttpLibraries where
  parseUrl text :=
    if text = "https://local.example/ap/accounts/alice-nanoid/inbox" then
      some { scheme := "https", host := some "local.example", port := none
             portOrKnownDefault := some 443, path := "/ap/accounts/alice-nanoid/inbox", query := none }
    else none
  withoutFragment _ := none
  base64Decode text :=
    if text = "RBNvo1WzZ4oRRq0W9+hknpT7T8If536DEMBg9hyq/4o=" then some emptyObjectHash else none
  parseHttpDate _ := none
  sha256 body := if body = utf8 "\x7b\x7d" then emptyObjectHash else 0 :: body
  rsaVerify _ _ _ := none
  ed25519Verify _ _ _ := none
  activityFromSlice _ := none

/-- A signed request to the inbox of alice. -/
def emptyObjectRequest (method userAgent : String) : HttpSignatureVerificationInput where
  method := method
  url := "https://local.example/ap/accounts/alice-nanoid/inbox"
  headers := [("host", "local.example"), ("date", "Sun, 06 Nov 1994 08:49:37 GMT"),
    ("digest", "SHA-256=RBNvo1WzZ4oRRq0W9+hknpT7T8If536DEMBg9hyq/4o="), ("user-agent", userAgent)]
  body := some (utf8 "\x7b\x7d")

/-- Requests that differ in the case of the method and in a header that is not signed. -/
theorem signature_binds_request_emptyObject :
    (emptyObjectRequest "POST" "a").body = (emptyObjectRequest "post" "b").body := by
  have hclean : emptyObjectLibraries.CleanUrls := by
    intro text url h
    simp only [emptyObjectLibraries] at h
    split_ifs at h
    cases h
    decide +kernel
  have hinjective : Function.Injective emptyObjectLibraries.sha256 := by
    intro left right h
    simp only [emptyObjectLibraries] at h
    split_ifs at h with hleft hright hright
    · rw [hleft, hright]
    · cases h
    · cases h
    · exact (List.cons.inj h).2
  have hplain : ∀ userAgent, '\n' ∉ userAgent.toList →
      (emptyObjectRequest "POST" userAgent).Plain ∧ (emptyObjectRequest "post" userAgent).Plain := by
    intro userAgent hagent
    constructor <;> constructor <;> simp [emptyObjectRequest, hagent]
  exact (signature_binds_request emptyObjectLibraries hclean
    ["(request-target)", "host", "date", "digest"] _ _ (by decide +kernel) (by decide +kernel)
    (by decide +kernel) (by decide +kernel) (hplain "a" (by decide)).1 (hplain "b" (by decide)).2 _
    rfl (by decide +kernel)).2.2.2 (by decide +kernel) (by decide +kernel) hinjective

end Emumet
