import Emumet.DriverCavage

/-! The verifier of HTTP signatures. The key of a signature is fetched from the document its id names;
what the network answers is an argument. -/

namespace Emumet

structure ActorPublicKey where
  id : String
  owner : String
  publicKeyPem : String
  deriving DecidableEq, Repr

/-! ### Keys in actor documents -/

def keyValueMatchesKeyId (keyId : String) (value : Json) : Bool :=
  (value.get? "id").bind Json.asStr? = some keyId

def publicKeyValueToActorKey (keyId : String) (value : Json) (ownerFallback : Option Json) :
    Except String ActorPublicKey :=
  match (value.get? "publicKeyPem").bind Json.asStr? with
  | none => .error "publicKeyPem field is missing"
  | some publicKeyPem =>
      .ok { id := ((value.get? "id").bind Json.asStr?).getD keyId
            owner := (((value.get? "owner").or ownerFallback).bind Json.asStr?).getD ""
            publicKeyPem }

/-- A document may be a key itself, or hold one key or an array of them. -/
def actorPublicKeyFromJson (keyId : String) (document : Json) : Except String ActorPublicKey :=
  if (document.get? "publicKeyPem").isSome && keyValueMatchesKeyId keyId document then
    publicKeyValueToActorKey keyId document (document.get? "owner")
  else
    match document.get? "publicKey" with
    | none => .error "publicKey field is missing"
    | some (.object fields) =>
        if keyValueMatchesKeyId keyId (.object fields) then
          publicKeyValueToActorKey keyId (.object fields) (document.get? "id")
        else .error "publicKey.id does not match keyId"
    | some (.array keys) =>
        match keys.find? (keyValueMatchesKeyId keyId) with
        | some value => publicKeyValueToActorKey keyId value (document.get? "id")
        | none => .error "publicKey array does not contain a key matching keyId"
    | some _ => .error "publicKey field is not an object"

/-- The values of a document that can be keys. -/
def keyValues (document : Json) : List Json :=
  document :: match document.get? "publicKey" with
    | some (.array keys) => keys
    | some value => [value]
    | none => []

/-- The document holds the key; a key that names no owner is the document's own. -/
def ContainsKey (document : Json) (key : ActorPublicKey) : Prop :=
  ∃ value ∈ keyValues document, (value.get? "id").bind Json.asStr? = some key.id ∧
    (value.get? "publicKeyPem").bind Json.asStr? = some key.publicKeyPem ∧
    ∃ ownerFallback ∈ [document.get? "owner", document.get? "id"],
      key.owner = (((value.get? "owner").or ownerFallback).bind Json.asStr?).getD ""

theorem publicKeyValueToActorKey_ok {keyId : String} {value document : Json}
    {ownerFallback : Option Json} {key : ActorPublicKey} (hvalue : value ∈ keyValues document)
    (hfallback : ownerFallback ∈ [document.get? "owner", document.get? "id"])
    (hid : keyValueMatchesKeyId keyId value = true)
    (h : publicKeyValueToActorKey keyId value ownerFallback = .ok key) :
    key.id = keyId ∧ ContainsKey document key := by
  have hfound : (value.get? "id").bind Json.asStr? = some keyId := by
    simpa [keyValueMatchesKeyId] using hid
  unfold publicKeyValueToActorKey at h
  split at h
  · cases h
  · rename_i publicKeyPem hpem
    cases h
    rw [hfound, Option.getD_some]
    exact ⟨rfl, value, hvalue, hfound, hpem, ownerFallback, hfallback, rfl⟩

/-- The key that is returned has the id that was asked for and is in the document. -/
theorem actorPublicKeyFromJson_ok {keyId : String} {document : Json} {key : ActorPublicKey}
    (h : actorPublicKeyFromJson keyId document = .ok key) :
    key.id = keyId ∧ ContainsKey document key := by
  unfold actorPublicKeyFromJson at h
  split_ifs at h with hdocument
  · have hid := (Bool.and_eq_true_iff.mp hdocument).2
    exact publicKeyValueToActorKey_ok List.mem_cons_self (by simp) hid h
  · split at h
    · cases h
    · rename_i fields hkey
      split_ifs at h with hid
      exact publicKeyValueToActorKey_ok (by simp [keyValues, hkey]) (by simp) hid h
    · rename_i keys hkeys
      split at h
      · rename_i value hvalue
        have hmem : value ∈ keyValues document := by
          simp [keyValues, hkeys, List.mem_of_find?_eq_some hvalue]
        exact publicKeyValueToActorKey_ok hmem (by simp) (List.find?_some hvalue) h
      · cases h
    · cases h

/-! ### The verifier -/

/-- Keys that are returned without a fetch; a production build never adds any. -/
structure HttpSignatureVerifier where
  testStaticActorKeys : List (String × ActorPublicKey)
  staticActorKeys : List (String × ActorPublicKey)

def HttpSignatureVerifier.dateTolerance : Int := 5 * 60 * 1000000000

/-- The key under the id itself, or under its URL without the fragment. -/
def cachedActorKey (libraries : HttpLibraries) (keys : List (String × ActorPublicKey))
    (keyId : String) : Option ActorPublicKey :=
  (keys.lookup keyId).or ((libraries.withoutFragment keyId).bind fun url => keys.lookup url)

def usableKey : Except String ActorPublicKey → Result ActorPublicKey
  | .ok key => .ok key
  | .error message => reject .Rejected
      ("KeyFetchFailed: actor document does not contain a usable public key: " ++ message)

def fetchActorKey (libraries : HttpLibraries) (verifier : HttpSignatureVerifier)
    (fetch : String → Result Json) (keyId : String) : Result ActorPublicKey :=
  match cachedActorKey libraries verifier.testStaticActorKeys keyId with
  | some key => .ok key
  | none =>
      match verifier.staticActorKeys.lookup keyId, libraries.withoutFragment keyId with
      | some key, _ => .ok key
      | none, none => reject .Rejected "MalformedSignature: invalid keyId URL"
      | none, some url =>
          match verifier.staticActorKeys.lookup url with
          | some key => .ok key
          | none => do usableKey (actorPublicKeyFromJson keyId (← fetch url))

inductive SignatureVerificationResult where
  | Valid (keyId : String)
  | Invalid (reason : String)
  deriving DecidableEq, Repr

/-- The key id of a valid signature, or the reason against it. -/
def checkSignature (libraries : HttpLibraries) (verifier : HttpSignatureVerifier) (now : Int)
    (fetch : String → Result Json) (request : HttpSignatureVerificationInput) :
    Except String String := do
  if (getHeader request.headers "signature-input").isSome then
    .error "RFC 9421 verification is not implemented"
  else
    match getHeader request.headers "signature" with
    | none => .error "MissingSignature: Signature header is required"
    | some signatureHeader =>
        match parseCavageSignature libraries.base64Decode signatureHeader with
        | .error message => .error ("MalformedSignature: " ++ message)
        | .ok parsed =>
            validateRequiredSignedHeaders request parsed.headers
            validateDateHeader libraries now request HttpSignatureVerifier.dateTolerance
            validateDigestHeader libraries request
            let signingString ← cavageSigningString libraries request parsed.headers
            match fetchActorKey libraries verifier fetch parsed.keyId with
            | .error _ => .error "KeyFetchFailed"
            | .ok actorKey =>
                let valid ← verifyCavageSignature libraries signingString parsed.signature
                  (utf8 actorKey.publicKeyPem) parsed.algorithm
                if valid then .ok parsed.keyId
                else .error "InvalidSignature: signature does not match"

def verify (libraries : HttpLibraries) (verifier : HttpSignatureVerifier) (now : Int)
    (fetch : String → Result Json) (request : HttpSignatureVerificationInput) :
    SignatureVerificationResult :=
  match checkSignature libraries verifier now fetch request with
  | .ok keyId => .Valid keyId
  | .error reason => .Invalid reason

/-! ### What a valid signature establishes -/

variable {libraries : HttpLibraries} {verifier : HttpSignatureVerifier} {now : Int}
  {fetch : String → Result Json} {request : HttpSignatureVerificationInput}

/-- Without cached keys the key comes from the document that the id names. -/
theorem fetchActorKey_ok {keyId : String} {key : ActorPublicKey}
    (htest : verifier.testStaticActorKeys = []) (hstatic : verifier.staticActorKeys = [])
    (h : fetchActorKey libraries verifier fetch keyId = .ok key) :
    ∃ url document, libraries.withoutFragment keyId = some url ∧ fetch url = .ok document ∧
      key.id = keyId ∧ ContainsKey document key := by
  have hcache : cachedActorKey libraries [] keyId = none := by
    cases hurl : libraries.withoutFragment keyId <;> simp [cachedActorKey, hurl]
  simp only [fetchActorKey, htest, hstatic, hcache, List.lookup_nil] at h
  split at h
  · rename_i hfound
    cases hfound
  · cases h
  · rename_i url _ hurl
    obtain ⟨document, hdocument, husable⟩ := Fallible.bind_eq_ok.mp h
    cases hkey : actorPublicKeyFromJson keyId document with
    | error message => simp [hkey, usableKey, reject] at husable
    | ok found =>
        obtain rfl : found = key := by simpa [hkey, usableKey] using husable
        exact ⟨url, document, hurl, hdocument, actorPublicKeyFromJson_ok hkey⟩

/-- A signature verifies only if one of the primitives says so. -/
theorem verifyCavageSignature_ok {signingString signature publicKeyPem : Bytes} {algorithm : String}
    (h : verifyCavageSignature libraries signingString signature publicKeyPem algorithm = .ok true) :
    libraries.rsaVerify signingString signature publicKeyPem = some true ∨
      libraries.ed25519Verify signingString signature publicKeyPem = some true := by
  simp only [verifyCavageSignature] at h
  split at h
  · split at h
    · rename_i valid hvalid
      cases h
      exact Or.inr hvalid
    · cases h
  · split at h
    · split at h
      · rename_i valid hvalid
        cases h
        exact Or.inl hvalid
      · split at h
        · split at h
          · rename_i valid hvalid
            cases h
            exact Or.inr hvalid
          · cases h
        · cases h
    · cases h

/-- A valid signature: the parts of its header, the checks it passed, its signing string and the key
it was verified with. -/
structure ValidSignature (libraries : HttpLibraries) (verifier : HttpSignatureVerifier) (now : Int)
    (fetch : String → Result Json) (request : HttpSignatureVerificationInput)
    (parsed : CavageSignature) (signingString : Bytes) (key : ActorPublicKey) : Prop where
  header : ∃ header, getHeader request.headers "signature" = some header ∧
    parseCavageSignature libraries.base64Decode header = .ok parsed
  required : validateRequiredSignedHeaders request parsed.headers = .ok ()
  date : validateDateHeader libraries now request HttpSignatureVerifier.dateTolerance = .ok ()
  digest : validateDigestHeader libraries request = .ok ()
  signed : cavageSigningString libraries request parsed.headers = .ok signingString
  fetched : fetchActorKey libraries verifier fetch parsed.keyId = .ok key
  verifies : verifyCavageSignature libraries signingString parsed.signature (utf8 key.publicKeyPem)
    parsed.algorithm = .ok true

theorem verify_valid {keyId : String}
    (h : verify libraries verifier now fetch request = .Valid keyId) :
    ∃ parsed signingString key, parsed.keyId = keyId ∧
      ValidSignature libraries verifier now fetch request parsed signingString key := by
  unfold verify at h
  split at h
  · rename_i found hcheck
    cases h
    unfold checkSignature at hcheck
    split_ifs at hcheck
    split at hcheck
    · cases hcheck
    · rename_i header hheader
      split at hcheck
      · cases hcheck
      · rename_i parsed hparsed
        simp only [Fallible.bind_eq_ok] at hcheck
        obtain ⟨_, hrequired, _, hdate, _, hdigest, signingString, hsigned, hrest⟩ := hcheck
        split at hrest
        · cases hrest
        · rename_i key hkey
          obtain ⟨valid, hvalid, hresult⟩ := Fallible.bind_eq_ok.mp hrest
          split_ifs at hresult with htrue
          cases hresult
          subst htrue
          exact ⟨parsed, signingString, key, rfl, ⟨header, hheader, hparsed⟩, hrequired, hdate, hdigest,
            hsigned, hkey, hvalid⟩
  · cases h

/-- A signature is accepted that passes the checks, unless the request asks for the newer scheme. -/
theorem ValidSignature.verify_eq {parsed : CavageSignature} {signingString : Bytes} {key : ActorPublicKey}
    (h : ValidSignature libraries verifier now fetch request parsed signingString key)
    (hscheme : (getHeader request.headers "signature-input").isSome = false) :
    verify libraries verifier now fetch request = .Valid parsed.keyId := by
  obtain ⟨header, hheader, hparsed⟩ := h.header
  have hcheck : checkSignature libraries verifier now fetch request = .ok parsed.keyId := by
    simp only [checkSignature, hscheme, hheader, hparsed, h.required, h.date, h.digest, h.signed, h.fetched,
      h.verifies, bind, Except.bind, Bool.false_eq_true, if_false, if_true]
  rw [verify, hcheck]

end Emumet
