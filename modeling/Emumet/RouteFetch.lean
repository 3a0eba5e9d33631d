import Emumet.DriverFetch
import Emumet.RouteAuthenticity

/-! The inbox route with the network its key documents come from. The route fetches the document of the
signing key twice, to verify the signature and to compare the owner of the key with the actor. -/

namespace Emumet

namespace KeyFetch

open Exclusion (aliceDb bobUrl)

/-- The environment of a request whose key documents are fetched. -/
def fetching (libraries : FetchLibraries) (client : Client) (verifying owning : Nat → Exchange)
    (env : InboxEnv) : InboxEnv :=
  { env with
    fetchForSignature := fetchDocument libraries client verifying
    fetchForOwner := fetchDocument libraries client owning }

/-- The document under a URL was fetched in at most six vetted requests, and is no longer than one
mebibyte. -/
def Fetched (libraries : FetchLibraries) (client : Client) (network : Nat → Exchange) (url : FetchUrl)
    (document : Json) : Prop :=
  let sent := (fetchLimitedJson libraries client maxResponseBytes network url).sent
  Confined libraries .httpSigning (validateFetchUrl libraries) network url sent ∧
    Received libraries maxResponseBytes network sent document

/-- The Signature header of a request has been verified with a key, and the key and its owner were each
read of a document that was fetched from the URL of the actor. -/
structure SignedByActor (http : HttpLibraries) (libraries : FetchLibraries) (client : Client)
    (verifying owning : Nat → Exchange) (input : HttpSignatureVerificationInput) (actor : String)
    (parsed : CavageSignature) (key owner : ActorPublicKey) (url : FetchUrl) : Prop where
  header : ∃ header, getHeader input.headers "signature" = some header ∧
    parseCavageSignature http.base64Decode header = .ok parsed
  verified : ∃ signingString, cavageSigningString http input parsed.headers = .ok signingString ∧
    verifyCavageSignature http signingString parsed.signature (utf8 key.publicKeyPem) parsed.algorithm =
      .ok true
  named : ∃ text, http.withoutFragment parsed.keyId = some text ∧ libraries.parse text = some url ∧
    trimEndSlashes text = trimEndSlashes actor
  keyId : key.id = parsed.keyId ∧ owner.id = parsed.keyId
  keyFetched : ∃ document, Fetched libraries client verifying url document ∧ ContainsKey document key
  ownerFetched : ∃ document, Fetched libraries client owning url document ∧ ContainsKey document owner
  owned : sameActivitypubId owner.owner actor = true

/-- An activity that the inbox route hands to the handlers is signed with the key its Signature header
names, out of a document that was fetched, in vetted requests, from the URL of its actor; so is the
document that names the owner of the key. -/
theorem accepted_activity_rests_on_vetted_requests (http : HttpLibraries) (publicBaseUrl : String)
    (verifier : HttpSignatureVerifier) (htest : verifier.testStaticActorKeys = [])
    (hstatic : verifier.staticActorKeys = []) (libraries : FetchLibraries) (client : Client)
    (verifying owning : Nat → Exchange) (hverifying : ∀ n, Documented libraries (verifying n))
    (howning : ∀ n, Documented libraries (owning n)) (env : InboxEnv) (request : InboxRequest)
    (db : Db) (dto : InboxActivityDto)
    (h : checkedActivity http publicBaseUrl verifier (fetching libraries client verifying owning env)
      request db = .ok dto) :
    ∃ parsed key owner url, SignedByActor http libraries client verifying owning
      (verificationInput publicBaseUrl env request) dto.activity.actor parsed key owner url := by
  obtain ⟨parsed, signingString, key, owner, hpassed⟩ := checkedActivity_ok h
  obtain ⟨text, url, document, htext, hurl, hid, hcontains, hfetched⟩ :=
    fetchActorKey_fetched htest hstatic hverifying hpassed.signature.fetched
  obtain ⟨text', url', owned, htext', hurl', hownerId, hownerContains, hownerFetched⟩ :=
    fetchActorKey_fetched htest hstatic howning hpassed.ownerKey
  obtain rfl : text = text' := Option.some.inj (htext.symm.trans htext')
  obtain rfl : url = url' := Option.some.inj (hurl.symm.trans hurl')
  have hactor : trimEndSlashes text = trimEndSlashes dto.activity.actor := by
    simpa [signatureKeyDocumentMatchesActor, htext, sameActivitypubId] using hpassed.document
  exact ⟨parsed, key, owner, url,
    { header := hpassed.signature.header
      verified := ⟨signingString, hpassed.signature.signed, hpassed.signature.verifies⟩
      named := ⟨text, htext, hurl, hactor⟩
      keyId := ⟨hid, hownerId⟩
      keyFetched := ⟨document, hfetched, hcontains⟩
      ownerFetched := ⟨owned, hownerFetched, hownerContains⟩
      owned := hpassed.ownerMatches }⟩

/-- Bob's document as the network delivers it. -/
def bobDocument : Json :=
  .object [("id", .string bobUrl), ("publicKey", .object [("id", .string bobKeyId),
    ("owner", .string bobUrl), ("publicKeyPem", .string bobPublicKeyPem)])]

def bobDocumentLibraries : FetchLibraries := remoteLibraries bobDocument none

/-- Alice's server fetches it behind a redirect. -/
def bobFetching : InboxEnv :=
  fetching bobDocumentLibraries ⟨[]⟩ (remoteNetwork bobDocument) (remoteNetwork bobDocument) bobEnv

/-- Bob's Follow reaches the handlers with a key out of his document. -/
theorem accepted_activity_rests_on_vetted_requests_bob :
    ∃ dto, checkedActivity (bobLibraries "local.example") "https://local.example" ⟨[], []⟩ bobFetching
        (bobRequest ["local.example"]) aliceDb = .ok dto ∧
      ∃ parsed key owner url, SignedByActor (bobLibraries "local.example") bobDocumentLibraries ⟨[]⟩
        (remoteNetwork bobDocument) (remoteNetwork bobDocument)
        (verificationInput "https://local.example" bobEnv (bobRequest ["local.example"]))
        dto.activity.actor parsed key owner url := by
  have hfetched : fetchActorKey (bobLibraries "local.example") ⟨[], []⟩
      (fetchDocument bobDocumentLibraries ⟨[]⟩ (remoteNetwork bobDocument)) bobKeyId = .ok bobKey := by
    decide +kernel
  have hchecked := sentFor_oneHost.checkedActivity_eq hfetched hfetched
  exact ⟨_, hchecked, accepted_activity_rests_on_vetted_requests (bobLibraries "local.example")
    "https://local.example" ⟨[], []⟩ rfl rfl bobDocumentLibraries ⟨[]⟩ (remoteNetwork bobDocument)
    (remoteNetwork bobDocument) (documented_remoteNetwork _ _) (documented_remoteNetwork _ _) bobEnv
    (bobRequest ["local.example"]) aliceDb _ hchecked⟩

end KeyFetch

end Emumet
