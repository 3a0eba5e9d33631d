import Emumet.ServiceRemoteActor

/-! Signing keys and the actor document of a local account, as other servers fetch it. -/

namespace Emumet

abbrev SigningKeyId := Int

inductive SigningAlgorithm where
  | Rsa2048
  | Ed25519
  deriving DecidableEq, Repr

structure EncryptedPrivateKey where
  ciphertext : String
  nonce : String
  salt : String
  algorithm : SigningAlgorithm
  deriving DecidableEq, Repr

structure SigningKey where
  id : SigningKeyId
  accountId : AccountId
  algorithm : SigningAlgorithm
  encryptedPrivateKey : EncryptedPrivateKey
  publicKeyPem : String
  keyIdUri : String
  createdAt : OffsetDateTime
  revokedAt : Option OffsetDateTime
  deriving DecidableEq, Repr

/-- The rows of `signing_keys` that are not revoked; the query names no order. -/
def SigningKeyRepository.findActiveByAccountId (signingKeys : List SigningKey) (accountId : AccountId) :
    List SigningKey :=
  signingKeys.filter fun key => key.accountId = accountId && key.revokedAt.isNone

/-- The first of the active keys, which the actor document shows and deliveries are signed with. -/
def activeSigningKey (signingKeys : List SigningKey) (accountId : AccountId) : Result SigningKey :=
  match (SigningKeyRepository.findActiveByAccountId signingKeys accountId).head? with
  | some signingKey => .ok signingKey
  | none => reject .NotFound "No active signing key found for account"

/-! ### URLs of an actor -/

namespace ActorUrlBuilder

def inbox (publicBaseUrl accountNanoid : String) : String :=
  localActorUrl publicBaseUrl accountNanoid ++ "/inbox"

def outbox (publicBaseUrl accountNanoid : String) : String :=
  localActorUrl publicBaseUrl accountNanoid ++ "/outbox"

def followers (publicBaseUrl accountNanoid : String) : String :=
  localActorUrl publicBaseUrl accountNanoid ++ "/followers"

def following (publicBaseUrl accountNanoid : String) : String :=
  localActorUrl publicBaseUrl accountNanoid ++ "/following"

def keyId (publicBaseUrl accountNanoid : String) : String :=
  localActorUrl publicBaseUrl accountNanoid ++ "#main-key"

end ActorUrlBuilder

/-! ### The document -/

structure PublicKey where
  id : String
  owner : String
  publicKeyPem : String
  deriving DecidableEq, Repr

structure ActorDocument where
  context : List Json
  id : String
  objectType : String
  preferredUsername : String
  name : Option String
  summary : Option String
  iconUrl : Option String
  bannerUrl : Option String
  url : String
  inbox : String
  outbox : String
  followers : String
  following : String
  publicKey : PublicKey

namespace ActorDocument

def new (publicBaseUrl accountNanoid preferredUsername : String)
    (displayName summary iconUrl bannerUrl : Option String) (publicKeyPem publicKeyId : String) :
    ActorDocument where
  context := [.string activitystreamsContext,
    .object [("publicKey", .string "https://w3id.org/security/v1#publicKey")]]
  id := localActorUrl publicBaseUrl accountNanoid
  objectType := "Person"
  preferredUsername := preferredUsername
  name := displayName
  summary := summary
  iconUrl := iconUrl
  bannerUrl := bannerUrl
  url := localActorUrl publicBaseUrl accountNanoid
  inbox := ActorUrlBuilder.inbox publicBaseUrl accountNanoid
  outbox := ActorUrlBuilder.outbox publicBaseUrl accountNanoid
  followers := ActorUrlBuilder.followers publicBaseUrl accountNanoid
  following := ActorUrlBuilder.following publicBaseUrl accountNanoid
  publicKey := ⟨publicKeyId, localActorUrl publicBaseUrl accountNanoid, publicKeyPem⟩

/-- The members that are read of a fetched document. -/
def toActor (document : ActorDocument) : Actor where
  id := document.id
  preferredUsername := document.preferredUsername
  inbox := document.inbox
  publicKeyPem := document.publicKey.publicKeyPem

def imageJson (url : String) : Json := .object [("type", .string "Image"), ("url", .string url)]

/-- The serialised document: the members in the order of declaration, without those that are missing. -/
def toJson (document : ActorDocument) : Json :=
  .object <|
    [("@context", .array document.context), ("id", .string document.id),
      ("type", .string document.objectType),
      ("preferredUsername", .string document.preferredUsername)] ++
    Activity.member "name" (document.name.map .string) ++
    Activity.member "summary" (document.summary.map .string) ++
    Activity.member "icon" (document.iconUrl.map imageJson) ++
    Activity.member "image" (document.bannerUrl.map imageJson) ++
    [("url", .string document.url), ("inbox", .string document.inbox),
      ("outbox", .string document.outbox), ("followers", .string document.followers),
      ("following", .string document.following),
      ("publicKey", .object [("id", .string document.publicKey.id),
        ("owner", .string document.publicKey.owner),
        ("publicKeyPem", .string document.publicKey.publicKeyPem)])]

end ActorDocument

/-- The URL of an image among the ones that were found. -/
def foundImageUrl (images : List Image) (id : Option ImageId) : Option String :=
  id.bind fun id => (images.find? (·.id = id)).map Image.url

def getActor (publicBaseUrl : String) (signingKeys : List SigningKey) (db : Db) (now : OffsetDateTime)
    (accountNanoid : String) : Result ActorDocument :=
  match AccountReadModel.findByNanoid db now accountNanoid with
  | none => reject .NotFound ("Account not found with nanoid: " ++ accountNanoid)
  | some account => do
      let profile := ProfileReadModel.findByAccountId db account.id
      let signingKey ← activeSigningKey signingKeys account.id
      let images := ImageRepository.findByIds db
        (profile.toList.flatMap fun profile => profile.icon.toList ++ profile.banner.toList)
      pure (.new publicBaseUrl account.nanoid account.name (profile.bind Profile.displayName)
        (profile.bind Profile.summary) (foundImageUrl images (profile.bind Profile.icon))
        (foundImageUrl images (profile.bind Profile.banner)) signingKey.publicKeyPem
        signingKey.keyIdUri)

end Emumet
