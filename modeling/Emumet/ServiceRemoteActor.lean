import Emumet.KernelActivity
import Emumet.DriverFederation
import Emumet.ServiceAccount

/-! Resolving remote actors. What the network answers is an input of a call; the checks on the answer
and the row that is kept of the actor are the program's. Texts that quote an error of a library are cut
before the quotation. -/

namespace Emumet

/-- The configuration and the pure functions of libraries. -/
structure Server where
  publicBaseUrl : String
  parseUrl : String → Option Url
  isAlphanumeric : Char → Bool

/-- What one call meets outside the database: the clock, the permission service's answer, the network,
and the values generated for it. -/
structure Outside where
  now : OffsetDateTime
  permission : Result Bool
  fetchActor : String → Result Actor
  fetchWebFinger : String → Result Json
  deliver : String → Activity → Result Unit
  remoteAccountId : RemoteAccountId
  relationId : Int
  activityId : Int
  outboxId : OutboxActivityId

structure ResolvedRemoteActor where
  acct : String
  url : String
  inboxUrl : Option String
  publicKeyPem : Option String
  deriving DecidableEq, Repr

def sameActivitypubId (left right : String) : Bool := trimEndSlashes left = trimEndSlashes right

/-- The checks on a fetched actor document. -/
def checkRemoteActor (server : Server) (actorUrl : String) (actor : Actor) :
    Result ResolvedRemoteActor :=
  match server.parseUrl actor.id with
  | none => reject .Rejected "Remote actor id is invalid"
  | some actorId =>
      match actorId.host with
      | none => reject .Rejected "Remote actor id has no host"
      | some host =>
          if actor.preferredUsername.toList.all isWhitespace then
            reject .Rejected "Remote actor preferredUsername is empty"
          else if !sameActivitypubId actor.id actorUrl then
            reject .Rejected ("Remote actor id does not match requested actor URL: expected " ++
              actorUrl ++ ", got " ++ actor.id)
          else
            .ok { acct := actor.preferredUsername ++ "@" ++ host, url := actor.id
                  inboxUrl := some actor.inbox, publicKeyPem := some actor.publicKeyPem }

def resolveRemoteActor (server : Server) (outside : Outside) (actorUrl : String) :
    Result ResolvedRemoteActor := do
  match server.parseUrl actorUrl with
  | none => reject .Rejected "Invalid actor URL"
  | some _ => checkRemoteActor server actorUrl (← outside.fetchActor actorUrl)

/-- The link of a WebFinger answer that names an actor document. -/
def selfLink (link : Json) : Option String := do
  let rel ← (link.get? "rel").bind Json.asStr?
  let type ← (link.get? "type").bind Json.asStr?
  let href ← (link.get? "href").bind Json.asStr?
  if rel = "self" ∧ (type = "application/activity+json" ∨ type = "application/ld+json") then
    some href
  else none

/-- The actor URL of a WebFinger answer for `user@domain`. -/
def webfingerActorUrl (user domain : String) (jrd : Json) : Result String :=
  match (jrd.get? "subject").bind Json.asStr? with
  | none => reject .Rejected "WebFinger response missing subject field"
  | some subject =>
      let expected := "acct:" ++ user ++ "@" ++ domain
      if subject ≠ expected then
        reject .Rejected ("WebFinger subject mismatch: expected " ++ expected ++ ", got " ++ subject)
      else
        match ((jrd.get? "links").bind Json.asArray?).bind (·.findSome? selfLink) with
        | none => reject .NotFound
            ("No ActivityPub link found in WebFinger response for " ++ user ++ "@" ++ domain)
        | some href => .ok href

def resolveRemoteWebfinger (server : Server) (outside : Outside) (user domain : String) :
    Result ResolvedRemoteActor := do
  if !user.toList.all fun c => server.isAlphanumeric c || c = '.' || c = '-' || c = '_' then
    reject .Rejected "Invalid characters in WebFinger user"
  else if !(domain.toList.all fun c => server.isAlphanumeric c || c = '.' || c = '-') ||
      domain.toList.head? = some '-' || domain.toList.getLast? = some '-' then
    reject .Rejected "Invalid characters in WebFinger domain"
  else
    let url := "https://" ++ domain ++ "/.well-known/webfinger?resource=acct:" ++ user ++ "@" ++ domain
    match server.parseUrl url with
    | none => reject .Rejected "Invalid WebFinger URL"
    | some _ =>
        let jrd ← outside.fetchWebFinger url
        resolveRemoteActor server outside (← webfingerActorUrl user domain jrd)

def resolveRemoteActorIdentifier (server : Server) (outside : Outside) (identifier : String) :
    Result ResolvedRemoteActor :=
  match (stripStart "acct:" identifier).bind (splitOnce '@') with
  | some (user, domain) =>
      if user = "" ∨ domain = "" then
        reject .Rejected "Invalid acct: format, expected acct:user@domain"
      else resolveRemoteWebfinger server outside user domain
  | none => resolveRemoteActor server outside identifier

/-- The id a resolved actor has or gets. -/
def remoteAccountIdOf (db : Db) (outside : Outside) (actor : ResolvedRemoteActor) : RemoteAccountId :=
  ((RemoteAccountRepository.findByUrl db actor.url).map RemoteAccount.id).getD outside.remoteAccountId

def upsertRemoteAccount (outside : Outside) (actor : ResolvedRemoteActor) (db : Db) :
    Result (RemoteAccount × Db) :=
  match RemoteAccountRepository.findByUrl db actor.url with
  | some existing => do
      let updated : RemoteAccount :=
        { id := existing.id, acct := actor.acct, url := actor.url, iconId := existing.iconId
          inboxUrl := actor.inboxUrl, publicKeyPem := actor.publicKeyPem }
      pure (updated, ← RemoteAccountRepository.update db updated)
  | none => do
      let created : RemoteAccount :=
        { id := outside.remoteAccountId, acct := actor.acct, url := actor.url, iconId := none
          inboxUrl := actor.inboxUrl, publicKeyPem := actor.publicKeyPem }
      pure (created, ← RemoteAccountRepository.create db created)

end Emumet
