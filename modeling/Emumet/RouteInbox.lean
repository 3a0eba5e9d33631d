import Emumet.DriverVerifier
import Emumet.ServiceInbox

/-! The inbox route, in a build without the test features. A request is checked and handed to the
handlers of activities. The host is checked on the header map as it arrived, which may hold several
values for one name; the signature is checked on a map with one value for each name. -/

namespace Emumet

inductive ErrorStatus where
  | Report (report : Report)
  | StatusCode (code : Nat)
  | StatusCodeWithMessage (code : Nat) (message : String)
  deriving DecidableEq

/-! ### Headers -/

/-- The headers of a request in the order of arrival; the names are in lower case. -/
structure HeaderMap where
  entries : List (String × Bytes)
  lowercase : ∀ entry ∈ entries, toAsciiLowercase entry.1 = entry.1

/-- The text of a header value, which has to be of visible ASCII characters, blanks and tabs. -/
def toStr (value : Bytes) : Option String :=
  if value.all fun b => (32 ≤ b ∧ b < 127) ∨ b = 9 then
    some (String.ofList (value.map fun b => Char.ofNat b.toNat))
  else none

namespace HeaderMap

/-- All values of a header. -/
def getAll (headers : HeaderMap) (name : String) : List Bytes :=
  (headers.entries.filter (·.1 = name)).map Prod.snd

/-- The first value of a header. -/
def get (headers : HeaderMap) (name : String) : Option Bytes := (headers.getAll name).head?

/-- The values of a header that are texts. -/
def texts (headers : HeaderMap) (name : String) : List String :=
  (headers.getAll name).filterMap toStr

end HeaderMap

/-- Insertion into a hash map: a value that is there is replaced. -/
def insertHeader (map : List (String × String)) (entry : String × String) : List (String × String) :=
  entry :: map.filter (·.1 ≠ entry.1)

/-- The entries collected into a hash map. -/
def collectHeaders (headers : HeaderMap) : List (String × String) :=
  (headers.entries.filterMap fun entry => (toStr entry.2).map fun value => (entry.1, value)).foldl
    insertHeader []

/-! ### The request -/

structure InboxRequest where
  nanoid : String
  originalUri : String
  method : String
  headers : HeaderMap
  body : Bytes

/-- What a request meets: the clock of the queries and of the date check, the iteration order of the
hash map, and the documents fetched for the signature and for its owner. -/
structure InboxEnv where
  now : OffsetDateTime
  clock : Int
  order : List (String × String) → List (String × String)
  order_perm : ∀ entries, (order entries).Perm entries
  fetchForSignature : String → Result Json
  fetchForOwner : String → Result Json

def headersToMap (env : InboxEnv) (headers : HeaderMap) : List (String × String) :=
  env.order (collectHeaders headers)

def verificationInput (publicBaseUrl : String) (env : InboxEnv) (request : InboxRequest) :
    HttpSignatureVerificationInput where
  method := request.method
  url := trimEndSlashes publicBaseUrl ++ request.originalUri
  headers := headersToMap env request.headers
  body := some request.body

def publicBaseHostHeader (libraries : HttpLibraries) (publicBaseUrl : String) :
    Except ErrorStatus String :=
  match libraries.parseUrl publicBaseUrl with
  | none => .error (.StatusCodeWithMessage 500 "Invalid PUBLIC_BASE_URL")
  | some url =>
      match url.host, url.port with
      | none, _ => .error (.StatusCodeWithMessage 500 "PUBLIC_BASE_URL must include a host")
      | some host, some port => .ok (host ++ ":" ++ toString port)
      | some host, none => .ok host

def findAccountIdByNanoid (db : Db) (now : OffsetDateTime) (id : String) :
    Except ErrorStatus AccountId :=
  if trim id = "" then .error (.StatusCodeWithMessage 400 "Account ID cannot be empty")
  else
    match AccountReadModel.findByNanoid db now id with
    | some account => .ok account.id
    | none => .error (.StatusCode 404)

/-- The value of the Host header that is compared. -/
def checkedHost (headers : HeaderMap) : Option String := (headers.get "host").bind toStr

def ensureHostMatchesPublicBaseUrl (expected : String) (headers : HeaderMap) :
    Except ErrorStatus Unit :=
  match checkedHost headers with
  | none => .error (.StatusCode 401)
  | some actual => if eqIgnoreAsciiCase actual expected then .ok () else .error (.StatusCode 401)

def signatureKeyDocumentMatchesActor (libraries : HttpLibraries) (keyId actor : String) : Bool :=
  match libraries.withoutFragment keyId with
  | some url => sameActivitypubId url actor
  | none => false

def ensureSignatureOwnerMatchesActor (libraries : HttpLibraries) (verifier : HttpSignatureVerifier)
    (fetch : String → Result Json) (keyId : String) (activity : Activity) :
    Except ErrorStatus Unit :=
  match fetchActorKey libraries verifier fetch keyId with
  | .error _ => .error (.StatusCode 401)
  | .ok actorKey =>
      if sameActivitypubId actorKey.owner activity.actor &&
          signatureKeyDocumentMatchesActor libraries keyId activity.actor then .ok ()
      else .error (.StatusCode 401)

def ensureContentType (headers : HeaderMap) : Except ErrorStatus Unit :=
  if ((headers.get "content-type").bind toStr).getD "" ≠ "application/activity+json" then
    .error (.StatusCodeWithMessage 400 "Content-Type must be application/activity+json")
  else .ok ()

/-- The key id of the request's signature. -/
def verifiedKeyId : SignatureVerificationResult → Except ErrorStatus String
  | .Valid keyId => .ok keyId
  | .Invalid _ => .error (.StatusCode 401)

/-- The activity of the body; the message also quotes the parser. -/
def parsedActivity : Option Activity → Except ErrorStatus Activity
  | some activity => .ok activity
  | none => .error (.StatusCodeWithMessage 400 "Malformed ActivityPub activity")

/-- What the handlers are called with, if the request passes the checks. -/
def checkedActivity (libraries : HttpLibraries) (publicBaseUrl : String)
    (verifier : HttpSignatureVerifier) (env : InboxEnv) (request : InboxRequest) (db : Db) :
    Except ErrorStatus InboxActivityDto := do
  ensureContentType request.headers
  let accountId ← findAccountIdByNanoid db env.now request.nanoid
  let input := verificationInput publicBaseUrl env request
  ensureHostMatchesPublicBaseUrl (← publicBaseHostHeader libraries publicBaseUrl) request.headers
  let keyId ← verifiedKeyId (verify libraries verifier env.clock env.fetchForSignature input)
  let activity ← parsedActivity (libraries.activityFromSlice request.body)
  ensureSignatureOwnerMatchesActor libraries verifier env.fetchForOwner keyId activity
  pure { accountId, accountNanoid := request.nanoid, activity }

/-- `202 Accepted` once the handlers are through. -/
def postInbox (libraries : HttpLibraries) (server : Server) (verifier : HttpSignatureVerifier)
    (env : InboxEnv) (outside : Outside) (request : InboxRequest) (db : Db) :
    Except ErrorStatus Nat × Db :=
  match checkedActivity libraries server.publicBaseUrl verifier env request db with
  | .error status => (.error status, db)
  | .ok dto =>
      match handleInboxActivity server outside dto db with
      | (.ok _, after) => (.ok 202, after)
      | (.error report, after) => (.error (.Report report), after)

end Emumet
