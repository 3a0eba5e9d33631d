import Emumet.DriverVisibility
import Emumet.RouteInbox
import Emumet.ServiceAccountListing
import Emumet.ServiceStreams

/-! The routes that create an account and that find it by its handle. The WebFinger route cuts the handle
at its first at-sign and refuses whitespace; the route that creates accounts checks neither. -/

namespace Emumet

/-! ### Creating an account -/

namespace AccountReadModel

def findByNanoids (db : Db) (now : OffsetDateTime) (nanoids : List Nanoid) : List Account :=
  (db.accounts.select fun row => row.nanoid ∈ nanoids && row.visible now).map (·.toAccount false now)

end AccountReadModel

/-- The accounts the caller may not view are left out. -/
def getAccountDetailsByIds (db : Db) (now : OffsetDateTime) (view : AccountId → Result Bool)
    (ids : List String) : Result (List AccountDetailDto) :=
  composeAccountDetails db ((AccountReadModel.findByNanoids db now ids).filter fun account =>
    (checkPermission (view account.id)).isOk)

def getAccountDetail (db : Db) (now : OffsetDateTime) (view : AccountId → Result Bool)
    (accountNanoid : String) : Result AccountDetailDto := do
  match ← getAccountDetailsByIds db now view [accountNanoid] with
  | detail :: _ => .ok detail
  | [] => reject .NotFound ("Account not found with nanoid: " ++ accountNanoid)

/-- The `create_account` route: the status and the body, given the auth account of the caller and the
answers of the permission service. -/
def createAccountRoute (tz : Timestamptz) (call : Call) (authAccountId : Result AuthAccountId)
    (view : AccountId → Result Bool) (request : CreateAccountDto) (db : Db) :
    Except ErrorStatus (Nat × AccountDetailDto) × Db :=
  if trim request.name = "" then
    (.error (.StatusCodeWithMessage 400 "Account name cannot be empty"), db)
  else if 100 < request.name.utf8ByteSize then
    (.error (.StatusCodeWithMessage 400 "Account name must not exceed 100 characters"), db)
  else
    match authAccountId with
    | .error report => (.error (.Report report), db)
    | .ok authAccountId =>
        match createAccount tz call authAccountId request db with
        | (.error report, db) => (.error (.Report report), db)
        | (.ok account, db) =>
            match getAccountDetail db call.now view account.nanoid with
            | .error report => (.error (.Report report), db)
            | .ok detail => (.ok (201, detail), db)

/-! ### WebFinger -/

structure GetWebFingerDto where
  accountName : String
  domain : String
  deriving DecidableEq, Repr

structure WebFingerLink where
  rel : String
  type_ : String
  href : String
  deriving DecidableEq, Repr

structure WebFingerResponse where
  subject : String
  links : Option (List WebFingerLink)
  aliases : Option (List String)
  deriving DecidableEq, Repr

namespace WebFingerResponse

def linkJson (link : WebFingerLink) : Json :=
  .object [("rel", .string link.rel), ("type", .string link.type_), ("href", .string link.href)]

/-- The serialised response, without the members that are missing. -/
def toJson (response : WebFingerResponse) : Json :=
  .object <|
    [("subject", .string response.subject)] ++
    Activity.member "links" (response.links.map fun links => .array (links.map linkJson)) ++
    Activity.member "aliases" (response.aliases.map fun aliases => .array (aliases.map .string))

end WebFingerResponse

def invalidResource : ErrorStatus := .StatusCodeWithMessage 400 "Invalid WebFinger resource format"

def parseWebfingerResource (resource : String) : Except ErrorStatus GetWebFingerDto :=
  match stripStart "acct:" resource with
  | none => .error invalidResource
  | some value =>
      match splitOnce '@' value with
      | none => .error invalidResource
      | some (accountName, domain) =>
          if trim accountName = "" ∨ trim domain = "" ∨ accountName.toList.any isWhitespace ∨
              domain.toList.any isWhitespace ∨ '@' ∈ domain.toList then .error invalidResource
          else .ok { accountName, domain }

/-- `AccountName::validate`. -/
def validateAccountName (name : String) : Result Unit :=
  if trim name = "" then reject .Rejected "Account name cannot be empty"
  else if name.toList.any isWhitespace then reject .Rejected "Account name cannot contain whitespace"
  else .ok ()

def getWebfinger (publicBaseUrl : String) (now : OffsetDateTime) (db : Db) (dto : GetWebFingerDto) :
    Result WebFingerResponse := do
  validateAccountName dto.accountName
  match AccountReadModel.findByName db now dto.accountName with
  | none => reject .NotFound ("Account not found with name: " ++ dto.accountName)
  | some account =>
      let actorUrl := localActorUrl publicBaseUrl account.nanoid
      .ok { subject := "acct:" ++ account.name ++ "@" ++ toAsciiLowercase dto.domain
            links := some [{ rel := "self", type_ := "application/activity+json", href := actorUrl }]
            aliases := some [actorUrl] }

/-- The `webfinger` route; the body of status 200. -/
def webfinger (libraries : HttpLibraries) (publicBaseUrl : String) (now : OffsetDateTime)
    (resource : Option String) (db : Db) : Except ErrorStatus WebFingerResponse := do
  let resource ← match resource with
    | some resource => .ok resource
    | none => .error (.StatusCodeWithMessage 400 "Missing resource parameter")
  let dto ← parseWebfingerResource resource
  let expectedDomain ← publicBaseHostHeader libraries publicBaseUrl
  if eqIgnoreAsciiCase dto.domain expectedDomain then
    (getWebfinger publicBaseUrl now db dto).mapError .Report
  else .error (.StatusCode 404)

namespace Discovery

/-! ### Handles -/

theorem handle_toList (name domain : String) :
    (name ++ "@" ++ domain).toList = name.toList ++ '@' :: domain.toList := by
  simp [String.toList_append]

theorem splitOnce_handle {name : String} (h : '@' ∉ name.toList) (domain : String) :
    splitOnce '@' (name ++ "@" ++ domain) = some (name, domain) := by
  rw [splitOnce_of_toList (handle_toList name domain) h, String.ofList_toList, String.ofList_toList]

/-- The rest of a name with an at-sign makes the domain keep one. -/
theorem splitOnce_handle_of_at {name : String} (h : '@' ∈ name.toList) (domain : String) :
    ∃ front rest, splitOnce '@' (name ++ "@" ++ domain) = some (front, rest) ∧ '@' ∈ rest.toList := by
  obtain ⟨front, back, hname, hfront⟩ := List.eq_append_cons_of_mem h
  have hhandle : (name ++ "@" ++ domain).toList = front ++ '@' :: (back ++ '@' :: domain.toList) := by
    rw [handle_toList, hname, List.append_assoc, List.cons_append]
  exact ⟨_, _, splitOnce_of_toList hhandle hfront, by simp⟩

/-- What the URL library gives as a host is not empty and has neither whitespace nor an at-sign. -/
def PlainHosts (libraries : HttpLibraries) : Prop :=
  ∀ text url host, libraries.parseUrl text = some url → url.host = some host →
    host ≠ "" ∧ ∀ c ∈ host.toList, isWhitespace c = false ∧ c ≠ '@'

/-- The account is stored with its name and nanoid, and visible. -/
def StaysVisible (name nanoid : String) (now : OffsetDateTime) (db : Db) : Prop :=
  ∃ row ∈ db.accounts.rows, row.name = name ∧ row.nanoid = nanoid ∧ row.visible now = true

/-- The route answers with the actor URL of the account. -/
def Names (actorUrl : String) (response : Except ErrorStatus WebFingerResponse) : Prop :=
  ∃ subject, response = .ok
    { subject, links := some [{ rel := "self", type_ := "application/activity+json", href := actorUrl }]
      aliases := some [actorUrl] }

variable {libraries : HttpLibraries} {publicBaseUrl host name nanoid : String} {now : OffsetDateTime}
  {db : Db}

theorem plain_digit {c : Char} (h : c.isDigit = true) : isWhitespace c = false ∧ c ≠ '@' := by
  have hrange : 48 ≤ c.toNat ∧ c.toNat ≤ 57 := by
    simpa [Char.isDigit, UInt32.le_iff_toNat_le] using h
  constructor
  · simp only [isWhitespace, Bool.or_eq_false_iff, Bool.and_eq_false_iff, decide_eq_false_iff_not]
    omega
  · rintro rfl
    exact absurd hrange.2 (by decide)

theorem isDigit_of_mem_port {port : Nat} {c : Char} (h : c ∈ (toString port).toList) :
    c.isDigit = true := by
  have hdigits : (toString port).toList = Nat.toDigits 10 port := by
    simp [Nat.repr]
  rw [hdigits] at h
  exact Nat.isDigit_of_mem_toDigits (by decide) (by decide) h

/-- The host with its port is as plain as the host. -/
theorem plain_host (hplain : PlainHosts libraries)
    (hhost : publicBaseHostHeader libraries publicBaseUrl = .ok host) :
    host ≠ "" ∧ ∀ c ∈ host.toList, isWhitespace c = false ∧ c ≠ '@' := by
  unfold publicBaseHostHeader at hhost
  split at hhost
  · cases hhost
  next url hurl =>
  split at hhost
  · cases hhost
  · next base port hbase hport =>
      obtain ⟨hne, hchars⟩ := hplain publicBaseUrl url base hurl hbase
      obtain rfl : base ++ ":" ++ toString port = host := Except.ok.inj hhost
      refine ⟨fun hempty => hne ?_, fun c hc => ?_⟩
      · simpa using (String.append_eq_empty_iff.mp (String.append_eq_empty_iff.mp hempty).1).1
      · simp only [String.toList_append, List.mem_append] at hc
        rcases hc with (hbase | hcolon) | hdigit
        · exact hchars c hbase
        · obtain rfl : c = ':' := by simpa using hcolon
          decide
        · exact plain_digit (isDigit_of_mem_port hdigit)
  · next base hbase hport =>
      obtain rfl : base = host := Except.ok.inj hhost
      exact hplain publicBaseUrl url base hurl hbase

/-- The names a handle can be made of. -/
def PlainName (name : String) : Prop := ∀ c ∈ name.toList, isWhitespace c = false ∧ c ≠ '@'

theorem any_isWhitespace {text : String} (h : ∀ c ∈ text.toList, isWhitespace c = false ∧ c ≠ '@') :
    text.toList.any isWhitespace = false := by
  rw [List.any_eq_false]
  exact fun c hc => Bool.eq_false_iff.mp (h c hc).1

/-- A handle of a plain name is taken apart again. -/
theorem parse_of_plain (hname : trim name ≠ "") (hplain : PlainName name) (hne : host ≠ "")
    (hhost : ∀ c ∈ host.toList, isWhitespace c = false ∧ c ≠ '@') :
    parseWebfingerResource ("acct:" ++ (name ++ "@" ++ host)) = .ok ⟨name, host⟩ := by
  have hsplit := splitOnce_handle (fun hat => (hplain '@' hat).2 rfl) host
  have htrim : trim host ≠ "" := by
    rw [trim_of_plain fun c hc => (hhost c hc).1]
    exact hne
  have hat : '@' ∉ host.toList := fun hat => (hhost '@' hat).2 rfl
  rw [parseWebfingerResource, stripStart_append]
  simp only [hsplit]
  rw [if_neg]
  simp only [not_or, any_isWhitespace hplain, any_isWhitespace hhost]
  exact ⟨hname, htrim, Bool.false_ne_true, Bool.false_ne_true, hat⟩

/-- The handle of any other name is refused. -/
theorem parse_of_not_plain (hplain : ¬PlainName name) :
    parseWebfingerResource ("acct:" ++ (name ++ "@" ++ host)) = .error invalidResource := by
  rw [parseWebfingerResource, stripStart_append]
  by_cases hat : '@' ∈ name.toList
  · obtain ⟨front, rest, hsplit, hrest⟩ := splitOnce_handle_of_at hat host
    simp only [hsplit]
    rw [if_pos (.inr (.inr (.inr (.inr hrest))))]
  · have hsplit := splitOnce_handle hat host
    have hspace : name.toList.any isWhitespace = true := by
      by_contra hnone
      refine hplain fun c hc => ⟨?_, fun heq => hat (heq ▸ hc)⟩
      exact Bool.eq_false_iff.mpr (List.any_eq_false.mp (Bool.eq_false_iff.mpr hnone) c hc)
    simp only [hsplit]
    rw [if_pos (.inr (.inr (.inl hspace)))]

theorem named_of_created {tz : Timestamptz} {call : Call} {authAccountId : Result AuthAccountId}
    {view : AccountId → Result Bool} {request : CreateAccountDto} {after : Db}
    {detail : Nat × AccountDetailDto}
    (h : createAccountRoute tz call authAccountId view request db = (.ok detail, after)) :
    trim request.name ≠ "" := by
  intro hempty
  unfold createAccountRoute at h
  rw [if_pos hempty] at h
  cases h

theorem webfinger_of_parsed (hparse : parseWebfingerResource ("acct:" ++ (name ++ "@" ++ host)) =
      .ok ⟨name, host⟩) (hhost : publicBaseHostHeader libraries publicBaseUrl = .ok host) :
    webfinger libraries publicBaseUrl now (some ("acct:" ++ (name ++ "@" ++ host))) db =
      (getWebfinger publicBaseUrl now db ⟨name, host⟩).mapError .Report := by
  have hsame : eqIgnoreAsciiCase host host = true := decide_eq_true rfl
  simp only [webfinger, hparse, hhost, bind, Except.bind, hsame, if_true]

/-- An account that is created is found by its handle, while it is visible, exactly if its name has
neither whitespace nor an at-sign. -/
theorem created_account_discoverable_iff (libraries : HttpLibraries) (hplain : PlainHosts libraries)
    (publicBaseUrl host : String) (hhost : publicBaseHostHeader libraries publicBaseUrl = .ok host)
    (tz : Timestamptz) (call : Call) (authAccountId : Result AuthAccountId)
    (view : AccountId → Result Bool) (request : CreateAccountDto) (db after : Db)
    (detail : AccountDetailDto)
    (hcreated : createAccountRoute tz call authAccountId view request db = (.ok (201, detail), after))
    (later : Db) (hunique : later.AccountsUnique) (now : OffsetDateTime)
    (hvisible : StaysVisible request.name detail.nanoid now later) :
    Names (localActorUrl publicBaseUrl detail.nanoid)
        (webfinger libraries publicBaseUrl now (some ("acct:" ++ (request.name ++ "@" ++ host))) later) ↔
      PlainName request.name := by
  obtain ⟨hne, hchars⟩ := plain_host hplain hhost
  have hname := named_of_created hcreated
  constructor
  · rintro ⟨subject, hresponse⟩
    by_contra hspecial
    simp only [webfinger, bind, Except.bind, parse_of_not_plain hspecial] at hresponse
    cases hresponse
  · intro hplainName
    obtain ⟨row, hrow, hrowName, hrowNanoid, hrowVisible⟩ := hvisible
    have hfind : AccountReadModel.findByName later now request.name =
        some (row.toAccount false now) := by
      rw [← hrowName, AccountReadModel.findByName_eq now hunique hrow]
      simp [AccountRow.filteredAnswer, hrowVisible]
    rw [webfinger_of_parsed (parse_of_plain hname hplainName hne hchars) hhost, getWebfinger,
      validateAccountName, if_neg hname, any_isWhitespace hplainName]
    simp only [hfind]
    refine ⟨"acct:" ++ (row.toAccount false now).name ++ "@" ++ toAsciiLowercase host, ?_⟩
    have hnanoid : (row.toAccount false now).nanoid = detail.nanoid := hrowNanoid
    rw [← hnanoid]
    rfl

/-! ### Three names -/

open Streams

/-- The URL library on the base URL. -/
def portLibraries : HttpLibraries :=
  { emptyObjectLibraries with
    parseUrl := fun text =>
      if text = "https://local.example:8443" then
        some { scheme := "https", host := some "local.example", port := some 8443
               portOrKnownDefault := some 8443, path := "/", query := none }
      else none }

theorem plain_of_all {text : String}
    (h : (text.toList.all fun c => !isWhitespace c && decide (c ≠ '@')) = true) :
    ∀ c ∈ text.toList, isWhitespace c = false ∧ c ≠ '@' := by
  intro c hc
  simpa using List.all_eq_true.mp h c hc

theorem plainHosts_portLibraries : PlainHosts portLibraries := by
  intro text url host hurl hhost
  simp only [portLibraries] at hurl
  split_ifs at hurl
  cases hurl
  cases hhost
  exact ⟨by decide, plain_of_all (by decide)⟩

/-- Create an account of the name. -/
def created (name : String) : Except ErrorStatus (Nat × AccountDetailDto) × Db :=
  createAccountRoute .microseconds (permitted 1 (.ok ())) (.ok 3) (fun _ => .ok true) ⟨name, false⟩
    registered

def detailOf (name : String) : AccountDetailDto where
  nanoid := "alice-nanoid"
  name := name
  displayName := some name
  summary := none
  iconUrl := none
  bannerUrl := none
  isBot := false
  fields := []
  createdAt := 1767225600000000000
  moderation := none

/-- Look the handle of a name up after the creation. -/
def lookedUp (name : String) : Except ErrorStatus WebFingerResponse :=
  webfinger portLibraries "https://local.example:8443" 2
    (some ("acct:" ++ (name ++ "@" ++ "local.example:8443"))) (created name).2

theorem created_account_discoverable_alice :
    (created "alice").1 = .ok (201, detailOf "alice") ∧
      Names "https://local.example:8443/ap/accounts/alice-nanoid" (lookedUp "alice") := by
  have hcreated : (created "alice").1 = .ok (201, detailOf "alice") := by
    rfl
  refine ⟨hcreated, ?_⟩
  refine (created_account_discoverable_iff portLibraries plainHosts_portLibraries
    "https://local.example:8443" "local.example:8443" (by rfl) .microseconds (permitted 1 (.ok ()))
    (.ok 3) (fun _ => .ok true) ⟨"alice", false⟩ registered (created "alice").2 (detailOf "alice")
    (Prod.ext hcreated rfl) (created "alice").2 (by unfold Db.AccountsUnique; decide +kernel) 2
    (by unfold StaysVisible; decide +kernel)).mpr ?_
  exact plain_of_all (by decide)

/-- A name with a space and one with an at-sign are accepted, and their handles are not. -/
theorem created_accounts_undiscoverable :
    (created "ali ce").1.toOption = some (201, detailOf "ali ce") ∧
      (created "ali@ce").1.toOption = some (201, detailOf "ali@ce") ∧
      StaysVisible "ali ce" "alice-nanoid" 2 (created "ali ce").2 ∧
      StaysVisible "ali@ce" "alice-nanoid" 2 (created "ali@ce").2 ∧
      (lookedUp "ali ce").toOption = none ∧ (lookedUp "ali@ce").toOption = none := by
  refine ⟨by rfl, by rfl, ?_, ?_, by decide +kernel, by decide +kernel⟩
  · unfold StaysVisible
    decide +kernel
  · unfold StaysVisible
    decide +kernel

end Discovery

end Emumet
