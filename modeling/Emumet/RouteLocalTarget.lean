import Emumet.RouteDiscovery
import Emumet.ServiceActor
import Emumet.ServiceExclusion
import Emumet.ServiceLocalTarget

/-! The identifiers of a local account as targets of the outbound use cases: its nanoid, its actor URL
with any number of slashes at the end, and its handle. What is fetched under the actor URL is the
document this server serves, and WebFinger answers for the public host are those of this server. -/

namespace Emumet

namespace LocalTarget

open Discovery (isDigit_of_mem_port splitOnce_handle splitOnce_handle_of_at)
open Relations Session

/-! ### Texts -/

/-- Below the small letters, a character is the lower case of itself only. -/
theorem eq_of_toLower {c d : Char} (h : c.toLower = d) (hd : d.toNat < 97) : c = d := by
  unfold Char.toLower at h
  split at h
  · next hupper =>
      obtain ⟨hfrom, hto⟩ := hupper
      rw [ge_iff_le, UInt32.le_iff_toNat_le] at hfrom
      rw [UInt32.le_iff_toNat_le] at hto
      rw [← h, Char.toNat, UInt32.toNat_add] at hd
      simp at hfrom hto hd
      omega
  · exact h

theorem mem_of_toAsciiLowercase {d : Char} (hd : d.toNat < 97) (hlower : d.toLower = d)
    {text other : String} (h : toAsciiLowercase text = toAsciiLowercase other) (hmem : d ∈ text.toList) :
    d ∈ other.toList := by
  have hchars := congrArg String.toList h
  rw [toAsciiLowercase, toAsciiLowercase, String.toList_ofList, String.toList_ofList] at hchars
  have hmap : d ∈ other.toList.map Char.toLower := by
    rw [← hchars]
    exact List.mem_map.mpr ⟨d, hmem, hlower⟩
  obtain ⟨c, hc, hcd⟩ := List.mem_map.mp hmap
  rw [← eq_of_toLower hcd hd]
  exact hc

def slashes (count : Nat) : String := String.ofList (List.replicate count '/')

/-- Slashes at the end of a text that has none there are trimmed. -/
theorem trimEndSlashes_append_slashes {text : String} {c : Char} (hlast : text.toList.getLast? = some c)
    (hc : c ≠ '/') (count : Nat) : trimEndSlashes (text ++ slashes count) = text := by
  obtain ⟨front, hfront⟩ := List.getLast?_eq_some_iff.mp hlast
  rw [trimEndSlashes, slashes, String.toList_append, String.toList_ofList, List.reverse_append,
    List.reverse_replicate, List.dropWhile_append_of_pos (by simp), hfront, List.reverse_append,
    List.reverse_singleton, List.singleton_append, List.dropWhile_cons_of_neg (by simpa using hc),
    ← List.singleton_append, ← List.reverse_singleton, ← List.reverse_append, List.reverse_reverse,
    ← hfront, String.ofList_toList]

/-- Texts are the same up to their last slash if they are the same. -/
theorem last_segment {front back front' back' : List Char} (h : front ++ '/' :: back = front' ++ '/' :: back')
    (hback : '/' ∉ back) (hback' : '/' ∉ back') : front = front' ∧ back = back' := by
  have htake : ∀ {front back : List Char}, '/' ∉ back →
      (front ++ '/' :: back).reverse.takeWhile (· ≠ '/') = back.reverse := by
    intro front back hback
    rw [List.reverse_append, List.reverse_cons, List.append_assoc, List.takeWhile_append_of_pos]
    · simp
    · intro c hc
      rw [List.mem_reverse] at hc
      simpa using fun heq : c = '/' => hback (heq ▸ hc)
  have hsame := @htake front back hback
  rw [h, htake hback'] at hsame
  obtain rfl := List.reverse_injective hsame
  exact ⟨List.append_cancel_right h, rfl⟩

/-- The characters of generated nanoids. -/
def PlainNanoid (nanoid : String) : Prop :=
  nanoid ≠ "" ∧ ∀ c ∈ nanoid.toList, c.isAlphanum = true ∨ c = '_' ∨ c = '-'

theorem PlainNanoid.not_mem {nanoid : String} (h : PlainNanoid nanoid) {c : Char}
    (hc : c.isAlphanum = false) (hc' : c ≠ '_' ∧ c ≠ '-') : c ∉ nanoid.toList := by
  intro hmem
  rcases h.2 c hmem with halphanum | heq | heq
  · exact absurd halphanum (by simp [hc])
  · exact hc'.1 heq
  · exact hc'.2 heq

theorem PlainNanoid.getLast {nanoid : String} (h : PlainNanoid nanoid) (text : String) :
    ∃ c, (text ++ nanoid).toList.getLast? = some c ∧ c ≠ '/' := by
  have hne : nanoid.toList ≠ [] := fun hnil => h.1 (by simpa using hnil)
  refine ⟨nanoid.toList.getLast hne, ?_, fun hslash => ?_⟩
  · rw [String.toList_append, List.getLast?_append_of_ne_nil _ hne, List.getLast?_eq_some_getLast hne]
  · exact h.not_mem (by decide) (by decide) (hslash ▸ List.getLast_mem hne)

/-! ### What the theorem assumes -/

/-- The libraries on the public base URL and on the texts that are built with it. -/
structure PublicUrl (server : Server) (base : Url) (host : String) : Prop where
  parsed : server.parseUrl server.publicBaseUrl = some base
  scheme : base.scheme ≠ "acct"
  hosted : base.host = some host
  plain : host ≠ "" ∧ '/' ∉ host.toList ∧ '@' ∉ host.toList
  lower : toAsciiLowercase host = host
  actor : ∀ nanoid count, PlainNanoid nanoid →
    server.parseUrl (localActorUrl server.publicBaseUrl nanoid ++ slashes count) =
      some { base with path := trimEndSlashes base.path ++ "/ap/accounts/" ++ nanoid ++ slashes count }
  relative : ∀ text, ':' ∉ text.toList → server.parseUrl text = none
  acct : ∀ text url, server.parseUrl ("acct:" ++ text) = some url → url.scheme = "acct"
  letters : server.isAlphanumeric '@' = false ∧ server.isAlphanumeric ':' = false

/-- The constraints on stored accounts and remote accounts. -/
structure Stored (outside : Outside) (db : Db) : Prop where
  accounts : db.AccountsUnique
  nanoids : ∀ row ∈ db.accounts.rows, PlainNanoid row.nanoid
  remotes : Storing outside db

def webfingerUrl (name domain : String) : String :=
  "https://" ++ domain ++ "/.well-known/webfinger?resource=acct:" ++ name ++ "@" ++ domain

/-- The network answers for this server as this server does. -/
structure Served (libraries : HttpLibraries) (server : Server) (outside : Outside)
    (signingKeys : List SigningKey) (host : String) (db : Db) (account : Account)
    (document : ActorDocument) : Prop where
  urls : libraries.parseUrl = server.parseUrl
  serves : getActor server.publicBaseUrl signingKeys db outside.now account.nanoid = .ok document
  fetched : ∀ count,
    outside.fetchActor (localActorUrl server.publicBaseUrl account.nanoid ++ slashes count) =
      .ok document.toActor
  webfinger : ∀ jrd, outside.fetchWebFinger (webfingerUrl account.name host) = .ok jrd →
    ∃ response, webfinger libraries server.publicBaseUrl outside.now
      (some ("acct:" ++ (account.name ++ "@" ++ host))) db = .ok response ∧ jrd = response.toJson

/-! ### Identifiers -/

inductive Identifier where
  | nanoid
  | actorUrl (slashes : Nat)
  | acct (port : Bool)
  deriving DecidableEq, Repr

/-- The public host, with the port of the base URL where it is asked for and there is one. -/
def handleDomain (base : Url) (host : String) : Bool → String
  | false => host
  | true =>
      match base.port with
      | some port => host ++ ":" ++ toString port
      | none => host

def Identifier.text (server : Server) (base : Url) (host : String) (account : Account) :
    Identifier → String
  | .nanoid => account.nanoid
  | .actorUrl count => localActorUrl server.publicBaseUrl account.nanoid ++ slashes count
  | .acct port => "acct:" ++ (account.name ++ "@" ++ handleDomain base host port)

/-- The handle passes the checks of WebFinger and is answered. -/
structure Discovered (server : Server) (outside : Outside) (name domain : String) : Prop where
  nameChars : (name.toList.all fun c => server.isAlphanumeric c || c = '.' || c = '-' || c = '_') = true
  domainChars : (domain.toList.all fun c => server.isAlphanumeric c || c = '.' || c = '-') = true
  ends : domain.toList.head? ≠ some '-' ∧ domain.toList.getLast? ≠ some '-'
  parsed : (server.parseUrl (webfingerUrl name domain)).isSome = true
  answered : (outside.fetchWebFinger (webfingerUrl name domain)).isOk = true

/-- No row can be written for the actor: its name is blank, or another actor has its handle. -/
def Unstorable (server : Server) (host : String) (account : Account) (db : Db) : Prop :=
  account.name.toList.all isWhitespace = true ∨
    ∃ remote ∈ db.remoteAccounts.rows, remote.acct = account.name ++ "@" ++ host ∧
      remote.url ≠ localActorUrl server.publicBaseUrl account.nanoid

section Resolution

variable {libraries : HttpLibraries} {server : Server} {outside : Outside}
  {signingKeys : List SigningKey} {base : Url} {host : String} {db : Db} {account : Account}
  {document : ActorDocument}

/-! ### The account as a remote actor -/

theorem plainNanoid_of_visible (hstored : Stored outside db) {now : OffsetDateTime} {nanoid : String}
    (h : AccountReadModel.findByNanoid db now nanoid = some account) :
    PlainNanoid nanoid ∧ account.nanoid = nanoid := by
  obtain ⟨row, hrow, rfl, _, rfl⟩ := AccountReadModel.findByNanoid_some h
  exact ⟨hstored.nanoids row hrow, rfl⟩

/-- A text with a character that no nanoid has names no account. -/
theorem findByNanoid_eq_none (hstored : Stored outside db) {now : OffsetDateTime} {text : String}
    {c : Char} (hmem : c ∈ text.toList) (hc : c.isAlphanum = false) (hc' : c ≠ '_' ∧ c ≠ '-') :
    AccountReadModel.findByNanoid db now text = none := by
  cases hfound : AccountReadModel.findByNanoid db now text with
  | none => rfl
  | some found => exact absurd hmem ((plainNanoid_of_visible hstored hfound).1.not_mem hc hc')

/-- What resolving the actor URL gives. -/
def ownActor (server : Server) (host : String) (account : Account) (document : ActorDocument) :
    ResolvedRemoteActor where
  acct := account.name ++ "@" ++ host
  url := localActorUrl server.publicBaseUrl account.nanoid
  inboxUrl := some document.inbox
  publicKeyPem := some document.publicKey.publicKeyPem

theorem resolveRemoteActor_own (hurl : PublicUrl server base host) (hnanoid : PlainNanoid account.nanoid)
    (hvisible : AccountReadModel.findByNanoid db outside.now account.nanoid = some account)
    (hserved : Served libraries server outside signingKeys host db account document) (count : Nat)
    (actor : ResolvedRemoteActor) :
    resolveRemoteActor server outside
        (localActorUrl server.publicBaseUrl account.nanoid ++ slashes count) = .ok actor ↔
      account.name.toList.all isWhitespace = false ∧ actor = ownActor server host account document := by
  obtain ⟨hid, hname⟩ : document.id = localActorUrl server.publicBaseUrl account.nanoid ∧
      document.preferredUsername = account.name := by
    have hdocument := hserved.serves
    simp only [getActor, hvisible, Fallible.bind_eq_ok] at hdocument
    obtain ⟨_, _, hnew⟩ := hdocument
    cases hnew
    exact ⟨rfl, rfl⟩
  obtain ⟨c, hlast, hc⟩ := hnanoid.getLast (trimEndSlashes server.publicBaseUrl ++ "/ap/accounts/")
  have htrim := trimEndSlashes_append_slashes hlast hc
  have hplain := hurl.actor account.nanoid 0 hnanoid
  have hsame : sameActivitypubId (localActorUrl server.publicBaseUrl account.nanoid)
      (localActorUrl server.publicBaseUrl account.nanoid ++ slashes count) = true := by
    have hself := htrim 0
    rw [slashes, List.replicate_zero, String.ofList_nil, String.append_empty] at hself
    rw [sameActivitypubId, decide_eq_true_eq]
    exact hself.trans (htrim count).symm
  rw [slashes, List.replicate_zero, String.ofList_nil, String.append_empty] at hplain
  rw [resolveRemoteActor, hurl.actor account.nanoid count hnanoid, hserved.fetched count]
  change checkRemoteActor server _ document.toActor = .ok actor ↔ _
  simp only [checkRemoteActor, ActorDocument.toActor, hid, hname, hplain, hurl.hosted, hsame, reject]
  cases hblank : account.name.toList.all isWhitespace with
  | true => simp
  | false => simp [ownActor, eq_comm]

theorem stripStart_actorUrl (hurl : PublicUrl server base host) (hnanoid : PlainNanoid account.nanoid)
    (count : Nat) :
    stripStart "acct:" (localActorUrl server.publicBaseUrl account.nanoid ++ slashes count) = none := by
  cases hstrip : stripStart "acct:" (localActorUrl server.publicBaseUrl account.nanoid ++ slashes count) with
  | none => rfl
  | some rest =>
      have hparsed := hurl.actor account.nanoid count hnanoid
      rw [stripStart_eq_some_iff.mp hstrip] at hparsed
      exact absurd (hurl.acct rest _ hparsed) hurl.scheme

theorem unresolvable_of_own {text : String} {P : Prop} (hstored : Stored outside db)
    (hresolve : ∀ actor, resolveRemoteActorIdentifier server outside text = .ok actor ↔
      P ∧ account.name.toList.all isWhitespace = false ∧ actor = ownActor server host account document) :
    Unresolvable server outside text db ↔ ¬P ∨ Unstorable server host account db := by
  have hunresolvable : Unresolvable server outside text db ↔
      (P → account.name.toList.all isWhitespace = false →
        ¬∃ result, upsertRemoteAccount outside (ownActor server host account document) db =
          .ok result) := by
    constructor
    · rintro h hP hblank ⟨result, hresult⟩
      exact h _ ((hresolve _).mpr ⟨hP, hblank, rfl⟩) result hresult
    · intro h actor hactor result hresult
      obtain ⟨hP, hblank, rfl⟩ := (hresolve actor).mp hactor
      exact h hP hblank ⟨result, hresult⟩
  rw [hunresolvable, hstored.remotes.exists_upsert_iff, Unstorable, imp_iff_not_or]
  refine or_congr_right ?_
  rw [imp_iff_not_or, Bool.not_eq_false]
  refine or_congr_right ?_
  simp [ownActor]

/-! ### The actor URL -/

theorem unresolvable_actorUrl (hurl : PublicUrl server base host) (hstored : Stored outside db)
    (hvisible : AccountReadModel.findByNanoid db outside.now account.nanoid = some account)
    (hserved : Served libraries server outside signingKeys host db account document) (count : Nat) :
    Unresolvable server outside
        (localActorUrl server.publicBaseUrl account.nanoid ++ slashes count) db ↔
      Unstorable server host account db := by
  have hnanoid := (plainNanoid_of_visible hstored hvisible).1
  have hresolve : ∀ actor, resolveRemoteActorIdentifier server outside
      (localActorUrl server.publicBaseUrl account.nanoid ++ slashes count) = .ok actor ↔
        True ∧ account.name.toList.all isWhitespace = false ∧
          actor = ownActor server host account document := by
    intro actor
    rw [resolveRemoteActorIdentifier, stripStart_actorUrl hurl hnanoid, true_and]
    exact resolveRemoteActor_own hurl hnanoid hvisible hserved count actor
  rw [unresolvable_of_own hstored hresolve, not_true, false_or]

/-- What is left of the path of an actor URL is a nanoid only if the path has nothing else. -/
theorem segment_of_path {path nanoid rest : String} {count : Nat} (hnanoid : '/' ∉ nanoid.toList)
    (h : stripStart "/ap/accounts/" (path ++ "/ap/accounts/" ++ nanoid ++ slashes count) = some rest)
    (hne : rest ≠ "") (hrest : '/' ∉ rest.toList) : count = 0 ∧ path = "" ∧ rest = nanoid := by
  have hchars := congrArg String.toList (stripStart_eq_some_iff.mp h)
  simp only [String.toList_append, slashes, String.toList_ofList] at hchars
  cases count with
  | succ count =>
      have hlast := congrArg List.getLast? hchars
      have hrestNe : rest.toList ≠ [] := fun hnil => hne (by simpa using hnil)
      rw [List.replicate_succ', ← List.append_assoc, List.getLast?_concat,
        List.getLast?_append_of_ne_nil _ hrestNe] at hlast
      exact absurd (List.mem_of_getLast? hlast.symm) hrest
  | zero =>
      have hcut : (path.toList ++ "/ap/accounts".toList) ++ '/' :: nanoid.toList =
          "/ap/accounts".toList ++ '/' :: rest.toList := by
        simpa using hchars
      obtain ⟨hpath, hsegment⟩ := last_segment hcut hnanoid hrest
      exact ⟨rfl, by simpa using hpath, String.toList_injective hsegment.symm⟩

theorem localActorNanoid_own (hurl : PublicUrl server base host) (hnanoid : PlainNanoid account.nanoid)
    (count : Nat) :
    localActorNanoid server (localActorUrl server.publicBaseUrl account.nanoid ++ slashes count) =
      if count = 0 ∧ trimEndSlashes base.path = "" then some account.nanoid else none := by
  have hslash := hnanoid.not_mem (c := '/') (by decide) (by decide)
  have hunfold : localActorNanoid server
      (localActorUrl server.publicBaseUrl account.nanoid ++ slashes count) =
        (stripStart "/ap/accounts/" (trimEndSlashes base.path ++ "/ap/accounts/" ++ account.nanoid ++
          slashes count)).bind fun nanoid =>
            if nanoid ≠ "" ∧ '/' ∉ nanoid.toList then some nanoid else none := by
    simp only [localActorNanoid, hurl.parsed, hurl.actor account.nanoid count hnanoid]
    simp
  rw [hunfold]
  split_ifs with hroot
  · obtain ⟨rfl, hpath⟩ := hroot
    have hstrip : stripStart "/ap/accounts/" (trimEndSlashes base.path ++ "/ap/accounts/" ++
        account.nanoid ++ slashes 0) = some account.nanoid := by
      rw [hpath]
      exact stripStart_eq_some_iff.mpr (by simp [slashes])
    rw [hstrip, Option.bind_some, if_pos ⟨hnanoid.1, hslash⟩]
  · rw [Option.bind_eq_none_iff]
    intro rest hrest
    rw [if_neg]
    rintro ⟨hne, hplain⟩
    obtain ⟨hcount, hpath, _⟩ := segment_of_path hslash hrest hne hplain
    exact hroot ⟨hcount, hpath⟩

theorem not_mem_handleDomain (port : Bool) {c : Char} (hhost : c ∉ host.toList) (hcolon : c ≠ ':')
    (hdigit : c.isDigit = false) : c ∉ (handleDomain base host port).toList := by
  cases port with
  | false => exact hhost
  | true =>
      rw [handleDomain]
      split
      · rw [String.toList_append, String.toList_append, List.mem_append, List.mem_append]
        rintro ((hmem | hmem) | hmem)
        · exact hhost hmem
        · exact hcolon (by simpa using hmem)
        · rw [isDigit_of_mem_port hmem] at hdigit
          cases hdigit
      · exact hhost

theorem localAcctName_eq (hurl : PublicUrl server base host) {text name domain : String}
    (hsplit : splitOnce '@' ((stripStart "acct:" text).getD text) = some (name, domain)) :
    localAcctName server text =
      if name ≠ "" ∧ toAsciiLowercase domain = toAsciiLowercase (handleDomain base host true) then
        some name
      else none := by
  cases hport : base.port <;> simp [localAcctName, hsplit, hurl.parsed, hurl.hosted, handleDomain, hport]

/-- What stands in a URL after an at-sign has slashes and is no domain. -/
theorem localAcctName_actorUrl (hurl : PublicUrl server base host)
    (hnanoid : PlainNanoid account.nanoid) (count : Nat) :
    localAcctName server (localActorUrl server.publicBaseUrl account.nanoid ++ slashes count) = none := by
  have hgetD : (stripStart "acct:" (localActorUrl server.publicBaseUrl account.nanoid ++
      slashes count)).getD (localActorUrl server.publicBaseUrl account.nanoid ++ slashes count) =
        localActorUrl server.publicBaseUrl account.nanoid ++ slashes count := by
    rw [stripStart_actorUrl hurl hnanoid]
    rfl
  have hchars : (localActorUrl server.publicBaseUrl account.nanoid ++ slashes count).toList =
      (trimEndSlashes server.publicBaseUrl).toList ++ ("/ap/accounts/".toList ++ account.nanoid.toList ++
        List.replicate count '/') := by
    simp [localActorUrl, slashes, String.toList_append]
  have htail : '@' ∉ "/ap/accounts/".toList ++ account.nanoid.toList ++ List.replicate count '/' := by
    have hat := hnanoid.not_mem (c := '@') (by decide) (by decide)
    simp [hat]
  by_cases hat : '@' ∈ (trimEndSlashes server.publicBaseUrl).toList
  · obtain ⟨front, back, hbase, hfront⟩ := List.eq_append_cons_of_mem hat
    rw [hbase, List.append_assoc, List.cons_append] at hchars
    have hsplit := splitOnce_of_toList hchars hfront
    rw [← hgetD] at hsplit
    rw [localAcctName_eq hurl hsplit, if_neg]
    rintro ⟨_, hsame⟩
    refine not_mem_handleDomain true hurl.plain.2.1 (by decide) (by decide)
      (mem_of_toAsciiLowercase (by decide) (by decide) hsame ?_)
    simp
  · rw [localAcctName, hgetD, splitOnce_eq_none]
    · rfl
    · rw [hchars, List.mem_append, not_or]
      exact ⟨hat, htail⟩

/-! ### The handle -/

theorem findByName_own (hstored : Stored outside db)
    (hvisible : AccountReadModel.findByNanoid db outside.now account.nanoid = some account) :
    AccountReadModel.findByName db outside.now account.name = some account := by
  obtain ⟨row, hrow, _, hrowVisible, hrowAccount⟩ := AccountReadModel.findByNanoid_some hvisible
  rw [← hrowAccount]
  rw [show (row.toAccount false outside.now).name = row.name from rfl,
    AccountReadModel.findByName_eq outside.now hstored.accounts hrow, AccountRow.filteredAnswer]
  simp [hrowVisible]

/-- An answer of this server to WebFinger for the public host. -/
theorem webfinger_own (hurl : PublicUrl server base host) (hstored : Stored outside db)
    (hvisible : AccountReadModel.findByNanoid db outside.now account.nanoid = some account)
    (hserved : Served libraries server outside signingKeys host db account document)
    (hat : '@' ∉ account.name.toList) {jrd : Json}
    (h : outside.fetchWebFinger (webfingerUrl account.name host) = .ok jrd) :
    base.port = none ∧ account.name ≠ "" ∧
      webfingerActorUrl account.name host jrd =
        .ok (localActorUrl server.publicBaseUrl account.nanoid) := by
  obtain ⟨response, hresponse, rfl⟩ := hserved.webfinger jrd h
  simp only [webfinger, Fallible.bind_eq_ok] at hresponse
  obtain ⟨_, hresource, dto, hdto, expected, hexpected, hresponse⟩ := hresponse
  cases hresource
  -- the handle is taken apart again
  rw [parseWebfingerResource, stripStart_append] at hdto
  simp only [splitOnce_handle hat] at hdto
  split_ifs at hdto with hrefused
  cases hdto
  have hname : account.name ≠ "" := by
    intro hempty
    exact hrefused (.inl (by rw [hempty]; rfl))
  rw [publicBaseHostHeader, hserved.urls, hurl.parsed] at hexpected
  simp only [hurl.hosted] at hexpected
  split_ifs at hresponse with hdomain
  cases hport : base.port with
  | some port =>
      simp only [hport] at hexpected
      cases hexpected
      have hlength := congrArg String.length (of_decide_eq_true hdomain)
      simp [toAsciiLowercase] at hlength
  | none =>
      refine ⟨rfl, hname, ?_⟩
      simp only [getWebfinger, findByName_own hstored hvisible] at hresponse
      cases hvalid : validateAccountName account.name with
      | error report =>
          rw [hvalid] at hresponse
          cases hresponse
      | ok _ =>
          rw [hvalid] at hresponse
          cases hresponse
          rw [hurl.lower]
          change (if "acct:" ++ account.name ++ "@" ++ host ≠ "acct:" ++ account.name ++ "@" ++ host then _
            else _) = _
          rw [if_neg (not_not.mpr rfl)]
          rfl

/-- A handle is resolved when it is discovered and the actor it leads to is resolved. -/
theorem resolveRemoteWebfinger_eq_ok_iff {user domain : String} {actor : ResolvedRemoteActor} :
    resolveRemoteWebfinger server outside user domain = .ok actor ↔
      Discovered server outside user domain ∧
        ∃ jrd url, outside.fetchWebFinger (webfingerUrl user domain) = .ok jrd ∧
          webfingerActorUrl user domain jrd = .ok url ∧
          resolveRemoteActor server outside url = .ok actor := by
  simp only [resolveRemoteWebfinger, reject]
  constructor
  · intro h
    split_ifs at h with huser hdomain
    rw [Bool.not_eq_true', Bool.not_eq_false] at huser
    rw [Bool.or_eq_true, Bool.or_eq_true, not_or, not_or, Bool.not_eq_true', Bool.not_eq_false,
      decide_eq_true_eq, decide_eq_true_eq] at hdomain
    cases hparse : server.parseUrl (webfingerUrl user domain) with
    | none =>
        rw [webfingerUrl] at hparse
        rw [hparse] at h
        cases h
    | some parsed =>
        have hparsed := hparse
        rw [webfingerUrl] at hparsed
        simp only [hparsed, Fallible.bind_eq_ok] at h
        obtain ⟨jrd, hjrd, url, hurl, hactor⟩ := h
        refine ⟨⟨huser, hdomain.1.1, ⟨hdomain.1.2, hdomain.2⟩, ?_, ?_⟩, jrd, url, hjrd, hurl, hactor⟩
        · rw [hparse]
          rfl
        · rw [webfingerUrl, hjrd]
          rfl
  · rintro ⟨hdiscovered, jrd, url, hjrd, hurl, hactor⟩
    obtain ⟨parsed, hparsed⟩ := Option.isSome_iff_exists.mp hdiscovered.parsed
    rw [webfingerUrl] at hparsed hjrd
    rw [hdiscovered.nameChars, hdiscovered.domainChars]
    simp only [hparsed, hdiscovered.ends.1, hdiscovered.ends.2, hjrd]
    exact Fallible.bind_eq_ok.mpr ⟨jrd, rfl, Fallible.bind_eq_ok.mpr ⟨url, hurl, hactor⟩⟩

theorem not_discovered_of_at (hurl : PublicUrl server base host) {domain : String}
    (hat : '@' ∈ account.name.toList) : ¬Discovered server outside account.name domain := by
  intro h
  have hchar := List.all_eq_true.mp h.nameChars '@' hat
  simp [hurl.letters.1] at hchar

/-- WebFinger is asked for a domain without a port. -/
theorem handleDomain_of_chars (hurl : PublicUrl server base host) {port : Bool}
    (h : ((handleDomain base host port).toList.all fun c =>
      server.isAlphanumeric c || c = '.' || c = '-') = true) : handleDomain base host port = host := by
  cases port with
  | false => rfl
  | true =>
      cases hport : base.port with
      | none => simp [handleDomain, hport]
      | some number =>
          have hcolon := List.all_eq_true.mp h ':' (by simp [handleDomain, hport, String.toList_append])
          simp [hurl.letters.2] at hcolon

/-- A handle that is discovered is the one this server answers for. -/
theorem discovered_own (hurl : PublicUrl server base host) (hstored : Stored outside db)
    (hvisible : AccountReadModel.findByNanoid db outside.now account.nanoid = some account)
    (hserved : Served libraries server outside signingKeys host db account document) {port : Bool}
    (h : Discovered server outside account.name (handleDomain base host port)) :
    handleDomain base host port = host ∧ base.port = none ∧ account.name ≠ "" ∧
      ∃ jrd, outside.fetchWebFinger (webfingerUrl account.name host) = .ok jrd ∧
        webfingerActorUrl account.name host jrd =
          .ok (localActorUrl server.publicBaseUrl account.nanoid) := by
  have hdomain := handleDomain_of_chars hurl h.domainChars
  have hat : '@' ∉ account.name.toList := fun hat => not_discovered_of_at hurl hat h
  have hanswered := h.answered
  rw [hdomain] at hanswered
  cases hjrd : outside.fetchWebFinger (webfingerUrl account.name host) with
  | error report =>
      rw [hjrd] at hanswered
      cases hanswered
  | ok jrd =>
      obtain ⟨hport, hname, hown⟩ := webfinger_own hurl hstored hvisible hserved hat hjrd
      exact ⟨hdomain, hport, hname, jrd, rfl, hown⟩

theorem resolveIdentifier_handle (hurl : PublicUrl server base host) (hstored : Stored outside db)
    (hvisible : AccountReadModel.findByNanoid db outside.now account.nanoid = some account)
    (hserved : Served libraries server outside signingKeys host db account document) (port : Bool)
    (actor : ResolvedRemoteActor) :
    resolveRemoteActorIdentifier server outside
        ("acct:" ++ (account.name ++ "@" ++ handleDomain base host port)) = .ok actor ↔
      Discovered server outside account.name (handleDomain base host port) ∧
        account.name.toList.all isWhitespace = false ∧ actor = ownActor server host account document := by
  have hresolve := resolveRemoteActor_own hurl (plainNanoid_of_visible hstored hvisible).1 hvisible
    hserved 0
  rw [slashes, List.replicate_zero, String.ofList_nil, String.append_empty] at hresolve
  rw [resolveRemoteActorIdentifier, stripStart_append, Option.bind_some]
  by_cases hat : '@' ∈ account.name.toList
  · obtain ⟨front, rest, hsplit, hrest⟩ := splitOnce_handle_of_at hat (handleDomain base host port)
    simp only [hsplit]
    refine iff_of_false (fun h => ?_) fun h => not_discovered_of_at hurl hat h.1
    split_ifs at h
    · cases h
    have hchar := List.all_eq_true.mp (resolveRemoteWebfinger_eq_ok_iff.mp h).1.domainChars '@' hrest
    simp [hurl.letters.1] at hchar
  · simp only [splitOnce_handle hat]
    constructor
    · intro h
      split_ifs at h with hempty
      · cases h
      obtain ⟨hdiscovered, jrd, url, hjrd, hactorUrl, hactor⟩ := resolveRemoteWebfinger_eq_ok_iff.mp h
      obtain ⟨hdomain, _, _, jrd', hjrd', hown⟩ :=
        discovered_own hurl hstored hvisible hserved hdiscovered
      rw [hdomain] at hjrd hactorUrl
      obtain rfl := Except.ok.inj (hjrd.symm.trans hjrd')
      obtain rfl := Except.ok.inj (hactorUrl.symm.trans hown)
      exact ⟨hdiscovered, (hresolve actor).mp hactor⟩
    · rintro ⟨hdiscovered, hactor⟩
      obtain ⟨hdomain, _, hname, jrd, hjrd, hown⟩ :=
        discovered_own hurl hstored hvisible hserved hdiscovered
      rw [hdomain] at hdiscovered ⊢
      rw [if_neg (not_or.mpr ⟨hname, hurl.plain.1⟩), resolveRemoteWebfinger_eq_ok_iff]
      exact ⟨hdiscovered, jrd, _, hjrd, hown, (hresolve actor).mpr hactor⟩

theorem unresolvable_handle (hurl : PublicUrl server base host) (hstored : Stored outside db)
    (hvisible : AccountReadModel.findByNanoid db outside.now account.nanoid = some account)
    (hserved : Served libraries server outside signingKeys host db account document) (port : Bool) :
    Unresolvable server outside ("acct:" ++ (account.name ++ "@" ++ handleDomain base host port)) db ↔
      ¬Discovered server outside account.name (handleDomain base host port) ∨
        Unstorable server host account db :=
  unresolvable_of_own hstored (resolveIdentifier_handle hurl hstored hvisible hserved port)

/-! ### Recognition -/

/-- No nanoid is a URL or a handle. -/
theorem unresolvable_nanoid (hurl : PublicUrl server base host) (hnanoid : PlainNanoid account.nanoid) :
    Unresolvable server outside account.nanoid db := by
  have hcolon := hnanoid.not_mem (c := ':') (by decide) (by decide)
  have hstrip : stripStart "acct:" account.nanoid = none := by
    cases hstrip : stripStart "acct:" account.nanoid with
    | none => rfl
    | some rest =>
        rw [stripStart_eq_some_iff.mp hstrip, String.toList_append, List.mem_append, not_or] at hcolon
        exact absurd (by decide) hcolon.1
  intro actor hactor
  rw [resolveRemoteActorIdentifier, hstrip, Option.bind_none, resolveRemoteActor,
    hurl.relative account.nanoid hcolon] at hactor
  cases hactor

theorem findLocalTarget_actorUrl (hurl : PublicUrl server base host) (hstored : Stored outside db)
    (hvisible : AccountReadModel.findByNanoid db outside.now account.nanoid = some account)
    (count : Nat) :
    findLocalTarget server outside
        (localActorUrl server.publicBaseUrl account.nanoid ++ slashes count) db =
      if count = 0 ∧ trimEndSlashes base.path = "" then some account else none := by
  have hnanoid := (plainNanoid_of_visible hstored hvisible).1
  have hslash : '/' ∈ (localActorUrl server.publicBaseUrl account.nanoid ++ slashes count).toList := by
    simp [localActorUrl, String.toList_append]
  rw [findLocalTarget, findByNanoid_eq_none hstored hslash (by decide) (by decide),
    localActorNanoid_own hurl hnanoid, localAcctName_actorUrl hurl hnanoid]
  split_ifs with hroot
  · simp [hvisible]
  · rfl

/-- A handle is recognised unless WebFinger does not answer for it either. -/
theorem findLocalTarget_handle (hurl : PublicUrl server base host) (hstored : Stored outside db)
    (hvisible : AccountReadModel.findByNanoid db outside.now account.nanoid = some account)
    (hserved : Served libraries server outside signingKeys host db account document) (port : Bool) :
    findLocalTarget server outside
        ("acct:" ++ (account.name ++ "@" ++ handleDomain base host port)) db = some account ∨
      findLocalTarget server outside
          ("acct:" ++ (account.name ++ "@" ++ handleDomain base host port)) db = none ∧
        ¬Discovered server outside account.name (handleDomain base host port) := by
  have hcolon : ':' ∈ ("acct:" ++ (account.name ++ "@" ++ handleDomain base host port)).toList := by
    simp [String.toList_append]
  have hactor : localActorNanoid server
      ("acct:" ++ (account.name ++ "@" ++ handleDomain base host port)) = none := by
    cases hparse : server.parseUrl
        ("acct:" ++ (account.name ++ "@" ++ handleDomain base host port)) with
    | none => simp [localActorNanoid, hurl.parsed, hparse]
    | some url =>
        have hscheme : base.scheme ≠ url.scheme := by
          rw [hurl.acct _ url hparse]
          exact hurl.scheme
        simp [localActorNanoid, hurl.parsed, hparse, hscheme]
  have hgetD : (stripStart "acct:" ("acct:" ++ (account.name ++ "@" ++
      handleDomain base host port))).getD ("acct:" ++ (account.name ++ "@" ++
        handleDomain base host port)) = account.name ++ "@" ++ handleDomain base host port := by
    rw [stripStart_append]
    rfl
  rw [findLocalTarget, findByNanoid_eq_none hstored hcolon (by decide) (by decide), hactor]
  by_cases hat : '@' ∈ account.name.toList
  · obtain ⟨front, rest, hsplit, hrest⟩ := splitOnce_handle_of_at hat (handleDomain base host port)
    rw [← hgetD] at hsplit
    rw [localAcctName_eq hurl hsplit, if_neg]
    · exact .inr ⟨rfl, not_discovered_of_at hurl hat⟩
    · rintro ⟨_, hsame⟩
      exact not_mem_handleDomain true hurl.plain.2.2 (by decide) (by decide)
        (mem_of_toAsciiLowercase (by decide) (by decide) hsame hrest)
  · have hsplit := splitOnce_handle hat (handleDomain base host port)
    rw [← hgetD] at hsplit
    rw [localAcctName_eq hurl hsplit]
    split_ifs with hown
    · left
      simp [findByName_own hstored hvisible]
    · refine .inr ⟨rfl, fun hdiscovered => hown ?_⟩
      obtain ⟨hdomain, hport, hname, _⟩ := discovered_own hurl hstored hvisible hserved hdiscovered
      refine ⟨hname, ?_⟩
      rw [hdomain, handleDomain, hport]

/-- A local account stays local under its nanoid. Its actor URL does only for an unfollow, without a
slash at the end and under a base URL without a path, or if no row can be written for it. Its handle
does for an unfollow, and for the others unless WebFinger answers for it and a row can be written. -/
theorem local_target_iff (libraries : HttpLibraries) (server : Server) (outside : Outside)
    (signingKeys : List SigningKey) (base : Url) (host : String) (db : Db) (account : Account)
    (document : ActorDocument) (hurl : PublicUrl server base host) (hstored : Stored outside db)
    (hvisible : AccountReadModel.findByNanoid db outside.now account.nanoid = some account)
    (hserved : Served libraries server outside signingKeys host db account document)
    (identifier : Identifier) (useCase : UseCase) :
    StaysLocal account db
        (useCase.resolve server outside (identifier.text server base host account) db) ↔
      match identifier with
      | .nanoid => True
      | .actorUrl count =>
          (useCase = .sendUndoFollow ∧ count = 0 ∧ trimEndSlashes base.path = "") ∨
            Unstorable server host account db
      | .acct port =>
          useCase = .sendUndoFollow ∨
            ¬Discovered server outside account.name (handleDomain base host port) ∨
            Unstorable server host account db := by
  rw [staysLocal_iff]
  cases identifier with
  | nanoid =>
      refine iff_of_true ?_ trivial
      have hlocal : findLocalTarget server outside account.nanoid db = some account := by
        rw [findLocalTarget, hvisible]
        rfl
      cases useCase with
      | blockAccount | muteAccount => simp only [UseCase.recognised, Identifier.text, hvisible]
      | sendFollow =>
          exact unresolvable_nanoid hurl (plainNanoid_of_visible hstored hvisible).1
      | sendUndoFollow => simp only [UseCase.recognised, Identifier.text, hlocal]
  | actorUrl count =>
      have hslash : '/' ∈ (localActorUrl server.publicBaseUrl account.nanoid ++ slashes count).toList := by
        simp [localActorUrl, String.toList_append]
      have hnone : AccountReadModel.findByNanoid db outside.now
          (localActorUrl server.publicBaseUrl account.nanoid ++ slashes count) = none :=
        findByNanoid_eq_none hstored hslash (by decide) (by decide)
      have hremote := unresolvable_actorUrl hurl hstored hvisible hserved count
      cases useCase with
      | blockAccount | muteAccount =>
          simp only [UseCase.recognised, Identifier.text, hnone, hremote, reduceCtorEq, false_and, false_or]
      | sendFollow =>
          simp only [UseCase.recognised, Identifier.text, hremote, reduceCtorEq, false_and, false_or]
      | sendUndoFollow =>
          simp only [UseCase.recognised, Identifier.text,
            findLocalTarget_actorUrl hurl hstored hvisible count, true_and]
          split_ifs with hroot
          · exact iff_of_true rfl (.inl hroot)
          · simp only [hremote, hroot, false_or]
  | acct port =>
      have hcolon : ':' ∈ ("acct:" ++ (account.name ++ "@" ++ handleDomain base host port)).toList := by
        simp [String.toList_append]
      have hnone : AccountReadModel.findByNanoid db outside.now
          ("acct:" ++ (account.name ++ "@" ++ handleDomain base host port)) = none :=
        findByNanoid_eq_none hstored hcolon (by decide) (by decide)
      have hremote := unresolvable_handle hurl hstored hvisible hserved port
      cases useCase with
      | blockAccount | muteAccount =>
          simp only [UseCase.recognised, Identifier.text, hnone, hremote, reduceCtorEq, false_or]
      | sendFollow => simp only [UseCase.recognised, Identifier.text, hremote, reduceCtorEq, false_or]
      | sendUndoFollow =>
          refine iff_of_true ?_ (.inl rfl)
          simp only [UseCase.recognised, Identifier.text]
          rcases findLocalTarget_handle hurl hstored hvisible hserved port with hfound | ⟨hfound, hnot⟩
          · rw [hfound]
          · rw [hfound]
            exact hremote.mpr (.inl hnot)

end Resolution

/-! ### A server that serves Alice's account -/

open Exclusion

def aliceKeys : List SigningKey :=
  [{ id := 1, accountId := 7, algorithm := .Rsa2048
     encryptedPrivateKey := { ciphertext := "", nonce := "", salt := "", algorithm := .Rsa2048 }
     publicKeyPem := "pem", keyIdUri := aliceUrl ++ "#main-key", createdAt := 0, revokedAt := none }]

def aliceDocument : ActorDocument :=
  .new "https://local.example" "alice-nanoid" "alice" none none none none "pem" (aliceUrl ++ "#main-key")

def aliceResponse : WebFingerResponse where
  subject := "acct:alice@local.example"
  links := some [{ rel := "self", type_ := "application/activity+json", href := aliceUrl }]
  aliases := some [aliceUrl]

/-- The network answers as the routes of this server do. -/
def servingAlice : Outside :=
  { answering 1 10 with
    fetchActor := fun url =>
      if trimEndSlashes url = aliceUrl then .ok aliceDocument.toActor
      else reject .NotFound "no such actor"
    fetchWebFinger := fun url =>
      if url = webfingerUrl "alice" "local.example" then .ok aliceResponse.toJson
      else reject .NotFound "no such resource" }

def localUrl : Url where
  scheme := "https"
  host := some "local.example"
  port := none
  portOrKnownDefault := some 443
  path := "/"
  query := none

def ownLibraries : HttpLibraries := { emptyObjectLibraries with parseUrl := parseUrl }

theorem parseUrl_path {path : String} (hquery : '?' ∉ path.toList) :
    parseUrl ("https://local.example" ++ ("/" ++ path)) = some { localUrl with path := "/" ++ path } := by
  have hacct : stripStart "acct:" ("https://local.example" ++ ("/" ++ path)) = none := by
    simp [stripStart, String.toList_append, List.dropPrefix?]
  have hsplit : splitOnce '?' ("/" ++ path) = none := by
    refine splitOnce_eq_none ?_
    simpa [String.toList_append] using hquery
  have hslash : ("/" ++ path).toList.head? = some '/' := by simp [String.toList_append]
  have hlocal : parseHttps "https://local.example" "local.example"
      ("https://local.example" ++ ("/" ++ path)) = some { localUrl with path := "/" ++ path } := by
    rw [parseHttps, stripStart_append, Option.bind_some, hslash, if_pos (by simp), hsplit]
    simp [localUrl]
  rw [parseUrl, hacct]
  simp only [hlocal, Option.some_or]

theorem stripStart_relative {start text : String} (hstart : ':' ∈ start.toList)
    (hcolon : ':' ∉ text.toList) : stripStart start text = none := by
  cases hstrip : stripStart start text with
  | none => rfl
  | some rest =>
      rw [stripStart_eq_some_iff.mp hstrip, String.toList_append, List.mem_append] at hcolon
      exact absurd (.inl hstart) hcolon

theorem publicUrl_localServer : PublicUrl localServer localUrl "local.example" where
  parsed := by rfl
  scheme := by decide
  hosted := rfl
  plain := by decide
  lower := by decide +kernel
  actor nanoid count hnanoid := by
    have hquery : '?' ∉ ("ap/accounts/" ++ nanoid ++ slashes count).toList := by
      have hmem := hnanoid.not_mem (c := '?') (by decide) (by decide)
      simpa [String.toList_append, slashes] using hmem
    have hbase : trimEndSlashes "https://local.example" = "https://local.example" := by decide +kernel
    have hpath : trimEndSlashes localUrl.path = "" := by decide +kernel
    have htext : ∀ text : String, "/ap/accounts/" ++ text = "/" ++ ("ap/accounts/" ++ text) := by
      intro text
      rw [← String.append_assoc]
      rfl
    have hparse := parseUrl_path hquery
    rw [localActorUrl, localServer, hbase, hpath]
    simpa only [String.append_assoc, String.empty_append, htext] using hparse
  relative text hcolon := by
    change parseUrl text = none
    have horigin : ∀ {origin host : String}, ':' ∈ origin.toList → parseHttps origin host text = none := by
      intro origin host horigin
      rw [parseHttps, stripStart_relative horigin hcolon, Option.bind_none]
    rw [parseUrl, stripStart_relative (by decide) hcolon]
    simp only [horigin (by decide : ':' ∈ "https://local.example".toList),
      horigin (by decide : ':' ∈ "https://remote.example".toList), Option.none_or]
  acct text url hparsed := by
    change parseUrl _ = _ at hparsed
    unfold parseUrl at hparsed
    rw [stripStart_append] at hparsed
    cases hparsed
    rfl
  letters := by decide

theorem stored_aliceDb : Stored servingAlice aliceDb where
  accounts := by decide +kernel
  nanoids row hrow := by
    have hchars : (Exclusion.alice.nanoid.toList.all fun c => c.isAlphanum || c = '_' || c = '-') = true := by
      decide +kernel
    obtain rfl := List.mem_singleton.mp hrow
    refine ⟨by decide, fun c hc => ?_⟩
    simpa [or_assoc] using List.all_eq_true.mp hchars c hc
  remotes :=
    { urls := fun _ hremote => by cases hremote
      icons := by decide +kernel
      fresh := rfl }

theorem localActorUrl_alice :
    localActorUrl localServer.publicBaseUrl Exclusion.alice.nanoid = aliceUrl := by
  decide +kernel

theorem served_alice :
    Served ownLibraries localServer servingAlice aliceKeys "local.example" aliceDb Exclusion.alice
      aliceDocument where
  urls := rfl
  serves := by rfl
  fetched count := by
    obtain ⟨c, hlast, hc⟩ : ∃ c, aliceUrl.toList.getLast? = some c ∧ c ≠ '/' := ⟨'d', by decide +kernel⟩
    rw [localActorUrl_alice]
    simp only [servingAlice, trimEndSlashes_append_slashes hlast hc, if_true]
  webfinger jrd hjrd := by
    refine ⟨aliceResponse, by rfl, ?_⟩
    change servingAlice.fetchWebFinger (webfingerUrl "alice" "local.example") = _ at hjrd
    simp only [servingAlice, if_true] at hjrd
    exact (Except.ok.inj hjrd).symm

theorem local_target_alice :
    let resolve (useCase : UseCase) (identifier : Identifier) :=
      useCase.resolve localServer servingAlice
        (identifier.text localServer localUrl "local.example" Exclusion.alice) aliceDb
    StaysLocal Exclusion.alice aliceDb (resolve .blockAccount .nanoid) ∧
      StaysLocal Exclusion.alice aliceDb (resolve .sendUndoFollow (.actorUrl 0)) ∧
      StaysLocal Exclusion.alice aliceDb (resolve .sendUndoFollow (.acct true)) := by
  have hparts := local_target_iff ownLibraries localServer servingAlice aliceKeys localUrl
    "local.example" aliceDb Exclusion.alice aliceDocument publicUrl_localServer stored_aliceDb (by rfl)
    served_alice
  exact ⟨(hparts .nanoid .blockAccount).mpr trivial,
    (hparts (.actorUrl 0) .sendUndoFollow).mpr (.inl ⟨rfl, rfl, by decide +kernel⟩),
    (hparts (.acct true) .sendUndoFollow).mpr (.inl rfl)⟩

/-- The actor URL of a local account is a remote target to a block, a mute and a follow, and with a
slash at its end to an unfollow; its handle is one to a block. So an account can block and follow
itself. -/
theorem local_actor_url_becomes_remote :
    let resolve (useCase : UseCase) (target : String) :=
      useCase.resolve localServer servingAlice target aliceDb
    (resolve .blockAccount aliceUrl).1.toOption = some (.Remote 10) ∧
      (resolve .muteAccount aliceUrl).1.toOption = some (.Remote 10) ∧
      (resolve .sendFollow aliceUrl).1.toOption = some (.Remote 10) ∧
      (resolve .sendUndoFollow (aliceUrl ++ "/")).1.toOption = some (.Remote 10) ∧
      (resolve .blockAccount "acct:alice@local.example").1.toOption = some (.Remote 10) ∧
      (resolve .blockAccount aliceUrl).2.remoteAccounts.rows.map (·.url) = [aliceUrl] ∧
      (blockAccount localServer servingAlice "alice-nanoid" aliceUrl aliceDb).1.isOk = true ∧
      (sendFollow localServer servingAlice "alice-nanoid" aliceUrl aliceDb).1.isOk = true := by
  decide +kernel

end LocalTarget

end Emumet
