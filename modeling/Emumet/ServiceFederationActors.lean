import Emumet.RouteReadBack
import Emumet.ServiceFederation

/-! The accounts of the instances as the others see them: under which URL, handle and inbox an account is
resolved, and that no actor of another server is taken for one. -/

namespace Emumet

namespace Federation

open Session Exchange Links

namespace Network

variable {ι : Type} (net : Network ι)

/-! ### Names of accounts -/

/-- The handle other instances store an account under. -/
def acct (i : ι) (holder : Holder) : Option String :=
  ((net.parseUrl (net.actorUrl i holder.nanoid)).bind Url.host).map (holder.name ++ "@" ++ ·)

/-- The handle and the URL of an account of an instance. -/
def Listed (handle url : String) : Prop :=
  ∃ i, ∃ holder ∈ net.holders i, net.acct i holder = some handle ∧ net.actorUrl i holder.nanoid = url

/-- A URL that is that of no account of an instance, a slash at its end or not. -/
def Foreign (url : String) : Prop :=
  ∀ i, ∀ holder ∈ net.holders i, trimEndSlashes url ≠ net.actorUrl i holder.nanoid

/-- The addresses of the instances are answered by them, and their accounts have names of their own. -/
structure Addressed : Prop where
  actor : ∀ i, ∀ holder ∈ net.holders i,
    net.actorAt (net.actorUrl i holder.nanoid) = some (i, holder.nanoid)
  onlyActors : ∀ url i nanoid, net.actorAt url = some (i, nanoid) → url = net.actorUrl i nanoid
  inbox : ∀ i, ∀ holder ∈ net.holders i,
    net.inboxAt (net.inboxUrl i holder.nanoid) = some (i, holder.nanoid)
  trimmed : ∀ i, ∀ holder ∈ net.holders i,
    trimEndSlashes (net.actorUrl i holder.nanoid) = net.actorUrl i holder.nanoid
  parsed : ∀ i, ∀ holder ∈ net.holders i,
    ((net.parseUrl (net.actorUrl i holder.nanoid)).bind Url.host).isSome = true
  named : ∀ i, ∀ holder ∈ net.holders i, holder.name.toList.all isWhitespace = false
  addressed : ∀ i, ∀ holder ∈ net.holders i, trim holder.nanoid ≠ ""
  nanoids : ∀ i, ∀ holder ∈ net.holders i, ∀ other ∈ net.holders i,
    holder.nanoid = other.nanoid → holder = other
  ids : ∀ i, ∀ holder ∈ net.holders i, ∀ other ∈ net.holders i, holder.id = other.id → holder = other
  handles : ∀ handle url url', net.Listed handle url → net.Listed handle url' → url = url'

/-! ### Looking up accounts -/

/-- The rows of accounts are those of holders. -/
def Held (s : ι → Db) : Prop := ∀ i, ∀ row ∈ (s i).accounts.rows, holderOf row ∈ net.holders i

instance [Fintype ι] (s : ι → Db) : Decidable (net.Held s) :=
  inferInstanceAs (Decidable (∀ i, ∀ row ∈ (s i).accounts.rows, holderOf row ∈ net.holders i))

variable {net} {s s' : ι → Db} {i j : ι} {round : Round ι} {level : Nat} {now later : OffsetDateTime}
  {nanoid : Nanoid} {account : Account} {holder : Holder}

theorem found_row (h : AccountReadModel.findByNanoid (s i) now nanoid = some account) :
    ∃ row ∈ (s i).accounts.rows, row.nanoid = nanoid ∧ row.visible now = true ∧
      account = row.toAccount false now := by
  rw [AccountReadModel.findByNanoid, AccountReadModel.findVisible, Option.map_eq_some_iff] at h
  obtain ⟨row, hrow, rfl⟩ := h
  have hmatch := List.find?_some hrow
  rw [Bool.and_eq_true, decide_eq_true_eq] at hmatch
  exact ⟨row, List.mem_of_find?_eq_some hrow, hmatch.1, hmatch.2, rfl⟩

theorem found_nanoid (h : AccountReadModel.findByNanoid (s i) now nanoid = some account) :
    account.nanoid = nanoid := by
  obtain ⟨row, _, rfl, _, rfl⟩ := found_row h
  rfl

theorem Held.found (hheld : net.Held s)
    (h : AccountReadModel.findByNanoid (s i) now nanoid = some account) :
    ⟨account.id, nanoid, account.name⟩ ∈ net.holders i := by
  obtain ⟨row, hrow, rfl, _, rfl⟩ := found_row h
  exact hheld i row hrow

/-- An account that is found stays found while the accounts stay as they are. -/
theorem Addressed.found_later (hnet : net.Addressed) (hheld : net.Held s)
    (haccounts : (s' i).accounts = (s i).accounts) (hle : now ≤ later)
    (h : AccountReadModel.findByNanoid (s i) now nanoid = some account) :
    ∃ found, AccountReadModel.findByNanoid (s' i) later nanoid = some found ∧ found.id = account.id ∧
      found.nanoid = nanoid ∧ found.name = account.name := by
  obtain ⟨row, hrow, rfl, hvisible, rfl⟩ := found_row h
  have hfound : ((s' i).accounts.rows.find? fun other =>
      other.nanoid = row.nanoid && other.visible later).isSome = true := by
    rw [haccounts]
    refine List.find?_isSome.mpr ⟨row, hrow, ?_⟩
    rw [ReadBack.visible_of_le hle hvisible, decide_eq_true rfl]
    rfl
  obtain ⟨other, hother⟩ := Option.isSome_iff_exists.mp hfound
  have hmatch := List.find?_some hother
  rw [Bool.and_eq_true, decide_eq_true_eq] at hmatch
  have hmem := List.mem_of_find?_eq_some hother
  rw [haccounts] at hmem
  have hsame := hnet.nanoids i _ (hheld i other hmem) _ (hheld i row hrow) hmatch.1
  refine ⟨other.toAccount false later, ?_, congrArg Holder.id hsame, hmatch.1,
    congrArg Holder.name hsame⟩
  rw [AccountReadModel.findByNanoid, AccountReadModel.findVisible, hother]
  rfl

/-! ### Actors as other instances see them -/

/-- A resolved actor that is an account of an instance. -/
structure Member (net : Network ι) (round : Round ι) (level : Nat) (s : ι → Db) (i : ι) (holder : Holder)
    (actor : ResolvedRemoteActor) : Prop where
  held : holder ∈ net.holders i
  url : actor.url = net.actorUrl i holder.nanoid
  inbox : actor.inboxUrl = some (net.inboxUrl i holder.nanoid)
  acct : net.acct i holder = some actor.acct
  found : ∃ account, AccountReadModel.findByNanoid (s i) (round.clock level i) holder.nanoid = some account

/-- A resolved actor of another server. -/
structure Stranger (net : Network ι) (actor : ResolvedRemoteActor) : Prop where
  url : net.Foreign actor.url
  acct : ∀ url, ¬net.Listed actor.acct url

/-- Other servers pass no actor off as an account of an instance. -/
def Honest (net : Network ι) (round : Round ι) : Prop :=
  ∀ level url actor, net.actorAt url = none → (round.outside level).fetchActor url = .ok actor →
    net.Foreign actor.id ∧ ∀ host, (net.parseUrl actor.id).bind Url.host = some host →
      ∀ url, ¬net.Listed (actor.preferredUsername ++ "@" ++ host) url

theorem checkRemoteActor_ok {server : Server} {url : String} {document : Actor}
    {actor : ResolvedRemoteActor} (h : checkRemoteActor server url document = .ok actor) :
    actor.url = document.id ∧ actor.inboxUrl = some document.inbox ∧
      ∃ host, (server.parseUrl document.id).bind Url.host = some host ∧
        actor.acct = document.preferredUsername ++ "@" ++ host := by
  simp only [checkRemoteActor, reject] at h
  split at h
  · cases h
  · next parsed hparsed =>
      split at h
      · cases h
      · next host hhost =>
          split_ifs at h
          cases h
          exact ⟨rfl, rfl, host, by rw [hparsed]; exact hhost, rfl⟩

theorem servedActor_ok {actor : Actor} (hheld : net.Held s)
    (h : net.servedActor round level s i nanoid = .ok actor) :
    ∃ holder ∈ net.holders i, holder.nanoid = nanoid ∧ actor.id = net.actorUrl i nanoid ∧
      actor.preferredUsername = holder.name ∧ actor.inbox = net.inboxUrl i nanoid ∧
      ∃ account, AccountReadModel.findByNanoid (s i) (round.clock level i) nanoid = some account := by
  simp only [servedActor, getActor, Fallible.bind_eq_ok] at h
  obtain ⟨document, hdocument, h⟩ := h
  cases h
  split at hdocument
  · cases hdocument
  · next account haccount =>
      simp only [Fallible.bind_eq_ok] at hdocument
      obtain ⟨signingKey, _, hdocument⟩ := hdocument
      cases hdocument
      have hnanoid := found_nanoid haccount
      refine ⟨_, hheld.found haccount, rfl, ?_, rfl, ?_, account, haccount⟩
      · exact congrArg (localActorUrl (net.publicBaseUrl i)) hnanoid
      · exact congrArg (ActorUrlBuilder.inbox (net.publicBaseUrl i)) hnanoid

/-- Every stored account has a signing key in use. -/
def Keyed (round : Round ι) (s : ι → Db) : Prop :=
  ∀ i, ∀ row ∈ (s i).accounts.rows,
    SigningKeyRepository.findActiveByAccountId (round.signingKeys i) row.id ≠ []

instance [Fintype ι] (round : Round ι) (s : ι → Db) : Decidable (Keyed round s) :=
  inferInstanceAs (Decidable (∀ i, ∀ row ∈ (s i).accounts.rows,
    SigningKeyRepository.findActiveByAccountId (round.signingKeys i) row.id ≠ []))

theorem exists_servedActor (net : Network ι) (hkeyed : Keyed round s)
    (h : AccountReadModel.findByNanoid (s i) (round.clock level i) nanoid = some account) :
    ∃ actor, net.servedActor round level s i nanoid = .ok actor := by
  obtain ⟨row, hrow, _, _, hread⟩ := found_row h
  have hkeys : SigningKeyRepository.findActiveByAccountId (round.signingKeys i) account.id ≠ [] := by
    rw [hread]
    exact hkeyed i row hrow
  obtain ⟨signingKey, rest, hactive⟩ := List.exists_cons_of_ne_nil hkeys
  have hkey : activeSigningKey (round.signingKeys i) account.id = .ok signingKey := by
    rw [activeSigningKey, hactive]
    rfl
  simp only [servedActor, getActor, h, hkey]
  exact ⟨_, rfl⟩

theorem Addressed.url_injective (hnet : net.Addressed) {other : Holder} (hholder : holder ∈ net.holders i)
    (hother : other ∈ net.holders j) (h : net.actorUrl i holder.nanoid = net.actorUrl j other.nanoid) :
    i = j ∧ holder = other := by
  have hat := hnet.actor i holder hholder
  rw [h, hnet.actor j other hother, Option.some.injEq, Prod.mk.injEq] at hat
  obtain ⟨rfl, hnanoid⟩ := hat
  exact ⟨rfl, hnet.nanoids j holder hholder other hother hnanoid.symm⟩

/-- An actor that an instance resolves is an account of an instance or that of another server. -/
theorem resolved {url : String} {actor : ResolvedRemoteActor} (hnet : net.Addressed) (hheld : net.Held s)
    (hhonest : net.Honest round)
    (h : resolveRemoteActor (net.server i) (net.outside round level s i) url = .ok actor) :
    (∃ k holder, net.Member round level s k holder actor ∧ url = net.actorUrl k holder.nanoid) ∨
      (net.Stranger actor ∧ net.actorAt url = none) := by
  simp only [resolveRemoteActor] at h
  split at h
  · cases h
  simp only [Fallible.bind_eq_ok] at h
  obtain ⟨document, hdocument, hcheck⟩ := h
  obtain ⟨hurl, hinbox, host, hhost, hacct⟩ := checkRemoteActor_ok hcheck
  simp only [outside] at hdocument
  split at hdocument
  · next k nanoid hat =>
      obtain ⟨holder, hholder, rfl, hid, hname, hinbox', hfound⟩ := servedActor_ok hheld hdocument
      refine .inl ⟨k, holder, ⟨hholder, hurl.trans hid, by rw [hinbox, hinbox'], ?_, hfound⟩,
        hnet.onlyActors url k _ hat⟩
      change (net.parseUrl document.id).bind Url.host = some host at hhost
      rw [acct, ← hid, hhost, hacct, hname]
      rfl
  · next hat =>
      obtain ⟨hforeign, hunlisted⟩ := hhonest level url document hat hdocument
      refine .inr ⟨⟨hurl ▸ hforeign, ?_⟩, hat⟩
      rw [hacct]
      exact hunlisted host hhost

theorem resolved_identifier {name : String} {actor : ResolvedRemoteActor} (hnet : net.Addressed)
    (hheld : net.Held s) (hhonest : net.Honest round)
    (h : resolveRemoteActorIdentifier (net.server i) (net.outside round level s i) name = .ok actor) :
    (∃ k holder, net.Member round level s k holder actor) ∨ net.Stranger actor := by
  have hresolved : ∃ url,
      resolveRemoteActor (net.server i) (net.outside round level s i) url = .ok actor := by
    simp only [resolveRemoteActorIdentifier] at h
    split at h
    · split_ifs at h
      · cases h
      · simp only [resolveRemoteWebfinger] at h
        split_ifs at h
        · cases h
        · cases h
        · split at h
          · cases h
          · simp only [Fallible.bind_eq_ok] at h
            obtain ⟨_, _, url, _, h⟩ := h
            exact ⟨url, h⟩
    · exact ⟨name, h⟩
  obtain ⟨url, hurl⟩ := hresolved
  rcases resolved hnet hheld hhonest hurl with ⟨k, holder, hmember, _⟩ | ⟨hstranger, _⟩
  · exact .inl ⟨k, holder, hmember⟩
  · exact .inr hstranger

theorem Member.listed {actor : ResolvedRemoteActor} (h : net.Member round level s i holder actor) :
    net.Listed actor.acct actor.url :=
  ⟨i, holder, h.held, h.acct, h.url.symm⟩

theorem Member.fits {actor : ResolvedRemoteActor} (hnet : net.Addressed)
    (h : net.Member round level s i holder actor) : Fits net.Listed actor :=
  fun url hurl => hnet.handles actor.acct actor.url url h.listed hurl

theorem Stranger.fits {actor : ResolvedRemoteActor} (h : net.Stranger actor) : Fits net.Listed actor :=
  fun url hurl => absurd hurl (h.acct url)

/-- An account of an instance that is visible there is resolved as what it is. -/
theorem exists_member (hnet : net.Addressed) (hheld : net.Held s) (hkeyed : Keyed round s)
    (hholder : holder ∈ net.holders j)
    (hfound : AccountReadModel.findByNanoid (s j) (round.clock level j) holder.nanoid = some account) :
    ∃ actor, resolveRemoteActor (net.server i) (net.outside round level s i)
      (net.actorUrl j holder.nanoid) = .ok actor := by
  obtain ⟨document, hdocument⟩ := exists_servedActor net hkeyed hfound
  obtain ⟨other, hother, hnanoid, hid, hname, _⟩ := servedActor_ok hheld hdocument
  obtain rfl := hnet.nanoids j other hother holder hholder hnanoid
  obtain ⟨host, hhost⟩ := Option.isSome_iff_exists.mp (hnet.parsed j other hother)
  obtain ⟨parsed, hparsed, hhost⟩ := Option.bind_eq_some_iff.mp hhost
  have hfetch : (net.outside round level s i).fetchActor (net.actorUrl j other.nanoid) = .ok document := by
    simp only [outside, hnet.actor j other hother]
    exact hdocument
  have hsame : sameActivitypubId document.id (net.actorUrl j other.nanoid) = true := by
    rw [hid]
    exact decide_eq_true rfl
  have hcheck : ∃ actor, checkRemoteActor (net.server i) (net.actorUrl j other.nanoid) document =
      .ok actor := by
    have hparsed' : (net.server i).parseUrl document.id = some parsed := by rw [hid]; exact hparsed
    simp only [checkRemoteActor, hparsed', hhost, hname, hnet.named j other hother, hsame]
    exact ⟨_, rfl⟩
  obtain ⟨actor, hactor⟩ := hcheck
  refine ⟨actor, ?_⟩
  have hparsed' : (net.server i).parseUrl (net.actorUrl j other.nanoid) = some parsed := hparsed
  simp only [resolveRemoteActor, hparsed', hfetch]
  exact hactor

end Network

end Federation

end Emumet
