import Emumet.LibFallible
import Emumet.ServiceInbox

/-! What the statements of the relation use cases write: one lemma each, from which the results about
follows, blocks and remote accounts are put together. -/

namespace Emumet

namespace Relations

/-! ### Rows -/

theorem relates_ofFollow {follow : Follow} {x y : TargetId} :
    (FollowRow.ofFollow follow).relates x y = true ↔ follow.source = x ∧ follow.destination = y := by
  rw [FollowRow.relates_iff]
  exact and_congr TargetId.columns_eq_iff TargetId.columns_eq_iff

theorem relates_ofBlock {block : Block} {x y : TargetId} :
    (BlockRow.ofBlock block).relates x y = true ↔ block.source = x ∧ block.destination = y := by
  rw [BlockRow.relates_iff]
  exact and_congr TargetId.columns_eq_iff TargetId.columns_eq_iff

/-- A row that relates two ends is read back as a follow from the one to the other. -/
theorem toFollow_of_relates {row : FollowRow} {follow : Follow} {x y : TargetId}
    (h : row.toFollow = .ok follow) (hrelates : row.relates x y = true) :
    follow.id = row.id ∧ follow.source = x ∧ follow.destination = y := by
  obtain ⟨⟨hx, hx'⟩, hy, hy'⟩ := FollowRow.relates_iff.mp hrelates
  simp only [FollowRow.toFollow, hx, hx', hy, hy', TargetId.ofColumns_split, Follow.new, reject] at h
  split_ifs at h
  cases h
  exact ⟨rfl, rfl, rfl⟩

theorem approvedAt_of_toFollow {row : FollowRow} {follow : Follow} (h : row.toFollow = .ok follow) :
    follow.approvedAt = row.approvedAt := by
  unfold FollowRow.toFollow at h
  split at h
  · exact Follow.new_approvedAt h
  · cases h

/-- A row is read back as a follow between the ends it relates. -/
theorem relates_of_toFollow {row : FollowRow} {follow : Follow} (h : row.toFollow = .ok follow) :
    follow.id = row.id ∧ row.relates follow.source follow.destination = true := by
  unfold FollowRow.toFollow at h
  split at h
  · next source destination hsource hdestination =>
      simp only [Follow.new, reject] at h
      split_ifs at h
      cases h
      exact ⟨rfl, FollowRow.relates_iff.mpr
        ⟨TargetId.ofColumns_eq_some hsource, TargetId.ofColumns_eq_some hdestination⟩⟩
  · cases h

/-- A row relates one pair of ends only. -/
theorem ends_of_relates {row : FollowRow} {x y x' y' : TargetId} (h : row.relates x y = true)
    (h' : row.relates x' y' = true) : x = x' ∧ y = y' := by
  obtain ⟨⟨hx, hx'⟩, hy, hy'⟩ := FollowRow.relates_iff.mp h
  rw [FollowRow.relates_iff, hx, hx', hy, hy', TargetId.columns_eq_iff, TargetId.columns_eq_iff] at h'
  exact h'

theorem block_ends_of_relates {row : BlockRow} {x y x' y' : TargetId} (h : row.relates x y = true)
    (h' : row.relates x' y' = true) : x = x' ∧ y = y' := by
  obtain ⟨⟨hx, hx'⟩, hy, hy'⟩ := BlockRow.relates_iff.mp h
  rw [BlockRow.relates_iff, hx, hx', hy, hy', TargetId.columns_eq_iff, TargetId.columns_eq_iff] at h'
  exact h'

/-- A row that relates two ends is among the followings of the first. -/
theorem hasFollower_of_relates {row : FollowRow} {x y : TargetId} (h : row.relates x y = true) :
    row.hasFollower x = true := by
  obtain ⟨⟨hlocal, hremote⟩, _⟩ := FollowRow.relates_iff.mp h
  cases x with
  | Local accountId => simp [FollowRow.hasFollower, hlocal, TargetId.localId]
  | Remote remoteAccountId => simp [FollowRow.hasFollower, hremote, TargetId.remoteId]

/-- The followings of an end are related from it. -/
theorem source_of_hasFollower {row : FollowRow} {follow : Follow} {x : TargetId}
    (h : row.toFollow = .ok follow) (hfollower : row.hasFollower x = true) : follow.source = x := by
  obtain ⟨⟨hlocal, hremote⟩, _⟩ := FollowRow.relates_iff.mp (relates_of_toFollow h).2
  cases x with
  | Local accountId =>
      rw [FollowRow.hasFollower, hlocal, decide_eq_true_eq] at hfollower
      cases hsource : follow.source <;> simp_all [TargetId.localId]
  | Remote remoteAccountId =>
      rw [FollowRow.hasFollower, hremote, decide_eq_true_eq] at hfollower
      cases hsource : follow.source <;> simp_all [TargetId.remoteId]

/-! ### Follows that are removed -/

/-- Exactly the follows from the one end to the other are gone. -/
theorem removeFollows_ok {source destination : FollowTargetId} {db after : Db}
    (h : removeFollows source destination db = .ok after) :
    after = { db with follows := after.follows } ∧ ∀ row, row ∈ after.follows.rows ↔
      row ∈ db.follows.rows ∧ row.relates source destination = false := by
  simp only [removeFollows, Fallible.bind_eq_ok] at h
  obtain ⟨followings, hfind, hdeletes⟩ := h
  obtain ⟨htables, hrows⟩ := FollowRepository.deletes_ok hdeletes
  refine ⟨htables, fun row => ?_⟩
  rw [hrows]
  refine and_congr_right fun hstored => ⟨fun hids => ?_, fun hunrelated follow hfollow hid => ?_⟩
  · rw [← Bool.not_eq_true]
    intro hrelates
    have hselected : row ∈ db.follows.select (·.hasFollower source) :=
      List.mem_filter.mpr ⟨hstored, hasFollower_of_relates hrelates⟩
    obtain ⟨follow, hfollow, hread⟩ := Fallible.exists_of_mapM_eq_ok hfind hselected
    obtain ⟨hid, _, hdestination⟩ := toFollow_of_relates hread hrelates
    exact hids follow (List.mem_filter.mpr ⟨hfollow, by simpa using hdestination⟩) hid.symm
  · -- a follow that is deleted was read from a row with its id, which is this row
    obtain ⟨hmem, hdestination⟩ := List.mem_filter.mp hfollow
    rw [decide_eq_true_eq] at hdestination
    obtain ⟨read, hread, hok⟩ := Fallible.exists_of_mem_results hfind hmem
    obtain ⟨hstoredRead, hfollower⟩ := List.mem_filter.mp hread
    obtain ⟨hsameId, hrelates⟩ := relates_of_toFollow hok
    have hrow : row = read := db.follows.eq_of_key_eq hstored hstoredRead (hid.trans hsameId)
    rw [source_of_hasFollower hok hfollower, hdestination, ← hrow, hunrelated] at hrelates
    cases hrelates

theorem removeFollowsBetween_ok {a b : FollowTargetId} {db after : Db}
    (h : removeFollowsBetween a b db = .ok after) :
    after = { db with follows := after.follows } ∧ ∀ row, row ∈ after.follows.rows ↔
      row ∈ db.follows.rows ∧ row.relates a b = false ∧ row.relates b a = false := by
  simp only [removeFollowsBetween, Fallible.bind_eq_ok] at h
  obtain ⟨middle, hfirst, hsecond⟩ := h
  obtain ⟨htables, hrows⟩ := removeFollows_ok hfirst
  obtain ⟨htables', hrows'⟩ := removeFollows_ok hsecond
  refine ⟨?_, fun row => by rw [hrows', hrows, and_assoc]⟩
  rw [htables', htables]

/-! ### Remote accounts and the outbox -/

/-- A resolved actor is that of a fetched document, which has the id that was asked for. -/
theorem resolveRemoteActor_ok {server : Server} {outside : Outside} {actorUrl : String}
    {actor : ResolvedRemoteActor} (h : resolveRemoteActor server outside actorUrl = .ok actor) :
    ∃ document host, outside.fetchActor actorUrl = .ok document ∧
      sameActivitypubId document.id actorUrl = true ∧
      (server.parseUrl document.id).bind Url.host = some host ∧
      actor = { acct := document.preferredUsername ++ "@" ++ host, url := document.id
                inboxUrl := some document.inbox, publicKeyPem := some document.publicKeyPem } := by
  unfold resolveRemoteActor at h
  split at h
  · cases h
  rw [Fallible.bind_eq_ok] at h
  obtain ⟨document, hdocument, hchecks⟩ := h
  simp only [checkRemoteActor, reject] at hchecks
  cases hid : server.parseUrl document.id with
  | none =>
      rw [hid] at hchecks
      cases hchecks
  | some id =>
      cases hhost : id.host with
      | none =>
          simp only [hid, hhost] at hchecks
          cases hchecks
      | some host =>
          simp only [hid, hhost] at hchecks
          split_ifs at hchecks with hempty hsame
          cases hchecks
          exact ⟨document, host, hdocument, by simpa using hsame, by simp [hid, hhost], rfl⟩

/-- The row of the resolved actor is written; a row that was there had the URL already. -/
theorem upsertRemoteAccount_ok {outside : Outside} {actor : ResolvedRemoteActor} {db after : Db}
    {remoteAccount : RemoteAccount}
    (h : upsertRemoteAccount outside actor db = .ok (remoteAccount, after)) :
    after = { db with remoteAccounts := db.remoteAccounts.put remoteAccount } ∧
      remoteAccount.id = remoteAccountIdOf db outside actor ∧ remoteAccount.url = actor.url ∧
      ∀ old ∈ db.remoteAccounts.get remoteAccount.id, old.url = actor.url := by
  unfold upsertRemoteAccount at h
  unfold remoteAccountIdOf
  split at h
  · next existing hexisting =>
      simp only [Fallible.bind_eq_ok, RemoteAccountRepository.update, uniqueViolation,
        foreignKeyViolation, reject] at h
      obtain ⟨updated, hupdate, hresult⟩ := h
      split_ifs at hupdate
      cases hupdate
      cases hresult
      refine ⟨rfl, by simp [hexisting], rfl, fun old hold => ?_⟩
      have hmem := List.mem_of_find?_eq_some hexisting
      have hurl : existing.url = actor.url := by simpa using List.find?_some hexisting
      obtain ⟨hstored, hid⟩ := Table.get_eq_some_iff.mp hold
      rw [db.remoteAccounts.eq_of_key_eq hstored hmem hid, hurl]
  · next hexisting =>
      simp only [Fallible.bind_eq_ok, RemoteAccountRepository.create, uniqueViolation,
        foreignKeyViolation, reject] at h
      obtain ⟨created, hcreate, hresult⟩ := h
      split_ifs at hcreate with hfree
      cases hcreate
      cases hresult
      simp only [Bool.or_eq_true, not_or, Bool.not_eq_true, Table.contains] at hfree
      refine ⟨rfl, by simp [hexisting], rfl, fun old hold => ?_⟩
      have hnone := hfree.1
      rw [Option.mem_def.mp hold] at hnone
      cases hnone

/-- The columns an upsert writes; the icon is kept. -/
theorem upsertRemoteAccount_columns {outside : Outside} {actor : ResolvedRemoteActor} {db after : Db}
    {remoteAccount : RemoteAccount}
    (h : upsertRemoteAccount outside actor db = .ok (remoteAccount, after)) :
    remoteAccount.acct = actor.acct ∧ remoteAccount.url = actor.url ∧
      remoteAccount.inboxUrl = actor.inboxUrl ∧
      (remoteAccount.iconId = none ∨
        ∃ old ∈ db.remoteAccounts.rows, remoteAccount.iconId = old.iconId) := by
  unfold upsertRemoteAccount at h
  split at h
  · next existing hexisting =>
      obtain ⟨_, _, hresult⟩ := Fallible.bind_eq_ok.mp h
      cases hresult
      exact ⟨rfl, rfl, rfl, .inr ⟨existing, List.mem_of_find?_eq_some hexisting, rfl⟩⟩
  · obtain ⟨_, _, hresult⟩ := Fallible.bind_eq_ok.mp h
    cases hresult
    exact ⟨rfl, rfl, rfl, .inl rfl⟩

/-- No other row has the handle or the URL that is written. -/
theorem upsertRemoteAccount_free {outside : Outside} {actor : ResolvedRemoteActor} {db after : Db}
    {remoteAccount : RemoteAccount}
    (h : upsertRemoteAccount outside actor db = .ok (remoteAccount, after)) :
    RemoteAccountRepository.conflict db remoteAccount = false := by
  unfold upsertRemoteAccount at h
  split at h
  · simp only [Fallible.bind_eq_ok, RemoteAccountRepository.update, uniqueViolation,
      foreignKeyViolation, reject] at h
    obtain ⟨updated, hupdate, hresult⟩ := h
    split_ifs at hupdate with _ hconflict
    cases hresult
    simpa using hconflict
  · simp only [Fallible.bind_eq_ok, RemoteAccountRepository.create, uniqueViolation,
      foreignKeyViolation, reject] at h
    obtain ⟨created, hcreate, hresult⟩ := h
    split_ifs at hcreate with hconflict
    cases hresult
    rw [Bool.or_eq_true, not_or] at hconflict
    simpa using hconflict.2

/-- After an upsert the URL of the actor is that of its row and of no other. -/
theorem upsertRemoteAccount_url {outside : Outside} {actor : ResolvedRemoteActor} {db after : Db}
    {remoteAccount : RemoteAccount}
    (h : upsertRemoteAccount outside actor db = .ok (remoteAccount, after)) {remote : RemoteAccount}
    (hremote : remote ∈ after.remoteAccounts.rows) :
    remote.url = actor.url ↔ remote.id = remoteAccount.id := by
  have hfree := List.any_eq_false.mp (upsertRemoteAccount_free h)
  obtain ⟨rfl, _, hurl, _⟩ := upsertRemoteAccount_ok h
  rcases Table.mem_put.mp hremote with rfl | ⟨hold, hid⟩
  · exact ⟨fun _ => rfl, fun _ => hurl⟩
  · refine iff_of_false (fun hsame => hfree remote hold ?_) hid
    simp [hid, hsame.trans hurl.symm]

/-- The `UNIQUE` constraint on the URLs of remote accounts. -/
def UrlsUnique (db : Db) : Prop :=
  ∀ remote ∈ db.remoteAccounts.rows, ∀ other ∈ db.remoteAccounts.rows, remote.url = other.url →
    remote = other

theorem UrlsUnique.upsert {outside : Outside} {actor : ResolvedRemoteActor} {db after : Db}
    {remoteAccount : RemoteAccount} (hunique : UrlsUnique db)
    (h : upsertRemoteAccount outside actor db = .ok (remoteAccount, after)) : UrlsUnique after := by
  intro one hone other hother hsame
  by_cases hactor : one.url = actor.url
  · refine after.remoteAccounts.eq_of_key_eq hone hother ?_
    rw [(upsertRemoteAccount_url h hone).mp hactor,
      (upsertRemoteAccount_url h hother).mp (hsame ▸ hactor)]
  · -- both are older rows
    have hkept : ∀ row ∈ after.remoteAccounts.rows, row.url ≠ actor.url →
        row ∈ db.remoteAccounts.rows := by
      intro row hrow hurl
      have hid := mt (upsertRemoteAccount_url h hrow).mpr hurl
      rw [(upsertRemoteAccount_ok h).1] at hrow
      exact ((Table.mem_put.mp hrow).resolve_left fun heq => hid (congrArg RemoteAccount.id heq)).1
    exact hunique one (hkept one hone hactor) other (hkept other hother (hsame ▸ hactor)) hsame

/-- What the constraints keep of remote accounts, and the id generated for a call is free. -/
structure Storing (outside : Outside) (db : Db) : Prop where
  urls : UrlsUnique db
  icons : ∀ remote ∈ db.remoteAccounts.rows, remote.iconId.all db.images.contains = true
  fresh : db.remoteAccounts.get outside.remoteAccountId = none

/-- The row of an actor can be written exactly if no other actor has its handle. -/
theorem Storing.exists_upsert_iff {outside : Outside} {actor : ResolvedRemoteActor} {db : Db}
    (h : Storing outside db) :
    (∃ result, upsertRemoteAccount outside actor db = .ok result) ↔
      ∀ remote ∈ db.remoteAccounts.rows, remote.acct = actor.acct → remote.url = actor.url := by
  constructor
  · rintro ⟨⟨stored, after⟩, hupsert⟩ remote hremote hhandle
    by_cases hid : remote.id = stored.id
    · exact (upsertRemoteAccount_ok hupsert).2.2.2 remote (Table.get_eq_some_iff.mpr ⟨hremote, hid⟩)
    · have hfree := List.any_eq_false.mp (upsertRemoteAccount_free hupsert) remote hremote
      simp [hid, hhandle, (upsertRemoteAccount_columns hupsert).1] at hfree
  · intro hhandles
    -- a row without the URL has another handle too
    have hfree : ∀ account : RemoteAccount, account.acct = actor.acct → account.url = actor.url →
        (∀ other ∈ db.remoteAccounts.rows, other.url = actor.url → other.id = account.id) →
        RemoteAccountRepository.conflict db account = false := by
      intro account hacct hurl honly
      refine List.any_eq_false.mpr fun other hother => ?_
      rw [Bool.and_eq_true, Bool.or_eq_true, decide_eq_true_eq, decide_eq_true_eq, decide_eq_true_eq,
        hacct, hurl]
      rintro ⟨hid, hhandle | hsame⟩
      · exact hid (honly other hother (hhandles other hother hhandle))
      · exact hid (honly other hother hsame)
    unfold upsertRemoteAccount
    split
    · next existing hexisting =>
        have hmem := List.mem_of_find?_eq_some hexisting
        have hurl : existing.url = actor.url := by simpa using List.find?_some hexisting
        have hget : db.remoteAccounts.get existing.id = some existing :=
          Table.get_eq_some_iff.mpr ⟨hmem, rfl⟩
        have honly : ∀ other ∈ db.remoteAccounts.rows, other.url = actor.url → other.id = existing.id :=
          fun other hother hsame => congrArg RemoteAccount.id
            (h.urls other hother existing hmem (hsame.trans hurl.symm))
        have hconflict := hfree ⟨existing.id, actor.acct, actor.url, existing.iconId, actor.inboxUrl,
          actor.publicKeyPem⟩ rfl rfl honly
        simp only [RemoteAccountRepository.update, Table.contains, hget, hconflict, h.icons existing hmem]
        exact ⟨_, rfl⟩
    · next hnone =>
        rw [RemoteAccountRepository.findByUrl, List.find?_eq_none] at hnone
        have hconflict := hfree ⟨outside.remoteAccountId, actor.acct, actor.url, none, actor.inboxUrl,
          actor.publicKeyPem⟩ rfl rfl fun other hother hsame =>
            absurd (by simpa using hsame) (hnone other hother)
        simp only [RemoteAccountRepository.create, Table.contains, h.fresh, hconflict]
        exact ⟨_, rfl⟩

/-- An entry is stored under a new id. -/
theorem outboxCreate_ok {db after : Db} {nextId outboxId : OutboxActivityId}
    {activity : OutboxActivity}
    (h : OutboxActivityRepository.create db nextId activity = .ok (outboxId, after)) :
    outboxId = nextId ∧ db.outboxActivities.get nextId = none ∧
      after = { db with outboxActivities :=
        db.outboxActivities.put { activity with id := nextId } } := by
  simp only [OutboxActivityRepository.create, uniqueViolation, reject] at h
  split_ifs at h with hfree
  cases h
  simp only [Bool.or_eq_true, not_or, Bool.not_eq_true, Table.contains, Option.isSome_eq_false_iff,
    Option.isNone_iff_eq_none] at hfree
  exact ⟨rfl, hfree.1, rfl⟩

/-- The entry an activity gets before it is delivered. -/
def pendingEntry (outside : Outside) (accountId : AccountId) (activity : Activity) : OutboxActivity :=
  { outboxEntry outside accountId activity none with id := outside.outboxId }

/-- The entry of a delivery, if there is one, is stored under a new id. -/
theorem storeDelivery_ok {outside : Outside} {accountId : AccountId} {delivery : Option Delivery}
    {db after : Db} {outboxId : Option OutboxActivityId}
    (h : storeDelivery outside accountId delivery db = .ok (outboxId, after)) :
    (delivery = none ∧ outboxId = none ∧ after = db) ∨
      ∃ activity inboxUrl, delivery = some (activity, inboxUrl) ∧ outboxId = some outside.outboxId ∧
        db.outboxActivities.get outside.outboxId = none ∧
        after = { db with outboxActivities :=
          db.outboxActivities.put (pendingEntry outside accountId activity) } := by
  cases delivery with
  | none =>
      cases h
      exact .inl ⟨rfl, rfl, rfl⟩
  | some delivery =>
      obtain ⟨activity, inboxUrl⟩ := delivery
      simp only [storeDelivery, Fallible.bind_eq_ok] at h
      obtain ⟨⟨created, stored⟩, hcreate, hresult⟩ := h
      cases hresult
      obtain ⟨rfl, hfree, hafter⟩ := outboxCreate_ok hcreate
      exact .inr ⟨activity, inboxUrl, rfl, rfl, hfree, hafter⟩

/-- Storing a delivery writes to the outbox only. -/
theorem storeDelivery_tables {outside : Outside} {accountId : AccountId} {delivery : Option Delivery}
    {db after : Db} {outboxId : Option OutboxActivityId}
    (h : storeDelivery outside accountId delivery db = .ok (outboxId, after)) :
    after = { db with outboxActivities := after.outboxActivities } := by
  rcases storeDelivery_ok h with ⟨_, _, rfl⟩ | ⟨_, _, _, _, _, rfl⟩
  · rfl
  · rfl

/-! ### What an Accept answers -/

theorem required_ok {α : Type} {value : Option α} {missing : String} {result : α}
    (h : required value missing = .ok result) : value = some result := by
  cases value <;> cases h
  rfl

/-- The parts of an Accept that approves a follow. -/
theorem acceptedActorUrl_ok {server : Server} {dto : InboxActivityDto} {remoteActorUrl : String}
    (h : acceptedActorUrl server dto = .ok (some remoteActorUrl)) :
    ∃ nestedFollow, dto.activity.objectOfType "Follow" = some nestedFollow ∧
      sameActivitypubId nestedFollow.actor (localActorUrl server.publicBaseUrl dto.accountNanoid) = true ∧
      nestedFollow.objectId = some remoteActorUrl ∧
      sameActivitypubId dto.activity.actor remoteActorUrl = true := by
  simp only [acceptedActorUrl, Fallible.bind_eq_ok] at h
  obtain ⟨nestedFollow, hnested, h⟩ := h
  split_ifs at h with hlocal
  · cases h
  · simp only [Fallible.bind_eq_ok] at h
    obtain ⟨url, hurl, h⟩ := h
    split_ifs at h with hactor
    · cases h
    · cases h
      exact ⟨nestedFollow, required_ok hnested, by simpa [sameActivitypubId] using hlocal,
        required_ok hurl, by simpa [sameActivitypubId] using hactor⟩

/-! ### Operations that only take relations away -/

/-- Every stored remote account is kept, with its URL. -/
def KeepsUrls (before after : Db) : Prop :=
  ∀ remote ∈ before.remoteAccounts.rows, ∃ kept ∈ after.remoteAccounts.rows,
    kept.id = remote.id ∧ kept.url = remote.url

theorem KeepsUrls.refl (db : Db) : KeepsUrls db db := fun remote hremote => ⟨remote, hremote, rfl, rfl⟩

theorem KeepsUrls.trans {before mid after : Db} (h : KeepsUrls before mid) (h' : KeepsUrls mid after) :
    KeepsUrls before after := by
  intro remote hremote
  obtain ⟨kept, hkept, hid, hurl⟩ := h remote hremote
  obtain ⟨last, hlast, hid', hurl'⟩ := h' kept hkept
  exact ⟨last, hlast, hid'.trans hid, hurl'.trans hurl⟩

theorem keepsUrls_upsertRemoteAccount {outside : Outside} {actor : ResolvedRemoteActor} {db after : Db}
    {remoteAccount : RemoteAccount}
    (h : upsertRemoteAccount outside actor db = .ok (remoteAccount, after)) : KeepsUrls db after := by
  obtain ⟨rfl, _, hurl, hold⟩ := upsertRemoteAccount_ok h
  intro remote hremote
  by_cases hid : remote.id = remoteAccount.id
  · refine ⟨remoteAccount, Table.mem_put.mpr (.inl rfl), hid.symm, ?_⟩
    rw [hurl, hold remote (Table.get_eq_some_iff.mpr ⟨hremote, hid⟩)]
  · exact ⟨remote, Table.mem_put.mpr (.inr ⟨hremote, hid⟩), rfl, rfl⟩

/-- No block and no follow is added. -/
structure Drops (before after : Db) : Prop where
  blocks : ∀ row ∈ after.blocks.rows, row ∈ before.blocks.rows
  follows : ∀ row ∈ after.follows.rows, row ∈ before.follows.rows
  urls : KeepsUrls before after

instance : IsPreorder Db Drops where
  refl db := ⟨fun _ h => h, fun _ h => h, KeepsUrls.refl db⟩
  trans _ _ _ hab hbc := ⟨fun row h => hab.blocks row (hbc.blocks row h),
    fun row h => hab.follows row (hbc.follows row h), hab.urls.trans hbc.urls⟩

/-- The writes to other tables. -/
theorem Drops.of_same {before after : Db} (hblocks : after.blocks = before.blocks)
    (hfollows : after.follows = before.follows)
    (hremote : after.remoteAccounts = before.remoteAccounts) : Drops before after :=
  ⟨fun _ h => hblocks ▸ h, fun _ h => hfollows ▸ h, fun remote h => ⟨remote, hremote ▸ h, rfl, rfl⟩⟩

section Operations

open Session

variable (server : Server) (outside : Outside)

theorem moves_upsertRemoteAccount (actor : ResolvedRemoteActor) :
    Moves Drops (atomically (upsertRemoteAccount outside actor)) := by
  refine .atomically fun db remoteAccount after h => ?_
  have hurls := keepsUrls_upsertRemoteAccount h
  obtain ⟨rfl, _⟩ := upsertRemoteAccount_ok h
  exact ⟨fun _ hrow => hrow, fun _ hrow => hrow, hurls⟩

/-- A delivery rewrites one stored entry, and of it only the record of the delivery. -/
theorem moves_deliverStored_of {R : Db → Db → Prop} [IsPreorder Db R]
    (hmark : ∀ (db : Db) (row marked : OutboxActivity), row ∈ db.outboxActivities.rows →
      marked.id = row.id → marked.activityId = row.activityId → marked.objectJson = row.objectJson →
      R db { db with outboxActivities := db.outboxActivities.put marked })
    (outboxId : Option OutboxActivityId) (delivery : Option Delivery) :
    Moves R (deliverStored outside outboxId delivery) := by
  have hmarked : ∀ {before after : Db}, OutboxActivityRepository.Marks before after →
      R before after := by
    rintro before after (rfl | ⟨row, hrow, marked, hid, hactivity, hobject, rfl⟩)
    · exact refl_of R after
    · exact hmark before row marked hrow hid hactivity hobject
  unfold deliverStored
  split
  · refine .bind (.attempt ?_) fun _ => .pure _
    unfold deliverOutboxActivity
    split
    · refine .exec fun db after h => ?_
      cases h
      exact hmarked (OutboxActivityRepository.marks_markDelivered db _ _)
    · refine .bind (.exec fun db after h => ?_) fun _ => .lift _
      cases h
      exact hmarked (OutboxActivityRepository.marks_markDeliveryAttempt db _ _ _)
  · exact .pure _

theorem moves_deliverStored (outboxId : Option OutboxActivityId) (delivery : Option Delivery) :
    Moves Drops (deliverStored outside outboxId delivery) :=
  moves_deliverStored_of outside (fun _ _ _ _ _ _ _ => .of_same rfl rfl rfl) outboxId delivery

theorem moves_storeDelivered (accountId : AccountId) (activity : Activity) :
    Moves Drops (storeDelivered outside accountId activity) := by
  refine .exec fun db after h => ?_
  split at h
  · next hcreate =>
      cases h
      obtain ⟨_, _, rfl⟩ := outboxCreate_ok hcreate
      exact .of_same rfl rfl rfl
  · cases h

theorem moves_resolveBlockTarget (target : String) :
    Moves Drops (resolveBlockTarget server outside target) := by
  refine .bind (.read _) fun found => ?_
  cases found with
  | some account => exact .pure _
  | none => exact .bind (.lift _) fun _ => .bind (moves_upsertRemoteAccount _ _) fun _ => .pure _

theorem moves_resolveUnfollowTarget (target : String) :
    Moves Drops (resolveUnfollowTarget server outside target) := by
  refine .bind (.read _) fun found => ?_
  cases found with
  | some account => exact .pure _
  | none => exact .bind (.lift _) fun _ => .bind (moves_upsertRemoteAccount _ _) fun _ => .pure _

theorem moves_delete (id : FollowId) :
    Moves Drops (exec fun db => FollowRepository.delete db id) :=
  .exec fun db _ h => by
    rw [FollowRepository.delete_ok h]
    exact ⟨fun _ hrow => hrow, fun _ hrow => (Table.mem_erase.mp hrow).1, KeepsUrls.refl db⟩

theorem beginUndoFollow_eq_ok {accountNanoid target : String} {db mid : Db} {account : Account}
    {resolved : BlockTarget} {follow : Follow} :
    beginUndoFollow server outside accountNanoid target db = (.ok (account, resolved, follow), mid) ↔
      findAccount db outside.now accountNanoid = .ok account ∧
        checkPermission outside.permission = .ok () ∧
        resolveUnfollowTarget server outside target db = (.ok resolved, mid) ∧
        findApprovedFollow mid (.Local account.id) resolved.id = .ok follow := by
  simp only [beginUndoFollow, bind_eq_ok, read_eq_ok, lift_eq_ok, pure_eq_ok]
  constructor
  · rintro ⟨_, _, ⟨haccount, rfl⟩, _, _, ⟨hpermission, rfl⟩, _, _, hresolve, _, _, ⟨hfollow, rfl⟩, heq, rfl⟩
    cases heq
    exact ⟨haccount, hpermission, hresolve, hfollow⟩
  · rintro ⟨haccount, hpermission, hresolve, hfollow⟩
    exact ⟨_, _, ⟨haccount, rfl⟩, (), _, ⟨hpermission, rfl⟩, _, _, hresolve, _, _, ⟨hfollow, rfl⟩, rfl, rfl⟩

theorem beginUnblock_eq_ok {accountNanoid target : String} {db mid : Db} {account : Account}
    {resolved : BlockTarget} :
    beginUnblock server outside accountNanoid target db = (.ok (account, resolved), mid) ↔
      findAccount db outside.now accountNanoid = .ok account ∧
        checkPermission outside.permission = .ok () ∧
        resolveBlockTarget server outside target db = (.ok resolved, mid) := by
  simp only [beginUnblock, bind_eq_ok, read_eq_ok, lift_eq_ok, pure_eq_ok]
  constructor
  · rintro ⟨_, _, ⟨haccount, rfl⟩, _, _, ⟨hpermission, rfl⟩, _, _, hresolve, heq, rfl⟩
    cases heq
    exact ⟨haccount, hpermission, hresolve⟩
  · rintro ⟨haccount, hpermission, hresolve⟩
    exact ⟨_, _, ⟨haccount, rfl⟩, (), _, ⟨hpermission, rfl⟩, _, _, hresolve, rfl, rfl⟩

theorem moves_sendUndoFollow (accountNanoid target : String) :
    Moves Drops (sendUndoFollow server outside accountNanoid target) := by
  refine .bind (.bind (.read _) fun account => .bind (.lift _) fun _ =>
    .bind (moves_resolveUnfollowTarget _ _ _) fun resolved => .bind (.read _) fun follow => .pure _)
    fun begun => ?_
  obtain ⟨account, resolved, follow⟩ := begun
  cases resolved with
  | Local _ => exact moves_delete _
  | Remote remoteAccount =>
      exact .bind (.lift _) fun _ => .bind (moves_delete _) fun _ => moves_storeDelivered _ _ _

theorem moves_unblockAccount (accountNanoid target : String) :
    Moves Drops (unblockAccount server outside accountNanoid target) := by
  refine .bind (.bind (.read _) fun account => .bind (.lift _) fun _ =>
    .bind (moves_resolveBlockTarget _ _ _) fun resolved => .pure _) fun begun =>
    .bind (.atomically fun db result after h => ?_) fun _ => moves_deliverStored _ _ _
  simp only [unblockTransaction, Fallible.bind_eq_ok] at h
  obtain ⟨blocks, _, h⟩ := h
  split at h
  · cases h
  · simp only [Fallible.bind_eq_ok, BlockRepository.delete, reject] at h
    obtain ⟨deleted, hdelete, stored, hstore, hresult⟩ := h
    split_ifs at hdelete
    cases hdelete
    cases hresult
    have htables := storeDelivery_tables hstore
    rw [htables]
    exact ⟨fun row hrow => (Table.mem_erase.mp hrow).1, fun _ hrow => hrow, KeepsUrls.refl db⟩

/-- An Undo only deletes. -/
theorem moves_undoRelation {R : Db → Db → Prop} [IsPreorder Db R] {type_ notActivity notActor : String}
    {deleteIfExists : Db → TargetId → TargetId → Bool × Db}
    (hdelete : ∀ db source destination, R db (deleteIfExists db source destination).2)
    (dto : InboxActivityDto) :
    Moves R (undoRelation type_ notActivity notActor deleteIfExists server dto) := by
  refine .bind (.lift _) fun _ => .bind (.lift _) fun _ => .bind (.lift _) fun _ =>
    .bind (.read _) fun found => ?_
  cases found with
  | none => exact .pure _
  | some remoteAccount =>
      refine .exec fun db after h => ?_
      cases h
      exact hdelete db _ _

theorem moves_handleUndoFollow (dto : InboxActivityDto) : Moves Drops (handleUndoFollow server dto) :=
  moves_undoRelation server (fun db _ _ =>
    ⟨fun _ hrow => hrow, fun _ hrow => (Table.mem_deleteWhere.mp hrow).1, KeepsUrls.refl db⟩) dto

theorem moves_handleUndoBlockActivity (dto : InboxActivityDto) :
    Moves Drops (handleUndoBlockActivity server dto) :=
  moves_undoRelation server (fun db _ _ =>
    ⟨fun _ hrow => (Table.mem_deleteWhere.mp hrow).1, fun _ hrow => hrow, KeepsUrls.refl db⟩) dto

end Operations

end Relations

end Emumet
