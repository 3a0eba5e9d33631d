import Emumet.ProjectorOwnerLink
import Emumet.ProjectorRepoll

/-! Polling the account projector again. The second poll may fold a deactivated account from scratch and
run its cascade once more, and it links owners that are linked already; none of this changes a table as
long as the visible rows are folds of what was read. -/

namespace Emumet

namespace AccountProjector

variable {tz : Timestamptz} {env : PollEnv} {db after : Db} {id : AccountId} {account : Account}
  {created : Option AuthAccountId}

/-! ### The cascade a second time -/

/-- Nothing that the cascade looks for is there. -/
structure Cascaded (db : Db) (id : AccountId) : Prop where
  profiles : ∀ row ∈ db.profiles.rows, row.accountId ≠ id
  metadatas : ∀ row ∈ db.metadatas.rows, row.accountId ≠ id
  followings : ∀ row ∈ db.follows.rows, row.hasFollower (.Local id) = false
  followers : ∀ row ∈ db.follows.rows,
    (row.hasFollowee (.Local id) && row.approvedAt.isSome) = false

theorem cascade_of_cascaded (h : Cascaded db id) : cascade db id = .ok db := by
  have hprofile : deleteProfile db id = .ok db := by
    have hnone : ProfileReadModel.findByAccountId db id = none :=
      List.find?_eq_none.mpr fun row hrow => by simpa using h.profiles row hrow
    rw [deleteProfile, hnone]
  have hmetadatas : deleteMetadatas db id = .ok db := by
    have hnone : MetadataReadModel.findByAccountId db id = [] :=
      List.filter_eq_nil_iff.mpr fun row hrow => by simpa using h.metadatas row hrow
    rw [deleteMetadatas, hnone]
    rfl
  have hfollowings : FollowRepository.findFollowings db (.Local id) = .ok [] := by
    have hnone : db.follows.select (·.hasFollower (.Local id)) = [] :=
      List.filter_eq_nil_iff.mpr fun row hrow => by simp [h.followings row hrow]
    rw [FollowRepository.findFollowings, hnone]
    rfl
  have hfollowers : FollowRepository.findFollowers db (.Local id) = .ok [] := by
    have hnone : (db.follows.select fun row =>
        row.hasFollowee (.Local id) && row.approvedAt.isSome) = [] :=
      List.filter_eq_nil_iff.mpr fun row hrow => by
        rw [h.followers row hrow]
        exact Bool.false_ne_true
    rw [FollowRepository.findFollowers, hnone]
    rfl
  rw [cascade, hprofile]
  refine Fallible.bind_eq_ok.mpr ⟨db, rfl, Fallible.bind_eq_ok.mpr ⟨db, hmetadatas, ?_⟩⟩
  refine Fallible.bind_eq_ok.mpr ⟨[], hfollowings, Fallible.bind_eq_ok.mpr ⟨db, rfl, ?_⟩⟩
  exact Fallible.bind_eq_ok.mpr ⟨[], hfollowers, rfl⟩

/-- Follows that are listed and deleted are gone. -/
theorem deleteFollows_listed {listed : List FollowRow} {follows : List Follow}
    (hlist : listed.mapM FollowRow.toFollow = .ok follows) (h : deleteFollows db follows = .ok after) :
    (∀ row ∈ after.follows.rows, row ∈ db.follows.rows) ∧
      ∀ row ∈ listed, row ∉ after.follows.rows := by
  obtain ⟨_, hrows⟩ := FollowRepository.deletes_ok h
  refine ⟨fun row hrow => ((hrows row).mp hrow).1, fun row hlisted hrow => ?_⟩
  obtain ⟨follow, hfollow, hread⟩ := Fallible.exists_of_mapM_eq_ok hlist hlisted
  exact ((hrows row).mp hrow).2 follow hfollow (FollowRow.toFollow_id hread).symm

/-- The cascade leaves nothing that it looks for. -/
theorem cascaded_of_cascade (hseparate : profiles.Separate db) (h : cascade db id = .ok after) :
    Cascaded after id := by
  have hprofiles := cascade_profiles hseparate h
  have hmetadatas := cascade_metadatas h
  simp only [cascade, Fallible.bind_eq_ok] at h
  obtain ⟨_, _, _, _, followings, hfollowings, middle, hdelete, followers, hfollowers, hdelete'⟩ := h
  obtain ⟨_, hgone⟩ := deleteFollows_listed hfollowings hdelete
  obtain ⟨hkept, hgone'⟩ := deleteFollows_listed hfollowers hdelete'
  refine ⟨fun row hrow => ((hprofiles row).mp hrow).2, fun row hrow => ((hmetadatas row).mp hrow).2,
    fun row hrow => ?_, fun row hrow => ?_⟩
  · by_contra hfollower
    have hmiddle := hkept row hrow
    have hbefore := ((FollowRepository.deletes_ok hdelete).2 row).mp hmiddle
    exact hgone row (List.mem_filter.mpr ⟨hbefore.1, by simpa using hfollower⟩) hmiddle
  · by_contra hfollowee
    rw [Bool.not_eq_false] at hfollowee
    exact hgone' row (List.mem_filter.mpr ⟨hkept row hrow, hfollowee⟩) hrow

/-! ### What a written group does to the tables -/

/-- From one database to the other the row of an account stays, links come and rows that hang on
accounts go. -/
structure Shrinks (before after : Db) : Prop where
  links : ∀ link ∈ before.authEmumetAccounts, link ∈ after.authEmumetAccounts
  profiles : ∀ row ∈ after.profiles.rows, row ∈ before.profiles.rows
  metadatas : ∀ row ∈ after.metadatas.rows, row ∈ before.metadatas.rows
  follows : ∀ row ∈ after.follows.rows, row ∈ before.follows.rows

theorem Shrinks.refl (db : Db) : Shrinks db db :=
  ⟨fun _ h => h, fun _ h => h, fun _ h => h, fun _ h => h⟩

theorem Shrinks.trans {a b c : Db} (hab : Shrinks a b) (hbc : Shrinks b c) : Shrinks a c :=
  ⟨fun link h => hbc.links link (hab.links link h),
    fun row h => hab.profiles row (hbc.profiles row h),
    fun row h => hab.metadatas row (hbc.metadatas row h),
    fun row h => hab.follows row (hbc.follows row h)⟩

theorem Cascaded.shrinks (h : Cascaded db id) (hshrinks : Shrinks db after) : Cascaded after id :=
  ⟨fun row hrow => h.profiles row (hshrinks.profiles row hrow),
    fun row hrow => h.metadatas row (hshrinks.metadatas row hrow),
    fun row hrow => h.followings row (hshrinks.follows row hrow),
    fun row hrow => h.followers row (hshrinks.follows row hrow)⟩

theorem shrinks_cascade (h : cascade db id = .ok after) : Shrinks db after := by
  have hmetadatas := cascade_metadatas h
  simp only [cascade, Fallible.bind_eq_ok] at h
  obtain ⟨afterProfile, hprofile, afterMetadatas, hmetadata, followings, hfollowings, middle, hdelete,
    followers, hfollowers, hdelete'⟩ := h
  obtain ⟨hprofileTables, hprofileRows⟩ := deleteProfile_ok hprofile
  obtain ⟨hmetadataTables, _⟩ := deleteMetadatas_ok hmetadata
  obtain ⟨hfirstTables, hfirstRows⟩ := FollowRepository.deletes_ok hdelete
  obtain ⟨hsecondTables, hsecondRows⟩ := FollowRepository.deletes_ok hdelete'
  refine ⟨fun link hlink => ?_, fun row hrow => ?_, fun row hrow => ((hmetadatas row).mp hrow).1,
    fun row hrow => ?_⟩
  · rw [hsecondTables, hfirstTables, hmetadataTables, hprofileTables]
    exact hlink
  · rw [hsecondTables, hfirstTables, hmetadataTables] at hrow
    exact ((hprofileRows row).mp hrow).1
  · have hbefore := ((hfirstRows row).mp ((hsecondRows row).mp hrow).1).1
    rw [hmetadataTables, hprofileTables] at hbefore
    exact hbefore

/-- The upsert writes to the accounts only. -/
theorem upsert_tables (h : AccountProjectionWriter.upsert tz db account = .ok after) :
    after = { db with accounts := after.accounts } := by
  simp only [AccountProjectionWriter.upsert, uniqueViolation, reject] at h
  split_ifs at h
  · cases h
    rfl
  · cases h
    rfl

theorem link_ok {authId : AuthAccountId}
    (h : AccountReadModel.linkAuthAccount db id authId = .ok after) :
    after = { db with authEmumetAccounts := after.authEmumetAccounts } ∧
      (∀ link ∈ db.authEmumetAccounts, link ∈ after.authEmumetAccounts) ∧
      (id, authId) ∈ after.authEmumetAccounts := by
  simp only [AccountReadModel.linkAuthAccount, foreignKeyViolation, reject] at h
  split_ifs at h with hlinked
  · cases h
    exact ⟨rfl, fun _ hlink => hlink, hlinked⟩
  · cases h
    exact ⟨rfl, fun _ hlink => List.mem_cons_of_mem _ hlink, List.mem_cons_self⟩

theorem shrinks_write (h : write tz db account created id = .ok after) : Shrinks db after := by
  simp only [write, Fallible.bind_eq_ok] at h
  obtain ⟨upserted, hupsert, hrest⟩ := h
  have hupserted : Shrinks db upserted := by
    rw [upsert_tables hupsert]
    exact ⟨fun _ h => h, fun _ h => h, fun _ h => h, fun _ h => h⟩
  split_ifs at hrest
  · exact hupserted.trans (shrinks_cascade hrest)
  · cases created with
    | none =>
        cases hrest
        exact hupserted
    | some owner =>
        obtain ⟨hlinked, hkept, _⟩ := link_ok hrest
        refine hupserted.trans ⟨hkept, ?_, ?_, ?_⟩ <;> rw [hlinked] <;> exact fun _ h => h

/-- What a write leaves: the upserted row, and either no row that hangs on the account or the link of
its owner. -/
theorem write_settles (hseparate : profiles.Separate db)
    (h : write tz db account created id = .ok after) :
    (∃ upserted, AccountProjectionWriter.upsert tz db account = .ok upserted ∧
        after.accounts = upserted.accounts) ∧
      (account.deletedAt.isSome = true → Cascaded after id) ∧
      (account.deletedAt.isSome = false → ∀ authId, created = some authId →
        (id, authId) ∈ after.authEmumetAccounts) := by
  simp only [write, Fallible.bind_eq_ok] at h
  obtain ⟨upserted, hupsert, hrest⟩ := h
  split_ifs at hrest with hdeleted
  · have hseparate' : profiles.Separate upserted := by
      rw [upsert_tables hupsert]
      exact hseparate
    obtain ⟨_, _, _, htables⟩ := cascade_tables hrest
    refine ⟨⟨upserted, hupsert, by rw [htables]⟩, fun _ => cascaded_of_cascade hseparate' hrest,
      fun hlive => ?_⟩
    rw [hdeleted] at hlive
    cases hlive
  · cases created with
    | none =>
        cases hrest
        exact ⟨⟨_, hupsert, rfl⟩, fun h => absurd h hdeleted, fun _ authId h => by cases h⟩
    | some owner =>
        obtain ⟨hlinked, _, hmem⟩ := link_ok hrest
        refine ⟨⟨upserted, hupsert, by rw [hlinked]⟩, fun h => absurd h hdeleted, ?_⟩
        rintro _ authId ⟨⟩
        exact hmem

/-- A write that finds its row, its cascade or its link in place changes nothing. -/
theorem write_at_rest
    (hrow : ∃ row, db.accounts.get account.id = some row ∧ account.version ≤ row.version)
    (hdeleted : account.deletedAt.isSome = true → Cascaded db id)
    (hlive : account.deletedAt.isSome = false → ∀ authId, created = some authId →
      (id, authId) ∈ db.authEmumetAccounts) :
    write tz db account created id = .ok db := by
  obtain ⟨row, hget, hversion⟩ := hrow
  have hupsert : AccountProjectionWriter.upsert tz db account = .ok db := by
    rw [AccountProjectionWriter.upsert, AccountRow.ofAccount_id, AccountRow.ofAccount_version, hget]
    exact if_neg (by simpa using hversion)
  rw [write, hupsert]
  refine Fallible.bind_eq_ok.mpr ⟨db, rfl, ?_⟩
  cases hstate : account.deletedAt.isSome with
  | true =>
      rw [if_pos rfl]
      exact cascade_of_cascaded (hdeleted hstate)
  | false =>
      rw [if_neg Bool.false_ne_true]
      cases created with
      | none => rfl
      | some authId => exact if_pos (hlive hstate authId rfl)

end AccountProjector

namespace Repoll

open AccountProjector Convergence

variable {tz : Timestamptz} {env before : PollEnv} {now : OffsetDateTime} {db : Db} {id : AccountId}
  {events group whole applied overlap new : List (SeqEvent AccountEvent)} {account last : Account}
  {row : Option AccountRow} {stored : AccountRow}

/-! ### Visible rows are folds -/

/-- Not a suspension that expires. -/
def Unexpiring (event : AccountEvent) : Prop :=
  ∀ reason suspendedAt expiresAt, event ≠ .Suspended reason suspendedAt (some expiresAt)

/-- A visible row agrees with the account that the events fold to. -/
def Represents (tz : Timestamptz) (env : PollEnv) (row : Option AccountRow)
    (events : List (SeqEvent AccountEvent)) : Prop :=
  ∀ stored, row = some stored → stored.deletedAt = none →
    ∃ account, Account.fold 0 (events.map SeqEvent.envelope) = .ok (some account) ∧
      Deactivation.Encodes tz env account stored

/-- A status without an expiry does not change with the clock. -/
theorem effective_of_alike (hadmits : Admits Unexpiring 0 events)
    (hfold : Account.fold 0 (events.map SeqEvent.envelope) = .ok (some account))
    {status : AccountStatus} (halike : AccountStatus.Alike (fun _ _ => True) account.status status) :
    status.effective tz now = status := by
  generalize hstatus : account.status = current at halike
  cases halike with
  | active => rfl
  | banned => rfl
  | @suspended reason suspendedAt _ expiresAt _ _ hexpires =>
      cases hexpires with
      | none => rfl
      | @some expiresAt =>
          -- the status would come from a suspension that expires
          rcases Account.fold_status hfold with hactive | ⟨envelope, henvelope, hsets⟩
          · rw [hactive] at hstatus
            cases hstatus
          · obtain ⟨event, hevent, rfl⟩ := List.mem_map.mp henvelope
            have hunexpiring := hadmits.1 event hevent
            rw [hstatus] at hsets
            cases hpayload : event.envelope.event <;> rw [hpayload] at hsets <;>
              simp only [AccountEvent.sets] at hsets
            · cases hsets
              exact absurd hpayload (hunexpiring reason suspendedAt expiresAt)
            · cases hsets

/-- The account comes back from its row. -/
theorem decoded_alike (hadmits : Admits Unexpiring 0 events)
    (hfold : Account.fold 0 (events.map SeqEvent.envelope) = .ok (some account))
    (hencodes : Deactivation.Encodes tz env account stored) (now : OffsetDateTime) :
    Account.Alike (fun _ _ => True) account (stored.toAccount true now) := by
  obtain ⟨written, rfl, halike⟩ := hencodes
  have hdecoded := AccountRow.toAccount_ofAccount tz now written
  rw [effective_of_alike hadmits hfold halike.status] at hdecoded
  exact halike.trans (fun _ _ _ _ _ => trivial) (hdecoded.imp fun _ _ _ => trivial)

theorem encodes_version (h : Deactivation.Encodes tz env account stored) :
    stored.version = account.version :=
  (Deactivation.encoding_unmoderated tz 0).version h

/-- An end of a stream that names the owner is the whole stream. -/
theorem eq_of_created (hwhole : ∃ entity, Account.fold 0 (whole.map SeqEvent.envelope) = .ok entity)
    (hgroup : group <:+ whole) {event : SeqEvent AccountEvent} (hevent : event ∈ group)
    {authId : AuthAccountId} (hcreated : OwnerLink.createdBy event = some authId) : group = whole := by
  obtain ⟨earlier, rfl⟩ := hgroup
  cases earlier with
  | nil => rfl
  | cons first rest =>
      obtain ⟨_, _, _, hcons, _, hlater⟩ := OwnerLink.exists_created (by simp) hwhole
      rw [List.cons_append, List.cons.injEq] at hcons
      rw [hlater event (hcons.2 ▸ List.mem_append_right _ hevent)] at hcreated
      cases hcreated

theorem eq_of_createdAuthAccountId
    (hwhole : ∃ entity, Account.fold 0 (whole.map SeqEvent.envelope) = .ok entity)
    (hgroup : group <:+ whole) {authId : AuthAccountId}
    (hcreated : createdAuthAccountId group = some authId) : group = whole := by
  obtain ⟨event, hevent, hby⟩ := List.exists_of_findSome?_eq_some hcreated
  exact eq_of_created hwhole hgroup hevent hby

/-- From nothing only the whole stream folds. -/
theorem eq_of_folds (hwhole : ∃ entity, Account.fold 0 (whole.map SeqEvent.envelope) = .ok entity)
    (hgroup : group <:+ whole) {entity : Account}
    (hentity : AccountProjector.entity env none group = .ok (some entity)) : group = whole := by
  have hall : pending none group = group := List.filter_eq_self.mpr fun _ _ => rfl
  rw [AccountProjector.entity, hall] at hentity
  have hne : group ≠ [] := by
    rintro rfl
    cases hentity
  obtain ⟨first, rest, authId, rfl, hcreated, _⟩ := OwnerLink.exists_created hne ⟨_, hentity⟩
  exact eq_of_created hwhole hgroup List.mem_cons_self hcreated

/-- What a group is folded to, onto a visible row or as the whole stream, agrees with the fold of the
stream so far. -/
theorem entity_read (hrep : Represents tz before row applied) (hoverlap : overlap <:+ applied)
    (hsorted : (applied ++ new).Pairwise fun a b => a.version < b.version)
    (hadmits : Admits Unexpiring 0 (applied ++ new))
    (hlast : Account.fold 0 ((applied ++ new).map SeqEvent.envelope) = .ok (some last))
    (hhidden : decode env.now row = none → overlap ++ new = applied ++ new) :
    ∃ account, entity env (decode env.now row) (overlap ++ new) = .ok (some account) ∧
      Account.Alike (fun _ _ => True) last account := by
  cases hdecode : decode env.now row with
  | none =>
      have hall : pending none (overlap ++ new) = overlap ++ new :=
        List.filter_eq_self.mpr fun _ _ => rfl
      rw [entity, hall, hhidden hdecode]
      exact Deactivation.foldEvents_agree env.now .none hlast
  | some existing =>
      obtain ⟨stored, hstored, rfl⟩ := Option.map_eq_some_iff.mp hdecode
      obtain ⟨rfl, hvisible⟩ := Option.filter_eq_some_iff.mp hstored
      obtain ⟨account, hfold, hencodes⟩ := hrep stored rfl (by simpa using hvisible)
      obtain ⟨hold, hnewer⟩ := fold_versions hsorted hfold
      rw [← encodes_version hencodes] at hold hnewer
      have hpending : pending (some (stored.toAccount true env.now)) (overlap ++ new) = new :=
        pending_append (fun event hevent => hold event (hoverlap.subset hevent)) hnewer
      rw [entity, hpending]
      rw [List.map_append] at hlast
      obtain ⟨middle, hmiddle, hrest⟩ := foldEvents_split hlast
      obtain rfl : some account = middle := Except.ok.inj (hfold.symm.trans hmiddle)
      exact Deactivation.foldEvents_agree env.now
        (.some (decoded_alike hadmits.front hfold hencodes env.now)) hrest

/-- A poll keeps visible rows folds of what was read. -/
theorem correct (tz : Timestamptz) :
    Projection.Correct SeqEvent.id SeqEvent.version (update tz) (Represents tz) (Admits Unexpiring 0)
      (fun _ _ _ _ => True) (fun _ _ => True) := by
  constructor
  · exact fun h _ => h
  · rintro before env id row applied overlap new hrep - hoverlap hne hsorted - hadmits - stored hupdated
      hvisible
    have hwhole : applied ++ new ≠ [] := by
      rintro hnil
      obtain ⟨rfl, rfl⟩ := List.append_eq_nil_iff.mp hnil
      rw [List.suffix_nil.mp hoverlap] at hne
      exact hne rfl
    obtain ⟨result, hresult⟩ := hadmits.2
    obtain ⟨last, rfl, _⟩ := Account.foldEvents_ok hresult (by simpa using hwhole)
    refine ⟨last, hresult, ?_⟩
    have hgroup : overlap ++ new <:+ applied ++ new := by
      obtain ⟨earlier, rfl⟩ := hoverlap
      exact ⟨earlier, (List.append_assoc _ _ _).symm⟩
    -- a visible row is the old one, or comes from what was folded
    have hcases : row = some stored ∨ ∃ account,
        entity env (decode env.now row) (overlap ++ new) = .ok (some account) ∧
          stored = .ofAccount tz account := by
      unfold update updateRow at hupdated
      split_ifs at hupdated
      · exact .inl hupdated
      · split at hupdated
        · rename_i account hentity
          split_ifs at hupdated
          · exact .inr ⟨account, hentity, (Option.some.inj hupdated).symm⟩
          · exact .inl hupdated
        · exact .inl hupdated
    rcases hcases with rfl | ⟨account, hentity, rfl⟩
    · obtain ⟨account, hfold, hencodes⟩ := hrep stored rfl hvisible
      obtain ⟨hold, hnewer⟩ := fold_versions hsorted hfold
      rw [← encodes_version hencodes] at hold hnewer
      by_cases hnothing : new = []
      · subst hnothing
        rw [List.append_nil] at hresult
        cases hfold.symm.trans hresult
        exact hencodes
      · have hdecoded : decode env.now (some stored) ≠ none := by
          rw [decode_visible hvisible]
          exact Option.some_ne_none _
        obtain ⟨refolded, hrefolded, halike⟩ := entity_read hrep hoverlap hsorted hadmits hresult
          (fun hnone => absurd hnone hdecoded)
        have hpending : pending (some (stored.toAccount true env.now)) (overlap ++ new) = new :=
          pending_append (fun event hevent => hold event (hoverlap.subset hevent)) hnewer
        rw [decode_visible hvisible, entity, hpending] at hrefolded
        rw [update, updateRow_visible hvisible (fun event hevent => hold event (hoverlap.subset hevent))
          hnewer hnothing hrefolded] at hupdated
        exact ⟨refolded, (Option.some.inj hupdated).symm, halike⟩
    · obtain ⟨refolded, hrefolded, halike⟩ := entity_read hrep hoverlap hsorted hadmits hresult
        (fun hnone => by
          rw [hnone] at hentity
          exact eq_of_folds hadmits.2 hgroup hentity)
      cases hentity.symm.trans hrefolded
      exact ⟨account, rfl, halike⟩

/-! ### Runs -/

/-- The visible rows are folds of what was read of their streams. -/
def Tracked (tz : Timestamptz) (db : Db) : Prop :=
  ∀ last, Projection.Tracks SeqEvent.id SeqEvent.seq SeqEvent.version (Represents tz)
    db.accountEvents 0 (projection db last)

theorem Tracked.of_same {after : Db} (h : Tracked tz db) (hevents : after.accountEvents = db.accountEvents)
    (hposition : after.checkpoints .account = db.checkpoints .account)
    (haccounts : after.accounts = db.accounts) : Tracked tz after := by
  intro last
  have hsame : projection after last = projection db last := by
    simp only [projection, Db.log, hposition, haccounts]
    rw [show after.events .account = db.events .account from hevents]
  rw [hsame, hevents]
  exact h last

theorem tracked_fresh (h : Appends.Fresh db) : Tracked tz db := by
  intro last
  have hevents : db.accountEvents = [] := h.events .account
  have hlog : db.log .account = ⟨[], none⟩ := by
    simp only [Db.log, h.checkpoints .account]
    rw [show db.events .account = [] from hevents]
  rw [hevents, projection, hlog]
  refine Projection.Tracks.start fun id stored hstored => ?_
  have hmem := (Table.get_eq_some_iff.mp hstored).1
  rw [h.accounts] at hmem
  cases hmem

theorem Tracked.append (h : Tracked tz db) (hlogs : Appends.Logs db) {event : SeqEvent AccountEvent}
    (hnext : Appends.Next .account db.accountEvents event) :
    Tracked tz (Coverage.append db .account event) := by
  intro last
  have hordered : Projection.Ordered SeqEvent.id SeqEvent.seq SeqEvent.version
      (event :: db.accountEvents) := hnext.ordered (hlogs.ordered .account)
  have hwider : Projection.Tracks SeqEvent.id SeqEvent.seq SeqEvent.version (Represents tz)
      (event :: db.accountEvents) 0 (projection db last) := by
    refine ⟨(h last).sound, (h last).ordered, fun id => ?_, (h last).rows⟩
    by_cases hid : event.id = id
    · subst hid
      rw [Projection.stream_cons_self hordered (fun other hother hid => hnext.version other hother hid)]
      exact List.prefix_append _ _
    · rw [Projection.stream_cons_of_ne hid]
      exact List.prefix_rfl
  refine hwider.append hordered ?_ List.mem_cons_self ?_
  · intro other hother
    rcases List.mem_cons.mp hother with rfl | hmem
    · exact hnext.positive
    · exact (hlogs.sound .account).positive other hmem
  · intro other hother
    rcases List.mem_cons.mp hother with rfl | hmem
    · exact ⟨fun hin => absurd (hnext.seq other hin) (lt_irrefl _), fun hlt => absurd hlt (lt_irrefl _)⟩
    · exact ⟨fun _ => hnext.seq other hmem, fun _ => hmem⟩

theorem admits_of_logs (hlogs : Appends.Logs db)
    (hunexpiring : ∀ event ∈ db.accountEvents, Unexpiring event.envelope.event) (id : AccountId) :
    Admits Unexpiring 0 (db.stream .account id) :=
  ⟨fun event hevent => hunexpiring event (Projector.mem_groupOf.mp hevent).1, hlogs.streams .account id⟩

theorem Tracked.poll (h : Tracked tz db) (hlogs : Appends.Logs db)
    (hunexpiring : ∀ event ∈ db.accountEvents, Unexpiring event.envelope.event)
    (hok : (projectBatch tz env db).progress.rolledBack = []) :
    Tracked tz (projectBatch tz env db).progress.db := by
  intro last
  have hevents : (projectBatch tz env db).progress.db.accountEvents = db.accountEvents :=
    (Aggregate.account.projectBatch_spec tz env db).1 .account
  have hmargin : Projection.Tracks SeqEvent.id SeqEvent.seq SeqEvent.version (Represents tz)
      db.accountEvents Projector.window (projection db env) :=
    (h env).mono (Int.natCast_nonneg _)
  have hpolled : Projection.Tracks SeqEvent.id SeqEvent.seq SeqEvent.version (Represents tz)
      db.accountEvents 0 ((projection db env).poll SeqEvent.id SeqEvent.seq SeqEvent.version
        Projector.window Projector.batchLimit (update tz) env) :=
    hmargin.poll (correct tz) (by decide) (by decide) (admits_of_logs hlogs hunexpiring) Admits.front
      trivial (fun _ _ => trivial)
  rw [← projection_projectBatch env hok] at hpolled
  rw [hevents]
  exact ⟨hpolled.sound, hpolled.ordered, hpolled.visible, hpolled.rows⟩

/-! ### The second poll -/

/-- The group of another account. -/
theorem quiet_written {before after : Db} {other : AccountId}
    {link : Option (AccountId × AuthAccountId)} (hother : other ≠ id)
    (hevents : ∀ event ∈ events, event.id = other)
    (h : project tz env before other events = .written after link) :
    after.accounts.get id = before.accounts.get id ∧ Shrinks before after := by
  refine ⟨?_, ?_⟩
  · rw [project_written_row hevents h id, if_neg hother.symm]
  · rcases project_cases tz env before other events with
      ⟨_, heq⟩ | ⟨account, _, _, ⟨result, hwrite, heq⟩ | heq⟩
    · rw [heq] at h
      cases h
    · rw [heq] at h
      cases h
      exact shrinks_write hwrite
    · rw [heq] at h
      cases h

/-- What the first poll leaves of an account whose whole stream it reads. -/
theorem settled_of_whole (hlogs : Appends.Logs db)
    (hunexpiring : ∀ event ∈ db.accountEvents, Unexpiring event.envelope.event)
    (htracked : Tracked tz db) (hseparate : profiles.Separate db)
    (hok : (Aggregate.account.projectBatch tz env db).progress.rolledBack = [])
    (hwhole : Projector.groupOf (db.batch .account) id = db.stream .account id)
    (hlast : Account.fold 0 ((db.stream .account id).map SeqEvent.envelope) = .ok (some last)) :
    (∃ row, (Aggregate.account.projectBatch tz env db).progress.db.accounts.get id = some row ∧
        last.version ≤ row.version) ∧
      (last.deletedAt.isSome = true →
        Cascaded (Aggregate.account.projectBatch tz env db).progress.db id) ∧
      (last.deletedAt.isSome = false → ∀ authId,
        createdAuthAccountId (db.stream .account id) = some authId → (id, authId) ∈
          (Aggregate.account.projectBatch tz env db).progress.db.authEmumetAccounts) := by
  have hne : db.stream .account id ≠ [] := by
    intro hnil
    rw [hnil] at hlast
    cases hlast
  obtain ⟨before, ⟨hrow, hshrinks⟩, hresult⟩ := Appends.poll_writes
    (R := fun a b => b.accounts.get id = a.accounts.get id ∧ Shrinks a b)
    (fun db => ⟨rfl, .refl db⟩) (fun hab hbc => ⟨hbc.1.trans hab.1, hab.2.trans hbc.2⟩)
    (fun {_ _ _ _} hother hwritten => by
      exact quiet_written hother (fun event hevent => (Projector.mem_groupOf.mp hevent).2) hwritten)
    (fun before seq => ⟨rfl, ⟨fun _ h => h, fun _ h => h, fun _ h => h, fun _ h => h⟩⟩)
    (hwhole ▸ hne) hok
  rw [hwhole] at hresult
  -- the group folds onto the row there was
  obtain ⟨applied, rest, hsplit, hrep, _, _⟩ := (htracked env).rows id
  have hsplit' : db.stream .account id = applied ++ rest := hsplit
  have hsorted := (hlogs.ordered .account).stream_version id
  have hadmits := admits_of_logs hlogs hunexpiring id
  have hentity : ∃ account, entity env (decode env.now (before.accounts.get id))
      (db.stream .account id) = .ok (some account) ∧ Account.Alike (fun _ _ => True) last account := by
    rw [hrow, hsplit']
    exact entity_read hrep (List.suffix_refl _) (hsplit ▸ hsorted) (hsplit' ▸ hadmits)
      (hsplit' ▸ hlast) (fun _ => rfl)
  obtain ⟨account, hfolded, halike⟩ := hentity
  obtain ⟨first, later, authId, hcons, hcreated, _⟩ := OwnerLink.exists_created hne ⟨_, hlast⟩
  have howner : createdAuthAccountId (db.stream .account id) = some authId := by
    rw [hcons]
    exact OwnerLink.created_cons hcreated
  have hid : account.id = id :=
    entity_id (fun event hevent => (Projector.mem_groupOf.mp hevent).2) hfolded
  -- so it was written, and the other groups leave what it wrote
  have hwritten : ∃ after, write tz before account (some authId) id = .ok after ∧
      (Aggregate.account.projectBatch tz env db).progress.db.accounts.get id = after.accounts.get id ∧
      Shrinks after (Aggregate.account.projectBatch tz env db).progress.db := by
    have hcases := project_cases tz env before id (db.stream .account id)
    rw [findByIdUnfiltered_eq, howner] at hcases
    rcases hcases with ⟨⟨_, hnone⟩ | hfails, _⟩ | ⟨other, hother, _, ⟨after, hwrite, hproject⟩ | hproject⟩
    · cases hnone
    · exact absurd hfolded (hfails account)
    · cases hother.symm.trans hfolded
      rcases hresult with ⟨hskipped, _⟩ | ⟨after', link, hwritten, hafter⟩
      · cases hproject.symm.trans hskipped
      · cases hproject.symm.trans hwritten
        exact ⟨after, hwrite, hafter⟩
    · rcases hresult with ⟨hskipped, _⟩ | ⟨after', link, hwritten, _⟩
      · cases hproject.symm.trans hskipped
      · cases hproject.symm.trans hwritten
  obtain ⟨after, hwrite, hget, hafter⟩ := hwritten
  have hseparate' : profiles.Separate before := fun row hrow other hother =>
    hseparate row (hshrinks.profiles row hrow) other (hshrinks.profiles other hother)
  obtain ⟨⟨upserted, hupsert, haccounts⟩, hdeleted, hlive⟩ := write_settles hseparate' hwrite
  have hstate := optionRel_isSome halike.deletedAt
  refine ⟨?_, fun h => (hdeleted (hstate ▸ h)).shrinks hafter, fun h other hcreated => ?_⟩
  · rw [hget, haccounts, upsert_row hupsert id]
    split_ifs with hnewer
    · exact ⟨_, rfl, by rw [AccountRow.ofAccount_version, halike.version]⟩
    · cases hstored : before.accounts.get id with
      | none => exact absurd ⟨hid.symm, by rw [hstored]; rfl⟩ hnewer
      | some row =>
          refine ⟨row, rfl, ?_⟩
          rw [halike.version]
          simpa [hid, hstored] using hnewer
  · rw [howner] at hcreated
    exact hafter.links _ (hlive (hstate ▸ h) other hcreated)

/-- Reading a part of a stream whose visible row is its fold. -/
theorem entity_reread (hrep : Represents tz before row whole) (hgroup : group <:+ whole)
    (hsorted : whole.Pairwise fun a b => a.version < b.version) (hadmits : Admits Unexpiring 0 whole)
    (hlast : Account.fold 0 (whole.map SeqEvent.envelope) = .ok (some last))
    (hentity : entity env (decode env.now row) group = .ok (some account)) :
    Account.Alike (fun _ _ => True) last account ∧
      (group = whole ∨ pending (decode env.now row) group = []) := by
  have hhidden : decode env.now row = none → group = whole := by
    intro hnone
    rw [hnone] at hentity
    exact eq_of_folds hadmits.2 hgroup hentity
  constructor
  · have hread : ∃ account, entity env (decode env.now row) (group ++ []) = .ok (some account) ∧
        Account.Alike (fun _ _ => True) last account := by
      refine entity_read hrep hgroup ?_ ?_ ?_ ?_
      · rwa [List.append_nil]
      · rwa [List.append_nil]
      · rwa [List.append_nil]
      · rwa [List.append_nil, List.append_nil]
    rw [List.append_nil] at hread
    obtain ⟨other, hother, halike⟩ := hread
    cases hentity.symm.trans hother
    exact halike
  · cases hdecode : decode env.now row with
    | none => exact .inl (hhidden hdecode)
    | some existing =>
        right
        obtain ⟨stored, hstored, rfl⟩ := Option.map_eq_some_iff.mp hdecode
        obtain ⟨rfl, hvisible⟩ := Option.filter_eq_some_iff.mp hstored
        obtain ⟨folded, hfold, hencodes⟩ := hrep stored rfl (by simpa using hvisible)
        have hold := (fold_versions (by rwa [List.append_nil] : (whole ++ []).Pairwise _) hfold).1
        rw [← encodes_version hencodes] at hold
        refine List.filter_eq_nil_iff.mpr fun event hevent => ?_
        have hle : event.version ≤ stored.version := hold event (hgroup.subset hevent)
        simpa [AccountRow.toAccount] using hle

/-- After a poll of the accounts that read the log to its end and wrote all it had to, another poll
writes nothing new. -/
theorem account_repoll (hlogs : Appends.Logs db)
    (hunexpiring : ∀ event ∈ db.accountEvents, Unexpiring event.envelope.event)
    (htracked : Tracked tz db) (hseparate : profiles.Separate db)
    (hend : ∀ event ∈ db.events .account,
      event.seq ≤ (Aggregate.account.projectBatch tz env db).position)
    (hok : (Aggregate.account.projectBatch tz env db).progress.rolledBack = []) {again : PollEnv}
    {after : Db} {link : Option (AccountId × AuthAccountId)}
    (h : project tz again (Aggregate.account.projectBatch tz env db).progress.db id
      (Projector.groupOf ((Aggregate.account.projectBatch tz env db).progress.db.batch .account) id) =
        .written after link) :
    after = (Aggregate.account.projectBatch tz env db).progress.db := by
  obtain ⟨hfirst, hsecond⟩ := hlogs.group_suffix hend id
  have hsorted := (hlogs.ordered .account).stream_version id
  have hadmits := admits_of_logs hlogs hunexpiring id
  have hevents := (Aggregate.account.projectBatch_spec tz env db).1 .account
  have hrep : Represents tz env
      ((Aggregate.account.projectBatch tz env db).progress.db.accounts.get id)
      (db.stream .account id) := by
    have hdrained := ((htracked.poll hlogs hunexpiring hok) env).drained (fun event hevent => by
      have hle := hend event (hevents ▸ hevent)
      rw [hlogs.position_eq] at hle
      exact hle) id
    have hstream : Projection.stream SeqEvent.id SeqEvent.version
        (projection (projectBatch tz env db).progress.db env).log.rows id = db.stream .account id :=
      congrArg (Projector.groupOf · id) hevents
    rw [hstream] at hdrained
    exact hdrained
  rcases project_cases tz again (Aggregate.account.projectBatch tz env db).progress.db id
      (Projector.groupOf ((Aggregate.account.projectBatch tz env db).progress.db.batch .account) id) with
    ⟨_, heq⟩ | ⟨account, hentity, hsome, ⟨result, hwrite, heq⟩ | heq⟩
  · cases heq.symm.trans h
  · cases heq.symm.trans h
    have hread : Projector.groupOf
        ((Aggregate.account.projectBatch tz env db).progress.db.batch .account) id ≠ [] := by
      intro hnil
      rw [hnil] at hsome
      exact hsome ⟨rfl, rfl⟩
    have hne : db.stream .account id ≠ [] := by
      obtain ⟨event, hevent⟩ := List.exists_mem_of_ne_nil _ hread
      exact List.ne_nil_of_mem ((hsecond.trans hfirst).subset hevent)
    obtain ⟨entity, hfold⟩ := hadmits.2
    obtain ⟨last, rfl, _⟩ := Account.foldEvents_ok hfold (by simpa using hne)
    obtain ⟨halike, hreads⟩ :=
      entity_reread hrep (hsecond.trans hfirst) hsorted hadmits hfold hentity
    -- a group that is written holds the creation
    have hwhole : Projector.groupOf
        ((Aggregate.account.projectBatch tz env db).progress.db.batch .account) id =
          db.stream .account id := by
      rcases hreads with hwhole | hnothing
      · exact hwhole
      · cases hcreated : createdAuthAccountId (Projector.groupOf
            ((Aggregate.account.projectBatch tz env db).progress.db.batch .account) id) with
        | none => exact absurd ⟨hnothing, hcreated⟩ hsome
        | some authId => exact eq_of_createdAuthAccountId hadmits.2 (hsecond.trans hfirst) hcreated
    have hsame : Projector.groupOf (db.batch .account) id = db.stream .account id := by
      refine hfirst.eq_of_length (le_antisymm hfirst.length_le ?_)
      rw [← hwhole]
      exact hsecond.length_le
    obtain ⟨⟨row, hget, hversion⟩, hdeleted, hlive⟩ :=
      settled_of_whole hlogs hunexpiring htracked hseparate hok hsame hfold
    have hid : account.id = id :=
      entity_id (fun event hevent => (Projector.mem_groupOf.mp hevent).2) hentity
    have hstate := optionRel_isSome halike.deletedAt
    have hrest : write tz (Aggregate.account.projectBatch tz env db).progress.db account
        (createdAuthAccountId (db.stream .account id)) id =
          .ok (Aggregate.account.projectBatch tz env db).progress.db := write_at_rest
      ⟨row, hid ▸ hget, halike.version ▸ hversion⟩ (fun h => hdeleted (hstate.trans h))
      (fun h => hlive (hstate.trans h))
    rw [hwhole, hrest] at hwrite
    exact (Except.ok.inj hwrite).symm
  · cases heq.symm.trans h

/-! ### Every state of a run -/

/-- Events are appended in order, and no suspension among them expires. -/
def Allowed (db : Db) (action : Coverage.Action) : Prop :=
  Appends.Allowed db action ∧
    ∀ event, action = .commit .account event → Unexpiring event.envelope.event

/-- No write of a poll of the accounts fails. -/
def AccountWrites (tz : Timestamptz) (db : Db) : Coverage.Action → Prop
  | .poll .account env => (Aggregate.account.projectBatch tz env db).progress.rolledBack = []
  | _ => True

instance (tz : Timestamptz) (db : Db) (action : Coverage.Action) :
    Decidable (AccountWrites tz db action) :=
  match action with
  | .poll .account _ => inferInstanceAs (Decidable (_ = _))
  | .poll .profile _ => isTrue trivial
  | .poll .metadata _ => isTrue trivial
  | .commit _ _ => isTrue trivial
  | .failedPoll _ => isTrue trivial
  | .write _ => isTrue trivial

/-- What holds in every state, whether writes fail or not. -/
structure Inv (db : Db) : Prop where
  base : Resurrection.Inv db
  profiles : profiles.Dated db
  metadatas : metadatas.Dated db
  unexpiring : ∀ event ∈ db.accountEvents, Unexpiring event.envelope.event

theorem inv_fresh (h : Appends.Fresh db) : Inv db := by
  refine ⟨Resurrection.inv_fresh h, fun row hrow => ?_, fun row hrow => ?_, fun event hevent => ?_⟩
  · rw [show (Emumet.profiles.table db).rows = [] from h.profiles] at hrow
    cases hrow
  · rw [show (Emumet.metadatas.table db).rows = [] from h.metadatas] at hrow
    cases hrow
  · rw [show db.accountEvents = [] from h.events .account] at hevent
    cases hevent

theorem Inv.step (h : Inv db) {action : Coverage.Action} (hallowed : Allowed db action) :
    Inv (Coverage.step tz db action) := by
  refine ⟨h.base.step hallowed.1,
    Resurrection.readModel_profiles.dated_step h.base.logs hallowed.1 h.base.profiles h.profiles,
    Resurrection.readModel_metadatas.dated_step h.base.logs hallowed.1 h.base.metadatas h.metadatas,
    ?_⟩
  rcases Coverage.log_step tz db action .account with ⟨event, rfl, hlog⟩ | ⟨⟨env, rfl⟩, _⟩ | hlog
  · intro other hother
    rcases List.mem_cons.mp hother with rfl | hmem
    · exact hallowed.2 other rfl
    · exact h.unexpiring other hmem
  · intro other hother
    rw [show (Coverage.step tz db (.poll .account env)).accountEvents = db.accountEvents from
      (Aggregate.account.projectBatch_spec tz env db).1 .account] at hother
    exact h.unexpiring other hother
  · intro other hother
    rw [show (Coverage.step tz db action).accountEvents = db.accountEvents from
      congrArg Tailing.Log.rows hlog] at hother
    exact h.unexpiring other hother

theorem Tracked.step (h : Tracked tz db) (hinv : Inv db) {action : Coverage.Action}
    (hallowed : Allowed db action) (hwrites : AccountWrites tz db action) :
    Tracked tz (Coverage.step tz db action) := by
  cases action with
  | commit kind event =>
      cases kind with
      | account => exact h.append hinv.base.logs hallowed.1
      | profile => exact h.of_same rfl rfl rfl
      | metadata => exact h.of_same rfl rfl rfl
  | failedPoll kind => exact h
  | write tables => exact hallowed.1.elim
  | poll kind env =>
      by_cases hkind : kind = .account
      · subst hkind
        exact h.poll hinv.base.logs hinv.unexpiring hwrites
      · obtain ⟨hevents, _, hothers, _⟩ := kind.projectBatch_spec tz env db
        exact h.of_same (hevents .account) (hothers .account (Ne.symm hkind))
          (Dependent.only_projectBatch tz env hkind db).accounts

/-- In every state of every run: after a poll that read its log to the end and wrote all it had to,
another poll changes nothing and returns the same position. For the accounts this needs that no write
of an earlier poll of them failed. -/
theorem repoll_changes_nothing (tz : Timestamptz) (start : Db) (hfresh : Appends.Fresh start)
    (actions : List Coverage.Action)
    (hallowed : Runs.Along (Coverage.step tz) Allowed start actions) (kind : Aggregate)
    (hwrites : kind = .account → Runs.Along (Coverage.step tz) (AccountWrites tz) start actions)
    (env again : PollEnv) :
    let db := Runs.run (Coverage.step tz) start actions
    let first := kind.projectBatch tz env db
    let second := kind.projectBatch tz again first.progress.db
    (∀ event ∈ db.events kind, event.seq ≤ first.position) → first.progress.rolledBack = [] →
      second.progress.db = first.progress.db ∧ second.position = first.position := by
  intro db first second hend hok
  have hinv : Inv db := hallowed.invariant (fun _ _ h hstep => h.step hstep) (inv_fresh hfresh)
  have hlogs := hinv.base.logs
  have hafter : Appends.Logs first.progress.db :=
    (hlogs.step trivial : Appends.Logs (Coverage.step tz db (.poll kind env)))
  have hdrained : ∀ event ∈ first.progress.db.events kind,
      event.seq ≤ first.progress.db.position kind := by
    intro event hevent
    rw [(kind.projectBatch_spec tz env db).1 kind] at hevent
    rw [← hlogs.position_eq]
    exact hend event hevent
  have hrest : second.progress.db = first.progress.db ∧
      second.position = first.progress.db.position kind := by
    refine Appends.poll_at_rest hafter hdrained fun {id after link} hwritten => ?_
    cases kind with
    | account =>
        have htracked : Inv db ∧ Tracked tz db := by
          refine @Runs.Along.invariant _ _ _ _ (fun db => Inv db ∧ Tracked tz db) ?_ _
            ⟨inv_fresh hfresh, tracked_fresh hfresh⟩ _ (hallowed.and (hwrites rfl))
          rintro before action ⟨hbefore, htracked⟩ ⟨hstep, hwrite⟩
          exact ⟨hbefore.step hstep, htracked.step hbefore hstep hwrite⟩
        exact account_repoll hlogs hinv.unexpiring htracked.2 hinv.base.profiles.1 hend hok hwritten
    | profile =>
        exact profiles_lawful.repoll hlogs (Resurrection.readModel_profiles.streams hlogs) hinv.profiles
          hend hok hwritten
    | metadata =>
        exact metadatas_lawful.repoll hlogs (Resurrection.readModel_metadatas.streams hlogs)
          hinv.metadatas hend hok hwritten
  exact ⟨hrest.1, hrest.2.trans (hlogs.position_eq tz env kind).symm⟩

/-- A poll in which the write of one group fails. -/
def failingEnv (id : Int) (now : OffsetDateTime) : PollEnv :=
  ⟨now, fun ids => ids, fun _ => .refl _, fun other => other = id⟩

/-- Two accounts can be created. -/
def owners : Db := { Db.empty with authAccounts := [3, 4] }

theorem fresh_owners : Appends.Fresh owners :=
  ⟨fun kind => by cases kind <;> rfl, fun _ => rfl, rfl, rfl, rfl⟩

def aliceCreated : SeqEvent AccountEvent := ⟨1, ⟨7, .Created "alice" false "alice-nanoid" 3, 20⟩⟩

def aliceSuspended : SeqEvent AccountEvent := ⟨2, ⟨7, .Suspended "spam" 11 none, 21⟩⟩

def bobCreated : SeqEvent AccountEvent := ⟨150, ⟨8, .Created "bob" true "bob-nanoid" 4, 22⟩⟩

def aliceUnsuspended : SeqEvent AccountEvent := ⟨151, ⟨7, .Unsuspended, 23⟩⟩

def aliceUpdated : SeqEvent AccountEvent := ⟨300, ⟨7, .Updated true, 24⟩⟩

/-- An account is suspended and unsuspended and becomes a bot; the poll that reads the suspension runs
in the given environment. -/
def suspendedAlice (env : PollEnv) : List Coverage.Action :=
  [.commit .account aliceCreated, .poll .account (Coverage.plainEnv 10),
    .commit .account aliceSuspended, .commit .account bobCreated, .poll .account env,
    .commit .account aliceUnsuspended, .commit .account aliceUpdated]

def suspendedAliceDb (env : PollEnv) : Db :=
  Runs.run (Coverage.step .microseconds) owners (suspendedAlice env)

theorem allowed_commit {log : List (SeqEvent AccountEvent)} {event : SeqEvent AccountEvent}
    (hlog : db.accountEvents = log) (hnext : Appends.Next .account log event)
    (hunexpiring : Unexpiring event.envelope.event) : Allowed db (.commit .account event) := by
  subst hlog
  refine ⟨hnext, fun other hother => ?_⟩
  cases hother
  exact hunexpiring

theorem allowed_poll (kind : Aggregate) (env : PollEnv) : Allowed db (.poll kind env) :=
  ⟨trivial, fun event h => by cases h⟩

theorem accountEvents_poll (tz : Timestamptz) (env : PollEnv) (db : Db) :
    (Coverage.step tz db (.poll .account env)).accountEvents = db.accountEvents :=
  (Aggregate.account.projectBatch_spec tz env db).1 .account

theorem allowed_suspendedAlice (env : PollEnv) :
    Runs.Along (Coverage.step .microseconds) Allowed owners (suspendedAlice env) := by
  have hfirst := accountEvents_poll .microseconds (Coverage.plainEnv 10)
    (Coverage.append owners .account aliceCreated)
  have hsecond : (Runs.run (Coverage.step .microseconds) owners
      ((suspendedAlice env).take 5)).accountEvents = [bobCreated, aliceSuspended, aliceCreated] :=
    (accountEvents_poll .microseconds env _).trans
      (congrArg (fun log => bobCreated :: aliceSuspended :: log) hfirst)
  refine ⟨allowed_commit rfl ⟨by decide, by decide, by decide, ⟨_, rfl⟩⟩ ?_, allowed_poll _ _,
    allowed_commit hfirst ⟨by decide, by decide, by decide, ⟨_, rfl⟩⟩ ?_,
    allowed_commit (congrArg (aliceSuspended :: ·) hfirst)
      ⟨by decide, by decide, by decide, ⟨_, rfl⟩⟩ ?_, allowed_poll _ _,
    allowed_commit hsecond ⟨by decide, by decide, by decide, ⟨_, rfl⟩⟩ ?_,
    allowed_commit (congrArg (aliceUnsuspended :: ·) hsecond)
      ⟨by decide, by decide, by decide, ⟨_, rfl⟩⟩ ?_, trivial⟩
  · simp [Unexpiring, aliceCreated]
  · simp [Unexpiring, aliceSuspended]
  · simp [Unexpiring, bobCreated]
  · simp [Unexpiring, aliceUnsuspended]
  · simp [Unexpiring, aliceUpdated]

/-- Without failed writes the bot flag arrives with the first poll and the second changes nothing. -/
theorem repoll_changes_nothing_suspendedAlice :
    let first := Aggregate.account.projectBatch .microseconds (Coverage.plainEnv 13)
      (suspendedAliceDb (Coverage.plainEnv 12))
    let second := Aggregate.account.projectBatch .microseconds (Coverage.plainEnv 14) first.progress.db
    (first.progress.db.accounts.get 7).map (·.isBot) = some true ∧
      second.progress.db = first.progress.db ∧ second.position = first.position := by
  have hwrites : Runs.Along (Coverage.step .microseconds) (AccountWrites .microseconds) owners
      (suspendedAlice (Coverage.plainEnv 12)) := by decide +kernel
  refine ⟨by decide +kernel, ?_⟩
  exact repoll_changes_nothing .microseconds owners fresh_owners (suspendedAlice (Coverage.plainEnv 12))
    (allowed_suspendedAlice _) .account (fun _ => hwrites) (Coverage.plainEnv 13) (Coverage.plainEnv 14)
    (by decide +kernel) (by decide +kernel)

/-- The write of the suspension fails and the window moves past it. The next poll cannot fold the end
of a suspension that the row does not have and skips the group; the poll after that does not see this
event any more and writes the ones behind it. -/
theorem repoll_writes_skipped_events :
    let first := Aggregate.account.projectBatch .microseconds (Coverage.plainEnv 13)
      (suspendedAliceDb (failingEnv 7 12))
    let second := Aggregate.account.projectBatch .microseconds (Coverage.plainEnv 14) first.progress.db
    Appends.Fresh owners ∧
      Runs.Along (Coverage.step .microseconds) Allowed owners (suspendedAlice (failingEnv 7 12)) ∧
      (∀ event ∈ (suspendedAliceDb (failingEnv 7 12)).events .account, event.seq ≤ first.position) ∧
      first.progress.rolledBack = [] ∧ second.progress.rolledBack = [] ∧
      (first.progress.db.accounts.get 7).map (fun row => (row.isBot, row.version)) = some (false, 20) ∧
      (second.progress.db.accounts.get 7).map (fun row => (row.isBot, row.version)) =
        some (true, 24) := by
  exact ⟨fresh_owners, allowed_suspendedAlice _, by decide +kernel, by decide +kernel,
    by decide +kernel, by decide +kernel, by decide +kernel⟩

end Repoll

end Emumet
