import Emumet.ProjectorAppends
import Emumet.ProjectorRows

/-! Rows that were removed do not come back. Deactivation removes the rows of an account and no later
poll makes one while the account is marked deleted; a field whose `Deleted` event was read stays away,
because that event is read again whenever another event of the field is. -/

namespace Emumet

namespace Dependent

variable {kind : Aggregate} {Row : Type} {d : Dependent kind Row} {tz : Timestamptz} {env : PollEnv}
  {db after : Db} {k : Int} {events : List (SeqEvent kind.Event)}
  {link : Option (AccountId × AuthAccountId)}

variable (d) in
/-- No row belongs to an account that is marked deleted. -/
def Clean (db : Db) : Prop :=
  ∀ row ∈ (d.table db).rows, ∀ account, db.accounts.get (d.accountId row) = some account →
    account.deletedAt = none

/-! ### The group of a profile or a field -/

/-- A group that is written holds something new, was folded and passed its write. -/
theorem project_written (h : d.project env db k events = .written after link) :
    let existing := (d.table db).get k
    ∃ entity, d.pending existing events ≠ [] ∧
      (existing = none → parentDeleted db env.now (d.owner (d.pending existing events)) = false) ∧
      d.entity existing events = .ok entity ∧ d.write db k entity = some after := by
  intro existing
  rcases d.project_cases env db k events with
    ⟨heq, _⟩ | ⟨entity, hpending, hlive, hentity, ⟨result, hwrite, heq⟩ | ⟨heq, _⟩⟩
  · rw [heq] at h
    cases h
  · rw [heq] at h
    cases h
    exact ⟨entity, hpending, hlive, hentity, hwrite⟩
  · rw [heq] at h
    cases h

theorem write_cases {entity : Option Row} (h : d.write db k entity = some after) :
    after = db ∨ (entity = none ∧ after = d.store db ((d.table db).erase k)) ∨
      ∃ row, entity = some row ∧ d.accepts db row = true ∧
        after = d.store db ((d.table db).put row) := by
  cases entity with
  | none => exact .inr (.inl ⟨rfl, (Option.some.inj h).symm⟩)
  | some row =>
      simp only [write] at h
      split_ifs at h with hnewer haccepts
      · exact .inr (.inr ⟨row, rfl, haccepts, (Option.some.inj h).symm⟩)
      · exact .inl (Option.some.inj h).symm

/-- What is folded onto the row of a group has the id of the group. -/
theorem Lawful.entity_id (hd : d.Lawful) (hids : ∀ event ∈ events, event.id = k) {row : Row}
    (hentity : d.entity ((d.table db).get k) events = .ok (some row)) : d.id row = k := by
  refine hd.fold_id (fun existing hexisting => (Table.get_eq_some_iff.mp hexisting).2)
    (fun envelope henvelope => ?_) hentity
  obtain ⟨event, hevent, rfl⟩ := List.mem_map.mp henvelope
  exact hids event (List.mem_filter.mp hevent).1

/-- What is folded keeps the account of the row it is folded onto; a new row belongs to the account the
projector looks up. -/
theorem Lawful.entity_account (hd : d.Lawful)
    (hends : events.Pairwise fun a _ => d.ends a.envelope.event = false) {existing : Option Row}
    {row : Row} (hentity : d.entity existing events = .ok (some row)) :
    (∃ old, existing = some old ∧ d.accountId row = d.accountId old) ∨
      (existing = none ∧ d.owner (d.pending existing events) = some (d.accountId row)) := by
  have hpending : ((d.pending existing events).map SeqEvent.envelope).Pairwise
      fun a _ => d.ends a.event = false :=
    List.pairwise_map.mpr (hends.sublist List.filter_sublist)
  cases existing with
  | some old =>
      refine .inl ⟨old, rfl, ?_⟩
      rcases hd.fold_identity hentity with ⟨_, heq, hidentity⟩ | ⟨event, hevent, hcreated⟩
      · cases heq
        rw [accountId, hidentity, accountId]
      · rw [hd.fold_not_created hpending hentity event hevent] at hcreated
        cases hcreated
  | none =>
      refine .inr ⟨rfl, ?_⟩
      rw [pending_none] at hpending ⊢
      rw [entity_none] at hentity
      cases events with
      | nil => cases hentity
      | cons first rest =>
          obtain ⟨created, _, hcreated, hrest⟩ := hd.fold_head hentity
          have hidentity : d.identity row = d.identity created := by
            rcases hd.fold_identity hrest with ⟨_, heq, hidentity⟩ | ⟨event, hevent, hagain⟩
            · cases heq
              exact hidentity
            · rw [hd.fold_not_created (List.pairwise_cons.mp hpending).2 hrest event hevent] at hagain
              cases hagain
          have hfirst : d.createdFor first.envelope.event = some (d.accountId row) := by
            rw [createdFor, hcreated, accountId, hidentity]
            rfl
          rw [owner, List.findSome?_cons, hfirst]

theorem parentDeleted_of_deleted {now : OffsetDateTime} {accountId : AccountId} {account : AccountRow}
    (hget : db.accounts.get accountId = some account) (hdeleted : account.deletedAt ≠ none) :
    parentDeleted db now (some accountId) = true := by
  simp only [parentDeleted, AccountReadModel.findByIdIncludingDeleted, hget, Option.map_some,
    Option.any_some]
  exact Option.isSome_iff_ne_none.mpr hdeleted

/-- A row is written to its place without a conflict and for an account that is not deleted. -/
theorem Lawful.good_project (hd : d.Lawful)
    (hends : events.Pairwise fun a _ => d.ends a.envelope.event = false)
    (h : d.project env db k events = .written after link) (hseparate : d.Separate db)
    (hclean : d.Clean db) : d.Separate after ∧ d.Clean after := by
  obtain ⟨entity, _, hlive, hentity, hwrite⟩ := project_written h
  rcases write_cases hwrite with rfl | ⟨rfl, rfl⟩ | ⟨row, rfl, haccepts, rfl⟩
  · exact ⟨hseparate, hclean⟩
  · have hrows : ∀ row ∈ (d.table (d.store db ((d.table db).erase k))).rows,
        row ∈ (d.table db).rows := by
      rw [hd.table_store]
      exact fun row hrow => (Table.mem_erase.mp hrow).1
    refine ⟨fun row hrow other hother => hseparate row (hrows row hrow) other (hrows other hother),
      fun row hrow account => ?_⟩
    rw [(hd.only_store db _).accounts]
    exact hclean row (hrows row hrow) account
  · have haccount : ∀ account, db.accounts.get (d.accountId row) = some account →
        account.deletedAt = none := by
      intro account hget
      rcases hd.entity_account hends hentity with ⟨old, hold, hsame⟩ | ⟨hnone, howner⟩
      · rw [hsame] at hget
        exact hclean old (Table.get_eq_some_iff.mp hold).1 account hget
      · by_contra hdeleted
        have hparent := hlive hnone
        rw [howner, parentDeleted_of_deleted hget hdeleted] at hparent
        cases hparent
    have hnew : ∀ other ∈ (d.table db).rows, d.id other ≠ d.id row →
        d.conflict (d.identity other) (d.identity row) = false := by
      simp only [accepts, Bool.and_eq_true, Bool.not_eq_true', List.any_eq_false] at haccepts
      intro other hother hne
      simpa [hne] using haccepts.1 other hother
    constructor
    · intro a ha b hb hne
      rw [hd.table_store, Table.mem_put] at ha hb
      rcases ha with rfl | ⟨ha, _⟩
      · rcases hb with rfl | ⟨hb, hother⟩
        · exact absurd rfl hne
        · rw [hd.conflict_symm]
          exact hnew b hb hother
      · rcases hb with rfl | ⟨hb, _⟩
        · exact hnew a ha hne
        · exact hseparate a ha b hb hne
    · intro a ha account
      rw [hd.table_store, Table.mem_put] at ha
      rw [(hd.only_store db _).accounts]
      rcases ha with rfl | ⟨ha, _⟩
      · exact haccount account
      · exact hclean a ha account

/-! ### The group of an account -/

variable {accountEvents : List (SeqEvent AccountEvent)}

/-- Handling an account makes no row of a profile or a field, and if it leaves the account marked deleted
it leaves no row of it either. -/
theorem Lawful.good_account (hd : d.Lawful) (hevents : ∀ event ∈ accountEvents, event.id = k)
    (h : AccountProjector.project tz env db k accountEvents = .written after link)
    (hseparate : d.Separate db) (hclean : d.Clean db) :
    (∀ row ∈ (d.table after).rows, row ∈ (d.table db).rows) ∧ d.Clean after := by
  rcases AccountProjector.project_cases tz env db k accountEvents with
    ⟨_, heq⟩ | ⟨account, hentity, _, ⟨result, hwrite, heq⟩ | heq⟩
  · rw [heq] at h
    cases h
  · rw [heq] at h
    cases h
    have hid : account.id = k := AccountProjector.entity_id hevents hentity
    simp only [AccountProjector.write, Fallible.bind_eq_ok] at hwrite
    obtain ⟨upserted, hupsert, hrest⟩ := hwrite
    have hrow := AccountProjector.upsert_row hupsert
    have htable : d.table upserted = d.table db := by
      simp only [AccountProjectionWriter.upsert, uniqueViolation, reject] at hupsert
      split_ifs at hupsert
      · cases hupsert
        exact hd.table_accounts db _ _
      · cases hupsert
        rfl
    split_ifs at hrest with hdeleted
    · have hseparate' : d.Separate upserted := by
        rw [Separate, htable]
        exact hseparate
      have hrows := hd.cascade hseparate' hrest
      obtain ⟨_, _, _, rfl⟩ := AccountProjector.cascade_tables hrest
      rw [htable] at hrows
      refine ⟨fun row hrow => ((hrows row).mp hrow).1, fun row hmem stored hget => ?_⟩
      obtain ⟨hbefore, hother⟩ := (hrows row).mp hmem
      have hsame : upserted.accounts.get (d.accountId row) = db.accounts.get (d.accountId row) := by
        rw [hrow, if_neg]
        rintro ⟨haccount, _⟩
        exact hother (haccount.trans hid)
      exact hclean row hbefore stored (hsame ▸ hget)
    · have hafter : d.table after = d.table db ∧ after.accounts = upserted.accounts := by
        cases hcreated : AccountProjector.createdAuthAccountId accountEvents with
        | none =>
            rw [hcreated] at hrest
            cases hrest
            exact ⟨htable, rfl⟩
        | some authId =>
            rw [hcreated] at hrest
            simp only [AccountReadModel.linkAuthAccount, foreignKeyViolation, reject] at hrest
            split_ifs at hrest
            · cases hrest
              exact ⟨htable, rfl⟩
            · cases hrest
              exact ⟨(hd.table_accounts upserted _ _).trans htable, rfl⟩
      refine ⟨fun row hrow => hafter.1 ▸ hrow, fun row hmem stored hget => ?_⟩
      rw [hafter.1] at hmem
      rw [hafter.2, hrow] at hget
      split_ifs at hget with hnewer
      · obtain rfl := Option.some.inj hget
        rw [AccountRow.ofAccount_deletedAt]
        simpa using hdeleted
      · exact hclean row hmem stored hget
  · rw [heq] at h
    cases h

/-! ### Polls -/

theorem Lawful.table_storePosition (hd : d.Lawful) (db : Db) (other : Aggregate) (seq : Int) :
    d.table (Projector.storePosition db other seq) = d.table db :=
  hd.table_only hd.kind_ne.symm (Aggregate.Only.storePosition .account other db seq)

variable (d) in
/-- No two rows conflict and none belongs to a deleted account. -/
def Good (db : Db) : Prop := d.Separate db ∧ d.Clean db

theorem Good.of_table {before after : Db} (h : d.Good before) (htable : d.table after = d.table before)
    (haccounts : after.accounts = before.accounts) : d.Good after := by
  refine ⟨?_, fun row hrow account => ?_⟩
  · rw [Separate, htable]
    exact h.1
  · rw [htable] at hrow
    rw [haccounts]
    exact h.2 row hrow account

theorem Lawful.good_storePosition (hd : d.Lawful) (h : d.Good db) (other : Aggregate) (seq : Int) :
    d.Good (Projector.storePosition db other seq) :=
  h.of_table (hd.table_storePosition db other seq) rfl

/-- A poll of the projector itself. -/
theorem Lawful.good_projectBatch (hd : d.Lawful) (hlogs : Appends.Logs db)
    (hstreams : ∀ id, d.Stream (db.stream kind id)) (h : d.Good db) :
    d.Good (kind.projectBatch tz env db).progress.db := by
  refine Appends.projectBatch_related (R := fun a b => d.Good a → d.Good b) (fun _ h => h)
    (fun hab hbc h => hbc (hab h)) ?_ (fun before seq h => hd.good_storePosition h kind seq) h
  intro before id after link hwritten hgood
  rw [hd.project_eq] at hwritten
  have hends := (hstreams id).ends.sublist (hlogs.group_sublist kind id)
  exact hd.good_project hends hwritten hgood.1 hgood.2

/-- A poll of the account projector takes rows away only. -/
theorem Lawful.good_projectAccounts (hd : d.Lawful) (h : d.Good db) :
    d.Good (Aggregate.account.projectBatch tz env db).progress.db ∧
      ∀ row ∈ (d.table (Aggregate.account.projectBatch tz env db).progress.db).rows,
        row ∈ (d.table db).rows := by
  refine Appends.projectBatch_related
    (R := fun a b => d.Good a → d.Good b ∧ ∀ row ∈ (d.table b).rows, row ∈ (d.table a).rows)
    (fun _ h => ⟨h, fun _ hrow => hrow⟩) ?_ ?_ ?_ h
  · intro a b c hab hbc ha
    obtain ⟨hb, hrows⟩ := hab ha
    obtain ⟨hc, hrows'⟩ := hbc hb
    exact ⟨hc, fun row hrow => hrows row (hrows' row hrow)⟩
  · intro before id after link hwritten hgood
    obtain ⟨hrows, hclean⟩ := hd.good_account (fun event hevent => (Projector.mem_groupOf.mp hevent).2)
      hwritten hgood.1 hgood.2
    refine ⟨⟨fun row hrow other hother => ?_, hclean⟩, hrows⟩
    exact hgood.1 row (hrows row hrow) other (hrows other hother)
  · intro before seq hgood
    refine ⟨hd.good_storePosition hgood .account seq, ?_⟩
    rw [hd.table_storePosition]
    exact fun _ hrow => hrow

/-- A poll of a dependent projector writes its own rows. -/
theorem Lawful.only_projectBatch (hd : d.Lawful) (db : Db) :
    kind.Only db (kind.projectBatch tz env db).progress.db := by
  refine Appends.projectBatch_related (Aggregate.Only.refl kind) Aggregate.Only.trans ?_
    (fun before seq => Aggregate.Only.storePosition kind kind before seq)
  intro before id after link hwritten
  rw [hd.project_eq] at hwritten
  obtain ⟨entity, _, _, _, hwrite⟩ := project_written hwritten
  rcases write_cases hwrite with rfl | ⟨_, rfl⟩ | ⟨_, _, _, rfl⟩
  · exact Aggregate.Only.refl kind _
  · exact hd.only_store before _
  · exact hd.only_store before _

theorem only_projectBatch (tz : Timestamptz) (env : PollEnv) {other : Aggregate}
    (hother : other ≠ .account) (db : Db) :
    other.Only db (other.projectBatch tz env db).progress.db := by
  cases other with
  | account => exact absurd rfl hother
  | profile => exact profiles_lawful.only_projectBatch db
  | metadata => exact metadatas_lawful.only_projectBatch db

/-! ### Streams whose end was read -/

/-- Only the last element of a list may be what no element before another is. -/
theorem getLast_of_pairwise {α : Type} {l : List α} {p : α → Bool}
    (h : l.Pairwise fun a _ => p a = false) {x : α} (hx : x ∈ l) (hp : p x = true) (hne : l ≠ []) :
    l.getLast hne = x := by
  obtain ⟨front, last, rfl⟩ : ∃ front last, l = front ++ [last] :=
    ⟨_, _, (List.dropLast_append_getLast hne).symm⟩
  rw [List.getLast_append_singleton]
  rcases List.mem_append.mp hx with hfront | hlast
  · have hopen := (List.pairwise_append.mp h).2.2 x hfront last (by simp)
    rw [hp] at hopen
    cases hopen
  · exact (List.mem_singleton.mp hlast).symm

variable (d) in
/-- The event that ends the stream was read, and there is no row. -/
def Gone (db : Db) (k : Int) : Prop :=
  (∃ event ∈ db.stream kind k, d.ends event.envelope.event = true ∧ event.seq ≤ db.position kind) ∧
    (d.table db).get k = none

/-- Whatever is read of a stream whose end was read has that end as its last event: fewer than a
hundred sequence numbers lie between the two. -/
theorem group_ends (hlogs : Appends.Logs db) (hstream : d.Stream (db.stream kind k))
    {ending : SeqEvent kind.Event} (hmem : ending ∈ db.stream kind k)
    (hends : d.ends ending.envelope.event = true) (hread : ending.seq ≤ db.position kind)
    (hne : Projector.groupOf (db.batch kind) k ≠ []) :
    d.ends ((Projector.groupOf (db.batch kind) k).getLast hne).envelope.event = true := by
  have hsublist := hlogs.group_sublist kind k
  obtain ⟨event, hevent⟩ := List.exists_mem_of_ne_nil _ hne
  have hlow : db.position kind - Projector.window < event.seq :=
    (Tailing.mem_of_mem_window SeqEvent.seq (Projector.mem_groupOf.mp hevent).1).2
  have hle : event.seq ≤ ending.seq := by
    have hlast := Tailing.le_lastSeq SeqEvent.seq ((hlogs.ordered kind).stream_seq k) 0
      (hsublist.subset hevent)
    have hwhole : db.stream kind k ≠ [] := List.ne_nil_of_mem hmem
    have hend : (db.stream kind k).getLast hwhole = ending :=
      getLast_of_pairwise (p := fun event => d.ends event.envelope.event) hstream.ends hmem hends hwhole
    have hlastSeq : Tailing.lastSeq SeqEvent.seq (db.stream kind k) 0 = ending.seq := by
      rw [Tailing.lastSeq, List.getLast?_eq_getLast_of_ne_nil hwhole, hend]
      rfl
    exact hlastSeq ▸ hlast
  have hgroup : ending ∈ Projector.groupOf (db.batch kind) k :=
    hlogs.mem_group_of_le hmem (by omega) hread
  have hlast := getLast_of_pairwise (p := fun event => d.ends event.envelope.event)
    (hstream.ends.sublist hsublist) hgroup hends hne
  rw [hlast]
  exact hends

theorem Lawful.gone_projectBatch (hd : d.Lawful) (hlogs : Appends.Logs db)
    (hstream : d.Stream (db.stream kind k)) (h : d.Gone db k) :
    (d.table (kind.projectBatch tz env db).progress.db).get k = none := by
  obtain ⟨⟨ending, hmem, hends, hread⟩, habsent⟩ := h
  refine Appends.projectBatch_related
    (R := fun a b => (d.table a).get k = none → (d.table b).get k = none) (fun _ h => h)
    (fun hab hbc h => hbc (hab h)) ?_ ?_ habsent
  · intro before id after link hwritten hnone
    rw [hd.project_eq] at hwritten
    obtain ⟨entity, hpending, _, hentity, hwrite⟩ := project_written hwritten
    rcases write_cases hwrite with rfl | ⟨_, rfl⟩ | ⟨row, rfl, _, rfl⟩
    · exact hnone
    · rw [hd.table_store, Table.get_eq_none_iff]
      exact fun row hrow => Table.get_eq_none_iff.mp hnone row (Table.mem_erase.mp hrow).1
    · have hid : d.id row = id :=
        hd.entity_id (fun event hevent => (Projector.mem_groupOf.mp hevent).2) hentity
      by_cases hk : k = id
      · -- the group ends with the end of the stream, so it folds to nothing
        subst hk
        rw [hnone, entity_none] at hentity
        rw [hnone, pending_none] at hpending
        have hmap : (Projector.groupOf (db.batch kind) k).map SeqEvent.envelope ≠ [] := by
          simpa using hpending
        have hlast := (hd.fold_last hentity hmap).1
        rw [List.getLast_map] at hlast
        cases hlast.mpr (group_ends hlogs hstream hmem hends hread hpending)
      · rw [hd.table_store, Table.get_put_of_ne _ _ (hid ▸ hk)]
        exact hnone
  · intro before seq hnone
    rw [hd.table_storePosition]
    exact hnone

end Dependent

/-! ### Runs -/

namespace Resurrection

open Coverage (step)

variable {tz : Timestamptz} {db : Db} {kind : Aggregate} {Row : Type} {d : Dependent kind Row}

theorem table_append (db : Db) (other : Aggregate) (event : SeqEvent other.Event) :
    (Coverage.append db other event).accounts = db.accounts ∧
      (Coverage.append db other event).profiles = db.profiles ∧
      (Coverage.append db other event).metadatas = db.metadatas := by
  cases other with
  | account => exact ⟨rfl, rfl, rfl⟩
  | profile => exact ⟨rfl, rfl, rfl⟩
  | metadata => exact ⟨rfl, rfl, rfl⟩

/-- What the two read models have in common in a run. -/
structure ReadModel (d : Dependent kind Row) : Prop where
  lawful : d.Lawful
  append : ∀ db other event, d.table (Coverage.append db other event) = d.table db
  streams : ∀ {db : Db}, Appends.Logs db → ∀ id, d.Stream (db.stream kind id)

theorem readModel_profiles : ReadModel profiles :=
  ⟨profiles_lawful, fun db other event => (table_append db other event).2.1,
    fun h id => h.streams .profile id⟩

theorem readModel_metadatas : ReadModel metadatas :=
  ⟨metadatas_lawful, fun db other event => (table_append db other event).2.2,
    fun h id => h.streams .metadata id⟩

theorem ReadModel.good_step (hd : ReadModel d) (hlogs : Appends.Logs db) {action : Coverage.Action}
    (hallowed : Appends.Allowed db action) (h : d.Good db) : d.Good (step tz db action) := by
  cases action with
  | commit other event => exact h.of_table (hd.append db other event) (table_append db other event).1
  | failedPoll other => exact h
  | write tables => exact hallowed.elim
  | poll other env =>
      by_cases hkind : other = kind
      · subst hkind
        exact hd.lawful.good_projectBatch hlogs (hd.streams hlogs) h
      · by_cases haccount : other = .account
        · subst haccount
          exact (hd.lawful.good_projectAccounts h).1
        · have honly := Dependent.only_projectBatch tz env haccount db
          exact h.of_table (hd.lawful.table_only hkind honly) honly.accounts

theorem ReadModel.gone_step (hd : ReadModel d) (hlogs : Appends.Logs db) {action : Coverage.Action}
    (hallowed : Appends.Allowed db action) (hgood : d.Good db) {k : Int} (h : d.Gone db k) :
    d.Gone (step tz db action) k := by
  obtain ⟨⟨ending, hmem, hends, hread⟩, habsent⟩ := h
  refine ⟨⟨ending, ?_, hends, ?_⟩, ?_⟩
  · obtain ⟨hevent, hid⟩ := Projector.mem_groupOf.mp hmem
    exact Projector.mem_groupOf.mpr ⟨Coverage.mem_events_step hevent action, hid⟩
  · exact hread.trans (Coverage.position_step hlogs.sound action kind)
  · cases action with
    | commit other event =>
        rw [step, hd.append]
        exact habsent
    | failedPoll other => exact habsent
    | write tables => exact hallowed.elim
    | poll other env =>
        by_cases hkind : other = kind
        · subst hkind
          exact hd.lawful.gone_projectBatch hlogs (hd.streams hlogs k)
            ⟨⟨ending, hmem, hends, hread⟩, habsent⟩
        · by_cases haccount : other = .account
          · subst haccount
            rw [Table.get_eq_none_iff] at habsent ⊢
            exact fun row hrow => habsent row ((hd.lawful.good_projectAccounts hgood).2 row hrow)
          · have honly := Dependent.only_projectBatch tz env haccount db
            rw [step, hd.lawful.table_only hkind honly]
            exact habsent

/-- What holds in every state of a run. -/
structure Inv (db : Db) : Prop where
  logs : Appends.Logs db
  profiles : profiles.Good db
  metadatas : metadatas.Good db

theorem inv_fresh (h : Appends.Fresh db) : Inv db := by
  have hgood : ∀ {kind : Aggregate} {Row : Type} (d : Dependent kind Row), (d.table db).rows = [] →
      d.Good db := by
    intro kind Row d hrows
    refine ⟨fun row hrow => ?_, fun row hrow => ?_⟩
    · rw [hrows] at hrow
      cases hrow
    · rw [hrows] at hrow
      cases hrow
  exact ⟨h.logs, hgood profiles h.profiles, hgood metadatas h.metadatas⟩

theorem Inv.step (h : Inv db) {action : Coverage.Action} (hallowed : Appends.Allowed db action) :
    Inv (step tz db action) :=
  ⟨h.logs.step hallowed, readModel_profiles.good_step h.logs hallowed h.profiles,
    readModel_metadatas.good_step h.logs hallowed h.metadatas⟩

/-- In every state of every run no profile or field belongs to an account that is marked deleted; and
when a poll has read the `Deleted` event of a field and left no row of it, there is none in any later
state. -/
theorem no_resurrection (tz : Timestamptz) (start : Db) (hfresh : Appends.Fresh start)
    (actions : List Coverage.Action)
    (hallowed : Runs.Along (step tz) Appends.Allowed start actions) :
    let db := Runs.run (step tz) start actions
    (∀ account ∈ db.accounts.rows, account.deletedAt.isSome →
      (∀ profile ∈ db.profiles.rows, profile.accountId ≠ account.id) ∧
        ∀ metadata ∈ db.metadatas.rows, metadata.accountId ≠ account.id) ∧
      ∀ env event, event ∈ db.batch .metadata → event.envelope.event = .Deleted →
        (step tz db (.poll .metadata env)).metadatas.get event.id = none →
          ∀ more, Runs.Along (step tz) Appends.Allowed (step tz db (.poll .metadata env)) more →
            (Runs.run (step tz) (step tz db (.poll .metadata env)) more).metadatas.get event.id =
              none := by
  intro db
  have hinv : Inv db := hallowed.invariant (fun _ _ h hstep => h.step hstep) (inv_fresh hfresh)
  refine ⟨fun account haccount hdeleted => ⟨?_, ?_⟩, ?_⟩
  · intro profile hprofile hid
    have hget := Table.get_eq_some_iff.mpr ⟨haccount, hid.symm⟩
    rw [hinv.profiles.2 profile hprofile account hget] at hdeleted
    cases hdeleted
  · intro metadata hmetadata hid
    have hget := Table.get_eq_some_iff.mpr ⟨haccount, hid.symm⟩
    rw [hinv.metadatas.2 metadata hmetadata account hget] at hdeleted
    cases hdeleted
  · intro env event hread hends habsent more hmore
    have hafter : Inv (step tz db (.poll .metadata env)) := hinv.step trivial
    have hgone : metadatas.Gone (step tz db (.poll .metadata env)) event.id := by
      refine ⟨⟨event, Projector.mem_groupOf.mpr ⟨?_, rfl⟩, ?_, ?_⟩, habsent⟩
      · exact Coverage.mem_events_step (Tailing.mem_of_mem_window SeqEvent.seq hread).1 _
      · rw [hends]
        rfl
      · exact Appends.le_position_poll hinv.logs tz env hread
    have hlater : Inv (Runs.run (step tz) (step tz db (.poll .metadata env)) more) ∧
        metadatas.Gone (Runs.run (step tz) (step tz db (.poll .metadata env)) more) event.id := by
      refine @Runs.Along.invariant _ _ _ _ (fun db => Inv db ∧ metadatas.Gone db event.id) ?_ _
        ⟨hafter, hgone⟩ _ hmore
      rintro before action ⟨hbefore, hgone⟩ hstep
      exact ⟨hbefore.step hstep,
        readModel_metadatas.gone_step hbefore.logs hstep hbefore.metadatas hgone⟩
    exact hlater.2.2

/-- A field is created and deleted; its events are all still in the window. -/
def deletedField : List Coverage.Action :=
  [.commit .account ⟨1, ⟨7, .Created "alice" false "alice-nanoid" 3, 20⟩⟩,
    .poll .account (Coverage.plainEnv 10),
    .commit .metadata ⟨1, ⟨40, .Created 7 "site" "example" "field-nanoid", 21⟩⟩,
    .poll .metadata (Coverage.plainEnv 11),
    .commit .metadata ⟨2, ⟨40, .Deleted, 22⟩⟩]

/-- The database the run starts from, and the one after it. -/
def registry : Db := { Db.empty with authAccounts := [3] }

def deletedFieldDb : Db := Runs.run (step .microseconds) registry deletedField

theorem allowed_deletedField :
    Runs.Along (step .microseconds) Appends.Allowed registry deletedField := by
  have hcreated : Appends.Next .metadata [] ⟨1, ⟨40, .Created 7 "site" "example" "field-nanoid", 21⟩⟩ :=
    ⟨by decide, by decide, by decide, ⟨⟨_, rfl⟩, by decide⟩⟩
  have hdeleted : Appends.Next .metadata
      [⟨1, ⟨40, .Created 7 "site" "example" "field-nanoid", 21⟩⟩] ⟨2, ⟨40, .Deleted, 22⟩⟩ :=
    ⟨by decide, by decide, by decide, ⟨⟨_, rfl⟩, by decide⟩⟩
  have hempty : (Runs.run (step .microseconds) registry (deletedField.take 2)).metadataEvents = [] := by
    decide +kernel
  have hlog : (Runs.run (step .microseconds) registry (deletedField.take 4)).metadataEvents =
      [⟨1, ⟨40, .Created 7 "site" "example" "field-nanoid", 21⟩⟩] := by decide +kernel
  rw [← hempty] at hcreated
  rw [← hlog] at hdeleted
  exact ⟨⟨by decide, by decide, by decide, ⟨_, rfl⟩⟩, trivial, hcreated, trivial, hdeleted, trivial⟩

theorem no_resurrection_deletedField :
    let after := step .microseconds deletedFieldDb (.poll .metadata (Coverage.plainEnv 12))
    deletedFieldDb.metadatas.contains 40 = true ∧ after.metadatas.get 40 = none ∧
      (Runs.run (step .microseconds) after [.poll .metadata (Coverage.plainEnv 13)]).metadatas.get 40 =
        none := by
  have hfresh : Appends.Fresh registry :=
    ⟨fun kind => by cases kind <;> rfl, fun _ => rfl, rfl, rfl, rfl⟩
  have hremoved : (step .microseconds deletedFieldDb
      (.poll .metadata (Coverage.plainEnv 12))).metadatas.get 40 = none := by decide +kernel
  have hread : (⟨2, ⟨40, .Deleted, 22⟩⟩ : SeqEvent MetadataEvent) ∈ deletedFieldDb.batch .metadata := by
    decide +kernel
  refine ⟨by decide +kernel, hremoved, ?_⟩
  exact (no_resurrection .microseconds registry hfresh deletedField allowed_deletedField).2
    (Coverage.plainEnv 12) ⟨2, ⟨40, .Deleted, 22⟩⟩ hread rfl hremoved _ ⟨trivial, trivial⟩

end Resurrection

end Emumet
