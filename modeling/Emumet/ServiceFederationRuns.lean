import Emumet.ServiceFederationDeliveries

/-! Runs of the instances. Every request keeps the two sides of each relation in agreement, by the
deliveries it waits for. -/

namespace Emumet

namespace Federation

open Relations Session Exchange Links

namespace Network

variable {ι : Type} {net : Network ι} {round : Round ι} {level : Nat} {s s' : ι → Db} {i j : ι}
  {a b : Holder} {account : Account} {actor : ResolvedRemoteActor} {name : String} {after : Db}
  {change : View → View}

/-- The databases keep their constraints, their accounts are those of the network, and the two sides of
each relation agree. -/
structure Coherent (net : Network ι) (s : ι → Db) : Prop where
  sound : ∀ k, Sound net.Listed (s k)
  held : net.Held s
  mirrored : net.Mirrored fun k => view (s k)

/-- The store has no row under the ids that are handed out next. -/
structure Fresh (outside : Outside) (db : Db) : Prop where
  follow : db.follows.get outside.relationId = none
  block : db.blocks.get outside.relationId = none
  remote : db.remoteAccounts.get outside.remoteAccountId = none

instance (outside : Outside) (db : Db) : Decidable (Fresh outside db) :=
  decidable_of_iff (db.follows.get outside.relationId = none ∧ db.blocks.get outside.relationId = none ∧
      db.remoteAccounts.get outside.remoteAccountId = none)
    ⟨fun ⟨hfollow, hblock, hremote⟩ => ⟨hfollow, hblock, hremote⟩,
      fun h => ⟨h.follow, h.block, h.remote⟩⟩

/-- What a request and its deliveries meet: accounts have keys, other servers pass no actor off as an
account of an instance, clocks do not go back, and new ids are new. -/
structure Ready (net : Network ι) (round : Round ι) (s : ι → Db) : Prop where
  keyed : Keyed round s
  honest : net.Honest round
  clocks : ∀ i, round.clock 2 i ≤ round.clock 1 i ∧ round.clock 1 i ≤ round.clock 0 i
  fresh : ∀ level ∈ [1, 2], ∀ k, Fresh (round.outside level) (s k)
  distinct : (round.outside 1).relationId ≠ (round.outside 2).relationId ∧
    (round.outside 1).remoteAccountId ≠ (round.outside 2).remoteAccountId

theorem Coherent.of_reaches {change : (ι → View) → ι → View} (h : net.Coherent s)
    (hreaches : net.Reaches change s s') (hmirrored : net.Mirrored (change fun k => view (s k))) :
    net.Coherent s' :=
  ⟨hreaches.sound, hreaches.held h.held, hreaches.view ▸ hmirrored⟩

theorem Coherent.fits (h : net.Coherent s) (hnet : net.Addressed) (hhonest : net.Honest round)
    (level : Nat) (i : ι) (name : String) (actor : ResolvedRemoteActor)
    (hactor : resolveRemoteActorIdentifier (net.server i) (net.outside round level s i) name = .ok actor) :
    Fits net.Listed actor := by
  rcases resolved_identifier hnet h.held hhonest hactor with ⟨k, holder, hmember⟩ | hstranger
  · exact hmember.fits hnet
  · exact hstranger.fits

/-- The account a request is made for. -/
structure Sender (net : Network ι) (round : Round ι) (s : ι → Db) (i : ι) (a : Holder) (account : Account) :
    Prop where
  held : a ∈ net.holders i
  id : a.id = account.id
  nanoid : a.nanoid = account.nanoid
  found : AccountReadModel.findByNanoid (s i) (round.clock 2 i) a.nanoid = some account

theorem Held.sender {accountNanoid : String} (hheld : net.Held s)
    (h : findAccount (s i) (round.clock 2 i) accountNanoid = .ok account) :
    ∃ a, net.Sender round s i a account := by
  unfold findAccount at h
  split at h
  · next found hfound =>
      cases h
      exact ⟨_, hheld.found hfound, rfl, (found_nanoid hfound).symm, hfound⟩
  · cases h

/-- A follow that one of two accounts does not have is not there for the other. -/
theorem Mirrored.no_follower {views : ι → View} (h : net.Mirrored views) (ha : a ∈ net.holders i)
    (hb : b ∈ net.holders j)
    (hnone : (views i).follows (.here a.id, .there (net.actorUrl j b.nanoid)) = none) :
    (views j).follows (.there (net.actorUrl i a.nanoid), .here b.id) = none := by
  have hsame := h.follows i a ha j b hb
  rw [hnone, Option.map_none, eq_comm, Option.map_eq_none_iff] at hsame
  exact hsame

theorem Mirrored.no_blocker {views : ι → View} (h : net.Mirrored views) (ha : a ∈ net.holders i)
    (hb : b ∈ net.holders j)
    (hnone : (views i).blocks (.here a.id, .there (net.actorUrl j b.nanoid)) = none) :
    (views j).blocks (.there (net.actorUrl i a.nanoid), .here b.id) = none := by
  have hsame := h.blocks i a ha j b hb
  rw [hnone, Option.isSome_none, eq_comm, Option.isSome_eq_false_iff, Option.isNone_iff_eq_none] at hsame
  exact hsame

theorem Coherent.resolved_foreign {url : String} (h : net.Coherent s) (hnet : net.Addressed)
    (hhonest : net.Honest round) (hurl : net.Foreign url)
    (hactor : resolveRemoteActor (net.server i) (net.outside round level s i) url = .ok actor) :
    net.Stranger actor := by
  rcases resolved hnet h.held hhonest hactor with ⟨k, holder, hmember, rfl⟩ | ⟨hstranger, _⟩
  · exact absurd (hnet.trimmed k holder hmember.held) (hurl k holder hmember.held)
  · exact hstranger

section Requests

variable [DecidableEq ι] {α : Type} {call : Session Db Report (Waiting α)}
  {pending : Waiting α}

/-- A call that changes no relation before it fails. -/
theorem Coherent.of_call {Q : Waiting α → Db → Prop} (h : net.Coherent s)
    (hcall : Triple (· = s i) call Q (Becomes net.Listed id (s i)))
    (hok : ∀ pending after, call (s i) = (.ok pending, after) → Q pending after →
      net.Coherent (exchange i call (net.deliver round 2) s).2) :
    net.Coherent (exchange i call (net.deliver round 2) s).2 := by
  have hdone := hcall (s i) rfl
  rcases hrun : call (s i) with ⟨e | pending, after⟩
  · rw [hrun] at hdone
    rw [exchange_of_error hrun]
    exact h.of_reaches (.quiet h.sound hdone) h.mirrored
  · rw [hrun] at hdone
    exact hok pending after hrun hdone

/-- A call whose message is ignored by the instances. -/
theorem exchange_stranger {inboxUrl : Option String} {activity : Activity}
    (hheld : net.Held (Function.update s i after)) (hrun : call (s i) = (.ok pending, after))
    (hmessage : pending.message = inboxUrl.map (·, activity)) (hignored : net.Ignored activity) :
    ∃ answer, exchange i call (net.deliver round 2) s =
      onStore i (pending.resume answer) (Function.update s i after) := by
  refine exchange_of_ignored hrun fun message hsent => ?_
  rw [hmessage, Option.mem_map] at hsent
  obtain ⟨inboxUrl, _, rfl⟩ := hsent
  exact deliver_ignored hheld hignored inboxUrl

/-- A call that sends nothing and changes outer pairs only. -/
theorem Coherent.done (h : net.Coherent s) (hrun : call (s i) = (.ok pending, after))
    (hdone : Done net.Listed change (s i) pending after)
    (hapart : net.Apart (fun k => view (s k)) (changeAt i change fun k => view (s k))) :
    net.Coherent (exchange i call (net.deliver round 2) s).2 := by
  have hchanged := Reaches.single h.sound hdone.becomes
  rw [exchange_of_quiet hrun hdone.message, onStore]
  exact h.of_reaches (hchanged.trans (.quiet hchanged.sound (hdone.resume _ (hchanged.sound i))))
    (h.mirrored.apart hapart)

/-! ### Following -/

/-- The follow that is under way, as its sender has it. -/
theorem stored_of_sent {p q : Party} {value : Option (FollowId × Bool)}
    (h : net.Reaches (changeAt i (View.setFollow p q value)) s s') :
    (view (s' i)).follows (p, q) = value := by
  have hview := congrFun h.view i
  rw [hview, follows_changeAt_setFollow, if_pos ⟨rfl, rfl⟩]

theorem Coherent.follow_stranger {call : Session Db Report (Waiting SendFollowResultDto)}
    {pending : Waiting SendFollowResultDto} (h : net.Coherent s) (hnet : net.Addressed)
    (hstranger : net.Stranger actor)
    (hsent : FollowSent net.Listed (net.server i) (net.outside round 2 s i) account actor (s i) pending after)
    (hrun : call (s i) = (.ok pending, after)) :
    net.Coherent (exchange i call (net.deliver round 2) s).2 := by
  have hstored := Reaches.single h.sound hsent.becomes
  obtain ⟨answer, hexchange⟩ := exchange_stranger (hstored.held h.held) hrun hsent.message
    (ignored_follow _ _ _ hstranger.url)
  rw [hexchange, onStore]
  by_cases hanswer : answer = some (.ok ())
  · have hdone := Reaches.quiet hstored.sound (hanswer ▸ hsent.accepted _ (hstored.sound i))
    exact h.of_reaches (hstored.trans hdone)
      (h.mirrored.apart (apart_setFollow (hnet.outer_there hstranger.url account.id)))
  · have hdone := Reaches.single hstored.sound
      (hsent.refused answer hanswer _ false (hstored.sound i) (stored_of_sent hstored))
    exact h.of_reaches (hstored.trans hdone) (h.mirrored.withdrawn hsent.new)

theorem Coherent.follow_member {call : Session Db Report (Waiting SendFollowResultDto)}
    {pending : Waiting SendFollowResultDto} (h : net.Coherent s) (hnet : net.Addressed)
    (hready : net.Ready round s) (hsender : net.Sender round s i a account)
    (hmember : net.Member round 2 s j b actor)
    (hsent : FollowSent net.Listed (net.server i) (net.outside round 2 s i) account actor (s i) pending after)
    (hrun : call (s i) = (.ok pending, after)) :
    net.Coherent (exchange i call (net.deliver round 2) s).2 := by
  have hnew := hsent.new
  have hstored := Reaches.single h.sound hsent.becomes
  obtain ⟨x, hx⟩ := hsent.stored
  have hmessage := hsent.message
  rw [hmember.inbox, hmember.url, ← hsender.nanoid] at hmessage
  rw [hmember.url, ← hsender.id] at hnew hstored
  -- the other instance has no such follow either, also when it is this one
  have hnone : (view (Function.update s i after j)).follows
      (.there (net.actorUrl i a.nanoid), .here b.id) = none := by
    rw [congrFun hstored.view j]
    simp only [follows_changeAt_setFollow, in_ne_out, and_false, if_false]
    exact h.mirrored.no_follower hsender.held hmember.held hnew
  have hfresh : (Function.update s i after j).follows.get (round.outside 1).relationId = none := by
    by_cases hj : j = i
    · subst hj
      rw [Function.update_self]
      exact hsent.fresh _ hready.distinct.1 (hready.fresh 1 (by decide) j).follow
    · rw [Function.update_of_ne hj]
      exact (hready.fresh 1 (by decide) j).follow
  have hknown : target (Function.update s i after i) (.there (net.actorUrl j b.nanoid)) = some x := by
    rw [Function.update_self, ← hmember.url]
    exact hx
  obtain ⟨_, hlater, _⟩ := hnet.found_later h.held (hstored.accounts i)
    ((hready.clocks i).1.trans (hready.clocks i).2) hsender.found
  rcases hnet.deliver_follow (hstored.held h.held) hready.honest hstored.sound hsender.held hmember.held
    (net.server i).publicBaseUrl (net.outside round 2 s i).relationId hlater hknown hfresh hnone with
    ⟨e, s', hdelivered, hreaches⟩ | ⟨s', hdelivered, hreaches⟩
  · have hview : (view (s' i)).follows (.here account.id, .there actor.url) =
        some ((net.outside round 2 s i).relationId, false) := by
      rw [congrFun hreaches.view i, ← hsender.id, hmember.url]
      exact stored_of_sent hstored
    have hdone := Reaches.single hreaches.sound
      (hsent.refused (some (.error e)) (by simp) _ false (hreaches.sound i) hview)
    rw [hmember.url, ← hsender.id] at hdone
    rw [exchange_of_message hrun hmessage hdelivered, onStore]
    exact h.of_reaches ((hstored.trans hreaches).trans hdone) (h.mirrored.withdrawn hnew)
  · have hdone := Reaches.quiet hreaches.sound (hsent.accepted _ (hreaches.sound i))
    rw [exchange_of_message hrun hmessage hdelivered, onStore]
    exact h.of_reaches ((hstored.trans hreaches).trans hdone)
      (.follow hnet h.mirrored hsender.held hmember.held)

theorem Coherent.follow (h : net.Coherent s) (hnet : net.Addressed) (hready : net.Ready round s) (i : ι)
    (accountNanoid name : String) : net.Coherent (net.step s (round, .follow i accountNanoid name)) := by
  refine h.of_call (sendFollowCall_spec accountNanoid (h.sound i) (h.fits hnet hready.honest 2 i name)) ?_
  rintro pending after hrun ⟨account, actor, haccount, hactor, hsent⟩
  rcases resolved_identifier hnet h.held hready.honest hactor with ⟨j, b, hmember⟩ | hstranger
  · obtain ⟨a, hsender⟩ := h.held.sender haccount
    exact h.follow_member hnet hready hsender hmember hsent hrun
  · exact h.follow_stranger hnet hstranger hsent hrun

/-! ### Unfollowing -/

theorem Coherent.unfollow_stranger {call : Session Db Report (Waiting Unit)}
    {pending : Waiting Unit} {followId : FollowId} (h : net.Coherent s)
    (hnet : net.Addressed) (hstranger : net.Stranger actor)
    (hsent : UndoFollowSent net.Listed (net.server i) (net.outside round 2 s i) account actor followId (s i)
      pending after)
    (hrun : call (s i) = (.ok pending, after)) :
    net.Coherent (exchange i call (net.deliver round 2) s).2 := by
  have hkept := Reaches.quiet h.sound hsent.becomes
  obtain ⟨answer, hexchange⟩ := exchange_stranger (hkept.held h.held) hrun hsent.message
    (ignored_undoFollow _ _ _ _ hstranger.url)
  rw [hexchange, onStore]
  by_cases hanswer : answer = some (.ok ())
  · have hstored : (view (Function.update s i after i)).follows (.here account.id, .there actor.url) =
        some (followId, true) := by
      rw [Function.update_self]
      exact hsent.stored
    have hdone := Reaches.single hkept.sound (hanswer ▸ hsent.accepted _ true (hkept.sound i) hstored)
    exact h.of_reaches (hkept.trans hdone)
      (h.mirrored.apart (apart_setFollow (hnet.outer_there hstranger.url account.id)))
  · have hdone := Reaches.quiet hkept.sound (hsent.refused answer hanswer _ (hkept.sound i))
    exact h.of_reaches (hkept.trans hdone) h.mirrored

theorem Coherent.unfollow_member {call : Session Db Report (Waiting Unit)}
    {pending : Waiting Unit} {followId : FollowId} (h : net.Coherent s)
    (hnet : net.Addressed) (hsender : net.Sender round s i a account)
    (hmember : net.Member round 2 s j b actor)
    (hsent : UndoFollowSent net.Listed (net.server i) (net.outside round 2 s i) account actor followId (s i)
      pending after)
    (hrun : call (s i) = (.ok pending, after)) :
    net.Coherent (exchange i call (net.deliver round 2) s).2 := by
  have hkept := Reaches.quiet h.sound hsent.becomes
  have hmessage := hsent.message
  rw [hmember.inbox, hmember.url, ← hsender.nanoid] at hmessage
  rcases hnet.deliver_undoFollow round 1 (hkept.held h.held) hkept.sound hmember.held
    (net.server i).publicBaseUrl (net.actorUrl i a.nanoid) (net.outside round 2 s i).activityId followId with
    ⟨e, hdelivered⟩ | ⟨s', hdelivered, hreaches⟩
  · have hdone := Reaches.quiet hkept.sound
      (hsent.refused (some (.error e)) (by simp) _ (hkept.sound i))
    rw [exchange_of_message hrun hmessage hdelivered, onStore]
    exact h.of_reaches (hkept.trans hdone) h.mirrored
  · have hstored : (view (s' i)).follows (.here account.id, .there actor.url) = some (followId, true) := by
      rw [congrFun hreaches.view i]
      simp only [follows_changeAt_setFollow, out_ne_in, and_false, if_false, Function.update_self]
      exact hsent.stored
    have hdone := Reaches.single hreaches.sound (hsent.accepted _ true (hreaches.sound i) hstored)
    rw [hmember.url, ← hsender.id] at hdone
    rw [exchange_of_message hrun hmessage hdelivered, onStore]
    exact h.of_reaches ((hkept.trans hreaches).trans hdone)
      (.unfollow hnet h.mirrored hsender.held hmember.held)

theorem Coherent.unfollow (h : net.Coherent s) (hnet : net.Addressed) (hready : net.Ready round s) (i : ι)
    (accountNanoid name : String) : net.Coherent (net.step s (round, .unfollow i accountNanoid name)) := by
  refine h.of_call (sendUndoFollowCall_spec accountNanoid (h.sound i) (h.fits hnet hready.honest 2 i name)) ?_
  rintro pending after hrun ⟨account, haccount, ⟨other, hdone⟩ | ⟨actor, followId, hactor, hsent⟩⟩
  · exact h.done hrun hdone (apart_setFollow (outer_here account.id other))
  rcases resolved_identifier hnet h.held hready.honest hactor with ⟨j, b, hmember⟩ | hstranger
  · obtain ⟨a, hsender⟩ := h.held.sender haccount
    exact h.unfollow_member hnet hsender hmember hsent hrun
  · exact h.unfollow_stranger hnet hstranger hsent hrun

/-! ### Blocking -/

theorem Coherent.block_stranger {call : Session Db Report (Waiting RelationDto)}
    {pending : Waiting RelationDto} (h : net.Coherent s) (hnet : net.Addressed)
    (hstranger : net.Stranger actor)
    (hsent : BlockSent net.Listed (net.server i) (net.outside round 2 s i) account actor (s i) pending after)
    (hrun : call (s i) = (.ok pending, after)) :
    net.Coherent (exchange i call (net.deliver round 2) s).2 := by
  have hstored := Reaches.single h.sound hsent.becomes
  obtain ⟨answer, hexchange⟩ := exchange_stranger (hstored.held h.held) hrun hsent.message
    (ignored_block _ _ _ hstranger.url)
  rw [hexchange, onStore]
  have hdone := Reaches.quiet hstored.sound (hsent.resume answer _ (hstored.sound i))
  exact h.of_reaches (hstored.trans hdone)
    (h.mirrored.apart (apart_block (hnet.outer_there hstranger.url account.id)))

theorem Coherent.block_member {call : Session Db Report (Waiting RelationDto)}
    {pending : Waiting RelationDto} (h : net.Coherent s) (hnet : net.Addressed)
    (hready : net.Ready round s) (hsender : net.Sender round s i a account)
    (hmember : net.Member round 2 s j b actor)
    (hsent : BlockSent net.Listed (net.server i) (net.outside round 2 s i) account actor (s i) pending after)
    (hrun : call (s i) = (.ok pending, after)) :
    net.Coherent (exchange i call (net.deliver round 2) s).2 := by
  have hnew := hsent.new
  have hstored := Reaches.single h.sound hsent.becomes
  have hmessage := hsent.message
  rw [hmember.inbox, hmember.url, ← hsender.nanoid] at hmessage
  rw [hmember.url, ← hsender.id] at hnew hstored
  have hnone : (view (Function.update s i after j)).blocks
      (.there (net.actorUrl i a.nanoid), .here b.id) = none := by
    rw [congrFun hstored.view j]
    simp only [blocks_changeAt_block, in_ne_out, and_false, if_false]
    exact h.mirrored.no_blocker hsender.held hmember.held hnew
  have hfresh : (Function.update s i after j).blocks.get (round.outside 1).relationId = none ∧
      (Function.update s i after j).remoteAccounts.get (round.outside 1).remoteAccountId = none := by
    by_cases hj : j = i
    · subst hj
      rw [Function.update_self]
      exact ⟨hsent.freshBlock _ hready.distinct.1 (hready.fresh 1 (by decide) j).block,
        hsent.freshRemote _ hready.distinct.2 (hready.fresh 1 (by decide) j).remote⟩
    · rw [Function.update_of_ne hj]
      exact ⟨(hready.fresh 1 (by decide) j).block, (hready.fresh 1 (by decide) j).remote⟩
  obtain ⟨account', hfound'⟩ := hmember.found
  obtain ⟨_, hlater, _⟩ := hnet.found_later h.held (hstored.accounts i) (hready.clocks i).1 hsender.found
  obtain ⟨_, hlater', _⟩ := hnet.found_later h.held (hstored.accounts j) (hready.clocks j).1 hfound'
  obtain ⟨s', hdelivered, hreaches⟩ := hnet.deliver_block (hstored.held h.held) hready.honest
    (hstored.keyed hready.keyed) hstored.sound hsender.held hmember.held (net.server i).publicBaseUrl
    (net.outside round 2 s i).relationId hlater hlater' hfresh.2 hfresh.1 hnone
  have hdone := Reaches.quiet hreaches.sound (hsent.resume (some (.ok ())) _ (hreaches.sound i))
  rw [exchange_of_message hrun hmessage hdelivered, onStore]
  exact h.of_reaches ((hstored.trans hreaches).trans hdone) (.block hnet h.mirrored hsender.held hmember.held)

theorem Coherent.block (h : net.Coherent s) (hnet : net.Addressed) (hready : net.Ready round s) (i : ι)
    (accountNanoid name : String) : net.Coherent (net.step s (round, .block i accountNanoid name)) := by
  refine h.of_call (blockAccountCall_spec accountNanoid (h.sound i) (h.fits hnet hready.honest 2 i name)) ?_
  rintro pending after hrun ⟨account, haccount, ⟨other, hdone⟩ | ⟨actor, hactor, hsent⟩⟩
  · exact h.done hrun hdone (apart_block (outer_here account.id other))
  rcases resolved_identifier hnet h.held hready.honest hactor with ⟨j, b, hmember⟩ | hstranger
  · obtain ⟨a, hsender⟩ := h.held.sender haccount
    exact h.block_member hnet hready hsender hmember hsent hrun
  · exact h.block_stranger hnet hstranger hsent hrun

/-! ### Unblocking -/

theorem Coherent.unblock_stranger {call : Session Db Report (Waiting Unit)}
    {pending : Waiting Unit} {blockId : BlockId} (h : net.Coherent s)
    (hnet : net.Addressed) (hstranger : net.Stranger actor)
    (hsent : UnblockSent net.Listed (net.server i) (net.outside round 2 s i) account actor blockId (s i)
      pending after)
    (hrun : call (s i) = (.ok pending, after)) :
    net.Coherent (exchange i call (net.deliver round 2) s).2 := by
  have hgone := Reaches.single h.sound hsent.becomes
  obtain ⟨answer, hexchange⟩ := exchange_stranger (hgone.held h.held) hrun hsent.message
    (ignored_undoBlock _ _ _ _ hstranger.url)
  rw [hexchange, onStore]
  have hdone := Reaches.quiet hgone.sound (hsent.resume answer _ (hgone.sound i))
  exact h.of_reaches (hgone.trans hdone)
    (h.mirrored.apart (apart_setBlock (hnet.outer_there hstranger.url account.id)))

theorem Coherent.unblock_member {call : Session Db Report (Waiting Unit)}
    {pending : Waiting Unit} {blockId : BlockId} (h : net.Coherent s)
    (hnet : net.Addressed) (hready : net.Ready round s) (hsender : net.Sender round s i a account)
    (hmember : net.Member round 2 s j b actor)
    (hsent : UnblockSent net.Listed (net.server i) (net.outside round 2 s i) account actor blockId (s i)
      pending after)
    (hrun : call (s i) = (.ok pending, after)) :
    net.Coherent (exchange i call (net.deliver round 2) s).2 := by
  have hgone := Reaches.single h.sound hsent.becomes
  have hmessage := hsent.message
  rw [hmember.inbox, hmember.url, ← hsender.nanoid] at hmessage
  rw [hmember.url, ← hsender.id] at hgone
  obtain ⟨account', hfound'⟩ := hmember.found
  obtain ⟨_, hlater, _⟩ := hnet.found_later h.held (hgone.accounts j) (hready.clocks j).1 hfound'
  obtain ⟨s', hdelivered, hreaches⟩ := hnet.deliver_undoBlock hgone.sound hmember.held
    (net.server i).publicBaseUrl (net.actorUrl i a.nanoid) (net.outside round 2 s i).activityId blockId
    (hnet.findAccountIdByNanoid_eq (hgone.held h.held) hmember.held hlater)
  have hdone := Reaches.quiet hreaches.sound (hsent.resume (some (.ok ())) _ (hreaches.sound i))
  rw [exchange_of_message hrun hmessage hdelivered, onStore]
  exact h.of_reaches ((hgone.trans hreaches).trans hdone) (.unblock hnet h.mirrored hsender.held hmember.held)

theorem Coherent.unblock (h : net.Coherent s) (hnet : net.Addressed) (hready : net.Ready round s) (i : ι)
    (accountNanoid name : String) : net.Coherent (net.step s (round, .unblock i accountNanoid name)) := by
  refine h.of_call (unblockAccountCall_spec accountNanoid (h.sound i) (h.fits hnet hready.honest 2 i name)) ?_
  rintro pending after hrun ⟨account, haccount, ⟨other, hdone⟩ | ⟨actor, blockId, hactor, hsent⟩⟩
  · exact h.done hrun hdone (apart_setBlock (outer_here account.id other))
  rcases resolved_identifier hnet h.held hready.honest hactor with ⟨j, b, hmember⟩ | hstranger
  · obtain ⟨a, hsender⟩ := h.held.sender haccount
    exact h.unblock_member hnet hready hsender hmember hsent hrun
  · exact h.unblock_stranger hnet hstranger hsent hrun

/-! ### Activities of other servers -/

/-- A change at one instance that leaves alone what relates accounts of the instances. -/
def Outlying (net : Network ι) (i : ι) (db after : Db) : Prop :=
  ∃ change, Becomes net.Listed change db after ∧ ∀ views, net.Apart views (changeAt i change views)

theorem Outlying.of_kept (h : Becomes net.Listed id (s i) after) : net.Outlying i (s i) after :=
  ⟨id, h, fun views => by rw [changeAt_id]; exact .refl views⟩

theorem Coherent.of_outlying (h : net.Coherent s) (hout : net.Outlying i (s i) after) :
    net.Coherent (Function.update s i after) := by
  obtain ⟨change, hbecomes, hapart⟩ := hout
  exact h.of_reaches (.single h.sound hbecomes) (h.mirrored.apart (hapart _))

/-- What an activity of another server does, unless it is a Follow. -/
theorem Coherent.handled_foreign {dto : InboxActivityDto} (h : net.Coherent s) (hnet : net.Addressed)
    (hhonest : net.Honest round) (hforeign : net.Foreign dto.activity.actor)
    (hfollow : dto.activity.type_ ≠ "Follow") :
    Triple (· = s i) (handleInboxActivity (net.server i) (net.outside round 2 s i) dto)
      (fun _ => net.Outlying i (s i)) (net.Outlying i (s i)) := by
  have hkept : ∀ after, after = s i → net.Outlying i (s i) after := by
    rintro after rfl
    exact .of_kept (.refl (h.sound i))
  have houter := (hnet.outer_there hforeign dto.accountId).swap
  rw [handleInboxActivity, if_neg hfollow]
  split_ifs
  · refine (handleAcceptActivity_spec (h.sound i)).mono ?_ fun after herror => hkept after herror.1
    rintro _ after (⟨_, hsame⟩ | ⟨url, haccepted, hbecomes⟩)
    · exact hkept after hsame
    · obtain ⟨_, _, _, _, hsame⟩ := acceptedActorUrl_ok haccepted
      have hurl : net.Foreign url := fun k holder hholder => by
        rw [← of_decide_eq_true hsame]
        exact hforeign k holder hholder
      exact ⟨_, hbecomes, fun views => apart_setFollow (hnet.outer_there hurl dto.accountId)⟩
  · refine (handleBlockActivity_spec (h.sound i) fun actor hactor =>
      (h.resolved_foreign hnet hhonest hforeign hactor).fits).mono ?_ fun after => .of_kept
    rintro _ after ⟨_, actor, hactor, hbecomes | hbecomes⟩
    · exact .of_kept hbecomes
    · have hstranger := h.resolved_foreign hnet hhonest hforeign hactor
      exact ⟨_, hbecomes, fun views => apart_block (hnet.outer_there hstranger.url dto.accountId).swap⟩
  · exact (handleUndoFollow_spec (h.sound i)).mono
      (fun _ after hbecomes => ⟨_, hbecomes, fun views => apart_setFollow houter⟩)
      fun after herror => hkept after herror.1
  · exact (handleUndoBlockActivity_spec (h.sound i)).mono
      (fun _ after hbecomes => ⟨_, hbecomes, fun views => apart_setBlock houter⟩)
      fun after herror => hkept after herror.1
  · exact .pure hkept

theorem Coherent.handled_foreign_follow {dto : InboxActivityDto} (h : net.Coherent s) (hnet : net.Addressed)
    (hready : net.Ready round s) (hforeign : net.Foreign dto.activity.actor) :
    net.Coherent (exchange i (handleFollowCall (net.server i) (net.outside round 2 s i) dto)
      (net.deliver round 2) s).2 := by
  refine h.of_call (handleFollowCall_spec (h.sound i) (fun actor hactor =>
    (h.resolved_foreign hnet hready.honest hforeign hactor).fits) (hready.fresh 2 (by decide) i).follow) ?_
  rintro pending after hrun ⟨_, actor, hactor, ⟨hdone, _⟩ | hreceived⟩
  · refine h.done hrun hdone ?_
    rw [changeAt_id]
    exact .refl _
  · have hstranger := h.resolved_foreign hnet hready.honest hforeign hactor
    have hstored := Reaches.single h.sound hreceived.becomes
    obtain ⟨answer, hexchange⟩ := exchange_stranger (hstored.held h.held) hrun hreceived.message
      (ignored_accept hnet _ _ _ hforeign)
    obtain ⟨last, hresume, honly⟩ := hreceived.resume answer (Function.update s i after i)
    rw [hexchange, onStore, hresume]
    exact h.of_reaches (hstored.trans (.quiet hstored.sound (becomes_outbox (hstored.sound i) honly)))
      (h.mirrored.apart (apart_setFollow (hnet.outer_there hstranger.url dto.accountId).swap))

theorem Coherent.inbox {activity : Activity} (h : net.Coherent s) (hnet : net.Addressed)
    (hready : net.Ready round s) (i : ι) (accountNanoid : String) (hforeign : net.Foreign activity.actor) :
    net.Coherent (net.step s (round, .inbox i accountNanoid activity)) := by
  change net.Coherent (net.receive round 2 (net.deliver round 2) i accountNanoid activity s).2
  rw [receive]
  cases hfound : findAccountIdByNanoid (s i) (round.clock 2 i) accountNanoid with
  | error status => exact h
  | ok accountId =>
      obtain ⟨dto, hdto⟩ : ∃ dto : InboxActivityDto, dto = ⟨accountId, accountNanoid, activity⟩ := ⟨_, rfl⟩
      have hactor : net.Foreign dto.activity.actor := by rw [hdto]; exact hforeign
      change net.Coherent (exchange i (handleInboxCall (net.server i) (net.outside round 2 s i)
        ⟨accountId, accountNanoid, activity⟩) (net.deliver round 2) s).2
      rw [← hdto]
      by_cases hfollow : dto.activity.type_ = "Follow"
      · rw [handleInboxCall_follow hfollow]
        exact h.handled_foreign_follow hnet hready hactor
      · rw [handleInboxCall, if_neg hfollow, exchange_silent, onStore]
        exact h.of_outlying ((h.handled_foreign hnet hready.honest hactor hfollow).run rfl)

/-! ### The projector -/

/-- The row of an account that is not deactivated, and the link to its owner. -/
theorem write_tables {tz : Timestamptz} {db : Db} {created : Option AuthAccountId}
    (hactive : account.deletedAt = none)
    (h : AccountProjector.write tz db account created account.id = .ok after) :
    after = { db with accounts := after.accounts, authEmumetAccounts := after.authEmumetAccounts } ∧
      ∀ row ∈ after.accounts.rows, row ∈ db.accounts.rows ∨ row = AccountRow.ofAccount tz account := by
  simp only [AccountProjector.write, hactive, Option.isSome_none, Bool.false_eq_true, if_false,
    Fallible.bind_eq_ok] at h
  obtain ⟨mid, hupsert, h⟩ := h
  have hmid : mid = { db with accounts := mid.accounts } ∧
      ∀ row ∈ mid.accounts.rows, row ∈ db.accounts.rows ∨ row = AccountRow.ofAccount tz account := by
    simp only [AccountProjectionWriter.upsert, uniqueViolation, reject] at hupsert
    split_ifs at hupsert
    · cases hupsert
      refine ⟨rfl, fun row hrow => ?_⟩
      rcases Table.mem_put.mp hrow with rfl | ⟨hold, _⟩
      · exact .inr rfl
      · exact .inl hold
    · cases hupsert
      exact ⟨rfl, fun row => .inl⟩
  have hlinked : after = { mid with authEmumetAccounts := after.authEmumetAccounts } := by
    cases created with
    | none =>
        cases h
        rfl
    | some authId =>
        simp only [AccountReadModel.linkAuthAccount, foreignKeyViolation, reject] at h
        split_ifs at h
        · cases h
          rfl
        · cases h
          rfl
  rw [hlinked]
  refine ⟨?_, hmid.2⟩
  rw [hmid.1]

/-- Only the accounts of one instance change. -/
theorem Coherent.update_accounts (h : net.Coherent s) (hsound : Sound net.Listed after)
    (hheld : ∀ row ∈ after.accounts.rows, holderOf row ∈ net.holders i) (hview : view after = view (s i)) :
    net.Coherent (Function.update s i after) := by
  refine ⟨(Function.forall_update_iff s fun k => Sound net.Listed).mpr ⟨hsound, fun k _ => h.sound k⟩,
    (Function.forall_update_iff s fun k db => ∀ row ∈ db.accounts.rows, holderOf row ∈ net.holders k).mpr
      ⟨hheld, fun k _ => h.held k⟩, ?_⟩
  have hviews : (fun k => view (Function.update s i after k)) = fun k => view (s k) := by
    funext k
    rw [Function.update_apply]
    split_ifs with hk
    · rw [hk, hview]
    · rfl
  rw [hviews]
  exact h.mirrored

theorem Coherent.project {tz : Timestamptz} {created : Option AuthAccountId} (h : net.Coherent s) (i : ι)
    (hholder : ⟨account.id, account.nanoid, account.name⟩ ∈ net.holders i)
    (hactive : account.deletedAt = none) :
    net.Coherent (net.step s (round, .project i tz account created)) := by
  rw [step]
  cases hwrite : AccountProjector.write tz (s i) account created account.id with
  | error e => exact h
  | ok after =>
      obtain ⟨htables, hrows⟩ := write_tables hactive hwrite
      have hsound : Sound net.Listed after := by
        rw [htables]
        exact ⟨(h.sound i).followEnds, (h.sound i).followPairs, (h.sound i).readable, (h.sound i).blockEnds,
          (h.sound i).blockPairs, (h.sound i).urls, (h.sound i).icons, (h.sound i).handles⟩
      refine h.update_accounts hsound (fun row hrow => ?_) (by rw [htables]; rfl)
      rcases hrows row hrow with hold | rfl
      · exact h.held i row hold
      · rw [holderOf, AccountRow.ofAccount_id, AccountRow.ofAccount_nanoid, AccountRow.ofAccount_name]
        exact hholder

/-! ### Runs -/

/-- Activities from outside are by actors of other servers, and the accounts that are written are those of
the network and not deactivated. -/
def Admits (net : Network ι) : Request ι → Prop
  | .inbox _ _ activity => net.Foreign activity.actor
  | .project i _ account _ =>
      ⟨account.id, account.nanoid, account.name⟩ ∈ net.holders i ∧ account.deletedAt = none
  | _ => True

def Allowed (net : Network ι) (s : ι → Db) (action : Round ι × Request ι) : Prop :=
  net.Ready action.1 s ∧ net.Admits action.2

theorem Coherent.step (hnet : net.Addressed) (h : net.Coherent s) (action : Round ι × Request ι)
    (hallowed : net.Allowed s action) : net.Coherent (net.step s action) := by
  obtain ⟨round, request⟩ := action
  obtain ⟨hready, hadmits⟩ := hallowed
  cases request with
  | follow i accountNanoid name => exact h.follow hnet hready i accountNanoid name
  | unfollow i accountNanoid name => exact h.unfollow hnet hready i accountNanoid name
  | block i accountNanoid name => exact h.block hnet hready i accountNanoid name
  | unblock i accountNanoid name => exact h.unblock hnet hready i accountNanoid name
  | inbox i accountNanoid activity => exact h.inbox hnet hready i accountNanoid hadmits
  | project i tz account created => exact h.project i hadmits.1 hadmits.2

end Requests

/-- Instances that know nobody yet. -/
theorem Coherent.initial (hheld : net.Held s) (hfollows : ∀ k, (s k).follows = .empty)
    (hblocks : ∀ k, (s k).blocks = .empty) (hremotes : ∀ k, (s k).remoteAccounts = .empty) :
    net.Coherent s := by
  have hnone : ∀ k pair, (view (s k)).follows pair = none ∧ (view (s k)).blocks pair = none := by
    rintro k ⟨p, q⟩
    constructor
    · refine Option.eq_none_iff_forall_ne_some.mpr fun follow hfollow => ?_
      obtain ⟨x, y, _, _, row, hrow, _⟩ := row_of_follow hfollow
      rw [hfollows k] at hrow
      exact List.not_mem_nil hrow
    · refine Option.eq_none_iff_forall_ne_some.mpr fun block hblock => ?_
      obtain ⟨x, y, _, _, hrow⟩ := Names.named_eq_some hblock
      rw [blockRow, hblocks k] at hrow
      cases hrow
  refine ⟨fun k => ?_, hheld, ?_⟩
  · constructor <;> simp [hfollows k, hblocks k, hremotes k, Accepts.UniquePairs, FollowRemoval.Readable,
      UrlsUnique, Table.empty]
  · constructor <;> simp [hnone]

end Network

open Exclusion (parseUrl answering alice aliceUrl aliceDb)

def bobUrl : String := "https://remote.example/ap/accounts/bob-nanoid"

end Federation

end Emumet
