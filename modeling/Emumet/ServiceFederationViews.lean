import Emumet.ServiceFederationActors

/-! The relations of all instances together, and when the two sides of each of them agree. -/

namespace Emumet

namespace Federation

open Session Exchange Links

namespace Network

variable {ι : Type} {net : Network ι} {s mid s' : ι → Db} {i j k i' j' : ι} {a a' b b' : Holder}
  {views : ι → View} {change : View → View} {p q : Party} {pair : Party × Party}

/-- A change of the databases that is the given change of their relations. -/
structure Reaches (net : Network ι) (change : (ι → View) → ι → View) (s s' : ι → Db) : Prop where
  sound : ∀ k, Sound net.Listed (s' k)
  view : (fun k => Links.view (s' k)) = change fun k => Links.view (s k)
  accounts : ∀ k, (s' k).accounts = (s k).accounts
  known : ∀ k p x, target (s k) p = some x → target (s' k) p = some x

theorem Reaches.refl (h : ∀ k, Sound net.Listed (s k)) : net.Reaches id s s :=
  ⟨h, rfl, fun _ => rfl, fun _ _ _ hp => hp⟩

theorem Reaches.trans {f g : (ι → View) → ι → View} (h : net.Reaches f s mid)
    (h' : net.Reaches g mid s') : net.Reaches (fun views => g (f views)) s s' where
  sound := h'.sound
  view := by rw [h'.view, h.view]
  accounts k := (h'.accounts k).trans (h.accounts k)
  known k p x hp := h'.known k p x (h.known k p x hp)

theorem Reaches.held {f : (ι → View) → ι → View} (h : net.Reaches f s s') (hheld : net.Held s) :
    net.Held s' :=
  fun k row hrow => hheld k row (h.accounts k ▸ hrow)

theorem Reaches.keyed {f : (ι → View) → ι → View} {round : Round ι} (h : net.Reaches f s s')
    (hkeyed : Keyed round s) : Keyed round s' :=
  fun k row hrow => hkeyed k row (h.accounts k ▸ hrow)

/-- The two instances of a follow or block between their accounts both have it. A follow is approved on
both. -/
structure Mirrored (net : Network ι) (views : ι → View) : Prop where
  follows : ∀ i, ∀ a ∈ net.holders i, ∀ j, ∀ b ∈ net.holders j,
    ((views i).follows (.here a.id, .there (net.actorUrl j b.nanoid))).map Prod.snd =
      ((views j).follows (.there (net.actorUrl i a.nanoid), .here b.id)).map Prod.snd
  approved : ∀ i, ∀ a ∈ net.holders i, ∀ j, ∀ b ∈ net.holders j,
    ∀ follow ∈ (views i).follows (.here a.id, .there (net.actorUrl j b.nanoid)), follow.2 = true
  blocks : ∀ i, ∀ a ∈ net.holders i, ∀ j, ∀ b ∈ net.holders j,
    ((views i).blocks (.here a.id, .there (net.actorUrl j b.nanoid))).isSome =
      ((views j).blocks (.there (net.actorUrl i a.nanoid), .here b.id)).isSome

/-- The entry of a follower is that of one pair of accounts. -/
theorem Addressed.out_iff (hnet : net.Addressed) (ha : a ∈ net.holders i) (ha' : a' ∈ net.holders i')
    (hb : b ∈ net.holders j) (hb' : b' ∈ net.holders j') :
    (i' = i ∧ (Party.here a'.id, Party.there (net.actorUrl j' b'.nanoid)) =
      (.here a.id, .there (net.actorUrl j b.nanoid))) ↔ (i' = i ∧ a' = a) ∧ j' = j ∧ b' = b := by
  constructor
  · rintro ⟨rfl, hkey⟩
    simp only [Prod.mk.injEq, Party.here.injEq, Party.there.injEq] at hkey
    obtain ⟨rfl, rfl⟩ := hnet.url_injective hb' hb hkey.2
    exact ⟨⟨rfl, hnet.ids i' a' ha' a ha hkey.1⟩, rfl, rfl⟩
  · rintro ⟨⟨rfl, rfl⟩, rfl, rfl⟩
    exact ⟨rfl, rfl⟩

/-- The entry of a followed account is that of one pair of accounts. -/
theorem Addressed.in_iff (hnet : net.Addressed) (ha : a ∈ net.holders i) (ha' : a' ∈ net.holders i')
    (hb : b ∈ net.holders j) (hb' : b' ∈ net.holders j') :
    (j' = j ∧ (Party.there (net.actorUrl i' a'.nanoid), Party.here b'.id) =
      (.there (net.actorUrl i a.nanoid), .here b.id)) ↔ (i' = i ∧ a' = a) ∧ j' = j ∧ b' = b := by
  constructor
  · rintro ⟨rfl, hkey⟩
    simp only [Prod.mk.injEq, Party.here.injEq, Party.there.injEq] at hkey
    obtain ⟨rfl, rfl⟩ := hnet.url_injective ha' ha hkey.1
    exact ⟨⟨rfl, rfl⟩, rfl, hnet.ids j' b' hb' b hb hkey.2⟩
  · rintro ⟨⟨rfl, rfl⟩, rfl, rfl⟩
    exact ⟨rfl, rfl⟩

theorem out_ne_in {x y : AccountId} {url url' : String} :
    ((Party.here x, Party.there url) = (.there url', .here y)) = False := by
  simp

theorem in_ne_out {x y : AccountId} {url url' : String} :
    ((Party.there url', Party.here y) = (.here x, .there url)) = False := by
  simp

/-- Agreement is kept where each pair of accounts is left alone on both sides or changed to agree. -/
theorem Mirrored.of_each {views' : ι → View} (h : net.Mirrored views)
    (hfollows : ∀ i, ∀ a ∈ net.holders i, ∀ j, ∀ b ∈ net.holders j,
      ((views' i).follows (.here a.id, .there (net.actorUrl j b.nanoid)) =
          (views i).follows (.here a.id, .there (net.actorUrl j b.nanoid)) ∧
        (views' j).follows (.there (net.actorUrl i a.nanoid), .here b.id) =
          (views j).follows (.there (net.actorUrl i a.nanoid), .here b.id)) ∨
      (((views' i).follows (.here a.id, .there (net.actorUrl j b.nanoid))).map Prod.snd =
          ((views' j).follows (.there (net.actorUrl i a.nanoid), .here b.id)).map Prod.snd ∧
        ∀ follow ∈ (views' i).follows (.here a.id, .there (net.actorUrl j b.nanoid)), follow.2 = true))
    (hblocks : ∀ i, ∀ a ∈ net.holders i, ∀ j, ∀ b ∈ net.holders j,
      ((views' i).blocks (.here a.id, .there (net.actorUrl j b.nanoid)) =
          (views i).blocks (.here a.id, .there (net.actorUrl j b.nanoid)) ∧
        (views' j).blocks (.there (net.actorUrl i a.nanoid), .here b.id) =
          (views j).blocks (.there (net.actorUrl i a.nanoid), .here b.id)) ∨
      ((views' i).blocks (.here a.id, .there (net.actorUrl j b.nanoid))).isSome =
        ((views' j).blocks (.there (net.actorUrl i a.nanoid), .here b.id)).isSome) :
    net.Mirrored views' := by
  refine ⟨fun i a ha j b hb => ?_, fun i a ha j b hb follow hfollow => ?_, fun i a ha j b hb => ?_⟩
  · rcases hfollows i a ha j b hb with ⟨hout, hin⟩ | ⟨hsame, _⟩
    · rw [hout, hin]
      exact h.follows i a ha j b hb
    · exact hsame
  · rcases hfollows i a ha j b hb with ⟨hout, _⟩ | ⟨_, happroved⟩
    · exact h.approved i a ha j b hb follow (hout ▸ hfollow)
    · exact happroved follow hfollow
  · rcases hblocks i a ha j b hb with ⟨hout, hin⟩ | hsame
    · rw [hout, hin]
      exact h.blocks i a ha j b hb
    · exact hsame

/-! ### Pairs that are not between accounts of the instances -/

/-- Neither end is an account of an instance named by its URL. -/
def Outer (net : Network ι) (pair : Party × Party) : Prop :=
  ∀ j, ∀ b ∈ net.holders j,
    pair.1 ≠ .there (net.actorUrl j b.nanoid) ∧ pair.2 ≠ .there (net.actorUrl j b.nanoid)

theorem Outer.swap (h : net.Outer (p, q)) : net.Outer (q, p) := fun j b hb => (h j b hb).symm

theorem outer_here (x y : AccountId) : net.Outer (.here x, .here y) :=
  fun _ _ _ => ⟨by simp, by simp⟩

theorem Addressed.outer_there (hnet : net.Addressed) {url : String} (hurl : net.Foreign url)
    (x : AccountId) : net.Outer (.here x, .there url) := by
  refine fun j b hb => ⟨by simp, fun hsame => ?_⟩
  cases hsame
  exact hurl j b hb (hnet.trimmed j b hb)

/-- The relations differ at outer pairs only. -/
def Apart (net : Network ι) (views views' : ι → View) : Prop :=
  ∀ k pair, ¬net.Outer pair →
    (views' k).follows pair = (views k).follows pair ∧ (views' k).blocks pair = (views k).blocks pair

theorem Apart.refl (views : ι → View) : net.Apart views views := fun _ _ _ => ⟨rfl, rfl⟩

theorem Apart.trans {views' views'' : ι → View} (h : net.Apart views views')
    (h' : net.Apart views' views'') : net.Apart views views'' := by
  intro k pair hpair
  obtain ⟨hfollow, hblock⟩ := h k pair hpair
  obtain ⟨hfollow', hblock'⟩ := h' k pair hpair
  exact ⟨hfollow'.trans hfollow, hblock'.trans hblock⟩

theorem Mirrored.apart {views' : ι → View} (h : net.Mirrored views) (hapart : net.Apart views views') :
    net.Mirrored views' := by
  have hout : ∀ (a : Holder) j, ∀ b ∈ net.holders j,
      ¬net.Outer (.here a.id, .there (net.actorUrl j b.nanoid)) :=
    fun a j b hb houter => (houter j b hb).2 rfl
  have hin : ∀ i, ∀ a ∈ net.holders i, ∀ b : Holder,
      ¬net.Outer (.there (net.actorUrl i a.nanoid), .here b.id) :=
    fun i a ha b houter => (houter i a ha).1 rfl
  refine h.of_each (fun i a ha j b hb => ?_) fun i a ha j b hb => ?_
  · exact .inl ⟨(hapart i _ (hout a j b hb)).1, (hapart j _ (hin i a ha b)).1⟩
  · exact .inl ⟨(hapart i _ (hout a j b hb)).2, (hapart j _ (hin i a ha b)).2⟩

section Changes

variable [DecidableEq ι]

/-! ### Changes at one instance -/

def changeAt (i : ι) (change : View → View) (views : ι → View) : ι → View :=
  Function.update views i (change (views i))

theorem changeAt_id (i : ι) (views : ι → View) : changeAt i id views = views :=
  Function.update_eq_self i views

theorem follows_changeAt_setFollow {value : Option (FollowId × Bool)} :
    (changeAt i (View.setFollow p q value) views k).follows pair =
      if k = i ∧ pair = (p, q) then value else (views k).follows pair := by
  rw [changeAt, Function.update_apply]
  by_cases hk : k = i
  · subst hk
    simp [View.setFollow, Function.update_apply]
  · simp [hk]

theorem follows_changeAt_approve :
    (changeAt i (View.approve p q) views k).follows pair =
      if k = i ∧ pair = (p, q) then ((views i).follows (p, q)).map fun follow => (follow.1, true)
      else (views k).follows pair :=
  follows_changeAt_setFollow

theorem follows_changeAt_setBlock {value : Option BlockId} :
    (changeAt i (View.setBlock p q value) views k).follows pair = (views k).follows pair := by
  rw [changeAt, Function.update_apply]
  by_cases hk : k = i
  · subst hk
    rw [if_pos rfl]
    rfl
  · rw [if_neg hk]

theorem follows_changeAt_block {id : BlockId} :
    (changeAt i (View.block p q id) views k).follows pair =
      if k = i ∧ (pair = (p, q) ∨ pair = (q, p)) then none else (views k).follows pair := by
  rw [changeAt, Function.update_apply]
  by_cases hk : k = i
  · subst hk
    by_cases hback : pair = (q, p)
    · simp [View.block, View.sever, View.setFollow, hback]
    · simp [View.block, View.sever, View.setFollow, View.setBlock, Function.update_apply, hback]
  · simp [hk]

theorem blocks_changeAt_setFollow {value : Option (FollowId × Bool)} :
    (changeAt i (View.setFollow p q value) views k).blocks pair = (views k).blocks pair := by
  rw [changeAt, Function.update_apply]
  by_cases hk : k = i
  · subst hk
    rw [if_pos rfl]
    rfl
  · rw [if_neg hk]

theorem blocks_changeAt_approve :
    (changeAt i (View.approve p q) views k).blocks pair = (views k).blocks pair :=
  blocks_changeAt_setFollow

theorem blocks_changeAt_setBlock {value : Option BlockId} :
    (changeAt i (View.setBlock p q value) views k).blocks pair =
      if k = i ∧ pair = (p, q) then value else (views k).blocks pair := by
  rw [changeAt, Function.update_apply]
  by_cases hk : k = i
  · subst hk
    simp [View.setBlock, Function.update_apply]
  · simp [hk]

theorem blocks_changeAt_block {id : BlockId} :
    (changeAt i (View.block p q id) views k).blocks pair =
      if k = i ∧ pair = (p, q) then some id else (views k).blocks pair := by
  refine Eq.trans ?_ blocks_changeAt_setBlock
  rw [changeAt, changeAt, Function.update_apply, Function.update_apply]
  by_cases hk : k = i
  · rw [if_pos hk, if_pos hk]
    rfl
  · rw [if_neg hk, if_neg hk]

/-! ### Changes of the databases -/

theorem Reaches.single {after : Db} (hsound : ∀ k, Sound net.Listed (s k))
    (h : Becomes net.Listed change (s i) after) :
    net.Reaches (changeAt i change) s (Function.update s i after) := by
  refine ⟨fun k => ?_, ?_, fun k => ?_, fun k p x hp => ?_⟩
  · by_cases hk : k = i
    · subst hk
      rw [Function.update_self]
      exact h.sound
    · rw [Function.update_of_ne hk]
      exact hsound k
  · funext k
    rw [changeAt, Function.update_apply, Function.update_apply]
    split_ifs with hk
    · exact h.view
    · rfl
  · by_cases hk : k = i
    · subst hk
      rw [Function.update_self]
      exact h.accounts
    · rw [Function.update_of_ne hk]
  · by_cases hk : k = i
    · subst hk
      rw [Function.update_self]
      exact h.known p x hp
    · rw [Function.update_of_ne hk]
      exact hp

/-- A change of one instance that leaves its relations alone. -/
theorem Reaches.quiet {after : Db} (hsound : ∀ k, Sound net.Listed (s k))
    (h : Becomes net.Listed id (s i) after) : net.Reaches id s (Function.update s i after) := by
  have hreaches := Reaches.single hsound h
  exact ⟨hreaches.sound, hreaches.view.trans (changeAt_id i _), hreaches.accounts, hreaches.known⟩

/-! ### What keeps the agreement -/

theorem apart_setFollow {value : Option (FollowId × Bool)} (h : net.Outer (p, q)) :
    net.Apart views (changeAt i (View.setFollow p q value) views) := by
  intro k pair hpair
  refine ⟨?_, blocks_changeAt_setFollow⟩
  rw [follows_changeAt_setFollow, if_neg]
  rintro ⟨_, rfl⟩
  exact hpair h

theorem apart_setBlock {value : Option BlockId} (h : net.Outer (p, q)) :
    net.Apart views (changeAt i (View.setBlock p q value) views) := by
  intro k pair hpair
  refine ⟨follows_changeAt_setBlock, ?_⟩
  rw [blocks_changeAt_setBlock, if_neg]
  rintro ⟨_, rfl⟩
  exact hpair h

theorem apart_block {id : BlockId} (h : net.Outer (p, q)) :
    net.Apart views (changeAt i (View.block p q id) views) := by
  intro k pair hpair
  refine ⟨?_, ?_⟩
  · rw [follows_changeAt_block, if_neg]
    rintro ⟨_, rfl | rfl⟩
    · exact hpair h
    · exact hpair h.swap
  · rw [blocks_changeAt_block, if_neg]
    rintro ⟨_, rfl⟩
    exact hpair h

/-- A follow between two accounts that is stored by the follower, stored as approved by the other instance
and approved by the follower. -/
theorem Mirrored.follow {id id' : FollowId} (hnet : net.Addressed) (h : net.Mirrored views)
    (ha : a ∈ net.holders i) (hb : b ∈ net.holders j) :
    net.Mirrored (changeAt i (View.approve (.here a.id) (.there (net.actorUrl j b.nanoid)))
      (changeAt j (View.setFollow (.there (net.actorUrl i a.nanoid)) (.here b.id) (some (id', true)))
        (changeAt i (View.setFollow (.here a.id) (.there (net.actorUrl j b.nanoid)) (some (id, false)))
          views))) := by
  refine h.of_each (fun i' a' ha' j' b' hb' => ?_) fun i' a' ha' j' b' hb' => .inl ⟨?_, ?_⟩
  · simp only [follows_changeAt_approve, follows_changeAt_setFollow, hnet.out_iff ha ha' hb hb',
      hnet.in_iff ha ha' hb hb', out_ne_in, in_ne_out, and_false, if_false]
    by_cases hsame : (i' = i ∧ a' = a) ∧ j' = j ∧ b' = b
    · exact .inr (by simp [hsame])
    · exact .inl (by simp only [if_neg hsame, and_self])
  · simp only [blocks_changeAt_approve, blocks_changeAt_setFollow]
  · simp only [blocks_changeAt_approve, blocks_changeAt_setFollow]

/-- A follow that the follower stored and took back. -/
theorem Mirrored.withdrawn {value : Option (FollowId × Bool)} (h : net.Mirrored views)
    (hnone : (views i).follows (p, q) = none) :
    net.Mirrored (changeAt i (View.setFollow p q none) (changeAt i (View.setFollow p q value) views)) := by
  have hsame : ∀ k pair, (changeAt i (View.setFollow p q none)
      (changeAt i (View.setFollow p q value) views) k).follows pair = (views k).follows pair := by
    intro k pair
    rw [follows_changeAt_setFollow, follows_changeAt_setFollow]
    split_ifs with hpair
    · obtain ⟨rfl, rfl⟩ := hpair
      exact hnone.symm
    · rfl
  refine h.of_each (fun i' a' _ j' b' _ => .inl ⟨hsame i' _, hsame j' _⟩)
    fun i' a' _ j' b' _ => .inl ⟨?_, ?_⟩
  · rw [blocks_changeAt_setFollow, blocks_changeAt_setFollow]
  · rw [blocks_changeAt_setFollow, blocks_changeAt_setFollow]

/-- A follow that both instances drop. -/
theorem Mirrored.unfollow (hnet : net.Addressed) (h : net.Mirrored views) (ha : a ∈ net.holders i)
    (hb : b ∈ net.holders j) :
    net.Mirrored (changeAt i (View.setFollow (.here a.id) (.there (net.actorUrl j b.nanoid)) none)
      (changeAt j (View.setFollow (.there (net.actorUrl i a.nanoid)) (.here b.id) none) views)) := by
  refine h.of_each (fun i' a' ha' j' b' hb' => ?_) fun i' a' ha' j' b' hb' => .inl ⟨?_, ?_⟩
  · simp only [follows_changeAt_setFollow, hnet.out_iff ha ha' hb hb', hnet.in_iff ha ha' hb hb',
      out_ne_in, in_ne_out, and_false, if_false]
    by_cases hsame : (i' = i ∧ a' = a) ∧ j' = j ∧ b' = b
    · exact .inr (by simp [hsame])
    · exact .inl (by simp only [if_neg hsame, and_self])
  · simp only [blocks_changeAt_setFollow]
  · simp only [blocks_changeAt_setFollow]

/-- A block that both instances store; the follows between the two accounts are gone on both. -/
theorem Mirrored.block {id id' : BlockId} (hnet : net.Addressed) (h : net.Mirrored views)
    (ha : a ∈ net.holders i) (hb : b ∈ net.holders j) :
    net.Mirrored (changeAt j (View.block (.there (net.actorUrl i a.nanoid)) (.here b.id) id')
      (changeAt i (View.block (.here a.id) (.there (net.actorUrl j b.nanoid)) id) views)) := by
  refine h.of_each (fun i' a' ha' j' b' hb' => ?_) fun i' a' ha' j' b' hb' => ?_
  · simp only [follows_changeAt_block, hnet.out_iff ha ha' hb hb', hnet.out_iff hb ha' ha hb',
      hnet.in_iff ha ha' hb hb', hnet.in_iff hb ha' ha hb', out_ne_in, in_ne_out, or_false, false_or]
    by_cases hsame : (i' = i ∧ a' = a) ∧ j' = j ∧ b' = b
    · exact .inr (by simp [hsame])
    · by_cases hback : (i' = j ∧ a' = b) ∧ j' = i ∧ b' = a
      · exact .inr (by simp [hback])
      · exact .inl (by simp only [if_neg hsame, if_neg hback, and_self])
  · simp only [blocks_changeAt_block, hnet.out_iff ha ha' hb hb', hnet.in_iff ha ha' hb hb', out_ne_in,
      in_ne_out, and_false, if_false]
    by_cases hsame : (i' = i ∧ a' = a) ∧ j' = j ∧ b' = b
    · exact .inr (by simp [hsame])
    · exact .inl (by simp only [if_neg hsame, and_self])

/-- A block that both instances drop. -/
theorem Mirrored.unblock (hnet : net.Addressed) (h : net.Mirrored views) (ha : a ∈ net.holders i)
    (hb : b ∈ net.holders j) :
    net.Mirrored (changeAt j (View.setBlock (.there (net.actorUrl i a.nanoid)) (.here b.id) none)
      (changeAt i (View.setBlock (.here a.id) (.there (net.actorUrl j b.nanoid)) none) views)) := by
  refine h.of_each (fun i' a' ha' j' b' hb' => .inl ⟨?_, ?_⟩) fun i' a' ha' j' b' hb' => ?_
  · simp only [follows_changeAt_setBlock]
  · simp only [follows_changeAt_setBlock]
  · simp only [blocks_changeAt_setBlock, hnet.out_iff ha ha' hb hb', hnet.in_iff ha ha' hb hb',
      out_ne_in, in_ne_out, and_false, if_false]
    by_cases hsame : (i' = i ∧ a' = a) ∧ j' = j ∧ b' = b
    · exact .inr (by simp [hsame])
    · exact .inl (by simp only [if_neg hsame, and_self])

end Changes

end Network

end Federation

end Emumet
