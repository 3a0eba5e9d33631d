import Emumet.KernelEvent

/-! The profile and metadata aggregates: their events, their commands and their appliers. A profile
update carries no expected version (last write wins); a metadata stream may end in a deletion. -/

namespace Emumet

/-! ### Values -/

def ProfileDisplayName.validate : String → Result Unit := validateLength "Display name" 100

def ProfileSummary.validate : String → Result Unit := validateLength "Summary" 2000

def MetadataLabel.validate : String → Result Unit := validateLength "Field label" 255

def MetadataContent.validate : String → Result Unit := validateLength "Field content" 1000

def ImageUrl.validate (url : String) : Result Unit :=
  if url.isEmpty then reject .Validation "Image URL cannot be empty"
  else validateLength "Image URL" 2048 url

/-! ### Profiles -/

structure Profile where
  id : ProfileId
  accountId : AccountId
  displayName : Option String
  summary : Option String
  icon : Option ImageId
  banner : Option ImageId
  version : EventVersion
  nanoid : Nanoid
  deriving DecidableEq, Repr

inductive ProfileEvent where
  | Created (accountId : AccountId) (displayName summary : Option String)
      (icon banner : Option ImageId) (nanoid : Nanoid)
  | Updated (displayName summary : FieldAction String) (icon banner : FieldAction ImageId)
  deriving DecidableEq, Repr

namespace ProfileEvent

/-- The account of a `Created` event. -/
def createdFor : ProfileEvent → Option AccountId
  | .Created accountId .. => some accountId
  | .Updated .. => none

end ProfileEvent

namespace Profile

def create (id : ProfileId) (accountId : AccountId) (displayName summary : Option String)
    (icon banner : Option ImageId) (nanoid : Nanoid) : CommandEnvelope ProfileEvent :=
  ⟨id, .Created accountId displayName summary icon banner nanoid, some .Nothing⟩

/-- Last-write-wins: no optimistic concurrency check. -/
def update (id : ProfileId) (displayName summary : FieldAction String)
    (icon banner : FieldAction ImageId) : CommandEnvelope ProfileEvent :=
  ⟨id, .Updated displayName summary icon banner, none⟩

def entityName : String := "Profile"

/-- The source also prints the entity's debug form. -/
def alreadyExists : String := entityName ++ " already exists"

def notExists (id : Int) : String := entityName ++ " not found: " ++ toString id

def apply (entity : Option Profile) (event : EventEnvelope ProfileEvent) :
    Result (Option Profile) :=
  match event.event, entity with
  | .Created accountId displayName summary icon banner nanoid, none =>
      .ok (some { id := event.id, accountId, displayName, summary, icon, banner,
                  version := event.version, nanoid })
  | .Created .., some _ => reject .Internal alreadyExists
  | .Updated displayName summary icon banner, some profile =>
      .ok (some { profile with
        displayName := displayName.applyTo profile.displayName
        summary := summary.applyTo profile.summary
        icon := icon.applyTo profile.icon
        banner := banner.applyTo profile.banner
        version := event.version })
  | .Updated .., none => reject .Internal (notExists event.id)

def fold (events : List (EventEnvelope ProfileEvent)) : Result (Option Profile) :=
  foldEvents apply none events

/-- An event that applies gives a profile with the event's version and the id of the profile it was
applied to, or its own. -/
theorem apply_ok {entity result : Option Profile} {event : EventEnvelope ProfileEvent}
    (h : apply entity event = .ok result) :
    ∃ profile, result = some profile ∧ profile.version = event.version ∧
      profile.id = (entity.map Profile.id).getD event.id := by
  obtain ⟨id, payload, version⟩ := event
  cases payload <;> cases entity <;> cases h <;> exact ⟨_, rfl, rfl, rfl⟩

variable {events : List (EventEnvelope ProfileEvent)} {profile : Profile}

/-- The profile events of one id fold to has that id. -/
theorem foldEvents_id {entity : Option Profile} {id : ProfileId}
    (hentity : ∀ existing, entity = some existing → existing.id = id)
    (hevents : ∀ event ∈ events, event.id = id)
    (hok : foldEvents apply entity events = .ok (some profile)) : profile.id = id := by
  have hinvariant : ∀ existing, some profile = some existing → existing.id = id := by
    refine Fallible.foldlM_invariant (P := fun entity => ∀ existing, entity = some existing →
      existing.id = id) ?_ hentity hok
    rintro before event hevent after hbefore hstep existing rfl
    obtain ⟨next, hnext, _, hid⟩ := apply_ok hstep
    cases hnext
    cases before with
    | none => exact hid.trans (hevents event hevent)
    | some previous => exact hid.trans (hbefore previous rfl)
  exact hinvariant profile rfl

theorem fold_version (hok : fold events = .ok (some profile)) :
    events.getLast?.map EventEnvelope.version = some profile.version := by
  rcases events.eq_nil_or_concat' with rfl | ⟨front, last, rfl⟩
  · cases hok
  · obtain ⟨middle, _, happly⟩ := foldEvents_concat.mp hok
    obtain ⟨next, hnext, hversion, _⟩ := apply_ok happly
    cases hnext
    rw [List.getLast?_concat, Option.map_some, hversion]

end Profile

/-! ### Metadata -/

structure Metadata where
  id : MetadataId
  accountId : AccountId
  label : String
  content : String
  version : EventVersion
  nanoid : Nanoid
  deriving DecidableEq, Repr

inductive MetadataEvent where
  | Created (accountId : AccountId) (label content : String) (nanoid : Nanoid)
  | Updated (label content : String)
  | Deleted
  deriving DecidableEq, Repr

namespace MetadataEvent

/-- The account of a `Created` event. -/
def createdFor : MetadataEvent → Option AccountId
  | .Created accountId .. => some accountId
  | _ => none

end MetadataEvent

namespace Metadata

def create (id : MetadataId) (accountId : AccountId) (label content : String) (nanoid : Nanoid) :
    CommandEnvelope MetadataEvent :=
  ⟨id, .Created accountId label content nanoid, some .Nothing⟩

def update (id : MetadataId) (label content : String) (currentVersion : EventVersion) :
    CommandEnvelope MetadataEvent :=
  ⟨id, .Updated label content, some (.At currentVersion)⟩

def delete (id : MetadataId) (currentVersion : EventVersion) : CommandEnvelope MetadataEvent :=
  ⟨id, .Deleted, some (.At currentVersion)⟩

def entityName : String := "Metadata"

/-- The source also prints the entity's debug form. -/
def alreadyExists : String := entityName ++ " already exists"

def notExists (id : Int) : String := entityName ++ " not found: " ++ toString id

def apply (entity : Option Metadata) (event : EventEnvelope MetadataEvent) :
    Result (Option Metadata) :=
  match event.event, entity with
  | .Created accountId label content nanoid, none =>
      .ok (some { id := event.id, accountId, label, content, version := event.version, nanoid })
  | .Created .., some _ => reject .Internal alreadyExists
  | .Updated label content, some metadata =>
      .ok (some { metadata with label, content, version := event.version })
  | .Deleted, some _ => .ok none
  | _, none => reject .Internal (notExists event.id)

def fold (events : List (EventEnvelope MetadataEvent)) : Result (Option Metadata) :=
  foldEvents apply none events

end Metadata

end Emumet
