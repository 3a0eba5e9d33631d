import Emumet.KernelAccount
import Emumet.KernelActivity
import Emumet.KernelProfile

/-! The events as they are stored. An event is written as an object with its variant under `type`; the
unchanged fields of a profile update are left out, so that a null is always a field to clear. The column
keeps the members of an object but not their order. -/

namespace Emumet

namespace EventJson

/-! ### Values -/

/-- The library for timestamps: a text for each that can be represented. -/
structure Rfc3339 where
  format : OffsetDateTime → Option String
  parse : String → Option OffsetDateTime
  parse_format : ∀ {time text}, format time = some text → parse text = some time

def writeId (id : Int) : Json := .number id.repr

def readId : Json → Option Int
  | .number literal => literal.toInt?
  | _ => none

def readBool : Json → Option Bool
  | .bool value => some value
  | _ => none

def readTime (rfc : Rfc3339) (json : Json) : Option OffsetDateTime := json.asStr?.bind rfc.parse

variable {α : Type}

def writeOption (write : α → Json) : Option α → Json
  | none => .null
  | some value => write value

def readOption (read : Json → Option α) : Json → Option (Option α)
  | .null => some none
  | json => (read json).map some

/-- `Serialize for FieldAction`. -/
def writeFieldAction (write : α → Json) : FieldAction α → Json
  | .Unchanged => .null
  | .Clear => writeOption write none
  | .Set value => writeOption write (some value)

/-- `Deserialize for FieldAction`. -/
def readFieldAction (read : Json → Option α) (json : Json) : Option (FieldAction α) :=
  (readOption read json).map fun
    | none => .Clear
    | some value => .Set value

/-! ### Members -/

abbrev Members := String → Option Json

/-- The variant under `type`, then the fields. -/
def tagged (tag : String) (fields : List (String × Json)) : Json := .object (("type", .string tag) :: fields)

/-- A member that has to be there. -/
def member (members : Members) (name : String) (read : Json → Option α) : Option α :=
  (members name).bind read

/-- A member with a default. -/
def memberOr (default : α) (members : Members) (name : String) (read : Json → Option α) : Option α :=
  match members name with
  | some json => read json
  | none => some default

/-- `skip_serializing_if = "FieldAction::is_unchanged"`. -/
def fieldUnlessUnchanged (name : String) (write : α → Json) (action : FieldAction α) :
    List (String × Json) :=
  if action.isUnchanged then [] else [(name, writeFieldAction write action)]

/-! ### Account events -/

/-- The expiry is left out if there is none. -/
def writeExpiry (rfc : Rfc3339) : Option OffsetDateTime → Option (List (String × Json))
  | none => some []
  | some time => (rfc.format time).map fun text => [("expires_at", .string text)]

def writeAccountEvent (rfc : Rfc3339) : AccountEvent → Option Json
  | .Created name isBot nanoid authAccountId =>
      some (tagged "Created" [("name", .string name), ("is_bot", .bool isBot),
        ("nanoid", .string nanoid), ("auth_account_id", writeId authAccountId)])
  | .Updated isBot => some (tagged "Updated" [("is_bot", .bool isBot)])
  | .Deactivated => some (tagged "Deactivated" [])
  | .Suspended reason suspendedAt expiresAt => do
      let suspendedAt ← rfc.format suspendedAt
      let expiry ← writeExpiry rfc expiresAt
      some (tagged "Suspended"
        ([("reason", .string reason), ("suspended_at", .string suspendedAt)] ++ expiry))
  | .Unsuspended => some (tagged "Unsuspended" [])
  | .Banned reason bannedAt => do
      let bannedAt ← rfc.format bannedAt
      some (tagged "Banned" [("reason", .string reason), ("banned_at", .string bannedAt)])
  | .Unbanned => some (tagged "Unbanned" [])
  | .Reactivated => some (tagged "Reactivated" [])

def readAccountEvent (rfc : Rfc3339) (members : Members) : Option AccountEvent := do
  match ← member members "type" Json.asStr? with
  | "Created" => do
      let name ← member members "name" Json.asStr?
      let isBot ← member members "is_bot" readBool
      let nanoid ← member members "nanoid" Json.asStr?
      let authAccountId ← member members "auth_account_id" readId
      pure (.Created name isBot nanoid authAccountId)
  | "Updated" => do
      let isBot ← member members "is_bot" readBool
      pure (.Updated isBot)
  | "Deactivated" | "deleted" => pure .Deactivated
  | "Suspended" => do
      let reason ← member members "reason" Json.asStr?
      let suspendedAt ← member members "suspended_at" (readTime rfc)
      let expiresAt ← memberOr none members "expires_at" (readOption (readTime rfc))
      pure (.Suspended reason suspendedAt expiresAt)
  | "Unsuspended" => pure .Unsuspended
  | "Banned" => do
      let reason ← member members "reason" Json.asStr?
      let bannedAt ← member members "banned_at" (readTime rfc)
      pure (.Banned reason bannedAt)
  | "Unbanned" => pure .Unbanned
  | "Reactivated" => pure .Reactivated
  | _ => none

/-! ### Profile and metadata events -/

def writeProfileEvent : ProfileEvent → Json
  | .Created accountId displayName summary icon banner nanoid =>
      tagged "created" [("account_id", writeId accountId),
        ("display_name", writeOption .string displayName), ("summary", writeOption .string summary),
        ("icon", writeOption writeId icon), ("banner", writeOption writeId banner),
        ("nanoid", .string nanoid)]
  | .Updated displayName summary icon banner =>
      tagged "updated" (fieldUnlessUnchanged "display_name" .string displayName ++
        (fieldUnlessUnchanged "summary" .string summary ++ (fieldUnlessUnchanged "icon" writeId icon ++
          fieldUnlessUnchanged "banner" writeId banner)))

/-- A missing option reads as none. -/
def readProfileEvent (members : Members) : Option ProfileEvent := do
  match ← member members "type" Json.asStr? with
  | "created" => do
      let accountId ← member members "account_id" readId
      let displayName ← memberOr none members "display_name" (readOption Json.asStr?)
      let summary ← memberOr none members "summary" (readOption Json.asStr?)
      let icon ← memberOr none members "icon" (readOption readId)
      let banner ← memberOr none members "banner" (readOption readId)
      let nanoid ← member members "nanoid" Json.asStr?
      pure (.Created accountId displayName summary icon banner nanoid)
  | "updated" => do
      let displayName ← memberOr .Unchanged members "display_name" (readFieldAction Json.asStr?)
      let summary ← memberOr .Unchanged members "summary" (readFieldAction Json.asStr?)
      let icon ← memberOr .Unchanged members "icon" (readFieldAction readId)
      let banner ← memberOr .Unchanged members "banner" (readFieldAction readId)
      pure (.Updated displayName summary icon banner)
  | _ => none

def writeMetadataEvent : MetadataEvent → Json
  | .Created accountId label content nanoid =>
      tagged "created" [("account_id", writeId accountId), ("label", .string label),
        ("content", .string content), ("nanoid", .string nanoid)]
  | .Updated label content => tagged "updated" [("label", .string label), ("content", .string content)]
  | .Deleted => tagged "deleted" []

def readMetadataEvent (members : Members) : Option MetadataEvent := do
  match ← member members "type" Json.asStr? with
  | "created" => do
      let accountId ← member members "account_id" readId
      let label ← member members "label" Json.asStr?
      let content ← member members "content" Json.asStr?
      let nanoid ← member members "nanoid" Json.asStr?
      pure (.Created accountId label content nanoid)
  | "updated" => do
      let label ← member members "label" Json.asStr?
      let content ← member members "content" Json.asStr?
      pure (.Updated label content)
  | "deleted" => pure .Deleted
  | _ => none

/-! ### Round trips -/

/-- What is stored has the members that were written, in any order. -/
def SameMembers (written stored : Json) : Prop := ∀ name, stored.get? name = written.get? name

theorem SameMembers.get?_eq {written stored : Json} (h : SameMembers written stored) :
    stored.get? = written.get? :=
  funext h

@[simp] theorem readId_writeId (id : Int) : readId (writeId id) = some id := Int.toInt?_repr id

@[simp] theorem readBool_bool (value : Bool) : readBool (.bool value) = some value := rfl

@[simp] theorem asStr?_string (text : String) : Json.asStr? (.string text) = some text := rfl

theorem readTime_format {rfc : Rfc3339} {time : OffsetDateTime} {text : String}
    (h : rfc.format time = some text) : readTime rfc (.string text) = some time := by
  simp only [readTime, asStr?_string, Option.bind_some]
  exact rfc.parse_format h

/-- A written value is not null and reads back. -/
def Reads (write : α → Json) (read : Json → Option α) : Prop :=
  ∀ value, readOption read (write value) = some (some value)

theorem reads_string : Reads .string Json.asStr? := fun _ => rfl

theorem reads_writeId : Reads writeId readId := by
  intro id
  change (readId (writeId id)).map some = some (some id)
  simp

section Reads

variable {write : α → Json} {read : Json → Option α}

theorem Reads.option (h : Reads write read) (value : Option α) :
    readOption read (writeOption write value) = some value := by
  cases value with
  | none => rfl
  | some value => exact h value

theorem Reads.clear : readFieldAction read (writeFieldAction write .Clear) = some .Clear := rfl

theorem Reads.set (h : Reads write read) (value : α) :
    readFieldAction read (writeFieldAction write (.Set value)) = some (.Set value) := by
  simp only [readFieldAction, writeFieldAction, writeOption, h value, Option.map_some]

/-- The left out field reads as unchanged by its default; a field that is there never does. -/
theorem Reads.fieldAction (h : Reads write read) {members : Members} {name : String}
    {action : FieldAction α}
    (hmember : members name = (fieldUnlessUnchanged name write action).lookup name) :
    memberOr .Unchanged members name (readFieldAction read) = some action := by
  cases action with
  | Unchanged => simp [memberOr, hmember, fieldUnlessUnchanged, FieldAction.isUnchanged]
  | Clear => simp [memberOr, hmember, fieldUnlessUnchanged, FieldAction.isUnchanged, Reads.clear]
  | Set value => simp [memberOr, hmember, fieldUnlessUnchanged, FieldAction.isUnchanged, h.set]

end Reads

theorem lookup_fieldUnlessUnchanged_ne {name other : String} (h : name ≠ other) (write : α → Json)
    (action : FieldAction α) : (fieldUnlessUnchanged other write action).lookup name = none := by
  rw [fieldUnlessUnchanged]
  split
  · rfl
  · simp [List.lookup_cons, beq_eq_false_iff_ne.mpr h]

theorem get?_tagged_type (tag : String) (fields : List (String × Json)) :
    (tagged tag fields).get? "type" = some (.string tag) := by
  simp [tagged, Json.get?]

theorem get?_tagged {name : String} (h : name ≠ "type") (tag : String) (fields : List (String × Json)) :
    (tagged tag fields).get? name = fields.lookup name := by
  simp [tagged, Json.get?, List.lookup_cons, beq_eq_false_iff_ne.mpr h]

theorem readMetadataEvent_write (event : MetadataEvent) :
    readMetadataEvent (writeMetadataEvent event).get? = some event := by
  cases event with
  | Created accountId label content nanoid =>
      simp [readMetadataEvent, writeMetadataEvent, member, get?_tagged_type, get?_tagged, List.lookup_cons]
  | Updated label content =>
      simp [readMetadataEvent, writeMetadataEvent, member, get?_tagged_type, get?_tagged, List.lookup_cons]
  | Deleted => simp [readMetadataEvent, writeMetadataEvent, member, get?_tagged_type]

theorem readProfileEvent_write (event : ProfileEvent) :
    readProfileEvent (writeProfileEvent event).get? = some event := by
  cases event with
  | Created accountId displayName summary icon banner nanoid =>
      simp [readProfileEvent, writeProfileEvent, member, memberOr, get?_tagged_type, get?_tagged,
        List.lookup_cons, reads_string.option, reads_writeId.option]
  | Updated displayName summary icon banner =>
      have hdisplayName : memberOr .Unchanged
          (writeProfileEvent (.Updated displayName summary icon banner)).get? "display_name"
          (readFieldAction Json.asStr?) = some displayName := by
        apply reads_string.fieldAction
        simp [writeProfileEvent, get?_tagged, List.lookup_append, lookup_fieldUnlessUnchanged_ne]
      have hsummary : memberOr .Unchanged
          (writeProfileEvent (.Updated displayName summary icon banner)).get? "summary"
          (readFieldAction Json.asStr?) = some summary := by
        apply reads_string.fieldAction
        simp [writeProfileEvent, get?_tagged, List.lookup_append, lookup_fieldUnlessUnchanged_ne]
      have hicon : memberOr .Unchanged
          (writeProfileEvent (.Updated displayName summary icon banner)).get? "icon"
          (readFieldAction readId) = some icon := by
        apply reads_writeId.fieldAction
        simp [writeProfileEvent, get?_tagged, List.lookup_append, lookup_fieldUnlessUnchanged_ne]
      have hbanner : memberOr .Unchanged
          (writeProfileEvent (.Updated displayName summary icon banner)).get? "banner"
          (readFieldAction readId) = some banner := by
        apply reads_writeId.fieldAction
        simp [writeProfileEvent, get?_tagged, List.lookup_append, lookup_fieldUnlessUnchanged_ne]
      have htag : member (writeProfileEvent (.Updated displayName summary icon banner)).get? "type"
          Json.asStr? = some "updated" := by
        simp [member, writeProfileEvent, get?_tagged_type]
      simp [readProfileEvent, htag, hdisplayName, hsummary, hicon, hbanner]

/-- The timestamps of an event have a text. -/
def Representable (rfc : Rfc3339) : AccountEvent → Prop
  | .Suspended _ suspendedAt expiresAt =>
      (rfc.format suspendedAt).isSome ∧ ∀ time ∈ expiresAt, (rfc.format time).isSome
  | .Banned _ bannedAt => (rfc.format bannedAt).isSome
  | _ => True

theorem memberOr_writeExpiry {rfc : Rfc3339} {expiresAt : Option OffsetDateTime}
    (h : ∀ time ∈ expiresAt, (rfc.format time).isSome) :
    ∃ expiry, writeExpiry rfc expiresAt = some expiry ∧ ∀ members : Members,
      members "expires_at" = expiry.lookup "expires_at" →
        memberOr none members "expires_at" (readOption (readTime rfc)) = some expiresAt := by
  cases expiresAt with
  | none =>
      refine ⟨[], rfl, fun members hmember => ?_⟩
      simp [memberOr, hmember]
  | some time =>
      obtain ⟨text, htext⟩ := Option.isSome_iff_exists.mp (h time rfl)
      refine ⟨[("expires_at", .string text)], by rw [writeExpiry, htext, Option.map_some],
        fun members hmember => ?_⟩
      simp [memberOr, hmember, readOption, readTime_format htext]

theorem readAccountEvent_write {rfc : Rfc3339} {event : AccountEvent} (h : Representable rfc event) :
    ∃ json, writeAccountEvent rfc event = some json ∧ readAccountEvent rfc json.get? = some event := by
  cases event with
  | Created name isBot nanoid authAccountId =>
      refine ⟨_, rfl, ?_⟩
      simp [readAccountEvent, member, get?_tagged_type, get?_tagged, List.lookup_cons]
  | Updated isBot =>
      refine ⟨_, rfl, ?_⟩
      simp [readAccountEvent, member, get?_tagged_type, get?_tagged, List.lookup_cons]
  | Suspended reason suspendedAt expiresAt =>
      obtain ⟨suspendedText, hsuspended⟩ := Option.isSome_iff_exists.mp h.1
      obtain ⟨expiry, hexpiry, hread⟩ := memberOr_writeExpiry h.2
      refine ⟨_, by simp only [writeAccountEvent, hsuspended, hexpiry]; rfl, ?_⟩
      have hexpires := hread (tagged "Suspended"
        (("reason", .string reason) :: ("suspended_at", .string suspendedText) :: expiry)).get?
        (by simp [get?_tagged, List.lookup_cons])
      simp [readAccountEvent, member, get?_tagged_type, get?_tagged, List.lookup_cons,
        readTime_format hsuspended, hexpires]
  | Banned reason bannedAt =>
      obtain ⟨bannedText, hbanned⟩ := Option.isSome_iff_exists.mp h
      refine ⟨_, by simp only [writeAccountEvent, hbanned]; rfl, ?_⟩
      simp [readAccountEvent, member, get?_tagged_type, get?_tagged, List.lookup_cons,
        readTime_format hbanned]
  | Deactivated | Unsuspended | Unbanned | Reactivated =>
      refine ⟨_, rfl, ?_⟩
      simp [readAccountEvent, member, get?_tagged_type]

/-- Every event with timestamps that can be written reads back from its stored object as it was. -/
theorem events_survive_storage (rfc : Rfc3339) :
    (∀ event, Representable rfc event → ∃ json, writeAccountEvent rfc event = some json ∧
      ∀ stored, SameMembers json stored → readAccountEvent rfc stored.get? = some event) ∧
    (∀ event stored, SameMembers (writeProfileEvent event) stored →
      readProfileEvent stored.get? = some event) ∧
    ∀ event stored, SameMembers (writeMetadataEvent event) stored →
      readMetadataEvent stored.get? = some event := by
  refine ⟨fun event hrepresentable => ?_, fun event stored hsame => ?_, fun event stored hsame => ?_⟩
  · obtain ⟨json, hwrite, hread⟩ := readAccountEvent_write hrepresentable
    exact ⟨json, hwrite, fun stored hsame => by rw [hsame.get?_eq, hread]⟩
  · rw [hsame.get?_eq, readProfileEvent_write]
  · rw [hsame.get?_eq, readMetadataEvent_write]

/-- The first two days of 2026, as the library writes them. -/
def newYear : Rfc3339 where
  format time :=
    if time = 1767225600000000000 then some "2026-01-01T00:00:00Z"
    else if time = 1767312000000000000 then some "2026-01-02T00:00:00Z"
    else none
  parse text :=
    if text = "2026-01-01T00:00:00Z" then some 1767225600000000000
    else if text = "2026-01-02T00:00:00Z" then some 1767312000000000000
    else none
  parse_format := by
    intro time text h
    split_ifs at h with hfirst hsecond
    · cases h
      rw [hfirst]
      rfl
    · cases h
      rw [hsecond]
      rfl

/-- A suspension for a day. -/
def daySuspension : AccountEvent := .Suspended "spam" 1767225600000000000 (some 1767312000000000000)

theorem events_survive_storage_update :
    Representable newYear daySuspension ∧
    (∃ json, writeAccountEvent newYear daySuspension = some json ∧
      readAccountEvent newYear json.get? = some daySuspension) ∧
    readProfileEvent (writeProfileEvent (.Updated .Unchanged .Clear (.Set 3) .Unchanged)).get? =
      some (.Updated .Unchanged .Clear (.Set 3) .Unchanged) := by
  have hrepresentable : Representable newYear daySuspension := by
    refine ⟨rfl, fun time htime => ?_⟩
    cases htime
    rfl
  obtain ⟨haccount, hprofile, -⟩ := events_survive_storage newYear
  obtain ⟨json, hwrite, hread⟩ := haccount _ hrepresentable
  exact ⟨hrepresentable, ⟨json, hwrite, hread json fun _ => rfl⟩, hprofile _ _ fun _ => rfl⟩

end EventJson

end Emumet
