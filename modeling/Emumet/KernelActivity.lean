import Emumet.KernelRelation

/-! JSON values, ActivityPub activities and the URLs of local actors. The URL parser is not the
program's; what it returns is a record of the parts the program reads. -/

namespace Emumet

/-! ### Text -/

/-- `trim_end_matches('/')`. -/
def trimEndSlashes (text : String) : String :=
  String.ofList (text.toList.reverse.dropWhile (· = '/')).reverse

/-- The text after the given start, if it starts so. -/
def stripStart (start text : String) : Option String :=
  (text.toList.dropPrefix? start.toList).map fun rest => String.ofList rest

theorem stripStart_eq_some_iff {start text rest : String} :
    stripStart start text = some rest ↔ text = start ++ rest := by
  rw [stripStart, Option.map_eq_some_iff]
  constructor
  · rintro ⟨chars, hdrop, rfl⟩
    obtain ⟨front, htext, hfront⟩ := List.dropPrefix?_eq_some_iff.mp hdrop
    rw [← String.ofList_toList (s := text), htext, beq_iff_eq.mp hfront, String.ofList_append,
      String.ofList_toList]
  · rintro rfl
    exact ⟨rest.toList, List.dropPrefix?_eq_some_iff.mpr
      ⟨start.toList, String.toList_append, beq_self_eq_true _⟩, String.ofList_toList⟩

theorem stripStart_append (start rest : String) : stripStart start (start ++ rest) = some rest :=
  stripStart_eq_some_iff.mpr rfl

/-- Cut at the first occurrence of a character. -/
def splitOnce (separator : Char) (text : String) : Option (String × String) :=
  match text.toList.span (· ≠ separator) with
  | (_, []) => none
  | (before, _ :: after) => some (String.ofList before, String.ofList after)

/-- A text is cut at its first separator. -/
theorem splitOnce_of_toList {separator : Char} {text : String} {front back : List Char}
    (htext : text.toList = front ++ separator :: back) (hfront : separator ∉ front) :
    splitOnce separator text = some (String.ofList front, String.ofList back) := by
  have hne : ∀ c ∈ front, decide (c ≠ separator) = true := by
    intro c hc
    rw [decide_eq_true_iff]
    rintro rfl
    exact hfront hc
  rw [splitOnce, htext, List.span_eq_takeWhile_dropWhile, List.takeWhile_append_of_pos hne,
    List.dropWhile_append_of_pos hne]
  simp

theorem splitOnce_eq_none {separator : Char} {text : String} (h : separator ∉ text.toList) :
    splitOnce separator text = none := by
  have hnil : text.toList.dropWhile (· ≠ separator) = [] := by
    rw [List.dropWhile_eq_nil_iff]
    intro c hc
    simpa using fun heq : c = separator => h (heq ▸ hc)
  rw [splitOnce, List.span_eq_takeWhile_dropWhile, hnil]

/-- ASCII letters in lower case. -/
def toAsciiLowercase (text : String) : String := String.ofList (text.toList.map Char.toLower)

/-- The parts of a parsed URL. -/
structure Url where
  scheme : String
  host : Option String
  port : Option Nat
  portOrKnownDefault : Option Nat
  path : String
  query : Option String
  deriving DecidableEq, Repr

/-! ### JSON -/

inductive Json where
  | null
  | bool (value : Bool)
  | number (literal : String)
  | string (value : String)
  | array (items : List Json)
  | object (fields : List (String × Json))
  deriving Repr

namespace Json

/-- A member of an object. -/
def get? : Json → String → Option Json
  | .object fields, name => fields.lookup name
  | _, _ => none

def asStr? : Json → Option String
  | .string value => some value
  | _ => none

def asArray? : Json → Option (List Json)
  | .array items => some items
  | _ => none

/-- A member that may be missing or null. -/
def optional (value : Option Json) : Option Json :=
  match value with
  | some .null => none
  | other => other

/-- A list of texts that may be missing or null; anything else is an error. -/
def optionalStrings (value : Option Json) : Option (Option (List String)) :=
  match optional value with
  | none => some none
  | some (.array items) => (items.mapM asStr?).map some
  | some _ => none

def strings (values : List String) : Json := .array (values.map .string)

/-- A character of a text as it is written between quotes. -/
def escape (c : Char) : String :=
  let hex (n : Nat) : String := String.singleton (Nat.digitChar n)
  if c = '"' then "\\\""
  else if c = '\\' then "\\\\"
  else if c.toNat = 0x08 then "\\b"
  else if c.toNat = 0x0C then "\\f"
  else if c = '\n' then "\\n"
  else if c = '\r' then "\\r"
  else if c = '\t' then "\\t"
  else if c.toNat < 0x20 then "\\u00" ++ hex (c.toNat / 16) ++ hex (c.toNat % 16)
  else String.singleton c

def quote (text : String) : String := "\"" ++ String.join (text.toList.map escape) ++ "\""

mutual

/-- `serde_json::to_string`, without blanks. -/
def render : Json → String
  | .null => "null"
  | .bool value => toString value
  | .number literal => literal
  | .string value => quote value
  | .array items => "[" ++ String.intercalate "," (renderItems items) ++ "]"
  | .object fields => "\x7b" ++ String.intercalate "," (renderFields fields) ++ "\x7d"

def renderItems : List Json → List String
  | [] => []
  | item :: items => render item :: renderItems items

def renderFields : List (String × Json) → List String
  | [] => []
  | field :: fields => renderField field :: renderFields fields

def renderField : String × Json → String
  | (name, value) => quote name ++ ":" ++ render value

end

end Json

/-! ### Activities -/

structure Activity where
  context : Option Json
  id : String
  type_ : String
  actor : String
  object : Option Json
  target : Option Json
  to_ : Option (List String)
  cc : Option (List String)
  deriving Repr

namespace Activity

/-- The activity with these members. -/
def ofMembers (context id type_ actor object target to_ cc : Option Json) : Option Activity := do
  pure {
    context := Json.optional context
    id := ← id.bind Json.asStr?
    type_ := ← type_.bind Json.asStr?
    actor := ← actor.bind Json.asStr?
    object := Json.optional object
    target := Json.optional target
    to_ := ← Json.optionalStrings to_
    cc := ← Json.optionalStrings cc }

/-- `serde_json::from_value`: an object, or an array of all members in their order. -/
def fromJson : Json → Option Activity
  | .object fields =>
      ofMembers (fields.lookup "@context") (fields.lookup "id") (fields.lookup "type")
        (fields.lookup "actor") (fields.lookup "object") (fields.lookup "target")
        (fields.lookup "to") (fields.lookup "cc")
  | .array [context, id, type_, actor, object, target, to_, cc] =>
      ofMembers (some context) (some id) (some type_) (some actor) (some object) (some target)
        (some to_) (some cc)
  | _ => none

def member (name : String) (value : Option Json) : List (String × Json) :=
  (value.map fun value => (name, value)).toList

/-- `serde_json::to_string`: the members in the order of declaration, without those that are missing. -/
def render (activity : Activity) : String :=
  Json.render <| .object <|
    member "@context" activity.context ++ [("id", .string activity.id),
      ("type", .string activity.type_), ("actor", .string activity.actor)] ++
    member "object" activity.object ++ member "target" activity.target ++
    member "to" (activity.to_.map Json.strings) ++ member "cc" (activity.cc.map Json.strings)

/-- `serde_json::to_value`: the members sorted by name. -/
def toJson (activity : Activity) : Json :=
  .object <|
    member "@context" activity.context ++ [("actor", .string activity.actor)] ++
    member "cc" (activity.cc.map Json.strings) ++ [("id", .string activity.id)] ++
    member "object" activity.object ++ member "target" activity.target ++
    member "to" (activity.to_.map Json.strings) ++ [("type", .string activity.type_)]

end Activity

def activitystreamsContext : String := "https://www.w3.org/ns/activitystreams"

/-- `ActorUrlBuilder::new(base_url, account_nanoid).actor_id()`. -/
def localActorUrl (publicBaseUrl accountNanoid : String) : String :=
  trimEndSlashes publicBaseUrl ++ "/ap/accounts/" ++ accountNanoid

/-- The id of an activity that is named by a generated number. -/
def activityUrl (publicBaseUrl : String) (id : Int) : String :=
  trimEndSlashes publicBaseUrl ++ "/activities/" ++ toString id

/-- The members of a remote actor document that are read. -/
structure Actor where
  id : String
  preferredUsername : String
  inbox : String
  publicKeyPem : String
  deriving DecidableEq, Repr

end Emumet
