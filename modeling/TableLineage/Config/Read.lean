import TableLineage.Config.Basic
import TableLineage.Config.Fault
import TableLineage.Yaml.Value

/-!
# Reading a configuration

A configuration is a YAML mapping.  Its events are read in order, and the first fault in its
structure counts, even if the text is malformed further on.  Any scalar can stand for a text.
-/

namespace TableLineage

open Yaml (Event EventKind Scalar)

namespace Config

/-! ## Single values -/

/-- The event that stands at a place, which is an earlier one for an alias. -/
def target (document : List Event) (event : Event) : Event :=
  match event.kind with
  | .repeated position => (document[position]?).getD event
  | _ => event

/-- The error that another kind of value is needed. -/
def mismatch (path needed : String) (event : Event) : ConfigTextError :=
  let found : Option String := match event.kind with
    | .scalar scalar => scalar.value?.map (·.description)
    | .sequenceStart _ => some "sequence"
    | .mappingStart _ => some "map"
    | _ => none
  match found with
  | some found => .structured ⟨.mismatch found needed, path, event.mark⟩
  | none => .malformed

/-- The text of a scalar. -/
def readText (document : List Event) (path needed : String) (event : Event) :
    Except ConfigTextError String :=
  let event := target document event
  match event.kind with
  | .scalar scalar => .ok scalar.text
  | _ => .error (mismatch path needed event)

/-- The text of a scalar that can be left out. -/
def readOptionalText (document : List Event) (path : String) (event : Event) :
    Except ConfigTextError (Option String) :=
  match (target document event).kind with
  | .scalar ⟨text, true, none⟩ => .ok (if text = "" ∨ Yaml.spellsNull text then none else some text)
  | .scalar ⟨text, true, some tag⟩ =>
    if tag ≠ Yaml.nullTag then .ok (some text)
    else if Yaml.spellsNull text then .ok none
    else .error .malformed
  | _ => (readText document path "a string" event).map some

/-- The tag of an event, if it is one of the document's own, without its exclamation mark. -/
def localTag? (event : Event) : Option String :=
  let tag : Option String := match event.kind with
    | .scalar scalar => scalar.tag
    | .sequenceStart tag | .mappingStart tag => tag
    | _ => none
  tag.bind fun tag => match tag.toList with
    | '!' :: c :: rest => some (String.ofList (c :: rest))
    | _ => none

/-- The dialect of a name. -/
def dialectNamed (path : String) (event : Event) (name : String) :
    Except ConfigTextError Sql.Dialect :=
  match Sql.Dialect.all.find? (·.name == name) with
  | some dialect => .ok dialect
  | none => .error (.structured ⟨.unknownDialect name, path, event.mark⟩)

/-- The dialect that is given by its name or as a tag of nothing. -/
def readDialect (document : List Event) (path : String) (event : Event) :
    Except ConfigTextError Sql.Dialect :=
  let event := target document event
  match localTag? event with
  | some name => do
    let dialect ← dialectNamed path event name
    match event.kind with
    | .scalar scalar =>
      if scalar.isPlain ∧ (scalar.text = "" ∨ Yaml.spellsNull scalar.text) then return dialect
      else throw .malformed
    | _ => throw (mismatch path "unit" event)
  | none =>
    match event.kind with
    | .scalar scalar => dialectNamed path event scalar.text
    | _ => .error (mismatch path "a YAML tag starting with '!'" event)

/-! ## Collections -/

/-- The path of a value in a mapping. -/
def pathOf (path key : String) : String :=
  if path = "" then key else path ++ "." ++ key

/-- The key as it shows in paths. -/
def keyInPath (event : Event) : String :=
  match event.kind with
  | .scalar scalar => scalar.text
  | _ => "?"

/-- The entries of a mapping from texts to texts, and the number of its events after the start. -/
def readEntries (document : List Event) (path : String) :
    List Event → Except ConfigTextError (List (String × String) × Nat)
  | [] => .error .malformed
  | [key] =>
    if key.kind = .mappingEnd then .ok ([], 1)
    else (readText document path "a string" key).bind fun _ => .error .malformed
  | key :: value :: rest =>
    if key.kind = .mappingEnd then .ok ([], 1)
    else do
      let name ← readText document path "a string" key
      let text ← readText document (pathOf path (keyInPath key)) "a string" value
      let (entries, count) ← readEntries document path rest
      return ((name, text) :: entries, count + 2)

/-- The items of a sequence of texts from a position on, and the number of events up to its end. -/
def readItems (document : List Event) (path : String) (index : Nat) :
    List Event → Except ConfigTextError (List String × Nat)
  | [] => .error .malformed
  | item :: rest =>
    if item.kind = .sequenceEnd then .ok ([], 1)
    else do
      let text ← readText document s!"{path}[{index}]" "a string" item
      let (items, count) ← readItems document path (index + 1) rest
      return (text :: items, count + 1)

/-- The events from a place on, which for an alias is an earlier one. -/
def eventsAt (document : List Event) (event : Event) (rest : List Event) : List Event :=
  match event.kind with
  | .repeated position => document.drop position
  | _ => event :: rest

/-- Whether an event is an empty plain scalar, which can stand for an empty collection. -/
def isNothing (event : Event) : Bool :=
  match event.kind with
  | .scalar scalar => scalar.isPlain && scalar.text == ""
  | _ => false

/-- The number of events of a value of which `count` stand at a place; an alias is one event. -/
def countAt (event : Event) (count : Nat) : Nat :=
  match event.kind with
  | .repeated _ => 1
  | _ => count

/-- The entries of a value that is a mapping, and the number of its events. -/
def readMapping (document : List Event) (path : String) (event : Event) (rest : List Event) :
    Except ConfigTextError (List (String × String) × Nat) :=
  match eventsAt document event rest with
  | [] => .error .malformed
  | first :: content =>
    match first.kind with
    | .mappingStart _ => do
      let (entries, count) ← readEntries document path content
      return (entries, countAt event (count + 1))
    | _ => if isNothing first then .ok ([], 1) else .error (mismatch path "a map" first)

/-- The items of a value that is a sequence, and the number of its events. -/
def readSequence (document : List Event) (path : String) (event : Event) (rest : List Event) :
    Except ConfigTextError (List String × Nat) :=
  match eventsAt document event rest with
  | [] => .error .malformed
  | first :: content =>
    match first.kind with
    | .sequenceStart _ => do
      let (items, count) ← readItems document path 0 content
      return (items, countAt event (count + 1))
    | _ => if isNothing first then .ok ([], 1) else .error (mismatch path "a sequence" first)

/-! ## The whole configuration -/

/-- Entries in ascending order of their keys with one more, which replaces one with the same key. -/
def putEntry (key value : String) : List (String × String) → List (String × String)
  | [] => [(key, value)]
  | (other, old) :: rest =>
    if key < other then (key, value) :: (other, old) :: rest
    else if key = other then (key, value) :: rest
    else (other, old) :: putEntry key value rest

/-- Entries in ascending order of their keys; of several with the same key the last counts. -/
def orderedEntries (entries : List (String × String)) : List (String × String) :=
  entries.foldl (fun ordered (key, value) => putEntry key value ordered) []

/-- The configuration with the value of a field, and the number of the value's events. -/
def readField (document : List Event) (config : Config) (field : ConfigField) (path : String)
    (event : Event) (rest : List Event) : Except ConfigTextError (Config × Nat) :=
  match field with
  | .sqlFolder => do
    return ({ config with sqlFolder := ← readText document path "a string" event }, 1)
  | .output => do
    return ({ config with output := ← readText document path "a string" event }, 1)
  | .ui => do return ({ config with ui := ← readOptionalText document path event }, 1)
  | .schema => do return ({ config with schema := ← readOptionalText document path event }, 1)
  | .dialect => do return ({ config with dialect := ← readDialect document path event }, 1)
  | .models => do
    let (entries, count) ← readMapping document path event rest
    return ({ config with models := orderedEntries entries }, count)
  | .exclude => do
    let (items, count) ← readSequence document path event rest
    return ({ config with exclude := items }, count)

/-- The configuration with the fields of a mapping that starts at a mark.  `seen` holds the fields
that are already read; the first `skip` events belong to the value of one of them. -/
def readFields (document : List Event) (start : Yaml.Mark) (config : Config)
    (seen : List ConfigField) : Nat → List Event → Except ConfigTextError Config
  | _, [] => .error .malformed
  | skip + 1, _ :: rest => readFields document start config seen skip rest
  | 0, key :: rest =>
    if key.kind = .mappingEnd then
      if .sqlFolder ∈ seen then .ok config
      else .error (.structured ⟨.missingField .sqlFolder, "", start⟩)
    else
      match readText document "" "field identifier" key with
      | .error error => .error error
      | .ok name =>
        match ConfigField.ofKey? name with
        | none => .error (.structured ⟨.unknownField name, "", (target document key).mark⟩)
        | some field =>
          if field ∈ seen then .error (.structured ⟨.repeatedField field, "", start⟩)
          else match rest with
            | [] => .error .malformed
            | value :: after =>
              match readField document config field (keyInPath key) value after with
              | .error error => .error error
              | .ok (config, count) => readFields document start config (field :: seen) count rest

/-- The configuration that a document's events hold. -/
def ofEvents (document : List Event) : Except ConfigTextError Config :=
  match document with
  | [] => .error .malformed
  | first :: content =>
    match first.kind with
    | .mappingStart _ => readFields document first.mark (ofFolder "") [] 0 content
    | .void => .error (.structured ⟨.missingField .sqlFolder, "", first.mark⟩)
    | _ =>
      if isNothing first then .error (.structured ⟨.missingField .sqlFolder, "", first.mark⟩)
      else .error (mismatch "" "struct Config" first)

/-- The configuration that a text holds. -/
def ofText (text : String) : Except ConfigTextError Config :=
  let document := Yaml.Document.ofText text
  match ofEvents document.events with
  | .error error => .error error
  | .ok config => if document.isWhole then .ok config else .error .malformed

end Config

/-! ## Reading and checking -/

/-- Why a text is not a usable configuration. -/
inductive ConfigError where
  | text (error : ConfigTextError)
  | invalid (error : InvalidConfig)
  deriving DecidableEq, Repr

/-- The text of an error. -/
def ConfigError.message : ConfigError → String
  | text error => error.message
  | invalid error => error.message

/-- The usable configuration that a text holds. -/
def Config.parse (text : String) : Except ConfigError Config :=
  match Config.ofText text with
  | .error error => .error (.text error)
  | .ok config =>
    match config.validate with
    | .error error => .error (.invalid error)
    | .ok config => .ok config

end TableLineage
