import Rehearsal.Json.Basic

/-!
# Reading and writing the fields of a record

Records of a known shape are read field by field. A field may be required, optional (absent and
null mean the same) or have a default (absent means the default, null is refused).

A document may give a record in two forms: as an object with the fields under their names, where
fields that nobody asks for are ignored, or as an array of the fields in their order, which may end
early.

* `Json.record?`: the fields of a record in either form;
* `Json.tagged?`: the same for a record of one of several kinds, which says its kind;
* `Json.constant?`: the name of a thing that has no fields;
* `Fields.required`, `Fields.optional`, `Fields.withDefault`: one field.
-/

namespace Rehearsal

/-- The fields of a record under their names, as they are looked up while it is read. -/
abbrev Fields := List (String × Json)

namespace Fields

variable {α : Type}

/-- Reads a field that has to be there. -/
def required (fields : Fields) (name : String) (read : Json → Option α) : Option α :=
  Assoc.get? name fields >>= read

/-- Reads a field that may be absent or null. -/
def optional (fields : Fields) (name : String) (read : Json → Option α) : Option (Option α) :=
  match Assoc.get? name fields with
  | none | some .null => some none
  | some value => (read value).map some

/-- Reads a field that may be absent. -/
def withDefault (fields : Fields) (name : String) (default : α) (read : Json → Option α) : Option α :=
  match Assoc.get? name fields with
  | none => some default
  | some value => read value

/-- Lets a field have a second spelling, of which at most one may be used; it is moved to the
first. -/
def unify (fields : Fields) (name other : String) : Option Fields :=
  match Assoc.get? name fields, Assoc.get? other fields with
  | some _, some _ => none
  | none, some value => some (Assoc.insert name value (Assoc.erase other fields))
  | _, none => some fields

/-- The members that are not among the given names. -/
def without (fields : Fields) (names : List String) : Fields :=
  fields.filter fun field => !names.contains field.1

end Fields

namespace Json

variable {α : Type}

/-- The fields of a value, if it is an object. A record that keeps further members has no other form. -/
def fields? (json : Json) : Option Fields := json.members?

/-- The fields of a record: the members of an object, or the items of an array under the names of
the fields. An array has all the fields in `needed`; those in `more` may be left out from the end. -/
def record? (needed more : List String) : Json → Option Fields
  | .obj members => some members
  | .arr items =>
    if needed.length ≤ items.length ∧ items.length ≤ (needed ++ more).length then
      some ((needed ++ more).zip items)
    else none
  | _ => none

/-- The kind of a record of several kinds, with its fields. An object says its kind in the member
called `tag`, an array in its first item, behind which the fields of that kind follow. -/
def tagged? (tag : String) (readKind : Json → Option α) (names : α → List String) :
    Json → Option (α × Fields)
  | .obj members => do return (← Fields.required members tag readKind, members)
  | .arr (first :: rest) => do
    let kind ← readKind first
    return (kind, ← (Json.arr rest).record? [] (names kind))
  | _ => none

/-- The name of a thing that has no fields: a text, or an object that has null under the name. -/
def constant? : Json → Option String
  | .str name | .obj [(name, .null)] => some name
  | _ => none

/-- Reads an array item by item. -/
def listOf? (read : Json → Option α) (json : Json) : Option (List α) :=
  json.items? >>= fun items => items.mapM read

/-- Reads an object as a dictionary, member by member. -/
def dictOf? (read : Json → Option α) (json : Json) : Option (Dict α) :=
  json.dict? >>= fun dict => dict.mapM fun _ value => read value

/-- Reads an array of strings. -/
def strings? : Json → Option (List String) := listOf? str?

/-- The object that has the fields with a value. -/
def ofFields (fields : List (String × Option Json)) : Json :=
  ofMembers (fields.filterMap fun (name, value) => value.map (name, ·))

/-- The object of a dictionary whose values are written one by one. -/
def ofDictWith (write : α → Json) (dict : Dict α) : Json :=
  .obj (dict.mapValues fun _ value => write value).entries

/-- The array of a list whose items are written one by one. -/
def ofListWith (write : α → Json) (items : List α) : Json := .arr (items.map write)

end Json

end Rehearsal
