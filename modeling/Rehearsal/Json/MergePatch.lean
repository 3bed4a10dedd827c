import Rehearsal.Json.Basic

/-!
# Merge patches

A merge patch is a value that is laid over another one: objects are merged member by member, a
null member removes, and anything else replaces.

* `Json.mergePatch`: lays a patch over a value;
* `Json.mergeDiff`: the patch that leads from one value to another.
-/

namespace Rehearsal.Json

mutual

/-- Lays a merge patch over a value. -/
def mergePatch (doc : Json) : Json → Json
  | .obj patch =>
    match doc with
    | .obj members => .obj (mergeMembers members patch)
    | _ => .obj (mergeMembers [] patch)
  | patch => patch
termination_by structural patch => patch

/-- Lays the members of a merge patch over the members of an object. -/
def mergeMembers (members : List (String × Json)) : List (String × Json) → List (String × Json)
  | [] => members
  | (name, value) :: rest =>
    if value.isNull then mergeMembers (Assoc.erase name members) rest
    else
      let merged := mergePatch ((Assoc.get? name members).getD .null) value
      mergeMembers (Assoc.insert name merged members) rest
termination_by structural patch => patch

end

/-- The members of `added` that `present` does not have, put into `diff`. -/
def addNewMembers (present added diff : List (String × Json)) : List (String × Json) :=
  added.foldl (fun diff (name, value) =>
    if Assoc.contains name present then diff else Assoc.insert name value diff) diff

mutual

/-- The merge patch that leads from the first value to the second: of two objects the members
that differ, with null for a member that is gone; otherwise the second value. -/
def mergeDiff (before after : Json) : Json :=
  match before, after with
  | .obj old, .obj new => .obj (addNewMembers old new (changedMembers old new))
  | _, after => after
termination_by structural before

/-- The part of a merge patch for the members of the first object. -/
def changedMembers (old new : List (String × Json)) : List (String × Json) :=
  match old with
  | [] => []
  | (name, value) :: rest =>
    match Assoc.get? name new with
    | none => Assoc.insert name .null (changedMembers rest new)
    | some newValue =>
      if newValue.same value then changedMembers rest new
      else Assoc.insert name (mergeDiff value newValue) (changedMembers rest new)
termination_by structural old

end

end Rehearsal.Json
