import Rehearsal.Json.Fields
import Rehearsal.Json.Pointer

/-!
# JSON patches

A patch is a list of edits that are made one after the other. A patch is read as a whole before
any edit is made, so a malformed edit anywhere makes the patch invalid and changes nothing.

* `Edit.ofJson?`: reads an edit;
* `Edit.apply`: makes one edit;
* `Patch.apply`: reads a patch and makes its edits, naming the first that fails.
-/

namespace Rehearsal

/-- One edit of a JSON value. Paths are kept as written. -/
inductive Edit where
  /-- Adds a member, or an item in front of an index, or at the end for the step `-`. -/
  | add (path : String) (value : Json)
  /-- Removes a part. -/
  | remove (path : String)
  /-- Replaces a part. -/
  | replace (path : String) (value : Json)
  /-- Removes a part and adds it elsewhere. -/
  | move (source path : String)
  /-- Adds a copy of a part elsewhere. -/
  | copy (source path : String)
  /-- Checks that a part has a value. -/
  | test (path : String) (value : Json)

/-- Why an edit cannot be made. -/
inductive EditError where
  /-- The path leads nowhere. -/
  | path
  /-- The path of the part to move or copy leads nowhere. -/
  | source
  /-- The part has another value. -/
  | mismatch
  /-- The part would be moved into itself. -/
  | insideItself
deriving DecidableEq

/-- The wording of an edit's failure. -/
def EditError.message : EditError → String
  | .path => "path is invalid"
  | .source => "\"from\" path is invalid"
  | .mismatch => "value did not match"
  | .insideItself => "cannot move the value inside itself"

/-- Why a patch cannot be applied. -/
inductive PatchError where
  /-- Some edit is malformed. -/
  | invalid
  /-- The edit at `index` failed at `path`. -/
  | failed (index : Nat) (path : String) (cause : EditError)
deriving DecidableEq

/-- The wording of a patch's failure. -/
def PatchError.message : PatchError → String
  | .invalid => "invalid patch"
  | .failed index path cause =>
    "Operation '/" ++ toString index ++ "' failed at path '" ++ path ++ "': " ++ cause.message

namespace Edit

/-- The path of the part that an edit changes or checks. -/
def path : Edit → String
  | .add path _ | .remove path | .replace path _ | .move _ path | .copy _ path | .test path _ => path

/-- The names of the fields of an edit of a kind, in the order in which an array has them. -/
def fieldNames : String → List String
  | "remove" => ["path"]
  | "move" | "copy" => ["from", "path"]
  | _ => ["path", "value"]

/-- Reads an edit; members that its kind does not have are ignored. -/
def ofJson? (json : Json) : Option Edit := do
  let (kind, fields) ← json.tagged? "op" Json.str? fieldNames
  let path ← fields.required "path" Json.str?
  match kind with
  | "add" => return .add path (← fields.required "value" some)
  | "remove" => return .remove path
  | "replace" => return .replace path (← fields.required "value" some)
  | "move" => return .move (← fields.required "from" Json.str?) path
  | "copy" => return .copy (← fields.required "from" Json.str?) path
  | "test" => return .test path (← fields.required "value" some)
  | _ => none

/-- Adds a value as the last step of a pointer says. -/
def addStep (value : Json) (step : String) (container : Json) : Option Json :=
  match container with
  | .obj members => some (.obj (Assoc.insert step value members))
  | .arr items =>
    if step = "-" then some (.arr (items ++ [value]))
    else do
      let i ← Pointer.index? step
      if i ≤ items.length then some (.arr (items.insertIdx i value)) else none
  | _ => none

/-- Removes the member or item a step leads to. -/
def removeStep (step : String) (container : Json) : Option Json := do
  let _ ← container.step? step
  match container with
  | .obj members => some (.obj (Assoc.erase step members))
  | .arr items => (Pointer.index? step).map fun i => .arr (items.eraseIdx i)
  | _ => none

/-- Adds a value at a pointer; the empty pointer replaces the whole document. -/
def addAt (doc value : Json) (pointer : Pointer) : Option Json :=
  match pointer.getLast? with
  | none => some value
  | some step => doc.modifyAt? pointer.dropLast (addStep value step)

/-- Removes the part at a pointer, which may not be the whole document. -/
def removeAt (doc : Json) (pointer : Pointer) : Option Json := do
  let step ← pointer.getLast?
  doc.modifyAt? pointer.dropLast (removeStep step)

/-- Whether `path` is a proper part of what `source` leads to. -/
def isInside (source path : String) : Bool := (source.toList ++ ['/']).isPrefixOf path.toList

/-- Makes one edit. -/
def apply (doc : Json) : Edit → Except EditError Json
  | .add path value => ((Pointer.parse path >>= addAt doc value).elim (.error .path) .ok)
  | .remove path => (Pointer.parse path >>= removeAt doc).elim (.error .path) .ok
  | .replace path value =>
    (Pointer.parse path >>= fun p => doc.modifyAt? p fun _ => some value).elim (.error .path) .ok
  | .move source path =>
    if isInside source path then .error .insideItself
    else
      match Pointer.parse source >>= fun p => do return (← doc.partAt? p, ← removeAt doc p) with
      | none => .error .source
      | some (part, doc) => (Pointer.parse path >>= addAt doc part).elim (.error .path) .ok
  | .copy source path =>
    match Pointer.parse source >>= doc.partAt? with
    | none => .error .source
    | some part => (Pointer.parse path >>= addAt doc part).elim (.error .path) .ok
  | .test path value =>
    match Pointer.parse path >>= doc.partAt? with
    | none => .error .path
    | some part => if part.same value then .ok doc else .error .mismatch

end Edit

namespace Patch

/-- Makes edits in order; `index` is the place of the first in its patch. -/
def applyEdits (index : Nat) (doc : Json) : List Edit → Except PatchError Json
  | [] => .ok doc
  | edit :: rest =>
    match edit.apply doc with
    | .ok doc => applyEdits (index + 1) doc rest
    | .error cause => .error (.failed index edit.path cause)

/-- Reads a patch and makes its edits. -/
def apply (doc : Json) (patch : List Json) : Except PatchError Json :=
  match patch.mapM Edit.ofJson? with
  | some edits => applyEdits 0 doc edits
  | none => .error .invalid

end Patch

end Rehearsal
