/-!
# File paths

A path is a list of parts, rooted or not. Repeated slashes and `.` parts do not count; the
normal form also folds every `..` into the part in front of it.

* `Path.parse`, `Path.toText`: the written form;
* `Path.normalize`: the normal form;
* `Path.resolve`: a path as seen from a directory.
-/

namespace Rehearsal

/-- A path without its empty and `.` parts. -/
structure Path where
  /-- Whether the path starts at the root. -/
  absolute : Bool
  /-- The parts from left to right. -/
  parts : List String
deriving DecidableEq, Inhabited

namespace Path

/-- Whether a written part counts. -/
def counts (part : String) : Bool := part != "" && part != "."

/-- Reads a written path. -/
def parse (text : String) : Path :=
  { absolute := text.startsWith "/", parts := (text.splitOn "/").filter counts }

/-- The written form, without a trailing slash. -/
def toText (path : Path) : String :=
  (if path.absolute then "/" else "") ++ "/".intercalate path.parts

/-- Appends a part to normal parts in reverse: `..` takes the part in front away, is dropped at
the root and stays at the front of a relative path. -/
def push (absolute : Bool) (reversed : List String) (part : String) : List String :=
  if part = ".." then
    match reversed with
    | last :: rest => if last = ".." then (if absolute then reversed else part :: reversed) else rest
    | [] => if absolute then [] else [part]
  else part :: reversed

/-- Folds every `..` into the part in front of it. -/
def normalize (path : Path) : Path :=
  { path with parts := (path.parts.foldl (push path.absolute) []).reverse }

/-- The path of a directory's entry; an absolute entry stands for itself. -/
def join (directory entry : Path) : Path :=
  if entry.absolute then entry else { directory with parts := directory.parts ++ entry.parts }

/-- The directory that holds the last part; the root and the empty path have none. -/
def parent? (path : Path) : Option Path :=
  if path.parts.isEmpty then none else some { path with parts := path.parts.dropLast }

/-- The last part, if it names a file. -/
def fileName? (path : Path) : Option String :=
  match path.parts.getLast? with
  | some name => if name = ".." then none else some name
  | none => none

/-- The name of a file before and after its last dot, unless that dot starts the name. -/
def splitExtension (name : String) : String × Option String :=
  let reversed := name.toList.reverse
  let after := reversed.takeWhile (· != '.')
  match reversed.dropWhile (· != '.') with
  | _dot :: before =>
    if before.isEmpty then (name, none)
    else (String.ofList before.reverse, some (String.ofList after.reverse))
  | [] => (name, none)

/-- What follows the last dot of the file name. -/
def extension? (path : Path) : Option String :=
  path.fileName? >>= fun name => (splitExtension name).2

/-- The file name without its extension. -/
def stem? (path : Path) : Option String :=
  path.fileName?.map fun name => (splitExtension name).1

/-- The normal form of `path` as seen from `directory`. -/
def resolve (directory : Option Path) (path : Path) : Path :=
  match directory with
  | some directory => (directory.join path).normalize
  | none => path.normalize

/-- The normal form of a written path. -/
def normalText (text : String) : String := (parse text).normalize.toText

end Path

end Rehearsal
