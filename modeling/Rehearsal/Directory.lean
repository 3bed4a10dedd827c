import Rehearsal.Document

/-!
# Directories

A directory holds files by path, and a path is followed part by part as a file system does: what
stands in front of a slash has to be a directory. Around it are other directories, of which nothing
else is known.

* `Directory.follow`: where a path leads;
* `Directory.files`: the directory as a place that texts are read from.
-/

namespace Rehearsal

/-- Why a file system does not give the text of a file. -/
inductive SystemError where
  /-- There is nothing of that name. -/
  | notFound
  /-- The file may not be read. -/
  | denied
  /-- A part of the path is no directory. -/
  | notADirectory
  /-- The path leads to a directory. -/
  | isADirectory
  /-- The path or a part of it is longer than the system allows. -/
  | nameTooLong
deriving DecidableEq

/-- The wording of an error, with its number. -/
def SystemError.text : SystemError → String
  | .notFound => "No such file or directory (os error 2)"
  | .denied => "Permission denied (os error 13)"
  | .notADirectory => "Not a directory (os error 20)"
  | .isADirectory => "Is a directory (os error 21)"
  | .nameTooLong => "File name too long (os error 36)"

/-- Files by the parts of their paths. -/
structure Directory where
  /-- The files. -/
  entries : List (List String × String) := []
deriving Inhabited

namespace Directory

/-- What a path can lead to. -/
inductive Entry where
  /-- A file with its text. -/
  | file (text : String)
  /-- A directory. -/
  | directory
deriving DecidableEq

/-- Puts a text under a path, in place of an earlier one. -/
def store (dir : Directory) (path content : String) : Directory :=
  let parts := (Path.parse path).normalize.parts
  { entries := (parts, content) :: dir.entries.filter fun entry => entry.1 != parts }

/-- How many bytes a part of a path may have. -/
def partLimit : Nat := 255

/-- How many bytes a path may have. -/
def pathLimit : Nat := 4095

/-- What stands at a place. A place is given by the parts that lead to it from the directory, of
which only the first may be `..`; those lead to the directories around it. -/
def entry? (dir : Directory) (place : List String) : Option Entry :=
  match dir.entries.find? fun entry => entry.1 == place with
  | some (_, text) => some (.file text)
  | none =>
    if place.all (· == "..") || dir.entries.any fun entry => place.isPrefixOf entry.1 then
      some .directory
    else none

/-- Where the written parts of a path lead from a place. -/
def follow (dir : Directory) (place : List String) : List String → Except SystemError (List String)
  | [] => .ok place
  | part :: rest =>
    match dir.entry? place with
    | none => .error .notFound
    | some (.file _) => .error .notADirectory
    | some .directory =>
      if part = "" || part = "." then dir.follow place rest
      else if part = ".." then
        dir.follow (if place.all (· == "..") then ".." :: place else place.dropLast) rest
      else if part.utf8ByteSize > partLimit then .error .nameTooLong
      else dir.follow (place ++ [part]) rest

/-- Why a path from the root leads to no file: the root is a directory, and nothing is known of
what it holds. -/
def refuseRooted (parts : List String) : SystemError :=
  match parts.find? fun part => part != "" && part != "." && part != ".." with
  | none => .isADirectory
  | some part => if part.utf8ByteSize > partLimit then .nameTooLong else .notFound

/-- The text under a path. -/
def read (dir : Directory) (path : String) : Except SystemError String :=
  if path = "" then .error .notFound
  else if path.utf8ByteSize > pathLimit then .error .nameTooLong
  else if path.startsWith "/" then .error (refuseRooted (path.splitOn "/"))
  else do
    match dir.entry? (← dir.follow [] (path.splitOn "/")) with
    | some (.file text) => return text
    | some .directory => throw .isADirectory
    | none => throw .notFound

/-- The directory as a place that texts are read from. A path with a null character is no path. -/
def files (dir : Directory) : Files where
  read path :=
    if path.contains '\x00' then .error .malformed
    else (dir.read path).mapError fun e => .refused e.text

end Directory

end Rehearsal
