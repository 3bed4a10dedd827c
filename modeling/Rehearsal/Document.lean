import Rehearsal.Dict
import Rehearsal.Path
import Rehearsal.Json.Parser
import Rehearsal.Json.Printer
import Rehearsal.Yaml.Document

/-!
# Documents and the files that hold them

A file called `yaml` or `yml` holds a YAML document, every other file a JSON document.

* `Document.parse`: the value of a document;
* `Files`: where texts are read from, and `Files.inMemory`, which finds a text under every
  spelling of its path;
* `Files.document`: reads a file as a document.
-/

namespace Rehearsal

/-- Why a file cannot be used. -/
inductive LoadCause where
  /-- There is no such file. -/
  | missing
  /-- The system refused, with its own wording. -/
  | refused (reason : String)
  /-- The content is not what it should be. -/
  | malformed
deriving DecidableEq

/-- The wording of a cause. -/
def LoadCause.message : LoadCause → String
  | .missing => "file not found"
  | .refused reason => reason
  | .malformed => "invalid"

namespace Document

/-- Whether a path names a YAML document. -/
def isYaml (path : String) : Bool :=
  match (Path.parse path).extension? with
  | some ending => ending == "yaml" || ending == "yml"
  | none => false

/-- The value of a document; its path decides how it is read. -/
def parse (path content : String) : Option Json :=
  if isYaml path then Yaml.parse content else Json.parse content

end Document

/-- A place that texts are read from by path. -/
structure Files where
  /-- The text under a path. -/
  read : String → Except LoadCause String

namespace Files

/-- Puts a text under a path, in place of an earlier one under the same normal form. -/
def store (texts : Dict String) (path content : String) : Dict String :=
  texts.insert (Path.normalText path) content

/-- Files kept under the normal forms of their paths. -/
def inMemory (texts : Dict String) : Files where
  read path := (texts.get? (Path.normalText path)).elim (.error .missing) .ok

/-- Reads a file as a document. -/
def document (files : Files) (path : String) : Except LoadCause Json := do
  let content ← files.read path
  (Document.parse path content).elim (.error .malformed) .ok

end Files

end Rehearsal
