import Rehearsal.Operation
import Rehearsal.Path

/-!
# The index of operations

A catalog holds operations by id together with the file that describes them, and knows which
operations an example fixture belongs to. An index is a catalog of its own and further catalogs
under tags.

* `Catalog.register`: adds an operation; an id may be registered once;
* `Catalog.operationsForFixture`: the operations of a fixture, however its path is spelled;
* `OperationIndex.lookup`: finds an operation, in a tagged catalog if a tag is given;
* `OperationIndex.ofDocument?`: reads an index document.
-/

namespace Rehearsal

/-- Why an operation cannot be registered or found. -/
inductive IndexError where
  /-- The id is registered already. -/
  | duplicate (id first second : String)
  /-- No operation has the id. -/
  | notFound (id : String)
  /-- No catalog has the tag. -/
  | unknownTag (tag : String)
deriving DecidableEq

/-- The wording of an error. -/
def IndexError.message : IndexError → String
  | .duplicate id first second => "duplicate operation id '" ++ id ++ "' in " ++ first ++ " and " ++ second
  | .notFound id => "operation '" ++ id ++ "' not found"
  | .unknownTag tag => "no external reference index registered for tag '" ++ tag ++ "'"

/-- An operation and the file that describes it. -/
structure Registered where
  /-- The operation. -/
  operation : Operation
  /-- The file. -/
  source : String
deriving Inhabited

/-- Operations by id, and the fixtures that belong to them. -/
structure Catalog where
  /-- The operations. -/
  operations : Dict Registered := ∅
  /-- The ids that belong to a fixture, by the normal form of its path. -/
  fixtures : Dict (Dict Unit) := ∅
  /-- The files, in the order of their first use. -/
  specFiles : List String := []
deriving Inhabited

namespace Catalog

/-- Lets a fixture belong to an operation. -/
def registerFixture (catalog : Catalog) (path id : String) : Catalog :=
  let key := Path.normalText path
  let ids := (catalog.fixtures.get? key).getD ∅
  { catalog with fixtures := catalog.fixtures.insert key (ids.insert id ()) }

/-- Adds an operation together with its examples. -/
def register (catalog : Catalog) (file : String) (op : Operation) : Except IndexError Catalog :=
  match catalog.operations.get? op.id with
  | some first => .error (.duplicate op.id first.source file)
  | none =>
    let catalog := op.examples.foldl (fun catalog path => catalog.registerFixture path op.id) catalog
    let specFiles := catalog.specFiles
    .ok { catalog with
      operations := catalog.operations.insert op.id ⟨op, file⟩
      specFiles := if specFiles.contains file then specFiles else specFiles ++ [file] }

/-- The operation of an id. -/
def get? (catalog : Catalog) (id : String) : Option Operation :=
  (catalog.operations.get? id).map (·.operation)

/-- The file that describes an operation. -/
def source? (catalog : Catalog) (id : String) : Option String :=
  (catalog.operations.get? id).map (·.source)

/-- The operation of an id, which has to be there. -/
def find (catalog : Catalog) (id : String) : Except IndexError Operation :=
  (catalog.get? id).elim (.error (.notFound id)) .ok

/-- The ids that belong to a fixture, in ascending order. -/
def operationsForFixture (catalog : Catalog) (path : String) : List String :=
  ((catalog.fixtures.get? (Path.normalText path)).getD ∅).names

/-- How many operations there are. -/
def size (catalog : Catalog) : Nat := catalog.operations.size

/-- Registers the operations of several files. -/
def ofSpecs (specs : List (String × List Operation)) : Except IndexError Catalog :=
  specs.foldlM (fun catalog (file, operations) =>
    operations.foldlM (fun catalog op => catalog.register file op) catalog) {}

end Catalog

/-- A catalog and further catalogs under tags. -/
structure OperationIndex where
  /-- The operations that need no tag. -/
  own : Catalog := {}
  /-- The catalogs under tags. -/
  external : Dict Catalog := ∅
deriving Inhabited

namespace OperationIndex

/-- Puts a catalog under a tag. -/
def addExternal (index : OperationIndex) (tag : String) (catalog : Catalog) : OperationIndex :=
  { index with external := index.external.insert tag catalog }

/-- The catalog of a tag, or the one that needs no tag. -/
def catalog (index : OperationIndex) : Option String → Except IndexError Catalog
  | none => .ok index.own
  | some tag => (index.external.get? tag).elim (.error (.unknownTag tag)) .ok

/-- The operation of an id in the catalog of a tag. -/
def lookup (index : OperationIndex) (id : String) (tag : Option String) : Except IndexError Operation := do
  (← index.catalog tag).find id

/-- An index document: operations by file, and the same under tags. -/
structure Document where
  /-- The operations that need no tag. -/
  specs : List (String × List Operation) := []
  /-- The operations under tags. -/
  external : Dict (List (String × List Operation)) := ∅
deriving Inhabited

/-- Reads the operations of a file. -/
def specOfJson? (json : Json) : Option (String × List Operation) := do
  let fields ← json.record? ["file"] ["operations"]
  return (← fields.required "file" Json.str?,
    ← fields.withDefault "operations" [] (Json.listOf? Operation.ofJson?))

/-- Reads an index document. -/
def Document.ofJson? (json : Json) : Option Document := do
  let fields ← json.record? [] ["specs", "external"]
  return { specs := ← fields.withDefault "specs" [] (Json.listOf? specOfJson?),
           external := ← fields.withDefault "external" ∅ (Json.dictOf? (Json.listOf? specOfJson?)) }

/-- Registers all operations of an index document. -/
def ofDocument (document : Document) : Except IndexError OperationIndex := do
  let own ← Catalog.ofSpecs document.specs
  let external ← document.external.mapM fun _ specs => Catalog.ofSpecs specs
  return { own, external }

end OperationIndex

end Rehearsal
