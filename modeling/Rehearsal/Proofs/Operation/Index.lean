import Mathlib.Data.List.Infix
import Rehearsal.Operation.Index
import Rehearsal.Proofs.Dict

/-!
# What an index holds after calls

An index keeps the same registrations in three places: operations with their files by id, ids by
fixture and the files in the order of their use. A registration that comes first of its id changes
all of them, a later one none (`Catalog.register_eq_ok`, `Catalog.register_eq_error`), and fixtures
may be added by themselves. After any calls each place is what the calls of the past say by themselves:
`OperationIndex.firstOf` is what was registered first under an id and `OperationIndex.firsts` lists
those registrations. `OperationIndex.records_perform` puts the answers together
(`OperationIndex.Records`), by induction over the calls from what one call adds
(`OperationIndex.Holds.act`).
-/

namespace Rehearsal

/-! ## What one call changes -/

namespace Catalog

variable {catalog catalog' : Catalog} {file : String} {op : Operation} {id : String}

theorem mem_operationsForFixture_iff {path : String} :
    id ∈ catalog.operationsForFixture path ↔
      ((catalog.fixtures.get? (Path.normalText path)).getD ∅).contains id :=
  Dict.mem_names_iff

/-- A fixture is found under every spelling of its path, and under no other path. -/
theorem mem_operationsForFixture_registerFixture (catalog : Catalog) (fixture owner path id : String) :
    id ∈ (catalog.registerFixture fixture owner).operationsForFixture path ↔
      (id = owner ∧ Path.normalText fixture = Path.normalText path) ∨
        id ∈ catalog.operationsForFixture path := by
  rw [mem_operationsForFixture_iff, mem_operationsForFixture_iff, registerFixture, Dict.get?_insert]
  by_cases h : Path.normalText fixture = Path.normalText path
  · rw [if_pos h.symm, Option.getD_some, Dict.contains_insert, h]
    simp
  · rw [if_neg (Ne.symm h)]
    simp [h]

/-- Lets several fixtures belong to an operation. -/
def registerFixtures (catalog : Catalog) (paths : List String) (id : String) : Catalog :=
  paths.foldl (fun catalog path => catalog.registerFixture path id) catalog

@[simp] theorem operations_registerFixtures (catalog : Catalog) (paths : List String) (id : String) :
    (catalog.registerFixtures paths id).operations = catalog.operations := by
  induction paths generalizing catalog with
  | nil => rfl
  | cons path paths ih => exact ih (catalog.registerFixture path id)

@[simp] theorem specFiles_registerFixtures (catalog : Catalog) (paths : List String) (id : String) :
    (catalog.registerFixtures paths id).specFiles = catalog.specFiles := by
  induction paths generalizing catalog with
  | nil => rfl
  | cons path paths ih => exact ih (catalog.registerFixture path id)

theorem mem_operationsForFixture_registerFixtures (catalog : Catalog) (fixtures : List String)
    (owner path id : String) :
    id ∈ (catalog.registerFixtures fixtures owner).operationsForFixture path ↔
      (id = owner ∧ ∃ fixture ∈ fixtures, Path.normalText fixture = Path.normalText path) ∨
        id ∈ catalog.operationsForFixture path := by
  induction fixtures generalizing catalog with
  | nil => simp [registerFixtures]
  | cons fixture fixtures ih =>
    rw [show catalog.registerFixtures (fixture :: fixtures) owner =
      (catalog.registerFixture fixture owner).registerFixtures fixtures owner from rfl, ih,
      mem_operationsForFixture_registerFixture, List.exists_mem_cons_iff, and_or_left, or_assoc,
      or_left_comm]

theorem register_eq_error {first : Registered} (h : catalog.operations.get? op.id = some first) :
    catalog.register file op = .error (.duplicate op.id first.source file) := by
  rw [register, h]

theorem register_eq_ok (h : catalog.operations.get? op.id = none) :
    catalog.register file op = .ok { catalog.registerFixtures op.examples op.id with
      operations := catalog.operations.insert op.id ⟨op, file⟩
      specFiles := if file ∈ catalog.specFiles then catalog.specFiles
        else catalog.specFiles ++ [file] } := by
  have hfold : op.examples.foldl (fun catalog path => catalog.registerFixture path op.id) catalog =
      catalog.registerFixtures op.examples op.id := rfl
  simp [register, h, hfold]

end Catalog

namespace OperationIndex

/-- A call that changes an index. -/
inductive Action where
  /-- Registers an operation that a file describes. -/
  | register (file : String) (op : Operation)
  /-- Lets a fixture belong to an id. -/
  | registerFixture (path id : String)
  /-- Puts a catalog under a tag. -/
  | addExternal (tag : String) (catalog : Catalog)

/-- The index after a call; a registration that is refused leaves it as it was. -/
def act (index : OperationIndex) : Action → OperationIndex
  | .register file op => { index with own := (index.own.register file op).toOption.getD index.own }
  | .registerFixture path id => { index with own := index.own.registerFixture path id }
  | .addExternal tag catalog => index.addExternal tag catalog

/-- The index after calls. -/
def perform (actions : List Action) : OperationIndex := actions.foldl act {}

/-! ## What the calls of the past say -/

/-- The registrations among calls. -/
def registrations (actions : List Action) : List Registered :=
  actions.filterMap fun
    | .register file op => some ⟨op, file⟩
    | _ => none

/-- The registrations that come first of their id. -/
def firsts : List Registered → List Registered
  | [] => []
  | first :: rest =>
    first :: (firsts rest).filter fun other => other.operation.id ≠ first.operation.id

/-- The registration that comes first of an id. -/
def firstOf (actions : List Action) (id : String) : Option Registered :=
  (registrations actions).find? fun registered => registered.operation.id = id

/-- The catalog that was put under a tag last. -/
def lastOf (actions : List Action) (tag : String) : Option Catalog :=
  (actions.filterMap fun
    | .addExternal other catalog => if other = tag then some catalog else none
    | _ => none).getLast?

/-- A fixture belongs to an id: it is an example of the operation that was registered first, or was
added for the id, in any spelling. -/
def Belongs (actions : List Action) (path id : String) : Prop :=
  (∃ first, firstOf actions id = some first ∧
    ∃ fixture ∈ first.operation.examples, Path.normalText fixture = Path.normalText path) ∨
  ∃ fixture, .registerFixture fixture id ∈ actions ∧ Path.normalText fixture = Path.normalText path

section History

variable {actions : List Action} {file id path : String} {op : Operation}

theorem eraseDups_concat (files : List String) (file : String) :
    (files ++ [file]).eraseDups =
      if file ∈ files.eraseDups then files.eraseDups else files.eraseDups ++ [file] := by
  rw [List.eraseDups_append]
  by_cases h : file ∈ files
  · simp [h, List.removeAll]
  · simp [h, List.removeAll, List.eraseDups_cons]

theorem firsts_concat (all : List Registered) (last : Registered) :
    firsts (all ++ [last]) = firsts all ++
      if all.any fun registered => registered.operation.id = last.operation.id then [] else [last] := by
  induction all with
  | nil => rfl
  | cons first all ih =>
    rw [List.cons_append, firsts, ih, firsts, List.filter_append, List.cons_append, List.any_cons]
    by_cases heq : first.operation.id = last.operation.id
    · by_cases hany : all.any fun registered => registered.operation.id = last.operation.id <;>
        simp [heq, hany]
    · by_cases hany : all.any fun registered => registered.operation.id = last.operation.id <;>
        simp [heq, hany, Ne.symm heq]

@[simp] theorem registrations_register :
    registrations (actions ++ [.register file op]) = registrations actions ++ [⟨op, file⟩] := by
  simp [registrations]

@[simp] theorem registrations_registerFixture :
    registrations (actions ++ [.registerFixture path id]) = registrations actions := by
  simp [registrations]

@[simp] theorem registrations_addExternal {tag : String} {catalog : Catalog} :
    registrations (actions ++ [.addExternal tag catalog]) = registrations actions := by
  simp [registrations]

@[simp] theorem lastOf_register {tag : String} :
    lastOf (actions ++ [.register file op]) tag = lastOf actions tag := by
  simp [lastOf]

@[simp] theorem lastOf_registerFixture {tag : String} :
    lastOf (actions ++ [.registerFixture path id]) tag = lastOf actions tag := by
  simp [lastOf]

theorem lastOf_addExternal {tag other : String} {catalog : Catalog} :
    lastOf (actions ++ [.addExternal tag catalog]) other =
      if other = tag then some catalog else lastOf actions other := by
  rw [lastOf, List.filterMap_append]
  by_cases h : other = tag
  · simp [h]
  · simp [h, Ne.symm h, lastOf]

theorem firstOf_register : firstOf (actions ++ [.register file op]) id =
    (firstOf actions id).or (if op.id = id then some ⟨op, file⟩ else none) := by
  rw [firstOf, registrations_register, List.find?_append, firstOf]
  by_cases h : op.id = id <;> simp [h]

theorem firstOf_register_of_some {first : Registered} (h : firstOf actions op.id = some first) :
    firstOf (actions ++ [.register file op]) id = firstOf actions id := by
  rw [firstOf_register]
  by_cases hid : op.id = id
  · simp [← hid, h]
  · simp [hid]

theorem firstOf_register_of_none (h : firstOf actions op.id = none) :
    firstOf (actions ++ [.register file op]) id =
      if id = op.id then some ⟨op, file⟩ else firstOf actions id := by
  rw [firstOf_register]
  by_cases hid : id = op.id
  · simp [hid, h]
  · simp [hid, Ne.symm hid]

theorem firsts_register_of_some {first : Registered} (h : firstOf actions op.id = some first) :
    firsts (registrations (actions ++ [.register file op])) = firsts (registrations actions) := by
  have hany : (registrations actions).any fun registered => registered.operation.id = op.id := by
    have hid := List.find?_some h
    exact List.any_eq_true.2 ⟨first, List.mem_of_find?_eq_some h, hid⟩
  rw [registrations_register, firsts_concat, if_pos hany, List.append_nil]

theorem firsts_register_of_none (h : firstOf actions op.id = none) :
    firsts (registrations (actions ++ [.register file op])) =
      firsts (registrations actions) ++ [⟨op, file⟩] := by
  have hany : ¬(registrations actions).any fun registered => registered.operation.id = op.id := by
    simpa [firstOf, List.find?_eq_none] using h
  rw [registrations_register, firsts_concat, if_neg hany]

theorem belongs_iff_of_firstOf_eq {actions' : List Action}
    (hfirst : firstOf actions' id = firstOf actions id)
    (hfixture : ∀ fixture,
      .registerFixture fixture id ∈ actions' ↔ .registerFixture fixture id ∈ actions) :
    Belongs actions' path id ↔ Belongs actions path id := by
  simp only [Belongs, hfirst, hfixture]

theorem belongs_registerFixture (fixture owner : String) :
    Belongs (actions ++ [.registerFixture fixture owner]) path id ↔
      (id = owner ∧ Path.normalText fixture = Path.normalText path) ∨ Belongs actions path id := by
  simp only [Belongs, firstOf, registrations_registerFixture, List.mem_append, List.mem_singleton,
    Action.registerFixture.injEq, or_and_right, exists_or, and_assoc, exists_eq_left]
  exact or_assoc.symm.trans or_comm

theorem belongs_register_of_none (h : firstOf actions op.id = none) :
    Belongs (actions ++ [.register file op]) path id ↔
      (id = op.id ∧ ∃ fixture ∈ op.examples, Path.normalText fixture = Path.normalText path) ∨
        Belongs actions path id := by
  simp only [Belongs, firstOf_register_of_none h, List.mem_append, List.mem_singleton, reduceCtorEq,
    or_false]
  by_cases hid : id = op.id
  · simp [hid, h]
  · simp [hid]

end History

/-! ## What an index answers after calls -/

/-- The places of an index hold what calls say. -/
structure Holds (actions : List Action) (index : OperationIndex) : Prop where
  operations : ∀ id, index.own.operations.get? id = firstOf actions id
  specFiles : index.own.specFiles = ((firsts (registrations actions)).map (·.source)).eraseDups
  fixtures : ∀ path id, id ∈ index.own.operationsForFixture path ↔ Belongs actions path id
  external : ∀ tag, index.external.get? tag = lastOf actions tag

section Step

variable {actions : List Action} {index : OperationIndex}

theorem holds_nil : Holds [] {} where
  operations _ := rfl
  specFiles := rfl
  fixtures path id := iff_of_false List.not_mem_nil (by simp [Belongs, firstOf, registrations])
  external _ := rfl

theorem Holds.registerFixture (h : Holds actions index) (path id : String) :
    Holds (actions ++ [.registerFixture path id]) (index.act (.registerFixture path id)) where
  operations other := by rw [firstOf, registrations_registerFixture]; exact h.operations other
  specFiles := by rw [registrations_registerFixture]; exact h.specFiles
  fixtures other owner := by
    rw [belongs_registerFixture, ← h.fixtures]
    exact Catalog.mem_operationsForFixture_registerFixture index.own path id other owner
  external tag := lastOf_registerFixture.symm ▸ h.external tag

theorem Holds.addExternal (h : Holds actions index) (tag : String) (catalog : Catalog) :
    Holds (actions ++ [.addExternal tag catalog]) (index.act (.addExternal tag catalog)) where
  operations other := by rw [firstOf, registrations_addExternal]; exact h.operations other
  specFiles := by rw [registrations_addExternal]; exact h.specFiles
  fixtures path id := by
    have hbelongs : Belongs (actions ++ [.addExternal tag catalog]) path id ↔ Belongs actions path id :=
      belongs_iff_of_firstOf_eq (by simp [firstOf]) (by simp)
    rw [hbelongs]
    exact h.fixtures path id
  external other := by
    rw [lastOf_addExternal, ← h.external]
    exact Dict.get?_insert index.external tag other catalog

theorem Holds.register (h : Holds actions index) (file : String) (op : Operation) :
    Holds (actions ++ [.register file op]) (index.act (.register file op)) := by
  -- An id that was registered before is refused, and the call changes neither the index nor what the
  -- calls of the past say.
  cases hfirst : firstOf actions op.id with
  | some first =>
    have hrefused : index.act (.register file op) = index := by
      rw [act, Catalog.register_eq_error ((h.operations op.id).trans hfirst)]
      rfl
    rw [hrefused]
    refine ⟨fun id => ?_, ?_, fun path id => ?_, fun tag => ?_⟩
    · rw [firstOf_register_of_some hfirst, h.operations]
    · rw [firsts_register_of_some hfirst, h.specFiles]
    · rw [belongs_iff_of_firstOf_eq (firstOf_register_of_some hfirst) (by simp), h.fixtures]
    · exact lastOf_register.symm ▸ h.external tag
  | none =>
    rw [act, Catalog.register_eq_ok ((h.operations op.id).trans hfirst)]
    refine ⟨fun id => ?_, ?_, fun path id => ?_, fun tag => ?_⟩
    · rw [firstOf_register_of_none hfirst, ← h.operations]
      exact Dict.get?_insert index.own.operations op.id id ⟨op, file⟩
    · rw [firsts_register_of_none hfirst, List.map_append, List.map_singleton, eraseDups_concat,
        ← h.specFiles]
      rfl
    · rw [belongs_register_of_none hfirst, ← h.fixtures]
      exact Catalog.mem_operationsForFixture_registerFixtures index.own op.examples op.id path id
    · exact lastOf_register.symm ▸ h.external tag

theorem Holds.act (h : Holds actions index) (action : Action) :
    Holds (actions ++ [action]) (index.act action) := by
  cases action with
  | register file op => exact h.register file op
  | registerFixture path id => exact h.registerFixture path id
  | addExternal tag catalog => exact h.addExternal tag catalog

theorem holds_perform (actions : List Action) : Holds actions (perform actions) := by
  induction actions using List.reverseRecOn with
  | nil => exact holds_nil
  | append_singleton actions action ih =>
    rw [perform, List.foldl_append]
    exact ih.act action

end Step

/-- What an index answers, and what it does with the next registration, in terms of the calls that
made it. -/
structure Records (actions : List Action) (index : OperationIndex) : Prop where
  /-- An id is found if it was registered. -/
  known : ∀ id, (index.own.get? id).isSome ↔ ∃ file op, .register file op ∈ actions ∧ op.id = id
  /-- The operation is that of the first registration. -/
  operation : ∀ id, index.own.get? id = (firstOf actions id).map (·.operation)
  /-- The file is that of the first registration. -/
  source : ∀ id, index.own.source? id = (firstOf actions id).map (·.source)
  /-- A look-up without a tag finds the same, one with a tag what the catalog added last holds. -/
  lookup : ∀ id tag, index.lookup id tag = match tag with
    | none => (firstOf actions id).elim (.error (.notFound id)) fun first => .ok first.operation
    | some tag => (lastOf actions tag).elim (.error (.unknownTag tag)) fun catalog => catalog.find id
  /-- A second registration of an id is refused with both files and changes nothing. -/
  refused : ∀ file op first, firstOf actions op.id = some first →
    index.own.register file op = .error (.duplicate op.id first.source file) ∧
      index.act (.register file op) = index
  /-- A first registration of an id is not refused. -/
  accepted : ∀ file op, firstOf actions op.id = none → ∃ own, index.own.register file op = .ok own
  /-- The files of the first registrations are listed once each, in the order of their first use. -/
  specFiles : index.own.specFiles = ((firsts (registrations actions)).map (·.source)).eraseDups
  /-- The ids of a fixture ascend, so none stands twice. -/
  ascending : ∀ path, (index.own.operationsForFixture path).Pairwise (· < ·)
  /-- The ids of a fixture are those that it belongs to. -/
  fixtures : ∀ path id, id ∈ index.own.operationsForFixture path ↔ Belongs actions path id

theorem isSome_firstOf_iff {actions : List Action} {id : String} :
    (firstOf actions id).isSome ↔ ∃ file op, .register file op ∈ actions ∧ op.id = id := by
  rw [firstOf, List.find?_isSome]
  constructor
  · rintro ⟨registered, hmem, hid⟩
    obtain ⟨action, haction, heq⟩ := List.mem_filterMap.1 hmem
    cases action with
    | register file op =>
      cases heq
      exact ⟨file, op, haction, by simpa using hid⟩
    | registerFixture path id => cases heq
    | addExternal tag catalog => cases heq
  · rintro ⟨file, op, hmem, rfl⟩
    exact ⟨⟨op, file⟩, List.mem_filterMap.2 ⟨_, hmem, rfl⟩, by simp⟩

/-- **What an index is after any calls**: everything that can be asked of it is told by the first
registrations, the fixtures and the last catalogs of the calls. -/
theorem records_perform (actions : List Action) : Records actions (perform actions) := by
  have h := holds_perform actions
  have hget (id : String) : (perform actions).own.get? id = (firstOf actions id).map (·.operation) := by
    rw [Catalog.get?, h.operations]
  refine ⟨fun id => ?_, hget, fun id => ?_, fun id tag => ?_, fun file op first hfirst => ?_,
    fun file op hfirst => ?_, h.specFiles, fun path => ?_, h.fixtures⟩
  · rw [hget, Option.isSome_map, isSome_firstOf_iff]
  · rw [Catalog.source?, h.operations]
  · cases tag with
    | none =>
      show (perform actions).own.find id = _
      rw [Catalog.find, hget]
      cases firstOf actions id <;> rfl
    | some tag =>
      simp only [OperationIndex.lookup, OperationIndex.catalog, h.external]
      cases lastOf actions tag <;> rfl
  · have hrefused :
        (perform actions).own.register file op = .error (.duplicate op.id first.source file) :=
      Catalog.register_eq_error ((h.operations op.id).trans hfirst)
    refine ⟨hrefused, ?_⟩
    rw [act, hrefused]
    rfl
  · exact ⟨_, Catalog.register_eq_ok ((h.operations op.id).trans hfirst)⟩
  · exact List.pairwise_map.2 (Dict.ascending _)

end OperationIndex

end Rehearsal
