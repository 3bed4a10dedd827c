import Rehearsal.Environment.Secrets

/-!
# Workspaces

A workspace holds environments by name. An environment shares its outer layers with the
environments it was derived from, so a change of a layer is seen by all that stand inside it, and
all environments derived from one root share its generator of suffixes. An environment may send
its outputs to another one.

* `Workspace.environment`: the chain of layers behind a name;
* `Workspace.addRoot`, `Workspace.addChild`: new environments;
* `Workspace.update`, `Workspace.output`, `Workspace.materialize`: changes of a layer.
-/

namespace Rehearsal

/-- One layer of a workspace and what it stands in. -/
structure Cell where
  /-- The layer. -/
  layer : Layer := {}
  /-- The layer around it. It was there before, so it has a smaller number. -/
  parent : Option Nat := none
  /-- The layer that outputs go to. -/
  target : Option Nat := none
  /-- The generator of suffixes. -/
  generator : Nat
deriving Inhabited

/-- Environments by name. -/
structure Workspace where
  /-- All layers, by number. -/
  cells : Array Cell := #[]
  /-- All generators, by number. -/
  generators : Array Suffixes := #[]
  /-- The layer that a name stands for. -/
  names : Dict Nat := ∅
deriving Inhabited

namespace Workspace

/-- The layers from number `id` outwards. -/
def layersFrom (ws : Workspace) (id : Nat) : List Layer :=
  let cell := ws.cells.getD id default
  cell.layer ::
    match cell.parent with
    | some parent => if _h : parent < id then ws.layersFrom parent else []
    | none => []
termination_by id

/-- The environment whose innermost layer has number `id`. -/
def environment (ws : Workspace) (id : Nat) : Environment :=
  { inner := (ws.cells.getD id default).layer, outer := (ws.layersFrom id).tail }

/-- Adds a cell under a name. -/
def addCell (ws : Workspace) (name : String) (cell : Cell) : Workspace :=
  { ws with cells := ws.cells.push cell, names := ws.names.insert name ws.cells.size }

/-- Adds an environment of its own with a seeded generator. -/
def addRoot (ws : Workspace) (name : String) (seed : Nat) : Workspace :=
  let ws := ws.addCell name { generator := ws.generators.size }
  { ws with generators := ws.generators.push (Suffixes.ofSeed seed) }

/-- Adds an environment inside another one. -/
def addChild (ws : Workspace) (name : String) (parent : Nat) (scope : Option Declarations)
    (target : Option Nat) : Workspace :=
  let layer : Layer := match scope with
    | some scope => Layer.declare {} scope
    | none => {}
  ws.addCell name
    { layer, parent := some parent, target, generator := (ws.cells.getD parent default).generator }

/-- Changes a layer. -/
def update (ws : Workspace) (id : Nat) (f : Layer → Layer) : Workspace :=
  { ws with cells := ws.cells.modify id fun cell => { cell with layer := f cell.layer } }

/-- Binds an output where the environment sends its outputs. -/
def output (ws : Workspace) (id : Nat) (name : String) (v : Variable) : Workspace :=
  ws.update ((ws.cells.getD id default).target.getD id) fun layer => layer.set name v

/-- The generator of an environment. -/
def generator (ws : Workspace) (id : Nat) : Suffixes :=
  ws.generators.getD (ws.cells.getD id default).generator default

/-- Replaces the generator of an environment and of all that share it. -/
def setGenerator (ws : Workspace) (id : Nat) (g : Suffixes) : Workspace :=
  { ws with generators := ws.generators.setIfInBounds (ws.cells.getD id default).generator g }

/-- Draws a suffix. -/
def drawSuffix (ws : Workspace) (id : Nat) : String × Workspace :=
  let (suffix, g) := (ws.generator id).next
  (suffix, ws.setGenerator id g)

/-- Generates the values of the innermost layer that are due; answers their names. -/
def materialize (ws : Workspace) (id : Nat) : List String × Workspace :=
  let (layer, names, g) := (ws.cells.getD id default).layer.materialize (ws.generator id)
  (names, (ws.update id fun _ => layer).setGenerator id g)

end Workspace

end Rehearsal
