import Rehearsal.Variable
import Rehearsal.Suffixes

/-!
# Environments

An environment is a chain of layers. A name means the variable of the innermost layer that binds
it; a name is declared secret if any layer lists it as secret or binds it to a variable of a
secret kind, even one that an inner layer hides.

* `Environment.get?`, `Environment.value?`: what a name means;
* `Environment.flatten`: all meanings as one dictionary, `Environment.get?_flatten`;
* `Layer.set`, `Layer.declare`, `Environment.imported`, `Layer.materialize`: how layers change.
-/

namespace Rehearsal

/-- One layer: variables, and the names it keeps secret. -/
structure Layer where
  /-- The variables by name. -/
  vars : Dict Variable := ∅
  /-- The names that are kept secret. -/
  secrets : List String := []
deriving Inhabited

namespace Layer

/-- Keeps a name secret. -/
def markSecret (layer : Layer) (name : String) : Layer :=
  { layer with secrets := if layer.secrets.contains name then layer.secrets else name :: layer.secrets }

/-- Binds a name without a look at the kind of the variable. -/
def bind (layer : Layer) (name : String) (v : Variable) : Layer :=
  { layer with vars := layer.vars.insert name v }

/-- Binds a name; a variable of a secret kind makes the name secret for good. -/
def set (layer : Layer) (name : String) (v : Variable) : Layer :=
  (if v.isSecure then layer.markSecret name else layer).bind name v

/-- Whether the layer itself declares a name secret. -/
def declaresSecret (layer : Layer) (name : String) : Bool :=
  layer.secrets.contains name || (layer.vars.get? name).any Variable.isSecure

/-- Whether a declaration only says that somebody outside supplies the variable: it has no
value, and no stem or patches to get one from. -/
def isExternal (v : Variable) : Bool :=
  !v.hasValue && v.stem?.isNone && v.patches?.isNone

/-- Declares one variable: a secret kind makes the name secret, and a declaration that somebody
outside fulfils binds nothing. -/
def declareVariable (layer : Layer) (name : String) (v : Variable) : Layer :=
  let layer := if v.isSecure then layer.markSecret name else layer
  if isExternal v then layer else layer.bind name v

/-- Declares what a scope declares. -/
def declare (layer : Layer) (scope : Declarations) : Layer :=
  let layer := scope.vars.entries.foldl (fun layer entry => layer.declareVariable entry.1 entry.2) layer
  scope.secrets.foldl markSecret layer

/-- Gives the text variables that have a stem and no value a value: the stem and a suffix, in the
order of the names. Answers their names and the generator behind the draws. -/
def materializeEntries (g : Suffixes) :
    List (String × Variable) → List (String × Variable) × List String × Suffixes
  | [] => ([], [], g)
  | (name, v) :: rest =>
    match v with
    | .text secure { value := none, stem := some stem } =>
      let (suffix, g) := g.next
      let (rest, names, g) := materializeEntries g rest
      ((name, .text secure { value := some (stem ++ suffix), stem := some stem }) :: rest, name :: names, g)
    | v =>
      let (rest, names, g) := materializeEntries g rest
      ((name, v) :: rest, names, g)

theorem map_fst_materializeEntries (g : Suffixes) (entries : List (String × Variable)) :
    (materializeEntries g entries).1.map Prod.fst = entries.map Prod.fst := by
  fun_induction materializeEntries g entries <;> simp_all

theorem ascending_materializeEntries (g : Suffixes) {entries : List (String × Variable)}
    (h : Assoc.Ascending entries) : Assoc.Ascending (materializeEntries g entries).1 := by
  have names : (entries.map Prod.fst).Pairwise (· < ·) := List.pairwise_map.2 h
  rw [← map_fst_materializeEntries g] at names
  exact List.pairwise_map.1 names

/-- Generates the values of the layer's variables that have a stem and no value. -/
def materialize (layer : Layer) (g : Suffixes) : Layer × List String × Suffixes :=
  let result := materializeEntries g layer.vars.entries
  let ascending := ascending_materializeEntries g layer.vars.ascending
  ({ layer with vars := ⟨result.1, ascending⟩ }, result.2)

end Layer

/-- A chain of layers with an innermost one. -/
structure Environment where
  /-- The innermost layer. -/
  inner : Layer := {}
  /-- The layers around it, from the inside out. -/
  outer : List Layer := []
deriving Inhabited

namespace Environment

/-- The layers from the inside out. -/
def layers (env : Environment) : List Layer := env.inner :: env.outer

/-- The environment with another layer around which it stands. -/
def child (env : Environment) (layer : Layer) : Environment := ⟨layer, env.layers⟩

/-- The environment with its innermost layer changed. -/
def modifyInner (env : Environment) (f : Layer → Layer) : Environment :=
  { env with inner := f env.inner }

/-- The variable that a name means. -/
def get? (env : Environment) (name : String) : Option Variable :=
  env.layers.findSome? fun layer => layer.vars.get? name

/-- The value that a name means. -/
def value? (env : Environment) (name : String) : Option Json := env.get? name >>= Variable.value?

/-- Whether a name is bound. -/
def contains (env : Environment) (name : String) : Bool := (env.get? name).isSome

/-- The bindings of a chain of layers, inner ones winning. -/
def flattenLayers : List Layer → Dict Variable
  | [] => ∅
  | layer :: outer => layer.vars.union (flattenLayers outer)

/-- All bindings as one dictionary. -/
def flatten (env : Environment) : Dict Variable := flattenLayers env.layers

/-- The bound names in ascending order. -/
def names (env : Environment) : List String := env.flatten.names

/-- Whether some layer declares a name secret. -/
def declaresSecret (env : Environment) (name : String) : Bool :=
  env.layers.any fun layer => layer.declaresSecret name

/-- The innermost layer after it took over every binding of another environment, and the secrecy
declared there of the names bound there. -/
def imported (layer : Layer) (other : Environment) : Layer :=
  let secrets := other.names.filter other.declaresSecret
  secrets.foldl Layer.markSecret { layer with vars := other.flatten.union layer.vars }

theorem get?_flattenLayers (layers : List Layer) (name : String) :
    (flattenLayers layers).get? name = layers.findSome? fun layer => layer.vars.get? name := by
  induction layers with
  | nil => rfl
  | cons layer outer ih =>
    rw [flattenLayers, Dict.get?_union, ih, List.findSome?_cons]
    cases layer.vars.get? name <;> rfl

theorem get?_flatten (env : Environment) (name : String) : env.flatten.get? name = env.get? name :=
  get?_flattenLayers env.layers name

theorem mem_names_iff {env : Environment} {name : String} :
    name ∈ env.names ↔ env.contains name = true := by
  rw [names, Dict.mem_names_iff, Dict.contains, get?_flatten, contains]

theorem mem_names_of_value? {env : Environment} {name : String} {value : Json}
    (h : env.value? name = some value) : name ∈ env.names := by
  rw [mem_names_iff, contains]
  cases hget : env.get? name with
  | none => simp [value?, hget] at h
  | some v => rfl

end Environment

end Rehearsal
