import Rehearsal.Placeholder
import Rehearsal.Environment.Basic
import Rehearsal.Environment.Error

/-!
# Resolution of placeholders

The placeholders of a value are replaced by the values of their names, which are resolved in the
same way first. The names that are being resolved form a stack; a name that is met again while it
is on the stack refers to itself. Since only bound names enter the stack and none enters twice,
resolution ends.

* `Environment.lookup`: the resolved value of a name;
* `Environment.resolve`: the resolved form of a value;
* `Environment.requireString`, `Environment.resolveAll`: texts, and whole environments.
-/

namespace Rehearsal

/-- What a placeholder without a value means: an error, or nothing yet. -/
inductive ResolveMode where
  /-- It is an error. -/
  | strict
  /-- It stays. -/
  | deferred
deriving DecidableEq

theorem filter_not_contains_cons (names stack : List String) (name : String) :
    (names.filter fun n => !(name :: stack).contains n) =
      (names.filter fun n => !stack.contains n).filter fun n => n != name := by
  rw [List.filter_filter]
  congr 1
  funext n
  by_cases h : n = name <;> simp [h]

/-- Putting one more of the listed names on a stack leaves fewer that are not on it. -/
theorem length_filter_not_contains_cons_lt {names stack : List String} {name : String}
    (hmem : name ∈ names) (hnew : name ∉ stack) :
    (names.filter fun n => !(name :: stack).contains n).length <
      (names.filter fun n => !stack.contains n).length := by
  rw [filter_not_contains_cons, List.length_filter_lt_length_iff_exists]
  exact ⟨name, List.mem_filter.2 ⟨hmem, by simpa using hnew⟩, by simp⟩

namespace Environment

/-- The resolved value of a name while the names on the stack are being resolved; `none` for a
name without a value if resolution is deferred. -/
def lookup (env : Environment) (mode : ResolveMode) (stack : List String) (name : String) :
    Except VariableError (Option Json) :=
  if _hstack : name ∈ stack then .error (.circular name)
  else
    match _hvalue : env.value? name with
    | none =>
      match mode with
      | .strict => .error (.missing name)
      | .deferred => .ok none
    | some value =>
      (value.traverse (Placeholder.substitute (env.lookup mode (name :: stack)))).map some
termination_by (env.names.filter fun n => !stack.contains n).length
decreasing_by exact length_filter_not_contains_cons_lt (mem_names_of_value? _hvalue) _hstack

/-- The resolved form of a value while the names on the stack are being resolved. -/
def resolveOn (env : Environment) (mode : ResolveMode) (stack : List String) (target : Json) :
    Except VariableError Json :=
  target.traverse (Placeholder.substitute (env.lookup mode stack))

/-- The value with its placeholders replaced. -/
def resolve (env : Environment) (mode : ResolveMode) (target : Json) : Except VariableError Json :=
  env.resolveOn mode [] target

/-- The value with the placeholders replaced that have values; a value that refers to itself is
left as it is. -/
def resolveDeferred (env : Environment) (target : Json) : Json :=
  match env.resolve .deferred target with
  | .ok value => value
  | .error _ => target

/-- The value of a text with its placeholders replaced. -/
def resolveText (env : Environment) (text : String) : Except VariableError Json :=
  env.resolve .strict (.str text)

/-- The resolved value of a name, which has to be a text. -/
def requireString (env : Environment) (name : String) : Except VariableError String := do
  match env.value? name with
  | none => throw (.missing name)
  | some value =>
    match ← env.resolveOn .strict [name] value with
    | .str text => return text
    | _ => throw (.notAString name)

/-- The variable with its value resolved as far as possible, if that changes the value. -/
def resolvedVariable (env : Environment) (name : String) : Except VariableError (Option Variable) := do
  match env.get? name with
  | none => return none
  | some v =>
    match v.value? with
    | none => return none
    | some value =>
      if value.hasPlaceholder then
        let next ← env.resolveOn .deferred [name] value
        return if next.same value then none else some (v.withValue next)
      else return none

/-- The variables that resolution changes, by name. -/
def resolvedVariables (env : Environment) : Except VariableError (List (String × Variable)) := do
  let resolved ← env.names.mapM fun name => do return (name, ← env.resolvedVariable name)
  return resolved.filterMap fun (name, v) => v.map (name, ·)

/-- Resolves every variable of the chain as far as possible and binds the changed ones in the
innermost layer. -/
def resolveAll (env : Environment) : Except VariableError Environment := do
  let resolved ← env.resolvedVariables
  return env.modifyInner fun layer =>
    resolved.foldl (fun layer entry => layer.bind entry.1 entry.2) layer

end Environment

end Rehearsal
