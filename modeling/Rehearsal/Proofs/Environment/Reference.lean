import Rehearsal.Environment.Secrets
import Mathlib.Logic.Relation

/-!
# References between names

The names of an environment form a graph, with an edge from a name to every name whose
placeholder its value has. Resolution and secrecy are both questions about this graph: which
names can be reached from where, and which of them lie on a cycle.
-/

namespace Rehearsal

namespace Environment

variable (env : Environment)

/-- The value of `a` has a placeholder of `b`. -/
def Refers (a b : String) : Prop := b ∈ env.references a

/-- `b` is `a`, or references lead from `a` to it. -/
def Reaches : String → String → Prop := Relation.ReflTransGen env.Refers

/-- References lead from a name back to it. -/
def InCycle (name : String) : Prop := Relation.TransGen env.Refers name name

/-- References lead from a placeholder of `target` to `name`. -/
def ReachedFrom (target : Json) (name : String) : Prop :=
  ∃ root ∈ target.placeholders, env.Reaches root name

variable {env}

theorem refers_of_value? {a b : String} {value : Json} (h : env.value? a = some value) :
    env.Refers a b ↔ b ∈ value.placeholders := by
  rw [Refers, references, h]
  rfl

theorem value?_ne_none_of_refers {a b : String} (h : env.Refers a b) : env.value? a ≠ none := by
  intro hvalue
  rw [Refers, references, hvalue] at h
  exact absurd h List.not_mem_nil

/-- A name is on a cycle if and only if one of its references leads back to it. -/
theorem inCycle_iff {name : String} :
    env.InCycle name ↔ ∃ next, env.Refers name next ∧ env.Reaches next name :=
  Relation.TransGen.head'_iff

end Environment

end Rehearsal
