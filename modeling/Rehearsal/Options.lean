import Rehearsal.Json.Fields

/-!
# Options of a run
-/

namespace Rehearsal

/-- How definitions are run. -/
structure Options where
  /-- Whether placeholders are resolved before anything is sent. -/
  resolveVariables : Bool := true
  /-- Whether scopes are left as they are behind a scenario. -/
  skipCleanup : Bool := false
  /-- The seed of generated suffixes. -/
  seed : Option Nat := none
deriving DecidableEq, Inhabited

namespace Options

/-- The written form. -/
def toJson (o : Options) : Json :=
  Json.ofMembers
    [("resolveVariables", .bool o.resolveVariables), ("skipCleanup", .bool o.skipCleanup),
      ("seed", Json.ofOption (o.seed.map fun seed => .int seed))]

/-- A seed takes at most 64 bits. -/
def seedOfJson? (json : Json) : Option Nat := do
  let seed ← json.nat?
  if seed < Nat.pow 2 64 then some seed else none

/-- Reads the written form; every part may be absent. -/
def ofJson? (json : Json) : Option Options := do
  let fields ← json.record? [] ["resolveVariables", "skipCleanup", "seed"]
  return { resolveVariables := ← fields.withDefault "resolveVariables" true Json.bool?,
           skipCleanup := ← fields.withDefault "skipCleanup" false Json.bool?,
           seed := ← fields.optional "seed" seedOfJson? }

end Options

end Rehearsal
