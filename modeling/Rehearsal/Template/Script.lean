import Rehearsal.Template
import Rehearsal.Path

/-!
# Templates that run a script

A script is deployed as the one resource of a template. The entries of its environment that are
secret are written so that the deployment does not show them.
-/

namespace Rehearsal

/-- The shells a script can be written for. -/
inductive ScriptKind where
  /-- PowerShell. -/
  | powerShell
  /-- The command line interface. -/
  | commandLine
deriving DecidableEq, Inhabited

namespace ScriptKind

/-- The name in a template. -/
def name : ScriptKind → String
  | .powerShell => "AzurePowerShell"
  | .commandLine => "AzureCLI"

/-- The shell of a script file, by its extension in any case. -/
def ofPath (path : String) : ScriptKind :=
  match (Path.parse path).extension? with
  | some ending => if ending.toList.map Char.toLower = ['p', 's', '1'] then .powerShell else .commandLine
  | none => .commandLine

/-- The property that states the version of the shell, and the version. -/
def version : ScriptKind → String × String
  | .powerShell => ("azPowerShellVersion", "6.2")
  | .commandLine => ("azCliVersion", "2.0.80")

end ScriptKind

/-- An entry of a script's environment. -/
structure ScriptEntry where
  /-- Its name. -/
  name : String
  /-- Its value. -/
  value : String
  /-- Whether the value is secret. -/
  secret : Bool := false
deriving Inhabited

/-- The written form of an entry. -/
def ScriptEntry.toJson (entry : ScriptEntry) : Json :=
  Json.ofMembers
    [("name", .str entry.name), (if entry.secret then "secureValue" else "value", .str entry.value)]

/-- A script and how it is called. -/
structure Script where
  /-- The name of the resource. -/
  name : String
  /-- The shell. -/
  kind : ScriptKind
  /-- The text of the script. -/
  content : String
  /-- The arguments of the call. -/
  arguments : Option String := none
  /-- The environment of the call. -/
  environment : List ScriptEntry := []
deriving Inhabited

namespace Script

/-- The properties of the resource. -/
def properties (s : Script) : Json :=
  Json.ofFields
    [("forceUpdateTag", some (.str "[parameters('utcValue')]")),
      (s.kind.version.1, some (.str s.kind.version.2)), ("scriptContent", some (.str s.content)),
      ("arguments", s.arguments.map .str),
      ("environmentVariables",
        if s.environment.isEmpty then none else some (Json.ofListWith ScriptEntry.toJson s.environment)),
      ("timeout", some (.str "PT1H")), ("cleanupPreference", some (.str "OnSuccess")),
      ("retentionInterval", some (.str "P1D"))]

/-- The resource that runs the script. -/
def resource (s : Script) : Json :=
  Json.ofMembers
    [("type", .str "Microsoft.Resources/deploymentScripts"), ("apiVersion", .str "2020-10-01"),
      ("name", .str s.name), ("location", .str "[resourceGroup().location]"),
      ("kind", .str s.kind.name), ("properties", s.properties)]

/-- The template that runs the script. -/
def template (s : Script) : Template where
  parameters := Dict.ofList [("utcValue", { typeName := "string", default? := some (.str "[utcNow()]") })]
  resources := [s.resource]
  rest := Dict.ofList
    [("$schema", .str "https://schema.management.azure.com/schemas/2019-04-01/deploymentTemplate.json#"),
      ("contentVersion", .str "1.0.0.0")]

end Script

end Rehearsal
