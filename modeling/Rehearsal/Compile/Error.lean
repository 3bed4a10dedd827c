import Rehearsal.Draft
import Rehearsal.Document
import Rehearsal.Environment.Error
import Rehearsal.Operation.Index
import Rehearsal.Definition

/-!
# Why a draft does not compile

An error inside a step carries the name of the step and the step as it was written
(`CompileError.inStep`); the innermost cause is `CompileError.root`.
-/

namespace Rehearsal

/-- Why a step is invalid by itself. -/
inductive InvalidStep where
  /-- It has no reference or several. -/
  | reference (error : Draft.ReferenceError)
  /-- The expected response to a status is malformed. -/
  | response (status : String)
deriving DecidableEq

/-- The wording of a cause. -/
def InvalidStep.message : InvalidStep → String
  | .reference error => error.message
  | .response status => "invalid response for status " ++ status

/-- Why edits of a step's parameters or responses failed. -/
inductive UpdateError where
  /-- The patch failed. -/
  | patch (error : PatchError)
  /-- The patch replaced the whole by something that is no object. -/
  | noObject
deriving DecidableEq

/-- The wording of a failed update. -/
def UpdateError.message : UpdateError → String
  | .patch error => error.message
  | .noObject => "patch replaced the document root with a non-object"

/-- Why a draft does not compile. -/
inductive CompileError where
  /-- Two steps that run together have one name. -/
  | duplicateStepName (name : String)
  /-- An operation cannot be found or registered. -/
  | index (error : IndexError)
  /-- A fixture belongs to no operation. -/
  | fixtureNotMatched (path : String)
  /-- A fixture belongs to several operations. -/
  | fixtureAmbiguous (path : String) (candidates : List String)
  /-- A step is invalid by itself. -/
  | invalidStep (cause : InvalidStep)
  /-- The kind of scope is unknown. -/
  | unsupportedScope (name : String)
  /-- A parameter goes where no request can carry it. -/
  | unsupportedLocation (operation parameter : String) (location : ParameterLocation)
  /-- A template parameter that takes no texts has neither a default nor a declaration. -/
  | unsupportedTemplateParameter (name typeName : String)
  /-- A variable of this kind has to have a value. -/
  | missingValue (name : String) (kind : VariableKind)
  /-- There is no array or object to apply the patches of a variable to. -/
  | missingInherited (name : String)
  /-- A file cannot be used. -/
  | load (path : String) (cause : LoadCause)
  /-- An update failed. -/
  | update (error : UpdateError)
  /-- Something is wrong with a step. -/
  | step (name : String) (draft : Draft.Step) (cause : CompileError)
deriving Inhabited

namespace CompileError

/-- The wording of an error. -/
def message : CompileError → String
  | .duplicateStepName name => "duplicate step name '" ++ name ++ "'"
  | .index error => error.message
  | .fixtureNotMatched path => "fixture '" ++ path ++ "' does not match any operation"
  | .fixtureAmbiguous path candidates =>
    "fixture '" ++ path ++ "' matches more than one operation: " ++ ", ".intercalate candidates
  | .invalidStep cause => "invalid step: " ++ cause.message
  | .unsupportedScope name => "unsupported scope '" ++ name ++ "'"
  | .unsupportedLocation operation parameter location =>
    "unsupported location '" ++ location.name ++ "' for parameter '" ++ parameter ++ "' of operation '" ++
      operation ++ "'"
  | .unsupportedTemplateParameter name typeName =>
    "template parameter '" ++ name ++ "' of type '" ++ typeName ++
      "' needs a default value or a required declaration"
  | .missingValue name kind => "variable '" ++ name ++ "' of type '" ++ kind.name ++ "' needs a value"
  | .missingInherited name =>
    "variable '" ++ name ++ "' declares patches but no object or array value is inherited"
  | .load path cause => "failed to load '" ++ path ++ "': " ++ cause.message
  | .update error => "patch failed: " ++ error.message
  | .step name _ cause => "step '" ++ name ++ "': " ++ cause.message

/-- Adds the step that an error arose in, unless it carries one already. -/
def inStep (error : CompileError) (name : String) (draft : Draft.Step) : CompileError :=
  match error with
  | .step .. => error
  | _ => .step name draft error

/-- The innermost cause. -/
def root : CompileError → CompileError
  | .step _ _ cause => cause.root
  | error => error

end CompileError

end Rehearsal
