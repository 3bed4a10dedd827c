import Rehearsal.Json.Patch

/-!
# What can go wrong with variables
-/

namespace Rehearsal

/-- Why patches could not be applied to a variable. -/
inductive PendingPatchCause where
  /-- There is no array or object to apply them to. -/
  | nothingInherited
  /-- The patch itself failed. -/
  | failed (error : PatchError)
deriving DecidableEq

/-- The wording of a failed patch. -/
def PatchError.failureText (error : PatchError) : String := "patch failed: " ++ error.message

/-- The wording of a cause. -/
def PendingPatchCause.message : PendingPatchCause → String
  | .nothingInherited => "no object or array value is inherited"
  | .failed error => error.failureText

/-- Why a variable could not be used. -/
inductive VariableError where
  /-- The name has no value. -/
  | missing (name : String)
  /-- The value is not a text. -/
  | notAString (name : String)
  /-- The value refers to itself. -/
  | circular (name : String)
  /-- The declared patches could not be applied. -/
  | patch (name : String) (cause : PendingPatchCause)
deriving DecidableEq

/-- The wording of an error. -/
def VariableError.message : VariableError → String
  | .missing name => "missing variable '" ++ name ++ "'"
  | .notAString name => "variable '" ++ name ++ "' is not a string"
  | .circular name => "circular reference while resolving variable '" ++ name ++ "'"
  | .patch name cause => "failed to patch variable '" ++ name ++ "': " ++ cause.message

end Rehearsal
