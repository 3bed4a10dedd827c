import Rehearsal.Json.Token

/-!
# Reading JSON

A document is read by a machine over its tokens with a stack of the arrays and objects that are
still open. The reader is strict: nothing may follow the value, no comma may trail, and at most
127 arrays and objects may be open at a time.
-/

namespace Rehearsal.Json

namespace Reader

/-- An array or object that is still open; what it holds so far is in reverse. -/
inductive Frame where
  /-- An array. -/
  | array (done : List Json)
  /-- An object, and the name whose value is due or was read last. -/
  | object (done : List (String × Json)) (name : String)

/-- What may come next. -/
inductive Expect where
  /-- A value. -/
  | value
  /-- The first item of an array, or its end. -/
  | firstItem
  /-- The first name of an object, or its end. -/
  | firstName
  /-- A name. -/
  | name
  /-- The colon after a name. -/
  | colon
  /-- A comma, or the end of the innermost array or object. -/
  | separator
  /-- Nothing: the document is complete. -/
  | nothing (value : Json)

/-- The reader: the open arrays and objects, innermost first, and what may come next. -/
structure State where
  /-- The open arrays and objects. -/
  stack : List Frame
  /-- What may come next. -/
  expect : Expect

/-- How many arrays and objects may be open at a time. -/
def depthLimit : Nat := 127

/-- The state after a complete value. -/
def complete (value : Json) : List Frame → State
  | [] => ⟨[], .nothing value⟩
  | .array done :: stack => ⟨.array (value :: done) :: stack, .separator⟩
  | .object done name :: stack => ⟨.object ((name, value) :: done) name :: stack, .separator⟩

/-- Opens an array or object. -/
def push (frame : Frame) (expect : Expect) (stack : List Frame) : Option State :=
  if stack.length < depthLimit then some ⟨frame :: stack, expect⟩ else none

/-- Takes a token where a value may stand. -/
def takeValue (token : Token) (stack : List Frame) : Option State :=
  match token with
  | .text content => some (complete (.str content) stack)
  | .scalar value => some (complete value stack)
  | .beginArray => push (.array []) .firstItem stack
  | .beginObject => push (.object [] "") .firstName stack
  | _ => none

/-- Takes one token. -/
def step (state : State) (token : Token) : Option State :=
  match state.expect, token, state.stack with
  | .value, token, stack => takeValue token stack
  | .firstItem, .endArray, .array done :: stack => some (complete (.arr done.reverse) stack)
  | .firstItem, token, stack => takeValue token stack
  | .firstName, .endObject, .object done _ :: stack => some (complete (ofMembers done.reverse) stack)
  | .firstName, .text name, .object done _ :: stack => some ⟨.object done name :: stack, .colon⟩
  | .name, .text name, .object done _ :: stack => some ⟨.object done name :: stack, .colon⟩
  | .colon, .colon, stack => some ⟨stack, .value⟩
  | .separator, .comma, .array done :: stack => some ⟨.array done :: stack, .value⟩
  | .separator, .comma, .object done name :: stack => some ⟨.object done name :: stack, .name⟩
  | .separator, .endArray, .array done :: stack => some (complete (.arr done.reverse) stack)
  | .separator, .endObject, .object done _ :: stack => some (complete (ofMembers done.reverse) stack)
  | _, _, _ => none

end Reader

/-- The value of a JSON document. -/
def parse (text : String) : Option Json := do
  let tokens ← Token.scan text
  let state ← tokens.foldlM Reader.step ⟨[], .value⟩
  match state.expect with
  | .nothing value => some value
  | _ => none

end Rehearsal.Json
