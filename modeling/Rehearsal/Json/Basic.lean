import Rehearsal.Dict
import Rehearsal.Binary64

/-!
# JSON values

A JSON value keeps integers apart from floating-point numbers: `1` and `1.0` are different
values. The members of an object are listed in ascending order of their names; every operation
of this library keeps that order.

* `Json.same`: equality of values, which treats the two floating-point zeros alike;
* `Json.field?`, `Json.items?`, `Json.dict?`, …: the parts of a value.
-/

namespace Rehearsal

/-- A JSON value. -/
inductive Json where
  /-- The null value. -/
  | null
  /-- A truth value. -/
  | bool (value : Bool)
  /-- An integer. -/
  | int (value : Int)
  /-- A floating-point number. -/
  | float (value : Binary64)
  /-- A string. -/
  | str (value : String)
  /-- An array of values. -/
  | arr (items : List Json)
  /-- An object: values by ascending name. -/
  | obj (members : List (String × Json))
deriving Inhabited

namespace Json

mutual

/-- Equality of values; numbers are compared as numbers of their own kind. -/
def same : Json → Json → Bool
  | .null, .null => true
  | .bool a, .bool b => a == b
  | .int a, .int b => a == b
  | .float a, .float b => a.sameNumber b
  | .str a, .str b => a == b
  | .arr as, .arr bs => sameItems as bs
  | .obj as, .obj bs => sameMembers as bs
  | _, _ => false
termination_by structural value => value

/-- Equality of arrays, item by item. -/
def sameItems : List Json → List Json → Bool
  | [], [] => true
  | a :: as, b :: bs => a.same b && sameItems as bs
  | _, _ => false
termination_by structural items => items

/-- Equality of objects, member by member. -/
def sameMembers : List (String × Json) → List (String × Json) → Bool
  | [], [] => true
  | (k, a) :: as, (l, b) :: bs => k == l && a.same b && sameMembers as bs
  | _, _ => false
termination_by structural members => members

end

/-- The least and the largest signed 64-bit integers bound the integers a variable may hold. -/
def inSigned64 (value : Int) : Bool := -(Nat.pow 2 63 : Int) ≤ value ∧ value < (Nat.pow 2 63 : Int)

/-- Whether the value is null. -/
def isNull : Json → Bool
  | .null => true
  | _ => false

/-- Whether the value is an object. -/
def isObject : Json → Bool
  | .obj _ => true
  | _ => false

/-- Whether the value is an array or an object. -/
def isContainer : Json → Bool
  | .arr _ | .obj _ => true
  | _ => false

/-- The truth value, if it is one. -/
def bool? : Json → Option Bool
  | .bool b => some b
  | _ => none

/-- The integer, if it is one in the signed 64-bit range. -/
def int64? : Json → Option Int
  | .int n => if inSigned64 n then some n else none
  | _ => none

/-- The integer, if it is one that is not negative. -/
def nat? : Json → Option Nat
  | .int n => n.toNat?
  | _ => none

/-- The string, if it is one. -/
def str? : Json → Option String
  | .str s => some s
  | _ => none

/-- The items, if the value is an array. -/
def items? : Json → Option (List Json)
  | .arr items => some items
  | _ => none

/-- The members, if the value is an object. -/
def members? : Json → Option (List (String × Json))
  | .obj members => some members
  | _ => none

/-- The members as a dictionary, if the value is an object. -/
def dict? : Json → Option (Dict Json)
  | .obj members => some (Dict.ofList members)
  | _ => none

/-- The member called `name`, if the value is an object that has one. -/
def field? (value : Json) (name : String) : Option Json :=
  value.members? >>= Assoc.get? name

/-- The object with the bindings of a dictionary. -/
def ofDict (dict : Dict Json) : Json := .obj dict.entries

/-- The object with the given members; of two members of a name the later wins. -/
def ofMembers (members : List (String × Json)) : Json := .obj (Assoc.sort members)

/-- The array of the given strings. -/
def ofStrings (texts : List String) : Json := .arr (texts.map .str)

/-- The value itself, or null. -/
def ofOption : Option Json → Json
  | some value => value
  | none => .null

/-- A string, or null. -/
def ofString? (text : Option String) : Json := ofOption (text.map .str)

end Json

end Rehearsal
