import Rehearsal.Variable

/-!
# What a variable keeps of a value

A captured value, or the value of a path parameter, becomes a variable where a kind is expected. The
variable has the value as it is, whatever its shape: a number that no integer variable can hold, and
null too, go into an object variable. A secret kind stays secret, and a secret text alone changes the
value, which becomes its text (`VariableKind.held`, `Variable.keeps_ofValue`).

To write into a variable the value that it has changes nothing, unless the variable has patches,
which are dropped (`Variable.withValue_eq_self_iff`). No value makes a variable with patches, so what
was made of a value is left alone.
-/

namespace Rehearsal

/-- What a variable holds of a value that is captured for it: a secret text holds the text of it. -/
def VariableKind.held : VariableKind → Json → Json
  | .secureString, value => .str value.plainText
  | _, value => value

/-- Only a secret text holds anything but the value, and only of a value that is no string. -/
theorem VariableKind.held_eq_self_iff {kind : VariableKind} {value : Json} :
    kind.held value = value ↔ kind ≠ .secureString ∨ ∃ text, value = .str text := by
  constructor
  · intro h
    by_cases hkind : kind = .secureString
    · subst hkind
      exact .inr ⟨value.plainText, h.symm⟩
    · exact .inl hkind
  · rintro (hkind | ⟨text, rfl⟩)
    · cases kind with
      | secureString => exact absurd rfl hkind
      | bool | int | string | secureObject | array | object => rfl
    · cases kind with
      | secureString => rfl
      | bool | int | string | secureObject | array | object => rfl

namespace Variable

/-! ### Writing a value -/

/-- An integer variable holds an integer that fits 64 bits with its sign. -/
def Fits : Variable → Prop
  | .int value => ∀ n ∈ value, Json.inSigned64 n = true
  | .bool _ | .text .. | .container .. => True

/-- A variable that is given the value it has stays the same if and only if it has no patches. -/
theorem withValue_eq_self_iff {v : Variable} {value : Json} (hfits : v.Fits)
    (h : v.value? = some value) : v.withValue value = v ↔ v.patches? = none := by
  cases v with
  | bool b =>
    obtain ⟨b, rfl, rfl⟩ := Option.map_eq_some_iff.1 h
    exact iff_of_true rfl rfl
  | int n =>
    obtain ⟨n, rfl, rfl⟩ := Option.map_eq_some_iff.1 h
    refine iff_of_true ?_ rfl
    -- An integer that does not fit would be lost here.
    rw [withValue, Json.int64?, if_pos (hfits n rfl)]
  | text secure parts =>
    obtain ⟨text, stem⟩ := parts
    obtain ⟨text, rfl, rfl⟩ := Option.map_eq_some_iff.1 h
    exact iff_of_true rfl rfl
  | container kind parts =>
    obtain ⟨held, patches⟩ := parts
    cases h
    -- A container keeps its kind and drops its patches.
    constructor
    · intro hself
      cases hself
      rfl
    · intro hpatches
      cases hpatches
      rfl

/-! ### Variables made of a value -/

/-- A variable has a value that fits its kind, and no patches. -/
structure Holds (v : Variable) (value : Json) : Prop where
  value? : v.value? = some value
  fits : v.Fits
  patches? : v.patches? = none

theorem holds_ofShape (value : Json) : (ofShape value).Holds value := by
  cases value with
  | int n =>
    rw [ofShape]
    split
    · next hfits => exact ⟨rfl, fun m hm => Option.some_inj.1 hm ▸ hfits, rfl⟩
    · exact ⟨rfl, trivial, rfl⟩
  | null | bool | float | str | arr | obj => exact ⟨rfl, trivial, rfl⟩

theorem holds_ofValue (kind : VariableKind) (value : Json) :
    (ofValue kind value).Holds (kind.held value) := by
  cases kind with
  | secureString | secureObject => exact ⟨rfl, trivial, rfl⟩
  | bool | int | string | array | object => exact holds_ofShape value

theorem value?_ofValue (kind : VariableKind) (value : Json) :
    (ofValue kind value).value? = some (kind.held value) :=
  (holds_ofValue kind value).value?

theorem isSecure_ofShape (value : Json) : (ofShape value).isSecure = false := by
  cases value with
  | int n =>
    rw [ofShape]
    split <;> rfl
  | null | bool | float | str | arr | obj => rfl

theorem isSecure_ofValue (kind : VariableKind) (value : Json) :
    (ofValue kind value).isSecure = kind.isSecure := by
  cases kind with
  | secureString | secureObject => rfl
  | bool | int | string | array | object => exact isSecure_ofShape value

/-- What a variable keeps of a value that it is made of where a kind is expected. -/
structure Keeps (v : Variable) (kind : VariableKind) (value : Json) : Prop where
  /-- The variable has a value. -/
  hasValue : v.hasValue = true
  /-- It is secret by its kind just where the expected kind is secret. -/
  isSecure : v.isSecure = kind.isSecure
  /-- It has the value as it is, unless a secret text is expected and the value is no string. -/
  itself : v.value? = some value ↔ kind ≠ .secureString ∨ ∃ text, value = .str text
  /-- Where a secret text is expected it has the text of the value. -/
  text : kind = .secureString → v.value? = some (.str value.plainText)
  /-- Given the value that it has it stays the same, in kind, secrecy and value. -/
  rewritten : ∀ held, v.value? = some held → v.withValue held = v

/-- **No value gets lost or loses its secrecy when a variable is made of it.** -/
theorem keeps_ofValue (kind : VariableKind) (value : Json) : (ofValue kind value).Keeps kind value where
  hasValue := by rw [hasValue, value?_ofValue, Option.isSome_some]
  isSecure := isSecure_ofValue kind value
  itself := by rw [value?_ofValue, Option.some_inj, VariableKind.held_eq_self_iff]
  text := by
    rintro rfl
    exact value?_ofValue .secureString value
  rewritten held hheld := by
    have hholds := holds_ofValue kind value
    exact (withValue_eq_self_iff hholds.fits hheld).2 hholds.patches?

/-- The first integer that is too large for an integer variable becomes the value of an object variable. -/
example : (ofValue .int (.int (Nat.pow 2 63))).kind = .object := by decide

end Variable

end Rehearsal
