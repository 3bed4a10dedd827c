import Rehearsal.Environment.Resolve

/-!
# Secrets

A name is secret if it is declared secret, or if its value refers to a secret name, directly or
through the values of other names. The secret values of an environment are masked in every text
that is shown.

* `Environment.reachesSecret`: the search along references;
* `Environment.isSecret`, `Environment.embedsSecret`: names and texts;
* `Environment.secretValues`, `Environment.mask`: values and texts that are shown.
-/

namespace Rehearsal

namespace Masking

/-- What stands for a secret value. -/
def cover : List Char := ['*', '*', '*']

/-- Covers every occurrence of `secret` in what follows the next `skip` characters, from the
left. -/
def coverAfter (secret : List Char) : (skip : Nat) → List Char → List Char
  | _, [] => []
  | skip + 1, _ :: rest => coverAfter secret skip rest
  | 0, c :: rest =>
    if secret.isPrefixOf (c :: rest) then cover ++ coverAfter secret (secret.length - 1) rest
    else c :: coverAfter secret 0 rest

/-- Covers every occurrence of a text that is not empty. -/
def coverAll (text secret : String) : String :=
  String.ofList (coverAfter secret.toList 0 text.toList)

/-- Puts a text behind all that are as long or longer. -/
def insertByLength (text : String) : List String → List String
  | [] => [text]
  | first :: rest =>
    if first.utf8ByteSize < text.utf8ByteSize then text :: first :: rest
    else first :: insertByLength text rest

/-- The texts from the longest to the shortest, in bytes; texts of one length keep their order. -/
def longestFirst (texts : List String) : List String :=
  texts.foldl (fun sorted text => insertByLength text sorted) []

/-- Drops a text that equals the one in front of it. -/
def dropRepeats : List String → List String
  | first :: second :: rest =>
    if first = second then dropRepeats (second :: rest) else first :: dropRepeats (second :: rest)
  | texts => texts

end Masking

namespace Environment

/-- The names that the value of a name refers to. -/
def references (env : Environment) (name : String) : List String :=
  (env.value? name).elim [] Json.placeholders

theorem references_eq_nil_of_not_mem {env : Environment} {name : String} (h : name ∉ env.names) :
    env.references name = [] := by
  unfold references
  cases hvalue : env.value? name with
  | none => rfl
  | some value => exact absurd (mem_names_of_value? hvalue) h

/-- Whether a name that is declared secret can be reached from one of the names to do, without
passing through the names seen. -/
def reachesSecret (env : Environment) (todo seen : List String) : Bool :=
  match todo with
  | [] => false
  | name :: rest =>
    if env.declaresSecret name then true
    else if _hseen : name ∈ seen then env.reachesSecret rest seen
    else if _hmem : name ∈ env.names then
      env.reachesSecret (env.references name ++ rest) (name :: seen)
    else env.reachesSecret rest seen
termination_by ((env.names.filter fun n => !seen.contains n).length, todo.length)
decreasing_by
  · exact .right _ (by simp)
  · exact .left _ _ (length_filter_not_contains_cons_lt _hmem _hseen)
  · exact .right _ (by simp)

/-- Whether a name is secret. -/
def isSecret (env : Environment) (name : String) : Bool := env.reachesSecret [name] []

/-- Whether a text has a placeholder of a secret name. -/
def embedsSecret (env : Environment) (text : String) : Bool :=
  env.reachesSecret (Placeholder.names text) []

/-- The text that a secret value has where it is shown. -/
def shownText (env : Environment) (name : String) : Option String :=
  (env.value? name).map fun value => (env.resolveDeferred value).plainText

/-- The texts of the secret values, the longest first. -/
def secretValues (env : Environment) : List String :=
  let texts := (env.names.filter env.isSecret).filterMap env.shownText
  Masking.dropRepeats (Masking.longestFirst (texts.filter fun text => text != ""))

/-- The text with every secret value covered. -/
def mask (env : Environment) (text : String) : String :=
  env.secretValues.foldl Masking.coverAll text

end Environment

end Rehearsal
