import Rehearsal.Yaml.Token

/-!
# YAML documents

A document is read from its tokens by recursive descent. Only values that JSON can hold are
read: the keys of a map have to be scalars and stand for their text, of two entries of a key the
later wins, and a text holds at most one document. An empty text is null.
-/

namespace Rehearsal.Yaml

/-- How many lists and maps may be open at a time. -/
def depthLimit : Nat := 128

namespace Reader

/-- Whether the next token is one of those given. -/
def nextIs (tokens : List Token) (options : List Token) : Bool :=
  tokens.head?.any options.contains

mutual

/-- Reads a node: a list or map, of which `depth` more may be open, or a scalar, which is answered
as its text together with whether it is plain. In a block context a list may stand without
indentation of its own. -/
def node (fuel depth : Nat) (block bare : Bool) (tokens : List Token) :
    Option ((Json ⊕ (String × Bool)) × List Token) :=
  match fuel, depth, tokens with
  | _, _, .scalar text plain :: rest => some (.inr (text, plain), rest)
  | fuel + 1, depth + 1, .entry :: rest =>
    if bare then (bareList fuel depth [] (.entry :: rest)).map fun (v, rest) => (.inl v, rest) else none
  | fuel + 1, depth + 1, .flowList :: rest =>
    (flowList fuel depth true [] rest).map fun (v, rest) => (.inl v, rest)
  | fuel + 1, depth + 1, .flowMap :: rest =>
    (flowMap fuel depth true [] rest).map fun (v, rest) => (.inl v, rest)
  | fuel + 1, depth + 1, .blockList :: rest =>
    if block then (blockList fuel depth [] rest).map fun (v, rest) => (.inl v, rest) else none
  | fuel + 1, depth + 1, .blockMap :: rest =>
    if block then (blockMap fuel depth [] rest).map fun (v, rest) => (.inl v, rest) else none
  | _, _, _ => none

/-- Reads a value, or nothing in front of one of the given tokens. -/
def value (fuel depth : Nat) (block bare : Bool) (ends : List Token) (tokens : List Token) :
    Option (Json × List Token) :=
  match fuel with
  | 0 => none
  | fuel + 1 =>
    if nextIs tokens ends then some (.null, tokens)
    else do
      match ← node fuel depth block bare tokens with
      | (.inl v, rest) => return (v, rest)
      | (.inr (text, plain), rest) =>
        return (← if plain then plainValue text else some (.str text), rest)

/-- Reads a key, or nothing in front of one of the given tokens. -/
def key (fuel depth : Nat) (block : Bool) (ends : List Token) (tokens : List Token) :
    Option (String × List Token) :=
  match fuel with
  | 0 => none
  | fuel + 1 =>
    if nextIs tokens ends then some ("", tokens)
    else
      match node fuel depth block block tokens with
      | some (.inr (text, _), rest) => some (text, rest)
      | _ => none

/-- Reads the entries of a list that stands at the indentation of its map. -/
def bareList (fuel depth : Nat) (done : List Json) (tokens : List Token) :
    Option (Json × List Token) :=
  match fuel with
  | 0 => none
  | fuel + 1 =>
    match tokens with
    | .entry :: rest => do
      let (item, rest) ← value fuel depth true false [.entry, .key, .value, .blockEnd] rest
      bareList fuel depth (item :: done) rest
    | _ => some (.arr done.reverse, tokens)

/-- Reads the entries of a block list. -/
def blockList (fuel depth : Nat) (done : List Json) (tokens : List Token) :
    Option (Json × List Token) :=
  match fuel with
  | 0 => none
  | fuel + 1 =>
    match tokens with
    | .entry :: rest => do
      let (item, rest) ← value fuel depth true false [.entry, .blockEnd] rest
      blockList fuel depth (item :: done) rest
    | .blockEnd :: rest => some (.arr done.reverse, rest)
    | _ => none

/-- Reads the entries of a block map. -/
def blockMap (fuel depth : Nat) (done : List (String × Json)) (tokens : List Token) :
    Option (Json × List Token) :=
  match fuel with
  | 0 => none
  | fuel + 1 =>
    match tokens with
    | .key :: rest => do
      let ends := [Token.key, .value, .blockEnd]
      let (name, rest) ← key fuel depth true ends rest
      match rest with
      | .value :: rest =>
        let (item, rest) ← value fuel depth true true ends rest
        blockMap fuel depth ((name, item) :: done) rest
      | _ => blockMap fuel depth ((name, .null) :: done) rest
    | .blockEnd :: rest => some (Json.ofMembers done.reverse, rest)
    | _ => none

/-- Reads the items of a flow list; an item may be a single entry of a map. -/
def flowList (fuel depth : Nat) (first : Bool) (done : List Json) (tokens : List Token) :
    Option (Json × List Token) :=
  match fuel with
  | 0 => none
  | fuel + 1 =>
    match tokens with
    | .flowListEnd :: rest => some (.arr done.reverse, rest)
    | _ => do
      let tokens ← if first then some tokens else
        match tokens with
        | .comma :: rest => some rest
        | _ => none
      match tokens with
      | .flowListEnd :: rest => return (.arr done.reverse, rest)
      | .key :: rest =>
        if depth = 0 then none
        let (name, rest) ← key fuel (depth - 1) false [.value, .comma, .flowListEnd] rest
        match rest with
        | .value :: rest =>
          let (item, rest) ← value fuel (depth - 1) false false [.comma, .flowListEnd] rest
          flowList fuel depth false (.obj [(name, item)] :: done) rest
        | _ => flowList fuel depth false (.obj [(name, .null)] :: done) rest
      | _ =>
        let (item, rest) ← value fuel depth false false [] tokens
        flowList fuel depth false (item :: done) rest

/-- Reads the entries of a flow map; an entry may be a key alone. -/
def flowMap (fuel depth : Nat) (first : Bool) (done : List (String × Json)) (tokens : List Token) :
    Option (Json × List Token) :=
  match fuel with
  | 0 => none
  | fuel + 1 =>
    match tokens with
    | .flowMapEnd :: rest => some (Json.ofMembers done.reverse, rest)
    | _ => do
      let tokens ← if first then some tokens else
        match tokens with
        | .comma :: rest => some rest
        | _ => none
      match tokens with
      | .flowMapEnd :: rest => return (Json.ofMembers done.reverse, rest)
      | .key :: rest =>
        let (name, rest) ← key fuel depth false [.value, .comma, .flowMapEnd] rest
        match rest with
        | .value :: rest =>
          let (item, rest) ← value fuel depth false false [.comma, .flowMapEnd] rest
          flowMap fuel depth false ((name, item) :: done) rest
        | _ => flowMap fuel depth false ((name, .null) :: done) rest
      | _ =>
        let (name, rest) ← key fuel depth false [] tokens
        flowMap fuel depth false ((name, .null) :: done) rest

end

/-- Reads a document's node and what may follow it. -/
def document (fuel : Nat) (tokens : List Token) : Option Json := do
  let (content, rest) ← value fuel depthLimit true false [] tokens
  if rest.all (· == .documentEnd) then return content else none

end Reader

/-- The value of a YAML text. -/
def parse (text : String) : Option Json := do
  let tokens ← Token.scan text
  let fuel := 4 * tokens.length + 8
  match tokens with
  | [] => return .null
  | .documentStart :: rest =>
    if rest.all (· == .documentEnd) then return .null else Reader.document fuel rest
  | _ => Reader.document fuel tokens

end Rehearsal.Yaml
