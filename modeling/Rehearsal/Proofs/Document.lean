import Rehearsal.Document
import Rehearsal.Proofs.Json.Ordered

/-!
# The values that documents hold

Whatever is read of a file has the members of its objects in order (`Files.ordered_document`). The
readers put objects together by `Json.ofMembers`: that of JSON is a machine that keeps what it holds
ordered, that of YAML a recursive descent all of whose parts give ordered values.
-/

namespace Rehearsal

/-! ### JSON -/

namespace Json

theorem ordered_ofNumberText? {cs : List Char} {value : Json} (h : value ∈ ofNumberText? cs) :
    value.Ordered := by
  obtain ⟨text, -, h⟩ := Option.bind_eq_some_iff.1 h
  unfold NumberText.value? at h
  dsimp only at h
  split at h
  · cases h
    exact .int _
  split at h
  · cases h
    exact .int _
  · obtain ⟨x, -, rfl⟩ := Option.map_eq_some_iff.1 h
    exact .float x

/-- The value in a token is ordered. -/
def Token.Ordered : Token → Prop
  | .scalar value => value.Ordered
  | _ => True

namespace Lexer

theorem ordered_bareToken {cs : List Char} {token : Token} (h : token ∈ bareToken cs) :
    token.Ordered := by
  unfold bareToken at h
  split at h
  · cases h
    exact .null
  · cases h
    exact .bool true
  · cases h
    exact .bool false
  · obtain ⟨value, hvalue, rfl⟩ := Option.map_eq_some_iff.1 h
    exact ordered_ofNumberText? hvalue

theorem ordered_start {c : Char} {tokens : List Token} {next : Lexer}
    (h : start c = some (tokens, next)) : ∀ token ∈ tokens, token.Ordered := by
  unfold start at h
  repeat' split at h
  all_goals cases h
  all_goals first | exact List.forall_mem_nil _ | exact List.forall_mem_singleton.2 trivial

theorem ordered_step {lexer next : Lexer} {c : Char} {tokens : List Token}
    (h : step lexer c = some (tokens, next)) : ∀ token ∈ tokens, token.Ordered := by
  cases lexer with
  | between => exact ordered_start h
  | bare collected =>
    rw [step] at h
    split at h
    · cases h
      exact List.forall_mem_nil _
    · obtain ⟨token, htoken, h⟩ := Option.bind_eq_some_iff.1 h
      obtain ⟨⟨rest, after⟩, hstart, h⟩ := Option.bind_eq_some_iff.1 h
      cases h
      exact List.forall_mem_cons.2 ⟨ordered_bareToken htoken, ordered_start hstart⟩
  | text collected =>
    rw [step] at h
    repeat' split at h
    all_goals cases h
    all_goals first | exact List.forall_mem_nil _ | exact List.forall_mem_singleton.2 trivial
  | escape collected =>
    rw [step] at h
    split at h
    · cases h
      exact List.forall_mem_nil _
    · obtain ⟨letter, -, heq⟩ := Option.map_eq_some_iff.1 h
      cases heq
      exact List.forall_mem_nil _
  | unicode collected high count value =>
    obtain ⟨digit, -, h⟩ := Option.bind_eq_some_iff.1 h
    dsimp only at h
    split at h
    · cases h
      exact List.forall_mem_nil _
    · obtain ⟨closed, -, h⟩ := Option.bind_eq_some_iff.1 h
      cases h
      exact List.forall_mem_nil _
  | pairBackslash collected high | pairLetter collected high =>
    rw [step] at h
    split at h
    · cases h
      exact List.forall_mem_nil _
    · cases h

theorem ordered_finish {lexer : Lexer} {tokens : List Token} (h : tokens ∈ finish lexer) :
    ∀ token ∈ tokens, token.Ordered := by
  cases lexer with
  | between =>
    cases h
    exact List.forall_mem_nil _
  | bare collected =>
    obtain ⟨token, htoken, rfl⟩ := Option.map_eq_some_iff.1 h
    exact List.forall_mem_singleton.2 (ordered_bareToken htoken)
  | text | escape | unicode | pairBackslash | pairLetter => cases h

end Lexer

theorem Token.ordered_scan {text : String} {tokens : List Token} (h : tokens ∈ scan text) :
    ∀ token ∈ tokens, token.Ordered := by
  obtain ⟨⟨lexer, collected⟩, hwalk, h⟩ := Option.bind_eq_some_iff.1 h
  obtain ⟨last, hlast, h⟩ := Option.bind_eq_some_iff.1 h
  cases h
  have hcollected := mem_foldlM_keeps
    (P := fun read : Lexer × List Token => ∀ token ∈ read.2, token.Ordered) hwalk
    (List.forall_mem_nil _) fun c _ ⟨lexer, collected⟩ read' hstep hread => by
      obtain ⟨⟨tokens, next⟩, hlexed, heq⟩ := Option.bind_eq_some_iff.1 hstep
      cases heq
      refine List.forall_mem_append.2 ⟨fun token hmem => ?_, hread⟩
      exact Lexer.ordered_step hlexed token (List.mem_reverse.1 hmem)
  refine List.forall_mem_append.2 ⟨fun token hmem => ?_, Lexer.ordered_finish hlast⟩
  exact hcollected token (List.mem_reverse.1 hmem)

namespace Reader

/-- What an open array or object holds so far is ordered. -/
def Frame.Ordered : Frame → Prop
  | .array done => ∀ item ∈ done, item.Ordered
  | .object done _ => ∀ member ∈ done, member.2.Ordered

/-- The value that was read, if it was, is ordered. -/
def Expect.Ordered : Expect → Prop
  | .nothing content => content.Ordered
  | _ => True

/-- All that the reader holds is ordered. -/
structure State.Ordered (state : State) : Prop where
  stack : ∀ frame ∈ state.stack, frame.Ordered
  expect : state.expect.Ordered

variable {stack : List Frame} {value : Json} {state state' : State} {token : Token}

theorem ordered_push {frame : Frame} {expect : Expect} (h : state' ∈ push frame expect stack)
    (hstack : ∀ frame ∈ stack, frame.Ordered) (hframe : frame.Ordered) (hexpect : expect.Ordered) :
    state'.Ordered := by
  unfold push at h
  split at h
  · cases h
    exact ⟨List.forall_mem_cons.2 ⟨hframe, hstack⟩, hexpect⟩
  · cases h

theorem ordered_complete (hstack : ∀ frame ∈ stack, frame.Ordered) (hvalue : value.Ordered) :
    (complete value stack).Ordered := by
  cases stack with
  | nil => exact ⟨hstack, hvalue⟩
  | cons frame stack =>
    obtain ⟨hframe, hrest⟩ := List.forall_mem_cons.1 hstack
    cases frame with
    | array done =>
      have hdone : Frame.Ordered (.array (value :: done)) := List.forall_mem_cons.2 ⟨hvalue, hframe⟩
      exact ⟨List.forall_mem_cons.2 ⟨hdone, hrest⟩, trivial⟩
    | object done name =>
      have hdone : Frame.Ordered (.object ((name, value) :: done) name) :=
        List.forall_mem_cons.2 ⟨hvalue, hframe⟩
      exact ⟨List.forall_mem_cons.2 ⟨hdone, hrest⟩, trivial⟩

theorem ordered_takeValue (h : state' ∈ takeValue token stack) (hstack : ∀ frame ∈ stack, frame.Ordered)
    (htoken : token.Ordered) : state'.Ordered := by
  cases token with
  | text content =>
    cases h
    exact ordered_complete hstack (.str content)
  | scalar value =>
    cases h
    exact ordered_complete hstack htoken
  | beginArray => exact ordered_push h hstack (List.forall_mem_nil _) trivial
  | beginObject => exact ordered_push h hstack (List.forall_mem_nil _) trivial
  | endArray | endObject | colon | comma => cases h

theorem ordered_step (h : state' ∈ step state token) (hstate : state.Ordered)
    (htoken : token.Ordered) : state'.Ordered := by
  obtain ⟨hstack, -⟩ := hstate
  revert h
  fun_cases step state token with
  | case1 => exact fun h => ordered_takeValue h hstack htoken
  | case3 => exact fun h => ordered_takeValue h hstack htoken
  | case2 | case10 =>
    rintro ⟨⟩
    rw [‹state.stack = _›] at hstack
    obtain ⟨hdone, hrest⟩ := List.forall_mem_cons.1 hstack
    exact ordered_complete hrest (.arr fun item hmem => hdone item (List.mem_reverse.1 hmem))
  | case4 | case11 =>
    rintro ⟨⟩
    rw [‹state.stack = _›] at hstack
    obtain ⟨hdone, hrest⟩ := List.forall_mem_cons.1 hstack
    exact ordered_complete hrest (.ofMembers fun member hmem => hdone member (List.mem_reverse.1 hmem))
  -- Whatever else comes next, the innermost array or object holds what it held.
  | case5 | case6 | case8 | case9 =>
    rintro ⟨⟩
    rw [‹state.stack = _›] at hstack
    obtain ⟨hdone, hrest⟩ := List.forall_mem_cons.1 hstack
    exact ⟨List.forall_mem_cons.2 ⟨hdone, hrest⟩, trivial⟩
  | case7 =>
    rintro ⟨⟩
    exact ⟨hstack, trivial⟩
  | case12 => exact nofun

end Reader

theorem ordered_parse {text : String} {value : Json} (h : value ∈ parse text) : value.Ordered := by
  obtain ⟨tokens, htokens, h⟩ := Option.bind_eq_some_iff.1 h
  obtain ⟨state, hstate, h⟩ := Option.bind_eq_some_iff.1 h
  have hordered := Token.ordered_scan htokens
  have hfinal : state.Ordered :=
    mem_foldlM_keeps hstate ⟨List.forall_mem_nil _, trivial⟩ fun token hmem _ _ hstep hbefore =>
      Reader.ordered_step hstep hbefore (hordered token hmem)
  split at h
  · next content hexpect =>
    cases h
    have hcontent := hfinal.expect
    rwa [hexpect] at hcontent
  · cases h

end Json

/-! ### YAML -/

namespace Yaml

theorem ordered_integer? {cs : List Char} {value : Json} (h : integer? cs = some (some value)) :
    value.Ordered := by
  obtain ⟨n, -, h⟩ := Option.bind_eq_some_iff.1 h
  repeat' split at h
  all_goals cases h
  all_goals exact .int _

theorem ordered_float? {cs : List Char} {value : Json} (h : value ∈ float? cs) : value.Ordered := by
  unfold float? at h
  dsimp only at h
  -- With a fraction or without.
  split at h <;>
  · split at h
    · cases h
    · obtain ⟨exponent, -, h⟩ := Option.bind_eq_some_iff.1 h
      obtain ⟨x, -, rfl⟩ := Option.map_eq_some_iff.1 h
      exact .float x

theorem ordered_plainValue {text : String} {value : Json} (h : value ∈ plainValue text) :
    value.Ordered := by
  unfold plainValue at h
  repeat' split at h
  · cases h
    exact .null
  · cases h
    exact .bool true
  · cases h
    exact .bool false
  · cases h
    exact .null
  · next found hfound =>
    cases h
    exact ordered_integer? hfound
  · cases h
    exact .str text
  · cases h
    cases hfloat : float? text.toList with
    | none => exact .str text
    | some x => exact ordered_float? hfloat

namespace Reader

/-- The value that a part of the reader gives, if it gives one, is ordered. -/
def Gives (result : Option (Json × List Token)) : Prop := ∀ read ∈ result, read.1.Ordered

variable {α : Type} {content : Json} {rest : List Token} {fuel : Nat}

theorem Gives.none : Gives none := nofun

theorem Gives.some (h : content.Ordered) : Gives (some (content, rest)) := by
  rintro read ⟨⟩
  exact h

theorem Gives.bind {x : Option (Json × List Token)} {f : Json × List Token → Option (Json × List Token)}
    (h : Gives x) (hf : ∀ content rest, content.Ordered → Gives (f (content, rest))) : Gives (x >>= f) := by
  cases x with
  | none => exact .none
  | some read => exact hf read.1 read.2 (h read rfl)

/-- What was read before is no value. -/
theorem gives_bind {x : Option α} {f : α → Option (Json × List Token)} (hf : ∀ a, Gives (f a)) :
    Gives (x >>= f) := by
  cases x with
  | none => exact .none
  | some a => exact hf a

/-- All parts of the reader give ordered values, if they are handed ordered ones. -/
structure GivesOrdered (fuel : Nat) : Prop where
  node : ∀ {depth block bare tokens content rest},
    node fuel depth block bare tokens = some (.inl content, rest) → content.Ordered
  value : ∀ {depth block bare ends tokens}, Gives (value fuel depth block bare ends tokens)
  bareList : ∀ {depth done tokens}, (∀ item ∈ done, item.Ordered) →
    Gives (bareList fuel depth done tokens)
  blockList : ∀ {depth done tokens}, (∀ item ∈ done, item.Ordered) →
    Gives (blockList fuel depth done tokens)
  blockMap : ∀ {depth done tokens}, (∀ member ∈ done, member.2.Ordered) →
    Gives (blockMap fuel depth done tokens)
  flowList : ∀ {depth first done tokens}, (∀ item ∈ done, item.Ordered) →
    Gives (flowList fuel depth first done tokens)
  flowMap : ∀ {depth first done tokens}, (∀ member ∈ done, member.2.Ordered) →
    Gives (flowMap fuel depth first done tokens)

theorem givesOrdered_zero : GivesOrdered 0 where
  node h := by
    unfold node at h
    split at h <;> first | cases h | contradiction
  value := by
    unfold value
    exact .none
  bareList _ := by
    unfold bareList
    exact .none
  blockList _ := by
    unfold blockList
    exact .none
  blockMap _ := by
    unfold blockMap
    exact .none
  flowList _ := by
    unfold flowList
    exact .none
  flowMap _ := by
    unfold flowMap
    exact .none

variable {depth : Nat} {block bare first : Bool} {ends tokens : List Token} {items : List Json}
  {members : List (String × Json)}

/-- A list or map is read by the part of the reader for its kind. -/
theorem ordered_of_map {x : Option (Json × List Token)} (hx : Gives x)
    (h : x.map (fun (content, rest) => (Sum.inl (β := String × Bool) content, rest)) =
      .some (.inl content, rest)) : content.Ordered := by
  obtain ⟨read, hread, heq⟩ := Option.map_eq_some_iff.1 h
  cases heq
  exact hx read hread

theorem ordered_node (h : GivesOrdered fuel)
    (hread : node (fuel + 1) depth block bare tokens = some (.inl content, rest)) :
    content.Ordered := by
  unfold node at hread
  split at hread
  · cases hread
  all_goals try cases ‹fuel + 1 = _›
  · split at hread
    · exact ordered_of_map (h.bareList (List.forall_mem_nil _)) hread
    · cases hread
  · exact ordered_of_map (h.flowList (List.forall_mem_nil _)) hread
  · exact ordered_of_map (h.flowMap (List.forall_mem_nil _)) hread
  · split at hread
    · exact ordered_of_map (h.blockList (List.forall_mem_nil _)) hread
    · cases hread
  · split at hread
    · exact ordered_of_map (h.blockMap (List.forall_mem_nil _)) hread
    · cases hread
  · cases hread

theorem gives_value (h : GivesOrdered fuel) : Gives (value (fuel + 1) depth block bare ends tokens) := by
  unfold value
  split
  · exact .some .null
  cases hnode : node fuel depth block bare tokens with
  | none => exact .none
  | some read =>
    obtain ⟨content | ⟨text, plain⟩, rest⟩ := read
    · exact .some (h.node hnode)
    · dsimp only [Option.bind_eq_bind, Option.bind_some]
      split
      · intro read hread
        obtain ⟨scalar, hscalar, heq⟩ := Option.bind_eq_some_iff.1 hread
        cases heq
        exact ordered_plainValue hscalar
      · exact .some (.str text)

theorem gives_bareList (h : GivesOrdered fuel) (hitems : ∀ item ∈ items, item.Ordered) :
    Gives (bareList (fuel + 1) depth items tokens) := by
  unfold bareList
  split
  · exact h.value.bind fun item rest hitem => h.bareList (List.forall_mem_cons.2 ⟨hitem, hitems⟩)
  · exact .some (.arr fun item hmem => hitems item (List.mem_reverse.1 hmem))

theorem gives_blockList (h : GivesOrdered fuel) (hitems : ∀ item ∈ items, item.Ordered) :
    Gives (blockList (fuel + 1) depth items tokens) := by
  unfold blockList
  split
  · exact h.value.bind fun item rest hitem => h.blockList (List.forall_mem_cons.2 ⟨hitem, hitems⟩)
  · exact .some (.arr fun item hmem => hitems item (List.mem_reverse.1 hmem))
  · exact .none

theorem gives_blockMap (h : GivesOrdered fuel) (hmembers : ∀ member ∈ members, member.2.Ordered) :
    Gives (blockMap (fuel + 1) depth members tokens) := by
  unfold blockMap
  split
  · refine gives_bind fun read => ?_
    dsimp only
    split
    · exact h.value.bind fun item rest hitem => h.blockMap (List.forall_mem_cons.2 ⟨hitem, hmembers⟩)
    · exact h.blockMap (List.forall_mem_cons.2 ⟨.null, hmembers⟩)
  · exact .some (.ofMembers fun member hmem => hmembers member (List.mem_reverse.1 hmem))
  · exact .none

/-- The single entry of a map that is an item of a flow list. -/
theorem ordered_entry (name : String) (h : content.Ordered) : (Json.obj [(name, content)]).Ordered :=
  .obj (List.pairwise_singleton _ _) (List.forall_mem_singleton.2 h)

theorem gives_flowList (h : GivesOrdered fuel) (hitems : ∀ item ∈ items, item.Ordered) :
    Gives (flowList (fuel + 1) depth first items tokens) := by
  have hlist : Json.Ordered (.arr items.reverse) :=
    .arr fun item hmem => hitems item (List.mem_reverse.1 hmem)
  unfold flowList
  split
  · exact .some hlist
  · extract_lets item
    have hitem (tokens : List Token) : Gives (item tokens) := by
      dsimp only [item]
      split
      · exact .some hlist
      · split
        · exact .none
        · refine gives_bind fun read => ?_
          split
          · refine h.value.bind fun value rest hvalue => ?_
            exact h.flowList (List.forall_mem_cons.2 ⟨ordered_entry _ hvalue, hitems⟩)
          · exact h.flowList (List.forall_mem_cons.2 ⟨ordered_entry _ .null, hitems⟩)
      · exact h.value.bind fun item rest hitem => h.flowList (List.forall_mem_cons.2 ⟨hitem, hitems⟩)
    repeat' split
    all_goals exact gives_bind hitem

theorem gives_flowMap (h : GivesOrdered fuel) (hmembers : ∀ member ∈ members, member.2.Ordered) :
    Gives (flowMap (fuel + 1) depth first members tokens) := by
  have hmap : (Json.ofMembers members.reverse).Ordered :=
    .ofMembers fun member hmem => hmembers member (List.mem_reverse.1 hmem)
  unfold flowMap
  split
  · exact .some hmap
  · extract_lets entry
    have hentry (tokens : List Token) : Gives (entry tokens) := by
      dsimp only [entry]
      split
      · exact .some hmap
      · refine gives_bind fun read => ?_
        split
        · refine h.value.bind fun item rest hitem => ?_
          exact h.flowMap (List.forall_mem_cons.2 ⟨hitem, hmembers⟩)
        · exact h.flowMap (List.forall_mem_cons.2 ⟨.null, hmembers⟩)
      · exact gives_bind fun read => h.flowMap (List.forall_mem_cons.2 ⟨.null, hmembers⟩)
    repeat' split
    all_goals exact gives_bind hentry

theorem givesOrdered (fuel : Nat) : GivesOrdered fuel := by
  induction fuel with
  | zero => exact givesOrdered_zero
  | succ fuel ih =>
    exact ⟨ordered_node ih, gives_value ih, gives_bareList ih, gives_blockList ih, gives_blockMap ih,
      gives_flowList ih, gives_flowMap ih⟩

theorem ordered_document (h : content ∈ document fuel tokens) : content.Ordered := by
  obtain ⟨⟨found, rest⟩, hfound, h⟩ := Option.bind_eq_some_iff.1 h
  dsimp only at h
  split at h
  · cases h
    exact (givesOrdered fuel).value _ hfound
  · cases h

end Reader

theorem ordered_parse {text : String} {value : Json} (h : value ∈ parse text) : value.Ordered := by
  obtain ⟨tokens, -, h⟩ := Option.bind_eq_some_iff.1 h
  dsimp only at h
  split at h
  · cases h
    exact .null
  · split at h
    · cases h
      exact .null
    · exact Reader.ordered_document h
  · exact Reader.ordered_document h

end Yaml

/-! ### Files -/

theorem Document.ordered_parse {path text : String} {value : Json} (h : value ∈ parse path text) :
    value.Ordered := by
  unfold parse at h
  split at h
  · exact Yaml.ordered_parse h
  · exact Json.ordered_parse h

/-- What is read of a file has the members of its objects in order. -/
theorem Files.ordered_document {files : Files} {path : String} {value : Json}
    (h : files.document path = .ok value) : value.Ordered := by
  obtain ⟨text, -, h⟩ := exists_of_bind_eq_ok h
  exact Document.ordered_parse (eq_some_of_elim_eq_ok h)

end Rehearsal
