import Rehearsal.Json.MergePatch
import Rehearsal.Proofs.Json.Ordered

/-!
# Merge patches and differences

What a merge patch makes of an object is known name by name (`Json.get?_mergeMembers`), and so are
the differences of two objects (`Json.get?_diffMembers`). Laid over the value that they start from,
differences lead to the other one, unless that has a member that is null, which no patch can give
(`Json.Lasting`); laid over a third object, they change what differs
(`Json.mergePatch_mergeDiff`).
-/

namespace Rehearsal.Json

variable {old new members patch : List (String × Json)} {name : String}

/-! ### Patches by name -/

/-- What becomes of a member, if there is one, under the member of a patch that has its name. -/
def patchMember (member : Option Json) : Option Json → Option Json
  | none => member
  | some value => if value.isNull then none else some (mergePatch (member.getD .null) value)

theorem mergePatch_of_not_object {patch : Json} (h : patch.isObject = false) (doc : Json) :
    mergePatch doc patch = patch := by
  cases patch with
  | obj members => cases h
  | null | bool | int | float | str | arr => rfl

theorem get?_mergeMembers (h : Assoc.Ascending patch) :
    Assoc.get? name (mergeMembers members patch) =
      patchMember (Assoc.get? name members) (Assoc.get? name patch) := by
  induction patch generalizing members with
  | nil => rfl
  | cons entry patch ih =>
    obtain ⟨key, value⟩ := entry
    obtain ⟨hlt, hrest⟩ := List.pairwise_cons.1 h
    have hnone : Assoc.get? key patch = none := Assoc.get?_eq_none_of_lt hlt
    rw [mergeMembers, Assoc.get?]
    by_cases heq : key = name
    · subst heq
      rw [if_pos rfl, patchMember]
      split
      · rw [ih hrest, hnone, patchMember, Assoc.get?_erase, if_pos rfl]
      · rw [ih hrest, hnone, patchMember, Assoc.get?_insert, if_pos rfl]
    · rw [if_neg heq]
      split
      · rw [ih hrest, Assoc.get?_erase, if_neg (Ne.symm heq)]
      · rw [ih hrest, Assoc.get?_insert, if_neg (Ne.symm heq)]

theorem ascending_mergeMembers (h : Assoc.Ascending members) :
    Assoc.Ascending (mergeMembers members patch) := by
  induction patch generalizing members with
  | nil => exact h
  | cons entry patch ih =>
    obtain ⟨key, value⟩ := entry
    rw [mergeMembers]
    split
    · exact ih (h.erase key)
    · exact ih (h.insert key _)

/-! ### Differences by name -/

/-- The member of the differences between two members, if there are any. -/
def diffMember : Option Json → Option Json → Option Json
  | some value, some newValue => if newValue.same value then none else some (mergeDiff value newValue)
  | some _, none => some .null
  | none, added => added

/-- The differences between the members of two objects. -/
abbrev diffMembers (old new : List (String × Json)) : List (String × Json) :=
  addNewMembers old new (changedMembers old new)

theorem get?_changedMembers (h : Assoc.Ascending old) :
    Assoc.get? name (changedMembers old new) =
      (Assoc.get? name old).bind fun value => diffMember (some value) (Assoc.get? name new) := by
  induction old with
  | nil => rfl
  | cons entry old ih =>
    obtain ⟨key, value⟩ := entry
    obtain ⟨hlt, hrest⟩ := List.pairwise_cons.1 h
    have hnone : Assoc.get? key old = none := Assoc.get?_eq_none_of_lt hlt
    replace ih := ih hrest
    rw [changedMembers, Assoc.get?]
    by_cases heq : key = name
    · subst heq
      rw [hnone, Option.bind_none] at ih
      rw [if_pos rfl, Option.bind_some]
      split
      · next hnew => rw [hnew, Assoc.get?_insert, if_pos rfl, diffMember]
      · next newValue hnew =>
        rw [hnew, diffMember]
        split
        · exact ih
        · rw [Assoc.get?_insert, if_pos rfl]
    · rw [if_neg heq]
      split
      · rw [Assoc.get?_insert, if_neg (Ne.symm heq), ih]
      · split
        · exact ih
        · rw [Assoc.get?_insert, if_neg (Ne.symm heq), ih]

theorem ascending_changedMembers : Assoc.Ascending (changedMembers old new) := by
  induction old with
  | nil => exact List.Pairwise.nil
  | cons entry old ih =>
    obtain ⟨key, value⟩ := entry
    rw [changedMembers]
    split
    · exact ih.insert key _
    · split
      · exact ih
      · exact ih.insert key _

theorem get?_addNewMembers (h : Assoc.Ascending new) (diff : List (String × Json)) :
    Assoc.get? name (addNewMembers old new diff) =
      if Assoc.contains name old then Assoc.get? name diff
      else (Assoc.get? name new).or (Assoc.get? name diff) := by
  rw [addNewMembers]
  induction new generalizing diff with
  | nil => rw [Assoc.get?, Option.none_or, ite_self, List.foldl_nil]
  | cons entry new ih =>
    obtain ⟨key, value⟩ := entry
    obtain ⟨hlt, hrest⟩ := List.pairwise_cons.1 h
    have hnone : Assoc.get? key new = none := Assoc.get?_eq_none_of_lt hlt
    rw [List.foldl_cons, ih hrest, Assoc.get?]
    by_cases heq : key = name
    · subst heq
      rw [if_pos rfl, hnone, Option.none_or, Option.some_or]
      dsimp only
      split
      · rfl
      · rw [Assoc.get?_insert, if_pos rfl]
    · rw [if_neg heq]
      have hdiff : Assoc.get? name (if Assoc.contains key old then diff else Assoc.insert key value diff) =
          Assoc.get? name diff := by
        split
        · rfl
        · rw [Assoc.get?_insert, if_neg (Ne.symm heq)]
      rw [hdiff]

theorem ascending_addNewMembers {diff : List (String × Json)} (h : Assoc.Ascending diff) :
    Assoc.Ascending (addNewMembers old new diff) := by
  rw [addNewMembers]
  induction new generalizing diff with
  | nil => exact h
  | cons entry new ih =>
    refine ih ?_
    dsimp only
    split
    · exact h
    · exact h.insert _ _

theorem get?_diffMembers (hold : Assoc.Ascending old) (hnew : Assoc.Ascending new) :
    Assoc.get? name (diffMembers old new) =
      diffMember (Assoc.get? name old) (Assoc.get? name new) := by
  rw [diffMembers, get?_addNewMembers hnew, get?_changedMembers hold, Assoc.contains]
  cases Assoc.get? name old with
  | none => rw [Option.bind_none, Option.or_none, diffMember]; rfl
  | some value => rfl

theorem ascending_diffMembers : Assoc.Ascending (diffMembers old new) :=
  ascending_addNewMembers ascending_changedMembers

/-- What the differences of two objects make of a member of a third. -/
theorem get?_merge_diffMembers (hold : Assoc.Ascending old) (hnew : Assoc.Ascending new) :
    Assoc.get? name (mergeMembers members (diffMembers old new)) =
      patchMember (Assoc.get? name members) (diffMember (Assoc.get? name old) (Assoc.get? name new)) := by
  rw [get?_mergeMembers ascending_diffMembers, get?_diffMembers hold hnew]

/-! ### No differences -/

theorem mergeDiff_of_not_object {before after : Json}
    (h : before.isObject = false ∨ after.isObject = false) : mergeDiff before after = after := by
  cases before with
  | obj old =>
    cases after with
    | obj new => exact absurd h (not_or_intro Bool.noConfusion Bool.noConfusion)
    | null | bool | int | float | str | arr => rfl
  | null | bool | int | float | str | arr => rfl

theorem diffMembers_self (h : Assoc.Ascending members) : diffMembers members members = [] := by
  refine List.eq_nil_iff_forall_not_mem.2 fun entry hmem => ?_
  have hnone : Assoc.get? entry.1 (diffMembers members members) = none := by
    rw [get?_diffMembers h h]
    cases Assoc.get? entry.1 members with
    | none => rfl
    | some value => exact if_pos (same_refl value)
  exact Assoc.get?_eq_none_iff.1 hnone entry hmem rfl

/-- Laying the differences of a value from itself over another one changes nothing. Those of an
object are the empty object, which makes an object of whatever is none; those of anything else are
the value itself, which takes the place of whatever is there. -/
def Undisturbed (value doc : Json) : Prop :=
  if value.isObject then doc.isObject = true else doc = value

theorem mergePatch_self_iff {value : Json} (h : value.Ordered) (doc : Json) :
    doc.mergePatch (value.mergeDiff value) = doc ↔ Undisturbed value doc := by
  cases value with
  | obj members =>
    change doc.mergePatch (.obj (diffMembers members members)) = doc ↔ doc.isObject = true
    rw [diffMembers_self h.ascending]
    cases doc with
    | obj => exact iff_of_true rfl rfl
    | null | bool | int | float | str | arr => exact iff_of_false nofun nofun
  | null | bool | int | float | str | arr =>
    rw [mergeDiff_of_not_object (.inl rfl), mergePatch_of_not_object rfl]
    exact eq_comm

/-! ### From one value to another -/

/-- No member of an object in the value is null. What arrays hold does not matter, for a patch
replaces them whole. -/
inductive Lasting : Json → Prop
  | plain {value : Json} (h : value.isObject = false) : Lasting value
  | obj {members : List (String × Json)} (hnull : ∀ member ∈ members, member.2.isNull = false)
      (h : ∀ member ∈ members, Lasting member.2) : Lasting (.obj members)

/-- Where no object was, a patch without null members is the outcome itself. -/
theorem mergePatch_of_lasting {value doc : Json} (hordered : value.Ordered) (h : value.Lasting)
    (hdoc : doc.isObject = false) : mergePatch doc value = value := by
  induction value using Json.induct generalizing doc with
  | null | bool | int | float | str | arr => exact mergePatch_of_not_object rfl doc
  | obj members ih =>
    have hmerge : mergePatch doc (.obj members) = .obj (mergeMembers [] members) := by
      cases doc with
      | obj => cases hdoc
      | null | bool | int | float | str | arr => rfl
    rw [hmerge]
    cases h with
    | plain h => cases h
    | obj hnull h =>
      have hascending := hordered.ascending
      let result : Dict Json := ⟨mergeMembers [] members, ascending_mergeMembers List.Pairwise.nil⟩
      have heq : result = ⟨members, hascending⟩ := by
        refine Dict.ext_get? fun name => ?_
        change Assoc.get? name (mergeMembers [] members) = Assoc.get? name members
        rw [get?_mergeMembers hascending]
        cases hget : Assoc.get? name members with
        | none => rfl
        | some value =>
          have hmem := Assoc.mem_of_get? hget
          rw [patchMember, hnull _ hmem, Assoc.get?, Option.getD_none,
            ih _ hmem (hordered.of_mem hmem) (h _ hmem) rfl]
          rfl
      exact congrArg (fun dict : Dict Json => Json.obj dict.entries) heq

theorem isNull_mergeDiff (before after : Json) : (mergeDiff before after).isNull = after.isNull := by
  cases before with
  | obj old => cases after <;> rfl
  | null | bool | int | float | str | arr => rw [mergeDiff_of_not_object (.inl rfl)]

/-- Differences lead to the value that they were made for, but for the signs of zeros. -/
theorem same_mergePatch_mergeDiff {before after : Json} (hbefore : before.Ordered)
    (hafter : after.Ordered) (hlasting : after.Lasting) :
    after.same (before.mergePatch (before.mergeDiff after)) = true := by
  induction before using Json.induct generalizing after with
  | null | bool | int | float | str | arr =>
    rw [mergeDiff_of_not_object (.inl rfl), mergePatch_of_lasting hafter hlasting rfl]
    exact same_refl after
  | obj old ih =>
    cases hlasting with
    | plain hplain =>
      rw [mergeDiff_of_not_object (.inr hplain), mergePatch_of_not_object hplain]
      exact same_refl after
    | @obj new hnull hlasting =>
      rw [mergeDiff]
      refine sameMembers_of_get? hafter.ascending (ascending_mergeMembers hbefore.ascending)
        fun name => ?_
      rw [get?_merge_diffMembers hbefore.ascending hafter.ascending]
      cases hold : Assoc.get? name old with
      | none =>
        cases hnew : Assoc.get? name new with
        | none => exact .none
        | some value =>
          have hmem := Assoc.mem_of_get? hnew
          rw [diffMember, patchMember, hnull _ hmem, Option.getD_none,
            mergePatch_of_lasting (hafter.of_mem hmem) (hlasting _ hmem) rfl]
          exact .some (same_refl value)
      | some value =>
        have hmemOld := Assoc.mem_of_get? hold
        cases hnew : Assoc.get? name new with
        | none => exact .none
        | some newValue =>
          have hmem := Assoc.mem_of_get? hnew
          rw [diffMember]
          split
          · next hsame => exact .some hsame
          · rw [patchMember, isNull_mergeDiff, hnull _ hmem]
            exact .some (ih _ hmemOld (hbefore.of_mem hmemOld) (hafter.of_mem hmem)
              (hlasting _ hmem))

/-! ### From two objects to a third -/

/-- How a member changes in an object over which the differences of two others are laid. -/
structure Carries (before after target result : Option Json) : Prop where
  /-- A member that is the same in both, or that neither has, stays as it is. -/
  unchanged : SameMember after before → result = target
  /-- A member that is dropped is gone. -/
  dropped : before ≠ none → after = none → result = none
  /-- A member that comes to be anything but an object or null becomes just that. -/
  changed : ∀ value, after = some value → ¬ SameMember after before → value.isObject = false →
    value.isNull = false → result = some value

theorem carries_diffMember (before after target : Option Json) :
    Carries before after target (patchMember target (diffMember before after)) where
  unchanged h := by
    cases h with
    | none => rfl
    | some hsame => rw [diffMember, if_pos hsame, patchMember]
  dropped hbefore hafter := by
    subst hafter
    cases before with
    | none => exact absurd rfl hbefore
    | some value => rfl
  changed value hafter hchanged hobject hnull := by
    subst hafter
    have hdiff : diffMember before (some value) = some value := by
      cases before with
      | none => rfl
      | some old =>
        rw [diffMember, if_neg fun hsame => hchanged (.some hsame), mergeDiff_of_not_object (.inr hobject)]
    rw [hdiff, patchMember, hnull, mergePatch_of_not_object hobject]
    rfl

/-- **Differences say what has changed, and nothing else.** Laid over the value that they start from,
the differences of two values give the other one, if it has no member that is null. Laid over another
object, those of two objects leave a member alone that is the same in both or in neither, drop one
that is dropped, and put a value that is neither an object nor null where a member comes to be that. -/
theorem mergePatch_mergeDiff :
    (∀ before after : Json, before.Ordered → after.Ordered → after.Lasting →
      after.same (before.mergePatch (before.mergeDiff after)) = true) ∧
    ∀ before after target : Dict Json, ∃ result : Dict Json,
      (ofDict target).mergePatch ((ofDict before).mergeDiff (ofDict after)) = ofDict result ∧
      ∀ name, Carries (before.get? name) (after.get? name) (target.get? name) (result.get? name) := by
  refine ⟨fun before after => same_mergePatch_mergeDiff, fun before after target => ?_⟩
  let result : Dict Json :=
    ⟨mergeMembers target.entries (diffMembers before.entries after.entries),
      ascending_mergeMembers target.ascending⟩
  refine ⟨result, rfl, fun name => ?_⟩
  have hget : result.get? name =
      patchMember (target.get? name) (diffMember (before.get? name) (after.get? name)) :=
    get?_merge_diffMembers before.ascending after.ascending
  rw [hget]
  exact carries_diffMember _ _ _

/-! ### A widget -/

/-- A widget. -/
def redWidget : Json :=
  .obj [("place", .str "east"), ("properties", .obj [("color", .str "red"), ("size", .int 1)])]

/-- The widget without a colour, larger, and with a price. -/
def largeWidget : Json :=
  .obj [("place", .str "east"), ("price", .int 3), ("properties", .obj [("size", .int 2)])]

/-- The differences make the one of the other, and change another object in the same way. -/
theorem mergePatch_mergeDiff_widgets :
    largeWidget.same (redWidget.mergePatch (redWidget.mergeDiff largeWidget)) = true ∧
    ∃ result : Dict Json,
      (ofDict (Dict.ofList [("id", .str "w"), ("place", .str "west")])).mergePatch
        ((ofDict (Dict.ofList [("place", .str "east"), ("size", .int 1)])).mergeDiff
          (ofDict (Dict.ofList [("place", .str "east"), ("price", .int 3)]))) = ofDict result ∧
      result.get? "place" = some (.str "west") ∧ result.get? "size" = none ∧
      result.get? "price" = some (.int 3) := by
  have hred : redWidget.Ordered := by
    refine .obj (by decide +kernel) (List.forall_mem_cons.2 ⟨.str _, List.forall_mem_singleton.2 ?_⟩)
    exact .obj (by decide +kernel)
      (List.forall_mem_cons.2 ⟨.str _, List.forall_mem_singleton.2 (.int 1)⟩)
  have hlarge : largeWidget.Ordered := by
    refine .obj (by decide +kernel) (List.forall_mem_cons.2
      ⟨.str _, List.forall_mem_cons.2 ⟨.int 3, List.forall_mem_singleton.2 ?_⟩⟩)
    exact .obj (by decide +kernel) (List.forall_mem_singleton.2 (.int 2))
  have hlasting : largeWidget.Lasting := by
    refine .obj (by decide) (List.forall_mem_cons.2
      ⟨.plain rfl, List.forall_mem_cons.2 ⟨.plain rfl, List.forall_mem_singleton.2 ?_⟩⟩)
    exact .obj (by decide) (List.forall_mem_singleton.2 (.plain rfl))
  obtain ⟨hround, hcarries⟩ := mergePatch_mergeDiff
  obtain ⟨result, hresult, hmembers⟩ := hcarries (Dict.ofList [("place", .str "east"), ("size", .int 1)])
    (Dict.ofList [("place", .str "east"), ("price", .int 3)])
    (Dict.ofList [("id", .str "w"), ("place", .str "west")])
  refine ⟨hround _ _ hred hlarge hlasting, result, hresult, ?_, ?_, ?_⟩
  · exact (hmembers "place").unchanged (.some rfl)
  · exact (hmembers "size").dropped nofun rfl
  · exact (hmembers "price").changed (.int 3) rfl nofun rfl rfl

end Rehearsal.Json
