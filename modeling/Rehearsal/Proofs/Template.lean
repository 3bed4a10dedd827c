import Rehearsal.Proofs.Json.Ordered
import Rehearsal.Template

/-!
# Writing a template again

What a deployment sends is not the document that its template was read from but what is written of the
template. Reading tells three sections of a template and two or one members of each parameter and
output from everything else, and writing puts them together again. The members of the document are all
there, at every level, and as they were, except for what is left to a default: a section that is
missing is written as an empty one, an output without a type is written as a text, and a default of a
parameter that is null is left out (`Template.toJson_eq_completed`).

For each of the three records what is read of its members is said by look-ups
(`TemplateParameter.Reads`, `TemplateOutput.Reads`, `Template.Reads`), and so is what is written.
-/

namespace Rehearsal

namespace Json

variable {α : Type} {value : Json}

/-- The value with the members of an object changed; what is no object stays. -/
def mapMembers (f : Dict Json → Dict Json) (value : Json) : Json :=
  value.dict?.elim value fun members => ofDict (f members)

/-- An ordered object is that of a dictionary. -/
theorem Ordered.exists_dict (h : value.Ordered) {fields : Fields}
    (hfields : value.fields? = some fields) :
    ∃ members : Dict Json, value = ofDict members ∧
      ∀ f, value.mapMembers f = ofDict (f members) := by
  cases h with
  | obj hascending _ =>
    cases hfields
    let members : Dict Json := ⟨_, hascending⟩
    refine ⟨members, rfl, fun f => ?_⟩
    exact congrArg (fun members => ofDict (f members)) members.ofList_entries
  | null | bool | int | float | str | arr => cases hfields

/-- An object whose values were read one by one is written with each of them changed, if reading and
writing a value changes it. -/
theorem ofDictWith_of_dictOf? {read : Json → Option α} {write : α → Json} {f : Json → Json}
    (hwrite : ∀ json a, json.Ordered → read json = some a → write a = f json) (hordered : value.Ordered)
    {dict : Dict α} (h : dictOf? read value = some dict) :
    ofDictWith write dict = value.mapMembers (·.mapValues fun _ => f) := by
  obtain ⟨members, hmembers, h⟩ := bind_eq_some_iff.1 h
  rw [mapMembers, hmembers, Option.elim_some]
  refine congrArg ofDict (Dict.mapValues_eq_of_mapM h fun entry hmem a ha => ?_)
  exact hwrite entry.2 a (hordered.of_dict? hmembers hmem) ha

end Json

namespace TemplateParameter

variable {json : Json} {p : TemplateParameter} {members : Dict Json}

/-- The members of a parameter as they are written: a default that is null is left out. -/
def completed (members : Dict Json) : Dict Json :=
  if (members.get? "defaultValue").any Json.isNull then members.erase "defaultValue" else members

/-- What is read of the members of a parameter. -/
structure Reads (members : Dict Json) (p : TemplateParameter) : Prop where
  type : members.get? "type" = some (.str p.typeName)
  default : (members.get? "defaultValue").filter (fun value => !value.isNull) = p.default?
  rest : ∀ name, p.rest.get? name =
    if name ∈ ["type", "defaultValue"] then none else members.get? name

theorem reads_of_ofJson? (h : ofJson? (Json.ofDict members) = some p) : Reads members p := by
  obtain ⟨fields, hfields, h⟩ := bind_eq_some_iff.1 h
  cases hfields
  simp only [↓bind_eq_some_iff, Option.pure_def] at h
  obtain ⟨typeName, htype, default?, hdefault, h⟩ := h
  cases h
  obtain ⟨value, hvalue, htext⟩ := bind_eq_some_iff.1 htype
  cases Json.eq_str_of_str? htext
  rw [Fields.optional_some, Option.some.injEq] at hdefault
  exact ⟨hvalue, hdefault, Fields.get?_ofList_without members _⟩

theorem toJson_eq_ofDict (p : TemplateParameter) :
    p.toJson = Json.ofDict (p.default?.elim (p.rest.insert "type" (.str p.typeName))
      ((p.rest.insert "type" (.str p.typeName)).insert "defaultValue")) := by
  rw [toJson, List.append_assoc, Json.ofMembers_entries_append]
  cases p.default? <;> rfl

theorem toJson_of_reads (h : Reads members p) : p.toJson = Json.ofDict (completed members) := by
  have htyped (name : String) : (p.rest.insert "type" (.str p.typeName)).get? name =
      if name = "defaultValue" then none else members.get? name := by
    rw [Dict.get?_insert, h.rest]
    by_cases htype : name = "type"
    · subst htype
      exact h.type.symm
    · simp [htype]
  rw [toJson_eq_ofDict, completed, ← h.default]
  refine congrArg Json.ofDict (Dict.ext_get? fun name => ?_)
  cases hdefault : members.get? "defaultValue" with
  | none =>
    change Dict.get? _ name = members.get? name
    rw [Option.filter_none, Option.elim_none, htyped]
    split
    · next heq => rw [heq, hdefault]
    · rfl
  | some value =>
    rw [Option.any_some]
    cases hnull : value.isNull with
    | true =>
      rw [Option.filter_some_neg (by simp [hnull]), Option.elim_none, htyped, if_pos rfl,
        Dict.get?_erase]
    | false =>
      rw [Option.filter_some_pos (by simp [hnull]), Option.elim_some, Dict.get?_insert, htyped,
        if_neg Bool.false_ne_true]
      split
      · next heq => rw [heq, hdefault]
      · rfl

theorem toJson_of_ofJson? (hordered : json.Ordered) (h : ofJson? json = some p) :
    p.toJson = json.mapMembers completed := by
  obtain ⟨fields, hfields, -⟩ := bind_eq_some_iff.1 h
  obtain ⟨members, rfl, hmap⟩ := hordered.exists_dict hfields
  rw [hmap, toJson_of_reads (reads_of_ofJson? h)]

end TemplateParameter

namespace TemplateOutput

variable {json : Json} {o : TemplateOutput} {members : Dict Json}

/-- The members of an output as they are written: an output without a type is a text. -/
def completed (members : Dict Json) : Dict Json :=
  members.union (Dict.ofList [("type", .str "string")])

/-- What is read of the members of an output. -/
structure Reads (members : Dict Json) (o : TemplateOutput) : Prop where
  type : (members.get? "type").getD (.str "string") = .str o.typeName
  rest : ∀ name, o.rest.get? name = if name ∈ ["type"] then none else members.get? name

theorem reads_of_ofJson? (h : ofJson? (Json.ofDict members) = some o) : Reads members o := by
  obtain ⟨fields, hfields, h⟩ := bind_eq_some_iff.1 h
  cases hfields
  obtain ⟨typeName, htype, h⟩ := bind_eq_some_iff.1 h
  cases h
  have hwritten := Fields.eq_write_of_withDefault id htype rfl fun _ _ => Json.eq_str_of_str?
  exact ⟨hwritten, Fields.get?_ofList_without members _⟩

theorem toJson_of_reads (h : Reads members o) : o.toJson = Json.ofDict (completed members) := by
  rw [toJson, Json.ofMembers_entries_append]
  refine congrArg Json.ofDict (Dict.ext_get? fun name => ?_)
  change (o.rest.insert "type" (.str o.typeName)).get? name = _
  rw [Dict.get?_insert, h.rest, completed, Dict.get?_union]
  by_cases htype : name = "type"
  · subst htype
    rw [if_pos rfl, ← h.type]
    cases members.get? "type" <;> rfl
  · have hother : (Dict.ofList [("type", Json.str "string")]).get? name = none :=
      (Dict.get?_insert ∅ "type" name _).trans (if_neg htype)
    simp [htype, hother]

theorem toJson_of_ofJson? (hordered : json.Ordered) (h : ofJson? json = some o) :
    o.toJson = json.mapMembers completed := by
  obtain ⟨fields, hfields, -⟩ := bind_eq_some_iff.1 h
  obtain ⟨members, rfl, hmap⟩ := hordered.exists_dict hfields
  rw [hmap, toJson_of_reads (reads_of_ofJson? h)]

end TemplateOutput

namespace Template

variable {json : Json} {t : Template} {members : Dict Json}

/-- The sections that every template is written with. -/
def sections : Dict Json :=
  Dict.ofList [("parameters", .obj []), ("outputs", .obj []), ("resources", .arr [])]

/-- A member of a template as it is written: the parameters and the outputs are completed one by one,
and everything else stays. -/
def completedMember (name : String) (value : Json) : Json :=
  match name with
  | "parameters" => value.mapMembers (·.mapValues fun _ => Json.mapMembers TemplateParameter.completed)
  | "outputs" => value.mapMembers (·.mapValues fun _ => Json.mapMembers TemplateOutput.completed)
  | _ => value

/-- The members of a template as they are written: sections that are missing are empty. -/
def completed (members : Dict Json) : Dict Json := (members.union sections).mapValues completedMember

/-- What is read of the members of a template. -/
structure Reads (members : Dict Json) (t : Template) : Prop where
  parameters : completedMember "parameters" ((members.get? "parameters").getD (.obj [])) =
    Json.ofDictWith TemplateParameter.toJson t.parameters
  outputs : completedMember "outputs" ((members.get? "outputs").getD (.obj [])) =
    Json.ofDictWith TemplateOutput.toJson t.outputs
  resources : (members.get? "resources").getD (.arr []) = .arr t.resources
  rest : ∀ name, t.rest.get? name =
    if name ∈ ["parameters", "outputs", "resources"] then none else members.get? name

theorem reads_of_ofJson? (hordered : (Json.ofDict members).Ordered)
    (h : ofJson? (Json.ofDict members) = some t) : Reads members t := by
  obtain ⟨fields, hfields, h⟩ := bind_eq_some_iff.1 h
  cases hfields
  simp only [↓bind_eq_some_iff, Option.pure_def] at h
  obtain ⟨parameters, hparameters, outputs, houtputs, resources, hresources, h⟩ := h
  cases h
  have hmember {name : String} {value : Json} (hget : members.get? name = some value) :
      value.Ordered := hordered.of_mem (Assoc.mem_of_get? hget)
  exact
    { parameters := Fields.eq_write_of_withDefault _ hparameters rfl fun value hget hread =>
        (Json.ofDictWith_of_dictOf? (fun _ _ => TemplateParameter.toJson_of_ofJson?)
          (hmember hget) hread).symm
      outputs := Fields.eq_write_of_withDefault _ houtputs rfl fun value hget hread =>
        (Json.ofDictWith_of_dictOf? (fun _ _ => TemplateOutput.toJson_of_ofJson?)
          (hmember hget) hread).symm
      resources := Fields.eq_write_of_withDefault id hresources rfl fun _ _ => Json.eq_arr_of_items?
      rest := Fields.get?_ofList_without members _ }

theorem get?_sections (name : String) :
    sections.get? name =
      if name = "resources" then some (.arr [])
      else if name = "outputs" then some (.obj [])
      else if name = "parameters" then some (.obj []) else none := by
  change (((∅ : Dict Json).insert "parameters" _ |>.insert "outputs" _).insert "resources" _).get? name = _
  rw [Dict.get?_insert, Dict.get?_insert, Dict.get?_insert, Dict.get?_empty]

theorem toJson_of_reads (h : Reads members t) : t.toJson = Json.ofDict (completed members) := by
  rw [toJson, Json.ofMembers_entries_append]
  refine congrArg Json.ofDict (Dict.ext_get? fun name => ?_)
  simp only [List.foldl_cons, List.foldl_nil]
  rw [Dict.get?_insert, Dict.get?_insert, Dict.get?_insert, h.rest, completed, Dict.get?_mapValues,
    Dict.get?_union, get?_sections]
  by_cases hresources : name = "resources"
  · subst hresources
    rw [if_pos rfl, if_pos rfl, ← h.resources]
    cases members.get? "resources" <;> rfl
  by_cases houtputs : name = "outputs"
  · subst houtputs
    rw [if_neg hresources, if_pos rfl, if_neg hresources, if_pos rfl, ← h.outputs]
    cases members.get? "outputs" <;> rfl
  by_cases hparameters : name = "parameters"
  · subst hparameters
    rw [if_neg hresources, if_neg houtputs, if_pos rfl, if_neg hresources, if_neg houtputs, if_pos rfl,
      ← h.parameters]
    cases members.get? "parameters" <;> rfl
  have hmember : completedMember name = id := by
    funext value
    rw [completedMember]
    · rfl
    · exact hparameters
    · exact houtputs
  simp [hresources, houtputs, hparameters, hmember]

/-- **A template is written as the document that it was read from, with the defaults filled in.** Only
objects are read as templates. All their members are written, and at every level they are as they were,
except that missing sections are empty, that outputs without a type are texts, and that a default of a
parameter that is null is left out. -/
theorem toJson_eq_completed (hordered : json.Ordered) (h : ofJson? json = some t) :
    json.isObject = true ∧ t.toJson = json.mapMembers completed := by
  obtain ⟨fields, hfields, -⟩ := bind_eq_some_iff.1 h
  obtain ⟨members, rfl, hmap⟩ := hordered.exists_dict hfields
  refine ⟨rfl, ?_⟩
  rw [hmap, toJson_of_reads (reads_of_ofJson? hordered h)]

/-- A document that has no resources, an output without a type and a default that is null, and that
says more than a template has to. -/
def sparse : Json :=
  .ofMembers
    [("$schema", .str "s"),
      ("outputs", .ofMembers [("id", .ofMembers [("value", .str "v")])]),
      ("parameters", .ofMembers
        [("size", .ofMembers
          [("defaultValue", .null), ("metadata", .ofMembers []), ("type", .str "int")])])]

/-- What is written of the template that the document stands for. -/
def filled : Json :=
  .ofMembers
    [("$schema", .str "s"),
      ("outputs", .ofMembers [("id", .ofMembers [("type", .str "string"), ("value", .str "v")])]),
      ("parameters", .ofMembers
        [("size", .ofMembers [("metadata", .ofMembers []), ("type", .str "int")])]),
      ("resources", .arr [])]

theorem ordered_sparse : sparse.Ordered := by
  have hmetadata : (Json.ofMembers []).Ordered := .ofMembers nofun
  have houtput : (Json.ofMembers [("value", .str "v")]).Ordered :=
    .ofMembers (by simp [Json.Ordered.str])
  have hparameter : (Json.ofMembers
      [("defaultValue", .null), ("metadata", .ofMembers []), ("type", .str "int")]).Ordered :=
    .ofMembers (by simp [Json.Ordered.null, Json.Ordered.str, hmetadata])
  have hsection (name : String) (value : Json) (h : value.Ordered) :
      (Json.ofMembers [(name, value)]).Ordered := .ofMembers (by simpa using h)
  exact .ofMembers (by
    simp [Json.Ordered.str, hsection "id" _ houtput, hsection "size" _ hparameter])

theorem toJson_sparse :
    ∃ t, sparse.Ordered ∧ ofJson? sparse = some t ∧ sparse.isObject = true ∧
      t.toJson = sparse.mapMembers completed ∧ sparse.mapMembers completed = filled := by
  have hread : ∃ t, ofJson? sparse = some t := ⟨_, rfl⟩
  obtain ⟨t, hread⟩ := hread
  obtain ⟨hobject, hwritten⟩ := toJson_eq_completed ordered_sparse hread
  exact ⟨t, ordered_sparse, hread, hobject, hwritten, rfl⟩

end Template

end Rehearsal
