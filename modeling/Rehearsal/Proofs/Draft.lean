import Rehearsal.Draft
import Rehearsal.Proofs.Json.Fields

/-!
# Drafts in documents

A draft that was read is read again from what is written of it, and so is every step of it. Short
forms stay short, names are written in their first spelling, a record that was given as an array is
written as an object, and what is left out comes back as its default, so nothing of a draft gets lost.
What can be represented is limited at two places only: an integer has to fit 64 bits, and a container
cannot hold null, which stands for no value.

* `Variable.Representable`, `Draft.Definition.Representable`: what documents can represent;
* `Draft.Step.Reads` and its like: what is read of the fields of a record, in either of its forms;
* `Draft.Step.codec`, `Draft.Definition.codec`: reading and writing.
-/

namespace Rehearsal

open Json (Codec)

/-! ### Variables -/

theorem VariableKind.ofName?_name (kind : VariableKind) : ofName? kind.name = some kind := by
  cases kind <;> rfl

/-- Kinds are written as their names, so they are read by whatever reads these. -/
theorem VariableKind.codec {read : Json → Option VariableKind}
    (h : ∀ kind : VariableKind, read (.str kind.name) = ofName? kind.name) :
    Codec read (fun kind => .str kind.name) fun _ => True where
  sound _ := trivial
  again {kind} _ := (h kind).trans kind.ofName?_name
  notNull := nofun

/-- A tag that is the name of a kind is read as that kind also where it may be a place. -/
theorem VariableKind.ofTagOrPlace?_of_ofTag? {json : Json} {kind : VariableKind}
    (h : ofTag? json = some kind) : ofTagOrPlace? json = some kind := by
  cases json with
  | str => exact h
  | null | bool | int | float | arr | obj => cases h

namespace Variable

/-- Documents can represent a variable. -/
def Representable : Variable → Prop
  | .int value => ∀ n ∈ value, Json.inSigned64 n = true
  | .container _ parts => parts.value ≠ some .null
  | .bool _ | .text .. => True

/-- What is read of the fields of a variable. -/
inductive Reads (fields : Fields) : Variable → Prop
  | bool {value : Option Bool} (hvalue : fields.optional "value" Json.bool? = some value) :
      Reads fields (.bool value)
  | int {value : Option Int} (hvalue : fields.optional "value" Json.int64? = some value) :
      Reads fields (.int value)
  | text {secure : Bool} {value stem : Option String}
      (hvalue : fields.optional "value" Json.str? = some value)
      (hstem : fields.optional "prefix" Json.str? = some stem) :
      Reads fields (.text secure { value, stem })
  | container {kind : ContainerKind} {value : Option Json} {patches : Option (List Json)}
      (hvalue : fields.optional "value" some = some value)
      (hpatches : fields.optional "patches" Json.items? = some patches) :
      Reads fields (.container kind { value, patches })

/-- A variable that is read has the kind that the document says. -/
theorem ofFields?_eq_some_iff {kind : VariableKind} {fields : Fields} {v : Variable} :
    ofFields? kind fields = some v ↔ v.kind = kind ∧ Reads fields v := by
  constructor
  · intro h
    cases kind with
    | bool =>
      obtain ⟨value, hvalue, h⟩ := Option.bind_eq_some_iff.1 h
      cases h
      exact ⟨rfl, .bool hvalue⟩
    | int =>
      obtain ⟨value, hvalue, h⟩ := Option.bind_eq_some_iff.1 h
      cases h
      exact ⟨rfl, .int hvalue⟩
    | string | secureString =>
      obtain ⟨value, hvalue, h⟩ := Option.bind_eq_some_iff.1 h
      obtain ⟨stem, hstem, h⟩ := Option.bind_eq_some_iff.1 h
      cases h
      exact ⟨rfl, .text hvalue hstem⟩
    | array | object | secureObject =>
      obtain ⟨value, hvalue, h⟩ := Option.bind_eq_some_iff.1 h
      obtain ⟨patches, hpatches, h⟩ := Option.bind_eq_some_iff.1 h
      cases h
      exact ⟨rfl, .container hvalue hpatches⟩
  · rintro ⟨rfl, h⟩
    cases h with
    | bool hvalue | int hvalue => exact Option.bind_eq_some_iff.2 ⟨_, hvalue, rfl⟩
    | @text secure _ _ hvalue hstem =>
      -- Texts and containers of several kinds are read alike; the case says which kind it is.
      cases secure <;>
        exact Option.bind_eq_some_iff.2 ⟨_, hvalue, Option.bind_eq_some_iff.2 ⟨_, hstem, rfl⟩⟩
    | @container kind _ _ hvalue hpatches =>
      cases kind <;>
        exact Option.bind_eq_some_iff.2 ⟨_, hvalue, Option.bind_eq_some_iff.2 ⟨_, hpatches, rfl⟩⟩

theorem representable_of_reads {fields : Fields} {v : Variable} (h : Reads fields v) : v.Representable := by
  cases h with
  | bool | text => exact trivial
  | int hvalue => exact Codec.int.sound_optional hvalue
  | container hvalue => exact Fields.ne_null_of_optional hvalue

/-- What is written of a variable is an object that has its kind and whatever the variable holds. -/
theorem reads_toJson {v : Variable} (h : v.Representable) :
    ∃ fields : Fields, v.toJson = .obj fields ∧
      Assoc.get? "type" fields = some (.str v.kind.name) ∧ Reads fields v := by
  obtain ⟨fields, hobj, hget⟩ := Json.exists_written (rfl : v.toJson = _) (by simp)
  refine ⟨fields, hobj, hget "type", ?_⟩
  cases v with
  | bool value => exact .bool (Codec.bool.optional (fun _ _ => trivial) (hget "value"))
  | int value => exact .int (Codec.int.optional h (hget "value"))
  | text secure parts =>
    exact .text (Codec.str.optional (fun _ _ => trivial) (hget "value"))
      (Codec.str.optional (fun _ _ => trivial) (hget "prefix"))
  | container kind parts =>
    exact .container (Fields.optional_of_ne_null h (hget "value"))
      (Codec.items.optional (fun _ _ => trivial) (hget "patches"))

/-- Variables are read again wherever the names of kinds are read as tags. -/
theorem codec {readKind : Json → Option VariableKind}
    (hkind : Codec readKind (fun kind => .str kind.name) fun _ => True) :
    Codec (ofTagged? readKind) toJson Representable where
  sound h :=
    have ⟨_, _, hread⟩ := bind_eq_some_iff.1 h
    representable_of_reads (ofFields?_eq_some_iff.1 hread).2
  again {v} h := by
    obtain ⟨fields, hobj, htype, hreads⟩ := reads_toJson h
    have htagged : v.toJson.tagged? "type" readKind fieldNames = some (v.kind, fields) := by
      rw [hobj, Json.tagged?, hkind.required trivial htype]
      rfl
    exact bind_eq_some_iff.2 ⟨_, htagged, ofFields?_eq_some_iff.2 ⟨rfl, hreads⟩⟩
  notNull := nofun

end Variable

namespace Declaration

/-- Documents can represent a declaration. -/
def Representable : Declaration → Prop
  | .brief _ => True
  | .full v => v.Representable

theorem ofJson?_cases (json : Json) :
    (∃ text, json = .str text) ∨
      ofJson? json = (Variable.ofTagged? VariableKind.ofTagOrPlace? json).map full := by
  cases json with
  | str text => exact .inl ⟨text, rfl⟩
  | null | bool | int | float | arr | obj => exact .inr rfl

/-- What is read as a variable is read as the declaration of that variable. -/
theorem ofJson?_of_variable {json : Json} {v : Variable} (h : Variable.ofJson? json = some v) :
    ofJson? json = some (full v) := by
  rcases ofJson?_cases json with ⟨text, rfl⟩ | hfull
  · cases h
  · obtain ⟨⟨kind, fields⟩, htagged, hread⟩ := bind_eq_some_iff.1 h
    have hmore := Json.tagged?_mono (fun _ _ => VariableKind.ofTagOrPlace?_of_ofTag?) htagged
    rw [hfull, Variable.ofTagged?, hmore]
    exact congrArg (·.map full) hread

theorem codec : Codec ofJson? toJson Representable where
  sound {json d} h := by
    rcases ofJson?_cases json with ⟨text, rfl⟩ | hfull
    · cases h
      exact trivial
    · rw [hfull] at h
      obtain ⟨v, hv, rfl⟩ := Option.map_eq_some_iff.1 h
      exact (Variable.codec (VariableKind.codec fun _ => rfl)).sound hv
  again {d} h := by
    cases d with
    | brief text => rfl
    | full v => exact ofJson?_of_variable ((Variable.codec (VariableKind.codec fun _ => rfl)).again h)
  notNull d := by cases d <;> nofun

end Declaration

namespace Draft

/-! ### Parts of a step -/

theorem ScriptVariable.codec : Codec ofJson? toJson fun _ => True where
  sound _ := trivial
  again {v} _ := by
    have hwritten : v.toJson =
        Json.ofFields [("name", some (.str v.name)), ("value", some (.str v.value))] := rfl
    obtain ⟨fields, hobj, hget⟩ := Json.exists_written hwritten (by simp)
    rw [ofJson?, hobj, Json.record?, Option.bind_eq_bind, Option.bind_some,
      Codec.str.required trivial (hget "name"), Option.bind_eq_bind, Option.bind_some,
      Codec.str.withDefault trivial (.inl (hget "value"))]
    rfl
  notNull := nofun

theorem OutputVariable.codec : Codec ofJson? toJson fun _ => True where
  sound _ := trivial
  again {v} _ := by
    obtain ⟨fields, hobj, hget⟩ := Json.exists_written (rfl : v.toJson = _) (by simp)
    rw [ofJson?, hobj, Json.record?, Option.bind_eq_bind, Option.bind_some,
      (VariableKind.codec fun _ => rfl).optional (fun _ _ => trivial) (hget "type"), Option.bind_eq_bind,
      Option.bind_some, Codec.str.optional (fun _ _ => trivial) (hget "fromResponse")]
    rfl
  notNull := nofun

/-! ### Steps -/

namespace Step

/-- Documents can represent a step. -/
def Representable (s : Step) : Prop := ∀ entry ∈ s.vars.entries, entry.2.Representable

/-- What is read of the fields of a step. -/
structure Reads (fields : Fields) (s : Step) : Prop where
  name : fields.optional "step" Json.str? = some s.name
  description : fields.optional "description" Json.str? = some s.description
  operationId : fields.optional "operationId" Json.str? = some s.operationId
  exampleFile : fields.optional "exampleFile" Json.str? = some s.exampleFile
  template : fields.optional "armTemplate" Json.str? = some s.template
  script : fields.optional "armDeploymentScript" Json.str? = some s.script
  externalReference : fields.optional "externalReference" Json.str? = some s.externalReference
  parameters : fields.withDefault "parameters" ∅ Json.dict? = some s.parameters
  responses : fields.withDefault "responses" ∅ Json.dict? = some s.responses
  requestUpdate : fields.withDefault "requestUpdate" [] Json.items? = some s.requestUpdate
  responseUpdate : fields.withDefault "responseUpdate" [] Json.items? = some s.responseUpdate
  arguments : fields.optional "arguments" Json.str? = some s.arguments
  environmentVariables :
    fields.withDefault "environmentVariables" [] (Json.listOf? ScriptVariable.ofJson?) =
      some s.environmentVariables
  vars : fields.withDefault "variables" ∅ (Json.dictOf? Declaration.ofJson?) = some s.vars
  outputVariables : fields.withDefault "outputVariables" ∅ (Json.dictOf? OutputVariable.ofJson?) =
    some s.outputVariables

theorem reads_of_ofJson? {json : Json} {s : Step} (h : ofJson? json = some s) :
    ∃ fields : Fields, Reads fields s := by
  obtain ⟨fields, -, h⟩ := bind_eq_some_iff.1 h
  simp only [↓bind_eq_some_iff, Option.pure_def] at h
  obtain ⟨name, hname, description, hdescription, operationId, hoperationId, exampleFile, hexampleFile,
    template, htemplate, script, hscript, externalReference, hexternalReference, parameters, hparameters,
    responses, hresponses, requestUpdate, hrequestUpdate, responseUpdate, hresponseUpdate, arguments,
    harguments, environmentVariables, henvironmentVariables, vars, hvars, outputVariables,
    houtputVariables, h⟩ := h
  cases h
  exact ⟨fields, hname, hdescription, hoperationId, hexampleFile, htemplate, hscript,
    hexternalReference, hparameters, hresponses, hrequestUpdate, hresponseUpdate, harguments,
    henvironmentVariables, hvars, houtputVariables⟩

theorem ofJson?_of_reads {json : Json} {fields : Fields} {s : Step}
    (hfields : fields? json = some fields) (h : Reads fields s) : ofJson? json = some s := by
  refine bind_eq_some_iff.2 ⟨fields, hfields, ?_⟩
  simp only [↓bind_eq_some_iff, Option.pure_def]
  exact ⟨_, h.name, _, h.description, _, h.operationId, _, h.exampleFile, _, h.template, _, h.script, _,
    h.externalReference, _, h.parameters, _, h.responses, _, h.requestUpdate, _, h.responseUpdate, _,
    h.arguments, _, h.environmentVariables, _, h.vars, _, h.outputVariables, rfl⟩

theorem nonEmptyDict_cases {α : Type} (write : α → Json) (dict : Dict α) :
    nonEmptyDict write dict = some (Json.ofDictWith write dict) ∨
      nonEmptyDict write dict = none ∧ dict = ∅ := by
  rw [nonEmptyDict]
  split
  · next hempty =>
    obtain ⟨entries, hascending⟩ := dict
    cases List.isEmpty_iff.1 hempty
    exact .inr ⟨rfl, rfl⟩
  · exact .inl rfl

theorem nonEmptyList_cases {α : Type} (write : α → Json) (items : List α) :
    nonEmptyList write items = some (Json.ofListWith write items) ∨
      nonEmptyList write items = none ∧ items = [] := by
  rw [nonEmptyList]
  split
  · next hempty => exact .inr ⟨rfl, List.isEmpty_iff.1 hempty⟩
  · exact .inl rfl

/-- What is written of a step has all that the step has; the second spelling of a name is not used. -/
theorem reads_toJson {s : Step} (h : s.Representable) :
    ∃ fields, fields? s.toJson = some fields ∧ Reads fields s := by
  obtain ⟨fields, hobj, hget⟩ := Json.exists_written (rfl : s.toJson = _) (by simp)
  have htext (name : String) {value : Option String}
      (hvalue : Assoc.get? name fields = value.map .str) :
      fields.optional name Json.str? = some value :=
    Codec.str.optional (fun _ _ => trivial) hvalue
  have hdict {α : Type} {write : α → Json} {dict : Dict α} (name : String)
      (hvalue : Assoc.get? name fields = nonEmptyDict write dict) :
      Assoc.get? name fields = some (Json.ofDictWith write dict) ∨
        Assoc.get? name fields = none ∧ dict = ∅ := hvalue ▸ nonEmptyDict_cases write dict
  have hlist {α : Type} {write : α → Json} {items : List α} (name : String)
      (hvalue : Assoc.get? name fields = nonEmptyList write items) :
      Assoc.get? name fields = some (Json.ofListWith write items) ∨
        Assoc.get? name fields = none ∧ items = [] := hvalue ▸ nonEmptyList_cases write items
  refine ⟨fields, ?_, ?_⟩
  · rw [hobj]
    exact Fields.unify_of_none (hget "readmeTag")
  · exact {
      name := htext "step" (hget "step")
      description := htext "description" (hget "description")
      operationId := htext "operationId" (hget "operationId")
      exampleFile := htext "exampleFile" (hget "exampleFile")
      template := htext "armTemplate" (hget "armTemplate")
      script := htext "armDeploymentScript" (hget "armDeploymentScript")
      externalReference := htext "externalReference" (hget "externalReference")
      parameters := Codec.dict.withDefault trivial (hdict "parameters" (hget "parameters"))
      responses := Codec.dict.withDefault trivial (hdict "responses" (hget "responses"))
      requestUpdate := Codec.list.withDefault trivial (hlist "requestUpdate" (hget "requestUpdate"))
      responseUpdate := Codec.list.withDefault trivial (hlist "responseUpdate" (hget "responseUpdate"))
      arguments := htext "arguments" (hget "arguments")
      environmentVariables := ScriptVariable.codec.listOf.withDefault (fun _ _ => trivial)
        (hlist "environmentVariables" (hget "environmentVariables"))
      vars := Declaration.codec.dictOf.withDefault h (hdict "variables" (hget "variables"))
      outputVariables := OutputVariable.codec.dictOf.withDefault (fun _ _ => trivial)
        (hdict "outputVariables" (hget "outputVariables")) }

theorem codec : Codec ofJson? toJson Representable where
  sound h :=
    have ⟨_, hreads⟩ := reads_of_ofJson? h
    Declaration.codec.dictOf.sound_withDefault (List.forall_mem_nil _) hreads.vars
  again h :=
    have ⟨_, hfields, hreads⟩ := reads_toJson h
    ofJson?_of_reads hfields hreads
  notNull := nofun

end Step

/-! ### Scenarios -/

namespace Scenario

/-- Documents can represent a scenario. -/
structure Representable (s : Scenario) : Prop where
  vars : ∀ entry ∈ s.vars.entries, entry.2.Representable
  steps : ∀ step ∈ s.steps, step.Representable

/-- What is read of the fields of a scenario. -/
structure Reads (fields : Fields) (s : Scenario) : Prop where
  name : fields.optional "scenario" Json.str? = some s.name
  description : fields.optional "description" Json.str? = some s.description
  shareScope : fields.withDefault "shareScope" true Json.bool? = some s.shareScope
  vars : fields.withDefault "variables" ∅ (Json.dictOf? Declaration.ofJson?) = some s.vars
  steps : fields.withDefault "steps" [] (Json.listOf? Step.ofJson?) = some s.steps

theorem reads_of_ofJson? {json : Json} {s : Scenario} (h : ofJson? json = some s) :
    ∃ fields : Fields, Reads fields s := by
  obtain ⟨fields, -, h⟩ := bind_eq_some_iff.1 h
  simp only [↓bind_eq_some_iff, Option.pure_def] at h
  obtain ⟨name, hname, description, hdescription, shareScope, hshareScope, vars, hvars, steps, hsteps,
    h⟩ := h
  cases h
  exact ⟨fields, hname, hdescription, hshareScope, hvars, hsteps⟩

theorem ofJson?_of_reads {fields : Fields} {s : Scenario} (h : Reads fields s) :
    ofJson? (.obj fields) = some s := by
  refine bind_eq_some_iff.2 ⟨fields, rfl, ?_⟩
  simp only [↓bind_eq_some_iff, Option.pure_def]
  exact ⟨_, h.name, _, h.description, _, h.shareScope, _, h.vars, _, h.steps, rfl⟩

theorem reads_toJson {s : Scenario} (h : s.Representable) :
    ∃ fields : Fields, s.toJson = .obj fields ∧ Reads fields s := by
  obtain ⟨fields, hobj, hget⟩ := Json.exists_written (rfl : s.toJson = _) (by simp)
  exact ⟨fields, hobj, {
    name := Codec.str.optional (fun _ _ => trivial) (hget "scenario")
    description := Codec.str.optional (fun _ _ => trivial) (hget "description")
    shareScope := Codec.bool.withDefault trivial (.inl (hget "shareScope"))
    vars := Declaration.codec.dictOf.withDefault h.vars (.inl (hget "variables"))
    steps := Step.codec.listOf.withDefault h.steps (.inl (hget "steps")) }⟩

theorem codec : Codec ofJson? toJson Representable where
  sound h :=
    have ⟨_, hreads⟩ := reads_of_ofJson? h
    ⟨Declaration.codec.dictOf.sound_withDefault (List.forall_mem_nil _) hreads.vars,
      Step.codec.listOf.sound_withDefault (List.forall_mem_nil _) hreads.steps⟩
  again h :=
    have ⟨_, hobj, hreads⟩ := reads_toJson h
    hobj ▸ ofJson?_of_reads hreads
  notNull := nofun

end Scenario

/-! ### Definitions -/

namespace Definition

/-- Documents can represent a draft. -/
structure Representable (d : Definition) : Prop where
  vars : ∀ entry ∈ d.vars.entries, entry.2.Representable
  prepareSteps : ∀ step ∈ d.prepareSteps, step.Representable
  cleanupSteps : ∀ step ∈ d.cleanupSteps, step.Representable
  scenarios : ∀ scenario ∈ d.scenarios, scenario.Representable

/-- What is read of the fields of a draft. -/
structure Reads (fields : Fields) (d : Definition) : Prop where
  scope : fields.optional "scope" Json.str? = some d.scope
  vars : fields.withDefault "variables" ∅ (Json.dictOf? Declaration.ofJson?) = some d.vars
  prepareSteps : fields.withDefault "prepareSteps" [] (Json.listOf? Step.ofJson?) = some d.prepareSteps
  cleanupSteps : fields.withDefault "cleanUpSteps" [] (Json.listOf? Step.ofJson?) = some d.cleanupSteps
  scenarios : fields.withDefault "scenarios" [] (Json.listOf? Scenario.ofJson?) = some d.scenarios

theorem reads_of_ofJson? {json : Json} {d : Definition} (h : ofJson? json = some d) :
    ∃ fields : Fields, Reads fields d := by
  obtain ⟨fields, -, h⟩ := bind_eq_some_iff.1 h
  simp only [↓bind_eq_some_iff, Option.pure_def] at h
  obtain ⟨scope, hscope, vars, hvars, prepareSteps, hprepareSteps, cleanupSteps, hcleanupSteps,
    scenarios, hscenarios, h⟩ := h
  cases h
  exact ⟨fields, hscope, hvars, hprepareSteps, hcleanupSteps, hscenarios⟩

theorem ofJson?_of_reads {json : Json} {fields : Fields} {d : Definition}
    (hfields : fields? json = some fields) (h : Reads fields d) : ofJson? json = some d := by
  refine bind_eq_some_iff.2 ⟨fields, hfields, ?_⟩
  simp only [↓bind_eq_some_iff, Option.pure_def]
  exact ⟨_, h.scope, _, h.vars, _, h.prepareSteps, _, h.cleanupSteps, _, h.scenarios, rfl⟩

theorem reads_toJson {d : Definition} (h : d.Representable) :
    ∃ fields, fields? d.toJson = some fields ∧ Reads fields d := by
  obtain ⟨fields, hobj, hget⟩ := Json.exists_written (rfl : d.toJson = _) (by simp)
  refine ⟨fields, ?_, ?_⟩
  · rw [hobj]
    exact Fields.unify_of_none (hget "cleanupSteps")
  · exact {
      scope := Codec.str.optional (fun _ _ => trivial) (hget "scope")
      vars := Declaration.codec.dictOf.withDefault h.vars (.inl (hget "variables"))
      prepareSteps := Step.codec.listOf.withDefault h.prepareSteps (.inl (hget "prepareSteps"))
      cleanupSteps := Step.codec.listOf.withDefault h.cleanupSteps (.inl (hget "cleanUpSteps"))
      scenarios := Scenario.codec.listOf.withDefault h.scenarios (.inl (hget "scenarios")) }

theorem codec : Codec ofJson? toJson Representable where
  sound h :=
    have ⟨_, hreads⟩ := reads_of_ofJson? h
    { vars := Declaration.codec.dictOf.sound_withDefault (List.forall_mem_nil _) hreads.vars
      prepareSteps := Step.codec.listOf.sound_withDefault (List.forall_mem_nil _) hreads.prepareSteps
      cleanupSteps := Step.codec.listOf.sound_withDefault (List.forall_mem_nil _) hreads.cleanupSteps
      scenarios := Scenario.codec.listOf.sound_withDefault (List.forall_mem_nil _) hreads.scenarios }
  again h :=
    have ⟨_, hfields, hreads⟩ := reads_toJson h
    ofJson?_of_reads hfields hreads
  notNull := nofun

/-- Documents can represent the drafts that are read again from what is written of them. -/
theorem representable_iff {d : Definition} : d.Representable ↔ ofJson? d.toJson = some d :=
  ⟨codec.again, codec.sound⟩

theorem Representable.of_mem_allSteps {d : Definition} (h : d.Representable) {step : Step}
    (hmem : step ∈ d.allSteps) : step.Representable := by
  rw [allSteps, List.mem_append, List.mem_append, List.mem_flatMap] at hmem
  rcases hmem with (hmem | hmem) | ⟨scenario, hscenario, hmem⟩
  · exact h.prepareSteps step hmem
  · exact h.cleanupSteps step hmem
  · exact (h.scenarios scenario hscenario).steps step hmem

end Definition

end Draft

end Rehearsal
