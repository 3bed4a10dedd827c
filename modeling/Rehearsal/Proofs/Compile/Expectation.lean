import Rehearsal.Proofs.Compile.Binding
import Rehearsal.Proofs.Json.MergePatch
import Rehearsal.Proofs.Document

/-!
# What a repeated example is expected to answer

A step that repeats a recorded example expects the responses of the example. Once it edits a
parameter, the differences of the body that it sends are laid over the bodies of the responses,
whether there are any or not: those of an object from itself are the empty object, which makes an
object of whatever is none, and those of any other value are the value itself. A response stays as
it was recorded if and only if that does not disturb its body (`Sources.expects_compile_iff`).
-/

namespace Rehearsal

/-! ### Reading responses -/

namespace ResponseAssertion

theorem ofJson?_obj (members : List (String × Json)) :
    ofJson? (.obj members) = (Fields.withDefault members "headers" ∅ Json.dict?).map fun headers =>
      { body := (Assoc.get? "body" members).getD .null, headers } := by
  have hbody : Fields.withDefault members "body" .null some =
      some ((Assoc.get? "body" members).getD .null) := by
    rw [Fields.withDefault]
    cases Assoc.get? "body" members <;> rfl
  change (do
    let body ← Fields.withDefault members "body" .null some
    let headers ← Fields.withDefault members "headers" ∅ Json.dict?
    return { body, headers } : Option ResponseAssertion) = _
  rw [hbody]
  cases Fields.withDefault members "headers" ∅ Json.dict? <;> rfl

theorem ofJson?_insert_body (members : List (String × Json)) (body : Json) :
    ofJson? (.obj (Assoc.insert "body" body members)) =
      (ofJson? (.obj members)).map ({ · with body }) := by
  have hheaders : Assoc.get? "headers" (Assoc.insert "body" body members) =
      Assoc.get? "headers" members := by
    rw [Assoc.get?_insert, if_neg (by decide)]
  rw [ofJson?_obj, ofJson?_obj, Fields.withDefault, hheaders, Assoc.get?_insert, if_pos rfl,
    Option.map_map]
  rfl

end ResponseAssertion

namespace Compile

variable {setting : Setting} {draft : Draft.Step} {scopes : Scopes} {header : StepHeader}
  {outcome : Outcome} {op : Operation}

/-- A response whose body is changed is expected as it was if it stands for an error, or if the
change makes no difference to its body. -/
theorem ofJson?_reshape_iff (hshape : ∀ resource schema, setting.sources.shape resource schema = resource)
    {change response : Json} {status : String} {expected : ResponseAssertion}
    (h : ResponseAssertion.ofJson? (reshape setting op change status response) = some expected) :
    ResponseAssertion.ofJson? response = some expected ↔
      HttpStatus.isError status = true ∨
        ∀ body ∈ response.field? "body", body.mergePatch change = body := by
  unfold reshape at h
  split at h
  · next members body hbody =>
    split at h
    · next herror => exact iff_of_true h (.inl herror)
    · next herror =>
      rw [hshape, ResponseAssertion.ofJson?_insert_body] at h
      obtain ⟨declared, hdeclared, rfl⟩ := Option.map_eq_some_iff.1 h
      have hsame : declared.body = body := by
        rw [ResponseAssertion.ofJson?_obj] at hdeclared
        obtain ⟨headers, -, rfl⟩ := Option.map_eq_some_iff.1 hdeclared
        change (Assoc.get? "body" members).getD .null = body
        rw [show Assoc.get? "body" members = some body from hbody]
        rfl
      rw [hdeclared, Option.some.injEq, or_iff_right herror, hbody]
      constructor
      · rintro heq body' ⟨⟩
        exact (congrArg ResponseAssertion.body heq).symm.trans hsame
      · intro hmerge
        rw [hmerge body rfl, ← hsame]
  · next hother =>
    refine iff_of_true h (.inr fun body hbody => ?_)
    obtain ⟨members, heq, -⟩ := Json.exists_members_of_field? hbody
    exact (hother members body heq hbody).elim

/-! ### Repeating an example -/

/-- The value of the parameter that is the body, if there is one. -/
def sentBody (op : Operation) (values : Dict Json) : Option Json :=
  op.bodyParameter?.bind fun parameter => values.get? parameter.name

/-- Why a step expects a recorded response as it is: the step edits no parameters, or its operation is
no write that may be repeated, or the response stands for an error, or laying the differences of the
body that is sent from itself over that of the response disturbs nothing. -/
inductive Spared (draft : Draft.Step) (op : Operation) (before : Dict Json) (status : String)
    (response : Json) : Prop
  | unedited (h : draft.requestUpdate = [])
  | noWrite (h : op.method.isIdempotentWrite = false)
  | error (h : HttpStatus.isError status = true)
  | undisturbed (h : ∀ body ∈ response.field? "body", ∀ sent ∈ sentBody op before,
      Json.Undisturbed sent body)

theorem ordered_document {path : String} {fixture : Json}
    (h : setting.document path = .ok fixture) : fixture.Ordered :=
  Files.ordered_document (eq_ok_of_mapError_eq_ok h)

/-- Whatever a step repeats is in order, if the example is. -/
theorem ordered_repeated {fixture : Json} {before : Dict Json} (hfixture : fixture.Ordered)
    (h : repeated setting scopes op fixture = .ok before) {name : String} {value : Json}
    (hvalue : before.get? name = some value) : value.Ordered := by
  rcases boundTo_repeated h name value hvalue with ⟨-, rfl⟩ | hgiven | ⟨rfl, -⟩
  · exact .str _
  · have hmem := Dict.mem_entries_iff.2 hgiven
    rw [fixtureMembers] at hmem
    cases hdict : fixture.field? "parameters" >>= Json.dict? with
    | none =>
      rw [hdict] at hmem
      cases hmem
    | some dict =>
      rw [hdict] at hmem
      obtain ⟨parameters, hfield, hdict⟩ := Option.bind_eq_some_iff.1 hdict
      exact (hfixture.of_field? hfield).of_dict? hdict hmem
  · exact .str _

/-- What is expected instead of a response where the body that is sent is not changed. -/
def reshapedUnchanged (setting : Setting) (draft : Draft.Step) (op : Operation) (before : Dict Json)
    (status : String) (response : Json) : Json :=
  if draft.requestUpdate.isEmpty then response
  else if op.method.isIdempotentWrite then
    (sentBody op before).elim response fun sent =>
      reshape setting op (sent.mergeDiff sent) status response
  else response

theorem get?_reshaped {fixture : Json} {before after : Dict Json}
    (h : sentBody op after = sentBody op before) (status : String) :
    (reshaped setting draft op fixture before after).get? status =
      ((fixtureMembers fixture "responses").get? status).map
        (reshapedUnchanged setting draft op before status) := by
  unfold reshaped reshapedUnchanged sentBody at *
  dsimp only
  generalize fixtureMembers fixture "responses" = recorded
  by_cases hempty : draft.requestUpdate.isEmpty = true
  · simp only [if_pos hempty]
    exact Option.map_id'.symm
  simp only [if_neg hempty, reshapeAll]
  by_cases hwrite : op.method.isIdempotentWrite = true
  · simp only [if_pos hwrite]
    cases hparameter : op.bodyParameter? with
    | none => exact Option.map_id'.symm
    | some parameter =>
      rw [hparameter, Option.bind_some, Option.bind_some] at h
      rw [Option.bind_some]
      dsimp only
      cases hsent : before.get? parameter.name with
      | none => exact Option.map_id'.symm
      | some sent =>
        rw [h, hsent, Dict.get?_mapValues]
        rfl
  · simp only [if_neg hwrite]
    exact Option.map_id'.symm

/-- Where the body that is sent is not changed, a response is expected as the example has it if and
only if it is spared. -/
theorem spared_iff {before : Dict Json} {status : String} {response : Json}
    {expected : ResponseAssertion}
    (hshape : ∀ resource schema, setting.sources.shape resource schema = resource)
    (hordered : ∀ sent ∈ sentBody op before, sent.Ordered)
    (h : ResponseAssertion.ofJson? (reshapedUnchanged setting draft op before status response) =
      some expected) :
    ResponseAssertion.ofJson? response = some expected ↔ Spared draft op before status response := by
  unfold reshapedUnchanged at h
  by_cases hempty : draft.requestUpdate = []
  · rw [hempty] at h
    exact iff_of_true h (.unedited hempty)
  rw [if_neg (mt List.isEmpty_iff.1 hempty)] at h
  by_cases hwrite : op.method.isIdempotentWrite = true
  · rw [if_pos hwrite] at h
    cases hsent : sentBody op before with
    | none =>
      rw [hsent] at h
      refine iff_of_true h (.undisturbed fun _ _ sent hmem => ?_)
      rw [hsent] at hmem
      cases hmem
    | some sent =>
      rw [hsent] at h
      have hself := Json.mergePatch_self_iff (hordered sent hsent)
      rw [ofJson?_reshape_iff hshape h]
      constructor
      · rintro (herror | hsame)
        · exact .error herror
        · refine .undisturbed fun body hbody other hother => ?_
          cases hsent.symm.trans hother
          exact (hself body).1 (hsame body hbody)
      · rintro (hnone | hnone | herror | hundisturbed)
        · exact absurd hnone hempty
        · rw [hwrite] at hnone
          cases hnone
        · exact .inl herror
        · exact .inr fun body hbody => (hself body).2 (hundisturbed body hbody sent hsent)
  · rw [if_neg hwrite] at h
    exact iff_of_true h (.noWrite (Bool.eq_false_iff.2 hwrite))

/-- A step expects a response under each status of an example and under no other, and it expects the
one of the example if and only if that is spared. -/
structure Expects (draft : Draft.Step) (before recorded : Dict Json) (s : RestCallStep) : Prop where
  statuses : ∀ status, s.responses.contains status = recorded.contains status
  responses : ∀ status response, recorded.get? status = some response →
    ∃ expected, s.responses.get? status = some expected ∧
      (ResponseAssertion.ofJson? response = some expected ↔
        Spared draft s.operation before status response)

theorem expects_of_assertions {fixture : Json} {before : Dict Json} {s : RestCallStep}
    (hshape : ∀ resource schema, setting.sources.shape resource schema = resource)
    (hordered : ∀ sent ∈ sentBody s.operation before, sent.Ordered)
    (hunchanged : sentBody s.operation s.parameters = sentBody s.operation before)
    (h : assertions (reshaped setting draft s.operation fixture before s.parameters) =
      .ok s.responses) :
    Expects draft before (fixtureMembers fixture "responses") s := by
  refine ⟨fun status => ?_, fun status response hresponse => ?_⟩
  · rw [Dict.contains, Dict.isSome_get?_mapM h, get?_reshaped hunchanged, Option.isSome_map]
    rfl
  · have hexpected : (reshaped setting draft s.operation fixture before s.parameters).get? status =
        some (reshapedUnchanged setting draft s.operation before status response) := by
      rw [get?_reshaped hunchanged, hresponse, Option.map_some]
    obtain ⟨expected, hread, hfound⟩ := Dict.exists_get?_of_mapM h hexpected
    exact ⟨expected, hfound, spared_iff hshape hordered (eq_some_of_elim_eq_ok hread)⟩

end Compile

open Compile

variable {sources : Sources} {draft : Draft.Definition} {path : String} {definition : Definition}

/-- **What an edit that leaves the body alone makes of the expected responses.** A step that repeats
an example expects a response under each status of the example, if its draft edits no responses and
resources are shown as they are. If the draft edits the parameters but leaves the body that is sent
as it was, the response is expected as the example has it if and only if it is spared: the operation
is no write that may be repeated, or the status is that of an error, or the body that is sent and that
of the response are both objects or one and the same value, as far as there are any. -/
theorem Sources.expects_compile_iff (h : sources.compile draft path = .ok definition)
    (hshape : ∀ resource schema, sources.shape resource schema = resource)
    {draftStep : Draft.Step} {step : Step} (hyields : definition.Yields draft draftStep step)
    {declared : String} (hreference : draftStep.reference = .ok (.fixture declared))
    (hupdate : draftStep.responseUpdate = []) :
    ∃ s scopes fixture before, step = .rest s ∧
      let setting := sources.setting definition.scope path
      setting.document (setting.resolve declared) = .ok fixture ∧
      repeated setting scopes s.operation fixture = .ok before ∧
      updateDict before draftStep.requestUpdate = .ok s.parameters ∧
      (sentBody s.operation s.parameters = sentBody s.operation before →
        Expects draftStep before (fixtureMembers fixture "responses") s) := by
  obtain ⟨phase, outer, owner, reference, name, outcome, hreference', hstep, rfl⟩ :=
    Sources.exists_outcome_of_yields h hyields
  cases hreference.symm.trans hreference'
  obtain ⟨vars, -, hstep⟩ := exists_of_bind_eq_ok hstep
  obtain ⟨inner, hinner, hstep⟩ := exists_of_bind_eq_ok hstep
  cases hstep
  obtain ⟨fixture, op, source, before, parameters, responses, hfixture, hrepeated, hedited, hexpected,
    rfl⟩ := fixtureStep_eq_ok hinner
  rw [hupdate, updateDict_nil] at hexpected
  have hordered : ∀ sent ∈ sentBody op before, sent.Ordered := by
    intro sent hsent
    obtain ⟨parameter, -, hvalue⟩ := Option.bind_eq_some_iff.1 hsent
    exact ordered_repeated (ordered_document hfixture) hrepeated hvalue
  refine ⟨_, _, fixture, before, rfl, hfixture, hrepeated, hedited, fun hunchanged => ?_⟩
  exact expects_of_assertions hshape hordered hunchanged hexpected

/-! ### A list in a response -/

namespace Compile

/-- An operation that writes a thing. -/
def writing : Operation where
  id := "o"
  method := .put
  path := "/"
  apiVersion := "1"
  parameters := [{ name := "thing", location := .body, required := true },
    { name := "tag", location := .query }]

/-- A recorded example of the operation: an object is sent, and a list is answered. -/
def listAnswered : Json :=
  .ofMembers
    [("parameters", .ofMembers [("tag", .str "old"), ("thing", .ofMembers [])]),
      ("responses", .ofMembers [("200", .ofMembers [("body", .arr [])])])]

/-- The operation, and files that hold the example. -/
def writeRecorded : Sources where
  index := { own := { operations := Dict.ofList [("o", ⟨writing, "s"⟩)] } }
  files := ⟨fun _ => .ok listAnswered.compact⟩

/-- A step that repeats the example with another tag. -/
def retagging : Draft.Step where
  name := some "a"
  operationId := some "o"
  exampleFile := some "f.json"
  requestUpdate := [.ofMembers [("op", .str "add"), ("path", .str "/tag"), ("value", .str "new")]]

/-- A draft with that step. -/
def retagged : Draft.Definition where
  scope := some "None"
  scenarios := [{ steps := [retagging] }]

/-- The parameters of the example, as the step repeats them. -/
def listSent : Dict Json :=
  Dict.ofList [("api-version", .str "1"), ("tag", .str "old"), ("thing", .ofMembers [])]

/-- What the step is compiled to. It expects an object. -/
def retaggedStep : RestCallStep where
  header := { name := "a" }
  exampleFile := some "f.json"
  operation := writing
  parameters := listSent.insert "tag" (.str "new")
  responses := Dict.ofList [("200", { body := .obj [] })]

/-- What the draft is compiled to. -/
def retaggedDefinition : Definition where
  scope := .unscoped
  scenarios := [{ position := 0, name := "scenario_0", steps := [.rest retaggedStep] }]
  filePath := "f"
  referencedSpecs := ["s"]

/-- What the draft is compiled against. -/
def writeSetting : Setting := writeRecorded.setting .unscoped "f"

theorem parse_recordedPath : Path.parse "f.json" = ⟨false, ["f.json"]⟩ := by
  have hsplit : "f.json".splitOn "/" = ["f.json"] := by
    simp +decide [String.splitOn, String.splitOnAux]
  rw [Path.parse, hsplit]
  decide +kernel

theorem resolve_recordedPath : writeSetting.resolve "f.json" = "f.json" := by
  have hsplit : "f".splitOn "/" = ["f"] := by
    simp +decide [String.splitOn, String.splitOnAux]
  have hpath : Path.parse "f" = ⟨false, ["f"]⟩ := by
    rw [Path.parse, hsplit]
    decide +kernel
  rw [Setting.resolve, writeSetting, Sources.setting, hpath, parse_recordedPath]
  decide +kernel

theorem document_recordedPath : writeSetting.document "f.json" = .ok listAnswered := by
  have hjson : Document.isYaml "f.json" = false := by
    rw [Document.isYaml, parse_recordedPath]
    decide +kernel
  have hparse : Document.parse "f.json" listAnswered.compact = some listAnswered := by
    rw [Document.parse, hjson]
    rfl
  have hread : writeRecorded.files.document "f.json" = .ok listAnswered := by
    change (Document.parse "f.json" listAnswered.compact).elim (Except.error LoadCause.malformed)
      Except.ok = _
    rw [hparse]
    rfl
  exact congrArg (Except.mapError _) hread

theorem updateDict_retagging (values : Dict Json) :
    updateDict values retagging.requestUpdate = .ok (values.insert "tag" (.str "new")) := by
  have hsplit : "/tag".splitOn "/" = ["", "tag"] := by
    simp +decide [String.splitOn, String.splitOnAux]
  have hadd : Edit.apply (Json.ofDict values) (.add "/tag" (.str "new")) =
      .ok (Json.ofDict (values.insert "tag" (.str "new"))) := by
    rw [Edit.apply, Pointer.parse, hsplit]
    rfl
  have hpatch : Patch.apply (Json.ofDict values) retagging.requestUpdate =
      .ok (Json.ofDict (values.insert "tag" (.str "new"))) := by
    change Patch.applyEdits 0 (Json.ofDict values) [.add "/tag" (.str "new")] = _
    rw [Patch.applyEdits, hadd]
    rfl
  rw [updateDict, hpatch]
  exact congrArg Except.ok (Dict.ofList_entries _)

theorem fixtureStep_retagging :
    fixtureStep writeSetting retagging "f.json" { step := {}, owner := {}, outer := some {} }
        { name := "a" } =
      .ok { step := .rest retaggedStep, owner := {}, source := some "s" } := by
  rw [fixtureStep]
  dsimp only
  rw [resolve_recordedPath, document_recordedPath]
  change (updateDict listSent retagging.requestUpdate >>= _) = _
  rw [updateDict_retagging]
  rfl

theorem compile_retagged : writeRecorded.compile retagged "f" = .ok retaggedDefinition := by
  have hstep : labelledStep writeSetting .scenario (some {}) [] {} "scenario_0_0" retagging =
      .ok { step := .rest retaggedStep, owner := {}, source := some "s" } := by
    change (fixtureStep writeSetting retagging "f.json" { step := {}, owner := {}, outer := some {} }
      { name := "a" } >>= _).mapError _ = _
    rw [fixtureStep_retagging]
    rfl
  have hsteps : steps writeSetting .scenario (some {}) "scenario_0" 0 [] {} [retagging] =
      .ok { steps := [.rest retaggedStep], owner := {}, specs := ["s"] } := by
    change (labelledStep writeSetting .scenario (some {}) [] {} "scenario_0_0" retagging >>= _) = _
    rw [hstep]
    rfl
  have hscenario : scenario writeSetting {} 0 { steps := [retagging] } =
      .ok ({ position := 0, name := "scenario_0", steps := [.rest retaggedStep] }, ["s"]) := by
    change (steps writeSetting .scenario (some {}) "scenario_0" 0 [] {} [retagging] >>= _) = _
    rw [hsteps]
    rfl
  change (scenarios writeSetting {} 0 [{ steps := [retagging] }] >>= _) = _
  rw [scenarios, hscenario]
  rfl

theorem yields_retagging : retaggedDefinition.Yields retagged retagging (.rest retaggedStep) :=
  .scenario (i := 0) (j := 0) rfl rfl rfl rfl

theorem repeated_listAnswered :
    repeated writeSetting { step := {}, owner := {}, outer := some {} } writing listAnswered =
      .ok listSent := rfl

/-- The tag is not the body. -/
theorem sentBody_retaggedStep : sentBody writing retaggedStep.parameters = sentBody writing listSent :=
  rfl

end Compile

/-- The step repeats the example with another tag, and with the body that is recorded. -/
theorem Sources.expects_compile_retagged :
    writeRecorded.compile retagged "f" = .ok retaggedDefinition ∧
      retaggedDefinition.Yields retagged retagging (.rest retaggedStep) ∧
      ∃ scopes fixture before,
        writeSetting.document (writeSetting.resolve "f.json") = .ok fixture ∧
        repeated writeSetting scopes writing fixture = .ok before ∧
        updateDict before retagging.requestUpdate = .ok retaggedStep.parameters ∧
        Expects retagging before (fixtureMembers fixture "responses") retaggedStep := by
  obtain ⟨s, scopes, fixture, before, hs, hfixture, hrepeated, hedited, hexpects⟩ :=
    Sources.expects_compile_iff compile_retagged (fun _ _ => rfl) yields_retagging rfl rfl
  cases hs
  refine ⟨compile_retagged, yields_retagging, scopes, fixture, before, hfixture, hrepeated, hedited,
    hexpects ?_⟩
  have hafter := Except.ok.inj ((updateDict_retagging before).symm.trans hedited)
  rw [← hafter]
  exact Dict.get?_insert before "tag" "thing" (.str "new")

/-- The body that the step sends is not changed, but the list that is answered is expected to be an
object. -/
theorem Sources.not_forall_expects_compile :
    ¬ ∀ (sources : Sources) (draft : Draft.Definition) (path : String) (definition : Definition),
      sources.compile draft path = .ok definition →
      (∀ resource schema, sources.shape resource schema = resource) →
      ∀ (draftStep : Draft.Step) (s : RestCallStep), definition.Yields draft draftStep (.rest s) →
        ∀ declared, draftStep.reference = .ok (.fixture declared) → draftStep.responseUpdate = [] →
        let setting := sources.setting definition.scope path
        ∀ (scopes : Scopes) (fixture : Json) (before : Dict Json),
          setting.document (setting.resolve declared) = .ok fixture →
          repeated setting scopes s.operation fixture = .ok before →
          updateDict before draftStep.requestUpdate = .ok s.parameters →
          sentBody s.operation s.parameters = sentBody s.operation before →
          ∀ status response, (fixtureMembers fixture "responses").get? status = some response →
            s.responses.get? status = ResponseAssertion.ofJson? response := by
  intro hall
  have hdocument : writeSetting.document (writeSetting.resolve "f.json") = .ok listAnswered := by
    rw [resolve_recordedPath, document_recordedPath]
  have hexpected := hall writeRecorded retagged "f" retaggedDefinition compile_retagged
    (fun _ _ => rfl) retagging retaggedStep yields_retagging "f.json" rfl rfl _ listAnswered listSent
    hdocument repeated_listAnswered (updateDict_retagging listSent) sentBody_retaggedStep "200"
    (.ofMembers [("body", .arr [])]) rfl
  have hbody := congrArg (Option.map ResponseAssertion.body) hexpected
  cases hbody

end Rehearsal
