import Rehearsal.Proofs.Dict
import Rehearsal.Proofs.Environment.Resolution
import Rehearsal.Proofs.Request.Building
import Rehearsal.Proofs.Request.Template
import Rehearsal.Proofs.Variable

/-!
# The path of a request

The path of a request is filled in two passes: the names in braces become placeholders, and these are
resolved in an environment that holds the resolved values of the path parameters. So the rules of
placeholders decide what is filled, and the path comes out with the texts of the parameters in the
place of their names if and only if they agree with the braces: every name in braces is one that a
placeholder can have, and the path has no placeholder of its own (`Request.path_eq_fill_iff`).
-/

namespace Rehearsal

open Placeholder (isName replacement)

namespace Request

variable {step : RestCallStep} {env : Environment} {request resolved : Request} {name : String}

/-- The strictly resolved value of a parameter of a step. -/
def parameterValue? (step : RestCallStep) (env : Environment) (name : String) : Option Json :=
  (step.parameters.get? name).bind fun value => (env.resolve .strict value).toOption

/-- The text of the strictly resolved value of a parameter of a step. -/
def parameterText (step : RestCallStep) (env : Environment) (name : String) : String :=
  ((parameterValue? step env name).getD .null).plainText

/-- A step comes to a request, which is resolved, and each name in braces in the path of its operation
is the name of a path parameter. -/
structure ComesTo (step : RestCallStep) (env : Environment) (resolved : Request) : Prop where
  /-- The request is built and resolved. -/
  built : ∃ request, ofStep step = .ok request ∧ request.resolve env = .ok resolved
  /-- The names in braces are those of path parameters. -/
  declared : ∀ name ∈ PathTemplate.parameterNames step.operation.path,
    ∃ parameter ∈ step.operation.parameters, parameter.name = name ∧ parameter.location = .path

theorem exists_of_resolve (h : request.resolve env = .ok resolved) :
    ∃ values json, resolveValues env request.pathParameters = .ok values ∧
      (pathEnvironment env values).resolveText request.path = .ok json ∧
      resolved.pathParameters = values ∧ resolved.path = json.plainText := by
  obtain ⟨values, hvalues, h⟩ := exists_of_bind_eq_ok h
  obtain ⟨json, hjson, h⟩ := exists_of_bind_eq_ok h
  obtain ⟨query, -, h⟩ := exists_of_bind_eq_ok h
  obtain ⟨headers, -, h⟩ := exists_of_bind_eq_ok h
  obtain ⟨body, -, h⟩ := exists_of_bind_eq_ok h
  cases h
  exact ⟨values, json, hvalues, hjson, rfl, rfl⟩

/-! ### The environment of the path -/

theorem value?_pathEnvironment {values : Dict Json} {value : Json}
    (h : values.get? name = some value) : (pathEnvironment env values).value? name = some value := by
  rw [Environment.value?, Environment.get?, pathEnvironment, Environment.child, Environment.layers,
    List.findSome?_cons, Dict.get?_mapValues, h]
  exact Variable.value?_ofValue .string value

theorem lookup_pathEnvironment {values : Dict Json} {value : Json}
    (h : values.get? name = some value) (hplain : value.placeholders = []) :
    (pathEnvironment env values).lookup .strict [] name = .ok (some value) := by
  rw [Environment.lookup_of_bound List.not_mem_nil (value?_pathEnvironment h),
    Environment.resolveOn, Json.traverse_of_no_placeholders hplain]
  rfl

/-- What the path of a request comes to, if what it refers to has values without placeholders. -/
theorem toList_plainText_of_resolveText {values : Dict Json} {text : String} {json : Json}
    {found : String → Json} (hvalues : ∀ name ∈ Placeholder.names text,
      values.get? name = some (found name) ∧ (found name).placeholders = [])
    (h : (pathEnvironment env values).resolveText text = .ok json) :
    json.plainText.toList =
      (Placeholder.pieces text).flatMap (PathTemplate.filled fun name => (found name).plainText) := by
  have hlookup : ∀ name ∈ Placeholder.names text,
      (pathEnvironment env values).lookup .strict [] name = .ok (some (found name)) :=
    fun name hmem => lookup_pathEnvironment (hvalues name hmem).1 (hvalues name hmem).2
  rw [Placeholder.toList_plainText_of_substitute (fun name hmem => ⟨_, hlookup name hmem⟩) h]
  refine List.flatMap_congr fun piece hmem => ?_
  cases piece with
  | char c => rfl
  | token name =>
    rw [replacement, hlookup name (Placeholder.mem_names_iff.2 hmem)]
    rfl

/-! ### Filling -/

/-- A path parameter that the path refers to has a value, and the request has it resolved. -/
theorem ComesTo.exists_value (h : ComesTo step env resolved)
    (hname : name ∈ PathTemplate.parameterNames step.operation.path) :
    ∃ value, parameterValue? step env name = some value ∧
      resolved.pathParameters.get? name = some value := by
  obtain ⟨request, hbuilt, hresolve⟩ := h.built
  obtain ⟨parameter, hmem, rfl, hlocation⟩ := h.declared name hname
  obtain ⟨value, hvalue⟩ := exists_value_of_ofStep hbuilt hmem (.inr hlocation)
  have hplaced := placed_of_ofStep hbuilt hmem
    (fun hbody => absurd (hlocation.symm.trans hbody) (by decide)) hvalue
  simp only [placed, hlocation] at hplaced
  obtain ⟨values, -, hvalues, -, rfl, -⟩ := exists_of_resolve hresolve
  obtain ⟨found, hfound, hget⟩ := Dict.exists_get?_of_mapM hvalues hplaced
  refine ⟨found, ?_, hget⟩
  rw [parameterValue?, hvalue, Option.bind_some, hfound]
  rfl

/-- The path is filled with the texts of the parameters, if every name in braces is one that a
placeholder can have, the path has no placeholder of its own, and the values have none. -/
theorem ComesTo.path_eq_fill (h : ComesTo step env resolved)
    (hnames : ∀ name ∈ PathTemplate.parameterNames step.operation.path, isName name = true)
    (hown : Placeholder.names step.operation.path = [])
    (hplain : ∀ name ∈ PathTemplate.parameterNames step.operation.path, ∀ value,
      parameterValue? step env name = some value → value.placeholders = []) :
    resolved.path = PathTemplate.fill (parameterText step env) step.operation.path := by
  obtain ⟨request, hbuilt, hresolve⟩ := h.built
  obtain ⟨values, json, -, hjson, hvalues, hpath⟩ := exists_of_resolve hresolve
  have hpieces := PathTemplate.pieces_toPlaceholders hnames hown
  rw [path_of_ofStep hbuilt] at hjson
  have hfound : ∀ name ∈ Placeholder.names (PathTemplate.toPlaceholders step.operation.path),
      values.get? name = some ((parameterValue? step env name).getD .null) ∧
        ((parameterValue? step env name).getD .null).placeholders = [] := by
    intro name hmem
    rw [Placeholder.mem_names_iff, hpieces, ← PathTemplate.mem_parameterNames_iff] at hmem
    obtain ⟨value, hvalue, hget⟩ := h.exists_value hmem
    rw [hvalue, ← hvalues, hget]
    exact ⟨rfl, hplain name hmem value hvalue⟩
  have hfilled := toList_plainText_of_resolveText hfound hjson
  rw [hpath, PathTemplate.fill, ← hpieces]
  exact String.toList_injective (by rw [hfilled, String.toList_ofList]; rfl)

/-! ### Requests for any path -/

section Any

variable (path : String) (text : String → String)

/-- The names that the path of a request refers to, and those in braces. -/
def usedNames : List String :=
  PathTemplate.parameterNames path ++ Placeholder.names (PathTemplate.toPlaceholders path)

/-- A step that calls an operation at a path and gives each name that can matter a text. -/
def stepAt : RestCallStep where
  header := { name := "" }
  operation :=
    { id := "", method := .get, path, apiVersion := ""
      parameters := (usedNames path).map fun name => { name, location := .path } }
  parameters := Dict.tabulate (usedNames path) fun name => .str (text name)

/-- Its request. -/
def requestAt : Request where
  method := .get
  path := PathTemplate.toPlaceholders path
  pathParameters := Dict.tabulate (usedNames path) fun name => .str (text name)

theorem foldlM_addParameter_path {op : Operation} {values : Dict Json} {f : String → Json}
    {names : List String} (hvalues : ∀ name ∈ names, values.get? name = some (f name))
    (request : Request) :
    (names.map fun name => ({ name, location := .path } : Parameter)).foldlM (addParameter op values)
        request =
      .ok { request with
        pathParameters := names.foldl (fun dict name => dict.insert name (f name))
          request.pathParameters } := by
  induction names generalizing request with
  | nil => rfl
  | cons name names ih =>
    rw [List.map_cons, List.foldlM_cons, addParameter, hvalues name List.mem_cons_self]
    exact ih (fun other hmem => hvalues other (List.mem_cons_of_mem name hmem)) _

theorem ofStep_stepAt : ofStep (stepAt path text) = .ok (requestAt path text) := by
  refine foldlM_addParameter_path (f := fun name => .str (text name)) (fun name hmem => ?_) _
  rw [stepAt, Dict.get?_tabulate, if_pos hmem]

variable {path text} (hplain : ∀ name, Placeholder.names (text name) = [])

include hplain

theorem resolveValues_requestAt (env : Environment) :
    resolveValues env (requestAt path text).pathParameters =
      .ok (requestAt path text).pathParameters := by
  refine Dict.mapM_eq_ok_self fun name value hget => ?_
  rw [requestAt, Dict.get?_tabulate] at hget
  split at hget
  · cases hget
    exact Json.traverse_of_no_placeholders (hplain name)
  · cases hget

/-- The request of the step is resolved in every environment. -/
theorem exists_comesTo_stepAt (env : Environment) : ∃ resolved, ComesTo (stepAt path text) env resolved ∧
    resolved.path.toList =
      (Placeholder.pieces (PathTemplate.toPlaceholders path)).flatMap (PathTemplate.filled text) := by
  let paths := pathEnvironment env (requestAt path text).pathParameters
  have hget : ∀ name ∈ Placeholder.names (PathTemplate.toPlaceholders path),
      (requestAt path text).pathParameters.get? name = some (.str (text name)) := by
    intro name hmem
    have hused : name ∈ usedNames path := List.mem_append_right _ hmem
    rw [requestAt, Dict.get?_tabulate, if_pos hused]
  obtain ⟨json, hjson⟩ : ∃ json, paths.resolveText (PathTemplate.toPlaceholders path) = .ok json := by
    have hfollows := Json.follows_traverse (paths.lookup .strict [])
      (.str (PathTemplate.toPlaceholders path))
    rw [← Environment.resolveOn, ← Environment.resolve, ← Environment.resolveText] at hfollows
    cases hresult : paths.resolveText (PathTemplate.toPlaceholders path) with
    | ok json => exact ⟨json, rfl⟩
    | error e =>
      rw [hresult] at hfollows
      obtain ⟨name, hmem, herror⟩ := hfollows
      rw [lookup_pathEnvironment (hget name hmem) (hplain name)] at herror
      cases herror
  have hresolve : (requestAt path text).resolve env =
      .ok { requestAt path text with path := json.plainText } := by
    rw [resolve, resolveValues_requestAt hplain]
    change (paths.resolveText (PathTemplate.toPlaceholders path) >>= _) = _
    rw [hjson]
    rfl
  refine ⟨_, ⟨⟨_, ofStep_stepAt path text, hresolve⟩, fun name hname => ?_⟩, ?_⟩
  · have hused : name ∈ usedNames path := List.mem_append_left _ hname
    exact ⟨{ name, location := .path }, List.mem_map_of_mem hused, rfl, rfl⟩
  · exact toList_plainText_of_resolveText (fun name hmem => ⟨hget name hmem, hplain name⟩) hjson

theorem parameterValue?_stepAt (env : Environment) (hmem : name ∈ usedNames path) :
    parameterValue? (stepAt path text) env name = some (.str (text name)) := by
  have hresolve : env.resolve .strict (.str (text name)) = .ok (.str (text name)) :=
    Json.traverse_of_no_placeholders (hplain name)
  rw [parameterValue?, stepAt, Dict.get?_tabulate, if_pos hmem, Option.bind_some, hresolve]
  rfl

end Any

/-- **The path of a request is the path of the operation with the texts of the parameters in the
place of their names in braces, if and only if these are names of placeholders and the path has no
placeholder itself.** This is for values without placeholders, which would be replaced once more.
Whatever the path, each name in braces has a resolved value. -/
theorem path_eq_fill_iff (path : String) :
    (∀ step env resolved, step.operation.path = path → ComesTo step env resolved →
      ∀ name ∈ PathTemplate.parameterNames path, ∃ value,
        parameterValue? step env name = some value ∧
          resolved.pathParameters.get? name = some value) ∧
    ((∀ step env resolved, step.operation.path = path → ComesTo step env resolved →
      (∀ name ∈ PathTemplate.parameterNames path, ∀ value,
        parameterValue? step env name = some value → value.placeholders = []) →
      resolved.path = PathTemplate.fill (parameterText step env) path) ↔
    (∀ name ∈ PathTemplate.parameterNames path, isName name = true) ∧
      Placeholder.names path = []) := by
  constructor
  · rintro step env resolved rfl h name hname
    exact h.exists_value hname
  constructor
  · intro hall
    refine PathTemplate.isName_of_forall_filled fun text hplain => ?_
    obtain ⟨resolved, hcomes, hpath⟩ := @exists_comesTo_stepAt path text hplain {}
    have hvalue : ∀ name ∈ PathTemplate.parameterNames path,
        parameterValue? (stepAt path text) {} name = some (.str (text name)) := fun name hmem =>
      parameterValue?_stepAt hplain {} (List.mem_append_left _ hmem)
    have hfill := hall (stepAt path text) {} resolved rfl hcomes fun name hmem value hsome => ?_
    · rw [← hpath, hfill, PathTemplate.fill, String.toList_ofList]
      refine List.flatMap_congr fun piece hmem => ?_
      cases piece with
      | char c => rfl
      | token name =>
        rw [PathTemplate.filled, parameterText,
          hvalue name (PathTemplate.mem_parameterNames_iff.2 hmem)]
        rfl
    · rw [hvalue name hmem] at hsome
      cases hsome
      exact hplain name
  · rintro ⟨hnames, hown⟩ step env resolved rfl hcomes hplain
    exact hcomes.path_eq_fill hnames hown hplain

/-- A step that reads a widget, whose name stands in the path under a name with a hyphen. -/
def readingWidget : RestCallStep where
  header := { name := "read" }
  operation :=
    { id := "Widgets_Get", method := .get, path := "/\x7bwidget-name\x7d", apiVersion := "1"
      parameters := [{ name := "widget-name", location := .path, required := true }] }
  parameters := Dict.ofList [("widget-name", .str "w1")]

/-- The widget's name is not put into the path. -/
theorem not_forall_path_eq_fill :
    ¬ ∀ step env resolved, ComesTo step env resolved →
      resolved.path = PathTemplate.fill (parameterText step env) step.operation.path := by
  intro hall
  have hsent : (ofStep readingWidget).toOption.any (fun request =>
      (request.resolve {}).toOption.any (·.path == "/$(widget-name)")) = true := by decide +kernel
  obtain ⟨request, hbuilt, hresolved⟩ := exists_ok_of_any hsent
  obtain ⟨resolved, hresolve, hpath⟩ := exists_ok_of_any hresolved
  have hfill := hall readingWidget {} resolved
    { built := ⟨request, hbuilt, hresolve⟩
      declared := by
        have hnames : PathTemplate.parameterNames readingWidget.operation.path =
            ["widget-name"] := by decide
        intro name hname
        rw [hnames, List.mem_singleton] at hname
        exact ⟨_, List.mem_cons_self, hname.symm, rfl⟩ }
  have hwanted : PathTemplate.fill (parameterText readingWidget {}) readingWidget.operation.path =
      "/w1" := by decide +kernel
  rw [hwanted, beq_iff_eq.1 hpath] at hfill
  exact absurd hfill (by decide)

end Request

end Rehearsal
