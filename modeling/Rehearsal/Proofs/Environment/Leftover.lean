import Mathlib
import Rehearsal.Proofs.Environment.Locality
import Rehearsal.Proofs.Placeholder.Formed

/-!
# Placeholders in what resolution comes to

Resolution passes over a text once, and does not look again at what it puts together. So a value
that was resolved strictly can have placeholders: those that are formed in one of the texts that
resolution meets on its way, and no others (`Environment.mem_placeholders_resolve_iff`).
-/

namespace Rehearsal

namespace Environment

variable {env : Environment} {stack : List String} {name : String}

/-- A text that resolving a target meets: a string of the target, or of the value of a name that it
leads to. -/
def Meets (env : Environment) (target : Json) (text : String) : Prop :=
  target.HasString text ∨
    ∃ reached value, env.ReachedFrom target reached ∧ env.value? reached = some value ∧
      value.HasString text

/-- What is met on the way of the value of a name is met on the way of a text that refers to it. -/
theorem Meets.of_refers {target value : Json} {root text : String} (hroot : root ∈ target.placeholders)
    (hvalue : env.value? root = some value) (h : env.Meets value text) : env.Meets target text := by
  rcases h with h | ⟨reached, other, ⟨next, hnext, hreach⟩, hother, h⟩
  · exact .inr ⟨root, value, ⟨root, hroot, .refl⟩, hvalue, h⟩
  · have hstep : env.Reaches root reached := .head ((refers_of_value? hvalue).2 hnext) hreach
    exact .inr ⟨reached, other, ⟨root, hroot, hstep⟩, hother, h⟩

/-- A text that is met is the target's own, or it is met on the way of a name that the target
refers to. -/
theorem meets_iff {target : Json} {text : String} :
    env.Meets target text ↔ target.HasString text ∨
      ∃ root ∈ target.placeholders, ∃ value, env.value? root = some value ∧
        env.Meets value text := by
  constructor
  · rintro (h | ⟨reached, other, ⟨root, hroot, hreach⟩, hother, h⟩)
    · exact .inl h
    rcases Relation.ReflTransGen.cases_head hreach with rfl | ⟨next, hrefers, hrest⟩
    · exact .inr ⟨root, hroot, other, hother, .inl h⟩
    · obtain ⟨value, hvalue⟩ := Option.ne_none_iff_exists'.1 (value?_ne_none_of_refers hrefers)
      have hnext : next ∈ value.placeholders := (refers_of_value? hvalue).1 hrefers
      exact .inr ⟨root, hroot, value, hvalue, .inr ⟨reached, other, ⟨next, hnext, hrest⟩, hother, h⟩⟩
  · rintro (h | ⟨root, hroot, value, hvalue, h⟩)
    · exact .inl h
    · exact h.of_refers hroot hvalue

/-- A strict look-up that succeeds finds a value. -/
theorem exists_value_of_lookup {found : Option Json} (h : env.lookup .strict stack name = .ok found) :
    ∃ value json, env.value? name = some value ∧ found = some json ∧
      env.resolve .strict value = .ok json ∧
      ∀ next ∈ value.placeholders, ∃ found, env.lookup .strict (name :: stack) next = .ok found := by
  obtain ⟨hnew, -, hbound⟩ := not_inCycle_of_lookup h .refl
  obtain ⟨value, hvalue⟩ := Option.isSome_iff_exists.1 (hbound rfl)
  have hfollows := follows_lookup .strict hnew hvalue
  rw [h] at hfollows
  rw [lookup_of_bound hnew hvalue] at h
  obtain ⟨json, hjson, rfl⟩ := exists_of_map_eq_ok h
  refine ⟨value, json, hvalue, rfl, ?_, hfollows⟩
  rw [← hjson]
  refine Json.traverse_congr fun next hnext => ?_
  obtain ⟨found, hfound⟩ := hfollows next hnext
  rw [hfound, lookup_nil_of_lookup hfound]

/-- If what the names that a target refers to come to has the placeholders that are formed on the
way, then so has what the target comes to. -/
theorem mem_placeholders_resolve_of_lookups {target json : Json}
    (h : env.resolve .strict target = .ok json)
    (hnames : ∀ root ∈ target.placeholders, ∀ value found, env.value? root = some value →
      env.lookup .strict [] root = .ok (some found) →
      (name ∈ found.placeholders ↔
        ∃ text, env.Meets value text ∧ Placeholder.Forms (env.lookup .strict []) text name)) :
    name ∈ json.placeholders ↔
      ∃ text, env.Meets target text ∧ Placeholder.Forms (env.lookup .strict []) text name := by
  have hfollows := Json.follows_traverse (env.lookup .strict []) target
  rw [← resolveOn, ← resolve, h] at hfollows
  have hfound : ∀ root ∈ target.placeholders, ∃ value found, env.value? root = some value ∧
      env.lookup .strict [] root = .ok (some found) := by
    intro root hroot
    obtain ⟨result, hresult⟩ := hfollows root hroot
    obtain ⟨value, found, hvalue, rfl, -, -⟩ := exists_value_of_lookup hresult
    exact ⟨value, found, hvalue, hresult⟩
  have hvalued : ∀ root ∈ target.placeholders, ∃ found,
      env.lookup .strict [] root = .ok (some found) := by
    intro root hroot
    obtain ⟨-, found, -, hlookup⟩ := hfound root hroot
    exact ⟨found, hlookup⟩
  rw [Json.mem_placeholders_traverse_iff hvalued h]
  constructor
  · rintro ⟨text, hstring, hforms | ⟨root, hroot, found, hlookup, hmem⟩⟩
    · exact ⟨text, .inl hstring, hforms⟩
    · have hroot' : root ∈ target.placeholders := Json.mem_placeholders_iff.2 ⟨text, hstring, hroot⟩
      obtain ⟨value, other, hvalue, hother⟩ := hfound root hroot'
      obtain ⟨met, hmet, hforms⟩ := (hnames root hroot' value found hvalue hlookup).1 hmem
      exact ⟨met, hmet.of_refers hroot' hvalue, hforms⟩
  · rintro ⟨text, hmet, hforms⟩
    rcases meets_iff.1 hmet with hstring | ⟨root, hroot, value, hvalue, hmet⟩
    · exact ⟨text, hstring, .inl hforms⟩
    · obtain ⟨-, found, -, hlookup⟩ := hfound root hroot
      have hmem := (hnames root hroot value found hvalue hlookup).2 ⟨text, hmet, hforms⟩
      obtain ⟨own, hstring, hown⟩ := Json.mem_placeholders_iff.1 hroot
      exact ⟨own, hstring, .inr ⟨root, hown, found, hlookup, hmem⟩⟩

/-- The placeholders in what a name comes to. -/
theorem mem_placeholders_lookup_iff {value json : Json} (hvalue : env.value? name = some value)
    (h : env.lookup .strict stack name = .ok (some json)) {left : String} :
    left ∈ json.placeholders ↔
      ∃ text, env.Meets value text ∧ Placeholder.Forms (env.lookup .strict []) text left := by
  induction stack, name using lookup.induct env .strict generalizing value json with
  | case1 stack name hmem =>
    rw [lookup_of_mem hmem] at h
    cases h
  | case2 stack name hnew hnone _ | case3 stack name hnew hnone _ =>
    rw [hnone] at hvalue
    cases hvalue
  | case4 stack name hnew found hfound ih =>
    obtain ⟨value', json', hvalue', heq, hresolve, hnext⟩ := exists_value_of_lookup h
    cases heq
    rw [hvalue] at hfound hvalue'
    cases hfound
    cases hvalue'
    refine mem_placeholders_resolve_of_lookups hresolve fun root hroot other found hother hlookup => ?_
    obtain ⟨result, hresult⟩ := hnext root hroot
    have hsame := lookup_nil_of_lookup hresult
    rw [hlookup] at hsame
    cases hsame
    exact ih root hother hresult

/-- The placeholders in what a target comes to: those that are formed in the texts that its
resolution meets. -/
theorem mem_placeholders_resolve_iff {target json : Json} (h : env.resolve .strict target = .ok json)
    {name : String} :
    name ∈ json.placeholders ↔
      ∃ text, env.Meets target text ∧ Placeholder.Forms (env.lookup .strict []) text name :=
  mem_placeholders_resolve_of_lookups h fun _ _ _ _ hvalue hlookup =>
    mem_placeholders_lookup_iff hvalue hlookup

/-- An environment with a variable whose text is the character that tokens begin with. -/
def dollar : Environment := { inner := ({} : Layer).set "a" (.string "$") }

theorem resolve_dollar : dollar.resolve .strict (.str "$(a)(b)") = .ok (.str "$(b)") := by cbv

/-- The token that is left is formed by the text and the value. -/
theorem exists_forms_dollar :
    dollar.resolve .strict (.str "$(a)(b)") = .ok (.str "$(b)") ∧
      ∃ text, dollar.Meets (.str "$(a)(b)") text ∧
        Placeholder.Forms (dollar.lookup .strict []) text "b" :=
  ⟨resolve_dollar, (mem_placeholders_resolve_iff resolve_dollar).1 (by decide)⟩

/-- Strict resolution can leave a token. -/
theorem not_forall_placeholders_resolve :
    ¬ ∀ env target json, resolve env .strict target = .ok json → json.placeholders = [] := by
  intro hall
  have hnone := hall dollar (.str "$(a)(b)") (.str "$(b)") resolve_dollar
  exact absurd hnone (by decide)

end Environment

end Rehearsal
