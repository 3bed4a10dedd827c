import Mathlib
import Rehearsal.Proofs.Environment.Declassification
import Rehearsal.Proofs.Environment.Locality
import Rehearsal.Proofs.Placeholder.Fixed

/-!
# Resolving an environment first

`Environment.resolveAll` stores resolved values under the names they belong to, and what is resolved
in the environment afterwards finds those. That comes to the same as resolving once in the
environment as it was if and only if every stored value means what its name meant
(`Environment.resolve_resolveAll_iff`): a variable that holds texts stores the text of whatever it
is given, and a text put together from others can have placeholders that none of them has.
-/

namespace Rehearsal

/-! ### Values that resolution does not change -/

namespace Json

variable {ε : Type} {f : String → Except ε Json}

theorem eq_of_sameItems {items : List Json}
    (h : ∀ item ∈ items, ∀ next, item.traverse f = .ok next → next.same item = true → next = item)
    {others : List Json} (hothers : items.mapM (traverse f) = .ok others)
    (hsame : sameItems others items = true) : others = items := by
  induction items generalizing others with
  | nil => cases hothers; rfl
  | cons item rest ih =>
    rw [List.mapM_cons] at hothers
    obtain ⟨next, hnext, hothers⟩ := exists_of_bind_eq_ok hothers
    obtain ⟨tail, htail, hothers⟩ := exists_of_bind_eq_ok hothers
    cases hothers
    rw [sameItems, Bool.and_eq_true] at hsame
    rw [h item List.mem_cons_self next hnext hsame.1,
      ih (fun item hmem => h item (List.mem_cons_of_mem _ hmem)) htail hsame.2]

theorem eq_of_sameMembers {members : List (String × Json)}
    (h : ∀ member ∈ members, ∀ next, member.2.traverse f = .ok next →
      next.same member.2 = true → next = member.2)
    {others : List (String × Json)} (hothers : members.mapM (traverseMember f) = .ok others)
    (hsame : sameMembers others members = true) : others = members := by
  induction members generalizing others with
  | nil => cases hothers; rfl
  | cons member rest ih =>
    rw [List.mapM_cons] at hothers
    obtain ⟨other, hother, hothers⟩ := exists_of_bind_eq_ok hothers
    obtain ⟨tail, htail, hothers⟩ := exists_of_bind_eq_ok hothers
    cases hothers
    obtain ⟨name, value⟩ := member
    rw [traverseMember] at hother
    cases hnext : value.traverse f with
    | error e => rw [hnext] at hother; cases hother
    | ok next =>
      rw [hnext] at hother
      cases hother
      rw [sameMembers, Bool.and_eq_true, Bool.and_eq_true] at hsame
      rw [h (name, value) List.mem_cons_self next hnext hsame.1.2,
        ih (fun member hmem => h member (List.mem_cons_of_mem _ hmem)) htail hsame.2]

/-- Replacing strings makes no other value that is the same: numbers stay what they are. -/
theorem eq_of_same_of_traverse {value next : Json} (h : value.traverse f = .ok next)
    (hsame : next.same value = true) : next = value := by
  induction value using Json.induct generalizing next with
  | null | bool | int | float => cases h; rfl
  | str text =>
    cases next with
    | str other => rw [same, beq_iff_eq] at hsame; rw [hsame]
    | null | bool | int | float | arr | obj => cases hsame
  | arr items ih =>
    rw [traverse_arr] at h
    cases hothers : items.mapM (traverse f) with
    | error e => rw [hothers] at h; cases h
    | ok others =>
      rw [hothers] at h
      cases h
      rw [eq_of_sameItems (fun item hmem _ => ih item hmem) hothers hsame]
  | obj members ih =>
    rw [traverse_obj] at h
    cases hothers : members.mapM (traverseMember f) with
    | error e => rw [hothers] at h; cases h
    | ok others =>
      rw [hothers] at h
      cases h
      rw [eq_of_sameMembers (fun member hmem _ => ih member hmem) hothers hsame]

end Json

/-! ### What a variable keeps of a value -/

namespace Variable

/-- What a variable holds once its value is resolved: a text variable holds the text of it. -/
def kept : Variable → Json → Json
  | .text _ _, value => .str value.plainText
  | _, value => value

theorem kept_of_text {v : Variable} {value : Json}
    (h : ∀ secure parts, v = .text secure parts → ∃ text, value = .str text) :
    v.kept value = value := by
  cases v with
  | bool | int | container => rfl
  | text secure parts =>
    obtain ⟨text, rfl⟩ := h secure parts rfl
    rfl

theorem kept_of_value? {v : Variable} {value : Json} (h : v.value? = some value) :
    v.kept value = value := by
  refine kept_of_text ?_
  rintro secure parts rfl
  obtain ⟨text, -, rfl⟩ := Option.map_eq_some_iff.1 h
  exact ⟨text, rfl⟩

/-- Only texts and containers have placeholders, and they can hold what those come to. -/
theorem value?_withValue {v : Variable} {value : Json} (h : v.value? = some value)
    (hplaceholder : value.hasPlaceholder = true) (next : Json) :
    (v.withValue next).value? = some (v.kept next) := by
  cases v with
  | bool b =>
    obtain ⟨b, -, rfl⟩ := Option.map_eq_some_iff.1 h
    cases hplaceholder
  | int n =>
    obtain ⟨n, -, rfl⟩ := Option.map_eq_some_iff.1 h
    cases hplaceholder
  | text secure parts => rfl
  | container kind parts => rfl

end Variable

namespace Environment

variable {env env' : Environment} {mode : ResolveMode} {stack : List String} {name : String}
  {v : Variable} {value next : Json}

/-! ### Resolution without cycles -/

theorem value?_of_get? (hget : env.get? name = some v) (hvalue : v.value? = some value) :
    env.value? name = some value := by
  rw [value?, hget]
  exact hvalue

theorem exists_get?_of_value? (h : env.value? name = some value) :
    ∃ v, env.get? name = some v ∧ v.value? = some value :=
  Option.bind_eq_some_iff.1 h

theorem resolveOn_singleton (hvalue : env.value? name = some value) (hacyclic : ¬ env.InCycle name) :
    env.resolveOn mode [name] value = env.resolve mode value := by
  refine Json.traverse_congr fun next hnext => lookup_of_stacks fun n hn => ?_
  have hrefers : env.Refers name next := (refers_of_value? hvalue).2 hnext
  have hne : n ≠ name := by
    rintro rfl
    exact hacyclic (inCycle_iff.2 ⟨next, hrefers, hn⟩)
  simp [hne]

/-- Full resolution looks at every value there is. -/
theorem exists_resolveOn_of_resolveAll (h : env.resolveAll = .ok env')
    (hvalue : env.value? name = some value) :
    ∃ next, env.resolveOn .deferred [name] value = .ok next := by
  by_cases hplaceholder : value.hasPlaceholder = true
  · obtain ⟨resolved, hresolved, -⟩ := resolveAll_eq_ok h
    obtain ⟨pairs, hpairs, -⟩ := exists_of_bind_eq_ok hresolved
    obtain ⟨pair, -, hpair⟩ := exists_mem_mapM_of_mem hpairs (mem_names_of_value? hvalue)
    obtain ⟨found, hfound, -⟩ := exists_of_bind_eq_ok hpair
    obtain ⟨v, hget, hv⟩ := exists_get?_of_value? hvalue
    simp only [resolvedVariable, hget, hv, if_pos hplaceholder] at hfound
    obtain ⟨next, hnext, -⟩ := exists_of_bind_eq_ok hfound
    exact ⟨next, hnext⟩
  · have hnone : value.placeholders = [] := by simpa [Json.hasPlaceholder] using hplaceholder
    exact ⟨value, Json.traverse_of_no_placeholders hnone⟩

theorem not_inCycle_of_resolveAll (h : env.resolveAll = .ok env') (name : String) :
    ¬ env.InCycle name := by
  intro hcycle
  obtain ⟨root, hrefers, -⟩ := inCycle_iff.1 hcycle
  obtain ⟨value, hvalue⟩ := Option.ne_none_iff_exists'.1 (value?_ne_none_of_refers hrefers)
  obtain ⟨next, hnext⟩ := exists_resolveOn_of_resolveAll h hvalue
  have hlookup : env.lookup .deferred [] name = .ok (some next) := by
    rw [lookup_of_bound List.not_mem_nil hvalue, hnext]
    rfl
  exact (not_inCycle_of_lookup hlookup .refl).2.1 hcycle

/-- Every value comes to something before a full resolution that succeeds. -/
theorem exists_resolve_of_resolveAll (h : env.resolveAll = .ok env')
    (hvalue : env.value? name = some value) : ∃ next, env.resolve .deferred value = .ok next := by
  rw [← resolveOn_singleton hvalue (not_inCycle_of_resolveAll h name)]
  exact exists_resolveOn_of_resolveAll h hvalue

/-! ### What is stored -/

theorem value?_resolveAll (h : env.resolveAll = .ok env') (hget : env.get? name = some v)
    (hvalue : v.value? = some value) (hnext : env.resolve .deferred value = .ok next) :
    env'.value? name = some (v.kept next) := by
  rw [← resolveOn_singleton (value?_of_get? hget hvalue) (not_inCycle_of_resolveAll h name)] at hnext
  rw [value?, get?_resolveAll h, settled?]
  by_cases hplaceholder : value.hasPlaceholder = true
  · have hresolved : env.resolvedVariable name =
        .ok (if next.same value then none else some (v.withValue next)) := by
      simp only [resolvedVariable, hget, hvalue, if_pos hplaceholder, hnext]
      rfl
    rw [hresolved]
    by_cases hsame : next.same value = true
    · rw [if_pos hsame, hget]
      rw [Json.eq_of_same_of_traverse hnext hsame, Variable.kept_of_value? hvalue]
      exact hvalue
    · rw [if_neg hsame]
      exact Variable.value?_withValue hvalue hplaceholder next
  · have hnone : value.placeholders = [] := by simpa [Json.hasPlaceholder] using hplaceholder
    have hresolved : env.resolvedVariable name = .ok none := by
      simp only [resolvedVariable, hget, hvalue, if_neg hplaceholder]
      rfl
    have hself : next = value := by
      rw [resolveOn, Json.traverse_of_no_placeholders hnone] at hnext
      exact (Except.ok.inj hnext).symm
    rw [hresolved, hself, Variable.kept_of_value? hvalue, hget]
    exact hvalue

theorem value?_resolveAll_eq_none (h : env.resolveAll = .ok env') (hvalue : env.value? name = none) :
    env'.value? name = none := by
  have hresolved : env.resolvedVariable name = .ok none := by
    rw [resolvedVariable]
    cases hget : env.get? name with
    | none => rfl
    | some v =>
      rw [value?, hget] at hvalue
      change v.value? = none at hvalue
      simp only [hvalue]
      rfl
  rw [value?, get?_resolveAll h, settled?, hresolved]
  exact hvalue

theorem value?_resolveAll_eq_none_iff (h : env.resolveAll = .ok env') :
    env'.value? name = none ↔ env.value? name = none := by
  refine ⟨fun hnone => ?_, value?_resolveAll_eq_none h⟩
  cases hvalue : env.value? name with
  | none => rfl
  | some value =>
    obtain ⟨v, hget, hv⟩ := exists_get?_of_value? hvalue
    obtain ⟨next, hnext⟩ := exists_resolve_of_resolveAll h hvalue
    rw [value?_resolveAll h hget hv hnext] at hnone
    cases hnone

theorem lookup_of_valueless {stack' : List String} (hvalue : env.value? name = none)
    (hvalue' : env'.value? name = none) (hstack : name ∉ stack) (hstack' : name ∉ stack') :
    env'.lookup mode stack' name = env.lookup mode stack name := by
  cases mode with
  | strict =>
    rw [lookup_strict_of_unbound hstack hvalue, lookup_strict_of_unbound hstack' hvalue']
  | deferred =>
    rw [lookup_deferred_of_unbound hstack hvalue, lookup_deferred_of_unbound hstack' hvalue']

/-! ### Resolving twice -/

/-- The resolved value of a variable means what the variable meant: it is of a kind that the
variable can hold, no placeholder in it has a value, and it is as good as the value where every
placeholder has to have one. -/
structure Settles (env : Environment) (v : Variable) (value next : Json) : Prop where
  /-- A text variable gets a text. -/
  text : ∀ secure parts, v = .text secure parts → ∃ text, next = .str text
  /-- The placeholders that are left have no values. -/
  inert : ∀ n ∈ next.placeholders, env.value? n = none
  /-- Strict resolution makes the same of the resolved value as of the value itself. -/
  strict : env.resolve .strict next = env.resolve .strict value

/-- A value whose placeholders have no values comes to the same in either environment. -/
theorem resolveOn_of_inert (h : env.resolveAll = .ok env') (hbound : env.value? name ≠ none)
    (hinert : ∀ n ∈ next.placeholders, env.value? n = none) :
    env'.resolveOn mode [name] next = env.resolve mode next := by
  refine Json.traverse_congr fun n hn => ?_
  have hne : n ≠ name := by
    rintro rfl
    exact hbound (hinert n hn)
  exact lookup_of_valueless (hinert n hn) (value?_resolveAll_eq_none h (hinert n hn))
    List.not_mem_nil (by simpa using hne)

theorem resolve_deferred_of_inert (hinert : ∀ n ∈ next.placeholders, env.value? n = none) :
    env.resolve .deferred next = .ok next :=
  Json.traverse_of_valueless fun n hn => lookup_deferred_of_unbound List.not_mem_nil (hinert n hn)

/-- If every stored value means what its name meant, then a name comes to the same. -/
theorem lookup_of_settles (h : env.resolveAll = .ok env') (hname : Placeholder.isName name = true)
    (hall : ∀ name v value next, Placeholder.isName name = true → env.get? name = some v →
      v.value? = some value → env.resolve .deferred value = .ok next → env.Settles v value next) :
    env'.lookup mode [] name = env.lookup mode [] name := by
  cases hvalue : env.value? name with
  | none =>
    exact lookup_of_valueless hvalue (value?_resolveAll_eq_none h hvalue) List.not_mem_nil
      List.not_mem_nil
  | some value =>
    obtain ⟨v, hget, hv⟩ := exists_get?_of_value? hvalue
    obtain ⟨next, hnext⟩ := exists_resolve_of_resolveAll h hvalue
    have hsettles := hall name v value next hname hget hv hnext
    have hstored : env'.value? name = some next := by
      rw [value?_resolveAll h hget hv hnext, Variable.kept_of_text hsettles.text]
    rw [lookup_of_bound List.not_mem_nil hvalue, lookup_of_bound List.not_mem_nil hstored,
      resolveOn_singleton hvalue (not_inCycle_of_resolveAll h name),
      resolveOn_of_inert h (by rw [hvalue]; exact Option.some_ne_none value) hsettles.inert]
    cases mode with
    | strict => rw [hsettles.strict]
    | deferred => rw [resolve_deferred_of_inert hsettles.inert, hnext]

/-! ### Where resolving first makes no difference -/

/-- The placeholder of a name comes to what is stored for it on the one side and to its value on
the other. -/
theorem resolveOn_kept (h : env.resolveAll = .ok env')
    (heq : ∀ mode target, env'.resolve mode target = env.resolve mode target)
    (hname : Placeholder.isName name = true) (hget : env.get? name = some v)
    (hvalue : v.value? = some value) (hnext : env.resolve .deferred value = .ok next)
    (mode : ResolveMode) : env'.resolveOn mode [name] (v.kept next) = env.resolve mode value := by
  have hbound := value?_of_get? hget hvalue
  rw [← resolve_token_of_bound hname (value?_resolveAll h hget hvalue hnext), heq,
    resolve_token_of_bound hname hbound, resolveOn_singleton hbound (not_inCycle_of_resolveAll h name)]

/-- A text comes to a value that is no string only as the placeholder of a name, and no value but a
string has the text of a placeholder. -/
theorem exists_str_of_resolveOn_plainText
    (h : env.resolveOn mode stack (.str next.plainText) = .ok next) : ∃ text, next = .str text := by
  rw [resolveOn, Json.traverse, Placeholder.substitute] at h
  split at h
  · next only hpieces =>
    have hname : Placeholder.isName only = true :=
      Placeholder.isName_of_mem_names (Placeholder.mem_names_iff.2 (by rw [hpieces]; simp))
    have hchars := Placeholder.flatMap_pieces next.plainText
    rw [hpieces, List.flatMap_singleton, Placeholder.Piece.chars] at hchars
    refine Placeholder.exists_str_of_token_prefix hname (fun _ _ => List.not_mem_nil) ?_
    rw [List.nil_append, hchars]
  · cases htexts : (Placeholder.pieces next.plainText).mapM
        (Placeholder.pieceText (env.lookup mode stack)) with
    | error e => rw [htexts] at h; cases h
    | ok texts => rw [htexts] at h; cases h; exact ⟨_, rfl⟩

/-- Where resolving first makes no difference, a name that comes to a text is stored with it. -/
theorem value?_of_lookup_str (h : env.resolveAll = .ok env')
    (heq : ∀ mode target, env'.resolve mode target = env.resolve mode target)
    (hname : Placeholder.isName name = true) {text : String}
    (hlookup : env'.lookup .deferred stack name = .ok (some (.str text))) :
    env'.value? name = some (.str text) := by
  have hnew : name ∉ stack := (not_inCycle_of_lookup hlookup .refl).1
  cases hvalue : env.value? name with
  | none =>
    rw [lookup_deferred_of_unbound hnew (value?_resolveAll_eq_none h hvalue)] at hlookup
    cases hlookup
  | some value =>
    obtain ⟨v, hget, hv⟩ := exists_get?_of_value? hvalue
    obtain ⟨next, hnext⟩ := exists_resolve_of_resolveAll h hvalue
    have hstored := value?_resolveAll h hget hv hnext
    have hfound := lookup_nil_of_lookup hlookup
    rw [lookup_of_bound List.not_mem_nil hstored, resolveOn_kept h heq hname hget hv hnext, hnext]
      at hfound
    cases hfound
    rw [hstored, Variable.kept_of_text fun _ _ _ => ⟨text, rfl⟩]

/-- If resolving first makes no difference, then no placeholder of a resolved value has a value:
one of them would come to a text that has this very placeholder, and so refer to itself once that
text is stored. -/
theorem inert_of_resolve_eq (h : env.resolveAll = .ok env')
    (heq : ∀ mode target, env'.resolve mode target = env.resolve mode target)
    (hself : env'.resolveOn .deferred stack next = .ok next) :
    ∀ n ∈ next.placeholders, env'.value? n = none := by
  intro n hn
  by_contra hbound
  have hfollows := Json.follows_traverse (env'.lookup .deferred stack) next
  rw [show next.traverse _ = _ from hself] at hfollows
  obtain ⟨found, hfound⟩ := hfollows n hn
  obtain ⟨json, rfl⟩ := exists_some_of_lookup hfound hbound
  obtain ⟨self, hmem, text, hlookup, hrefers⟩ := Json.exists_self_of_traverse_eq hself hn hfound
  have hvalue := value?_of_lookup_str h heq (Json.isName_of_mem_placeholders hmem) hlookup
  have hcycle : env'.InCycle self := .single ((refers_of_value? hvalue).2 hrefers)
  exact (not_inCycle_of_lookup hlookup .refl).2.1 hcycle

/-- **Resolving an environment first** succeeds only if every value comes to something, and then it
makes no difference to what is resolved afterwards if and only if every resolved value means what
its variable meant. Names that no placeholder can have do not matter. -/
theorem resolve_resolveAll_iff (h : env.resolveAll = .ok env') :
    (∀ name value, env.value? name = some value →
      ∃ next, env.resolve .deferred value = .ok next) ∧
    ((∀ mode target, env'.resolve mode target = env.resolve mode target) ↔
      ∀ name v value next, Placeholder.isName name = true → env.get? name = some v →
        v.value? = some value → env.resolve .deferred value = .ok next →
        env.Settles v value next) := by
  refine ⟨fun name value => exists_resolve_of_resolveAll h, fun heq => ?_, fun hall => ?_⟩
  · intro name v value next hname hget hvalue hnext
    have hresolved := resolveOn_kept h heq hname hget hvalue hnext
    have hdeferred := (hresolved .deferred).trans hnext
    have htext : ∀ secure parts, v = .text secure parts → ∃ text, next = .str text := by
      rintro secure parts rfl
      exact exists_str_of_resolveOn_plainText hdeferred
    have hkept : v.kept next = next := Variable.kept_of_text htext
    rw [hkept] at hdeferred
    have hinert : ∀ n ∈ next.placeholders, env.value? n = none := fun n hn =>
      (value?_resolveAll_eq_none_iff h).1 (inert_of_resolve_eq h heq hdeferred n hn)
    refine ⟨htext, hinert, ?_⟩
    have hstrict := hresolved .strict
    have hbound : env.value? name ≠ none := by
      rw [value?_of_get? hget hvalue]
      exact Option.some_ne_none value
    rwa [hkept, resolveOn_of_inert h hbound hinert] at hstrict
  · intro mode target
    exact Json.traverse_congr fun name hname =>
      lookup_of_settles h (Json.isName_of_mem_placeholders hname) hall

theorem resolve_embedding :
    referring.resolveAll = .ok embedding ∧
      ∀ mode target, embedding.resolve mode target = referring.resolve mode target := by
  refine ⟨resolveAll_referring, (resolve_resolveAll_iff resolveAll_referring).2.2 ?_⟩
  intro name v value next hname hget hvalue hnext
  have hkey : referring.get? "key" = some (.secureString "s") := by cbv
  have hurl : referring.get? "url" = some (.string "$(key)") := by cbv
  have hcases : name = "url" ∨ name = "key" := by
    have hmem : name ∈ referring.names := mem_names_of_value? (value?_of_get? hget hvalue)
    have hnames : referring.names = ["key", "url"] := by cbv
    rw [hnames] at hmem
    simpa [or_comm] using hmem
  have hnone : (Json.str "s").placeholders = [] := by cbv
  have hinert : ∀ n ∈ (Json.str "s").placeholders, referring.value? n = none := by
    rw [hnone]
    exact fun n hn => absurd hn List.not_mem_nil
  rcases hcases with rfl | rfl
  · rw [hurl] at hget
    cases hget
    cases hvalue
    have hresolve : referring.resolve .deferred (.str "$(key)") = .ok (.str "s") := by cbv
    rw [hresolve] at hnext
    cases hnext
    exact ⟨fun _ _ _ => ⟨"s", rfl⟩, hinert, by cbv⟩
  · rw [hkey] at hget
    cases hget
    cases hvalue
    have hresolve : referring.resolve .deferred (.str "s") = .ok (.str "s") := by cbv
    rw [hresolve] at hnext
    cases hnext
    exact ⟨fun _ _ _ => ⟨"s", rfl⟩, hinert, rfl⟩

/-- `alias` is a text that is nothing but the placeholder of a number. -/
def aliased : Environment :=
  { inner := (({} : Layer).set "alias" (.string "$(count)")).set "count" (.int (some 4)) }

/-- `aliased` with the text of the number in the place of the number. -/
def spelled : Environment := aliased.modifyInner fun layer => layer.bind "alias" (.string "4")

/-- What came to a number comes to a text once the environment is resolved. -/
theorem not_forall_resolve_resolveAll :
    ¬ ∀ env env' mode target, resolveAll env = .ok env' →
      env'.resolve mode target = env.resolve mode target := by
  intro hsame
  have hresolved : aliased.resolvedVariables = .ok [("alias", .string "4")] := by cbv
  have hall : aliased.resolveAll = .ok spelled := by
    rw [resolveAll, hresolved]
    rfl
  have hbefore : aliased.resolve .strict (.str "$(alias)") = .ok (.int 4) := by cbv
  have hafter : spelled.resolve .strict (.str "$(alias)") = .ok (.str "4") := by cbv
  have heq := hsame aliased spelled .strict (.str "$(alias)") hall
  rw [hbefore, hafter] at heq
  cases heq

end Environment

end Rehearsal
