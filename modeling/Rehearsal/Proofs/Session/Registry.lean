import Rehearsal.Proofs.Session.Isolation

/-!
# Which runs meet in a scope

A session keeps its scopes by name, and a name consists of the path of a definition and of a label,
which has no number sign (`Session.scopeKey_eq_iff`). Scenarios that share a scope have one label
between them, and each run of another draws a suffix for its own. So as long as no suffix is drawn
twice for that purpose, two runs of a session meet in a scope if and only if their definitions have
one path and both share; and what a name stands for is developed by the runs that meet there, but
never replaced (`Session.meet_in_scope`).

* `Visit`, `Session.follow`: runs that are asked for, and the session behind them;
* `Session.drawn`: the suffixes that are drawn for scopes that are not shared.
-/

namespace Rehearsal

/-! ### Names of scopes -/

/-- A list is cut in one way at the last place of an element. -/
theorem append_cons_inj_of_not_mem {α : Type} {a : α} {front front' back back' : List α}
    (h : a ∉ back) (h' : a ∉ back') :
    front ++ a :: back = front' ++ a :: back' ↔ front = front' ∧ back = back' := by
  constructor
  · intro heq
    rcases List.append_eq_append_iff.1 heq with ⟨more, rfl, hmore⟩ | ⟨more, rfl, hmore⟩
    · cases more with
      | nil => exact ⟨(List.append_nil _).symm, List.tail_eq_of_cons_eq hmore⟩
      | cons b more =>
        rw [List.cons_append, List.cons.injEq] at hmore
        exact absurd (hmore.2 ▸ List.mem_append_right more List.mem_cons_self) h
    · cases more with
      | nil => exact ⟨List.append_nil _, (List.tail_eq_of_cons_eq hmore).symm⟩
      | cons b more =>
        rw [List.cons_append, List.cons.injEq] at hmore
        exact absurd (hmore.2 ▸ List.mem_append_right more List.mem_cons_self) h'
  · rintro ⟨rfl, rfl⟩
    rfl

namespace Suffixes

theorem nextChar_ne (g : Suffixes) : g.nextChar.1 ≠ '#' := by
  have hall : ('a' :: alphabet).all (fun c => c.toLower != '#') = true := by decide +kernel
  have halphabet : ∀ c ∈ 'a' :: alphabet, c.toLower ≠ '#' := by simpa using hall
  change (alphabet.getD (g.pick attempts).1 'a').toLower ≠ '#'
  generalize (g.pick attempts).1 = i
  rw [List.getD_eq_getElem?_getD]
  cases hget : alphabet[i]? with
  | none => exact halphabet _ List.mem_cons_self
  | some c => exact halphabet c (List.mem_cons_of_mem _ (List.mem_of_getElem? hget))

theorem not_mem_nextChars (g : Suffixes) (count : Nat) : '#' ∉ (g.nextChars count).1 := by
  induction count generalizing g with
  | zero => exact List.not_mem_nil
  | succ count ih =>
    intro hmem
    rcases List.mem_cons.1 hmem with heq | hmem
    · exact g.nextChar_ne heq.symm
    · exact ih _ hmem

theorem not_mem_next (g : Suffixes) : '#' ∉ g.next.1.toList := by
  change '#' ∉ (String.ofList (g.nextChars length).1).toList
  rw [String.toList_ofList]
  exact g.not_mem_nextChars length

end Suffixes

namespace Session

variable {session session' earlier later : Session} {client : Client}
  {definition definition' : Definition} {scenario scenario' : Scenario} {reports : List ScenarioReport}

theorem scopeLabel_shared (h : scenario.shareScope = true) :
    (session.scopeLabel scenario).1 = "default" := by
  rw [scopeLabel, if_pos h]

theorem scopeLabel_own (h : scenario.shareScope = false) :
    (session.scopeLabel scenario).1 = "scope_" ++ session.suffixes.next.1 := by
  rw [scopeLabel, h]
  rfl

theorem not_mem_scopeLabel (session : Session) (scenario : Scenario) :
    '#' ∉ (session.scopeLabel scenario).1.toList := by
  cases hshared : scenario.shareScope with
  | true =>
    rw [scopeLabel_shared hshared]
    decide
  | false =>
    rw [scopeLabel_own hshared, String.toList_append, List.mem_append, not_or]
    exact ⟨by decide, session.suffixes.not_mem_next⟩

/-- Labels agree where both are shared, or both are drawn and the suffixes agree. -/
theorem scopeLabel_eq_iff :
    (session.scopeLabel scenario).1 = (session'.scopeLabel scenario').1 ↔
      scenario.shareScope = scenario'.shareScope ∧
        (scenario.shareScope = false → session.suffixes.next.1 = session'.suffixes.next.1) := by
  -- The two kinds of labels differ in their first letter.
  have hne (suffix : String) : "default" ≠ "scope_" ++ suffix := by
    intro heq
    have hhead := congrArg (fun text : String => text.toList.head?) heq
    simp at hhead
  cases hshared : scenario.shareScope with
  | true =>
    rw [scopeLabel_shared hshared]
    cases hshared' : scenario'.shareScope with
    | true => simp [scopeLabel_shared hshared']
    | false => simp [scopeLabel_own hshared', hne]
  | false =>
    rw [scopeLabel_own hshared]
    cases hshared' : scenario'.shareScope with
    | true => simp [scopeLabel_shared hshared', (hne _).symm]
    | false =>
      rw [scopeLabel_own hshared']
      have hcancel : "scope_" ++ session.suffixes.next.1 = "scope_" ++ session'.suffixes.next.1 ↔
          session.suffixes.next.1 = session'.suffixes.next.1 := by
        rw [← String.toList_inj, String.toList_append, String.toList_append, List.append_cancel_left_eq,
          String.toList_inj]
      simp [hcancel]

/-- A name says the path of the definition and the label. -/
theorem scopeKey_eq_iff :
    session.scopeKey definition scenario = session'.scopeKey definition' scenario' ↔
      definition.filePath = definition'.filePath ∧
        (session.scopeLabel scenario).1 = (session'.scopeLabel scenario').1 := by
  have hsign : "#".toList = ['#'] := by decide
  rw [scopeKey, scopeKey, ← String.toList_inj]
  simp only [String.toList_append, hsign, List.append_assoc, List.singleton_append]
  rw [append_cons_inj_of_not_mem (session.not_mem_scopeLabel scenario)
    (session'.not_mem_scopeLabel scenario'), String.toList_inj, String.toList_inj]

end Session

/-! ### Runs one after the other -/

/-- A run that is asked for. -/
structure Visit where
  /-- The definition. -/
  definition : Definition
  /-- A scenario of it. -/
  scenario : Scenario
  /-- The caller's environment. -/
  caller : Environment

namespace Session

/-- The session behind a run. -/
def visit (client : Client) (session : Session) (v : Visit) : Session :=
  (session.runScenario client v.definition v.scenario v.caller).session

/-- The session behind several runs. -/
def follow (client : Client) (session : Session) (visits : List Visit) : Session :=
  visits.foldl (visit client) session

/-- The scope that a run finds or has built. -/
def opening (session : Session) (v : Visit) : Except VariableError RuntimeScope × Session :=
  session.openScope v.definition v.scenario v.caller

/-- The name of the scope of a run. -/
def key (session : Session) (v : Visit) : String := session.scopeKey v.definition v.scenario

/-- The suffixes that are drawn for the names of scopes that are not shared. -/
def drawn (client : Client) (session : Session) : List Visit → List String
  | [] => []
  | v :: visits =>
    (if v.scenario.shareScope then [] else [session.suffixes.next.1]) ++
      (session.visit client v).drawn client visits

variable {session earlier later : Session} {client : Client} {visits front middle rest : List Visit}
  {v w : Visit} {reports : List ScenarioReport} {name : String} {scope : RuntimeScope}

theorem follow_append (client : Client) (session : Session) (front rest : List Visit) :
    session.follow client (front ++ rest) = (session.follow client front).follow client rest :=
  List.foldl_append

theorem drawn_append (client : Client) (session : Session) (front rest : List Visit) :
    session.drawn client (front ++ rest) =
      session.drawn client front ++ (session.follow client front).drawn client rest := by
  induction front generalizing session with
  | nil => rfl
  | cons v front ih =>
    rw [List.cons_append, drawn, ih, drawn, List.append_assoc]
    rfl

theorem Reached.follow (h : Reached client session reports) (visits : List Visit) :
    ∃ reports, Reached client (session.follow client visits) reports := by
  induction visits generalizing session reports with
  | nil => exact ⟨reports, h⟩
  | cons v visits ih => exact ih (h.run v.definition v.scenario v.caller)

/-- Scopes stay under their names, and only the runs in them change them. -/
theorem Reached.writes_follow (h : Reached client session reports) (visits : List Visit) :
    ∃ calls, (session.follow client visits).trace = session.trace ++ calls ∧
      ∀ name scope, session.scopes.get? name = some scope →
        ∃ scope', (session.follow client visits).scopes.get? name = some scope' ∧
          scope.Writes (callsOn name calls) scope' := by
  induction visits generalizing session reports with
  | nil =>
    exact ⟨[], (List.append_nil _).symm, fun name scope hfound => ⟨scope, hfound, .refl scope⟩⟩
  | cons v visits ih =>
    obtain ⟨calls, hdevelops⟩ := h.develops_runScenario v.definition v.scenario v.caller
    obtain ⟨calls', htrace, hothers⟩ := ih (h.run v.definition v.scenario v.caller)
    refine ⟨calls ++ calls', ?_, fun name scope hfound => ?_⟩
    · rw [hdevelops.trace, List.append_assoc] at htrace
      exact htrace
    · obtain ⟨next, hnext, hwrites⟩ := hdevelops.known name scope hfound
      obtain ⟨scope', hscope', hwrites'⟩ := hothers name next hnext
      rw [callsOn_append]
      exact ⟨scope', hscope', hwrites.trans hwrites'⟩

/-- A name stands for a scope because a run has it built. -/
theorem Reached.exists_key (h : Reached client session reports) (visits : List Visit)
    (hfound : (session.follow client visits).scopes.get? name = some scope) :
    (session.scopes.get? name).isSome = true ∨
      ∃ front v rest, visits = front ++ v :: rest ∧ name = (session.follow client front).key v := by
  induction visits generalizing session reports with
  | nil =>
    change session.scopes.get? name = some scope at hfound
    rw [hfound]
    exact .inl rfl
  | cons v visits ih =>
    obtain ⟨calls, hdevelops⟩ := h.develops_runScenario v.definition v.scenario v.caller
    rcases ih (h.run v.definition v.scenario v.caller) hfound with hsome | ⟨front, w, rest, rfl, hname⟩
    · -- The name is known behind the first run: it was before, or that run has it built.
      obtain ⟨next, hnext⟩ := Option.isSome_iff_exists.1 hsome
      cases hold : session.scopes.get? name with
      | some _ => exact .inl rfl
      | none => exact .inr ⟨[], v, visits, rfl, (hdevelops.new name next hold hnext).1⟩
    · exact .inr ⟨v :: front, w, rest, rfl, hname⟩

/-- Two runs that draw for the names of their scopes draw different suffixes. -/
theorem next_ne_of_nodup
    (distinct : (session.drawn client (front ++ v :: middle ++ w :: rest)).Nodup)
    (hv : v.scenario.shareScope = false) (hw : w.scenario.shareScope = false) :
    (session.follow client front).suffixes.next.1 ≠
      (session.follow client (front ++ v :: middle)).suffixes.next.1 := by
  intro heq
  -- What the second run draws is not among all that is drawn before it.
  rw [drawn_append, drawn, hw, List.nodup_append] at distinct
  refine distinct.2.2 _ ?_ _ List.mem_cons_self heq
  rw [drawn_append, drawn, hv]
  exact List.mem_append_right _ List.mem_cons_self

/-- What holds of two runs of a session of which the first finds the session as `earlier` and the
second as `later`. -/
structure Meeting (earlier later : Session) (v w : Visit) : Prop where
  meet_iff : earlier.key v = later.key w ↔ v.definition.filePath = w.definition.filePath ∧
    v.scenario.shareScope = true ∧ w.scenario.shareScope = true
  same : earlier.key v = later.key w → ∀ scope opened, earlier.opening v = (.ok scope, opened) →
    ∃ calls scope' opened', later.trace = earlier.trace ++ calls ∧
      later.opening w = (.ok scope', opened') ∧ scope.Writes (callsOn (earlier.key v) calls) scope'

/-- What holds of a run that finds the session as `before`, and of the scopes there. -/
structure Entering (client : Client) (before : Session) (v : Visit) : Prop where
  named : ∀ scope opened, before.opening v = (.ok scope, opened) → scope.name = before.key v
  fresh : v.scenario.shareScope = false → before.scopes.get? (before.key v) = none
  stays : ∃ calls, (before.visit client v).trace = before.trace ++ calls ∧
    ∀ name scope, before.scopes.get? name = some scope →
      ∃ scope', (before.visit client v).scopes.get? name = some scope' ∧
        scope.Writes (callsOn name calls) scope'
  unopened : ∀ e opened, before.opening v = (.error e, opened) →
    (before.visit client v).scopes = before.scopes

theorem key_eq_iff_of_nodup
    (distinct : (session.drawn client (front ++ v :: middle ++ w :: rest)).Nodup) :
    (session.follow client front).key v = (session.follow client (front ++ v :: middle)).key w ↔
      v.definition.filePath = w.definition.filePath ∧
        v.scenario.shareScope = true ∧ w.scenario.shareScope = true := by
  rw [key, key, scopeKey_eq_iff, scopeLabel_eq_iff]
  refine and_congr_right fun _ => ?_
  cases hv : v.scenario.shareScope with
  | true => rw [eq_comm]; simp
  | false =>
    cases hw : w.scenario.shareScope with
    | true => simp
    | false => simp [next_ne_of_nodup distinct hv hw]

/-- A run gets the scope that an earlier run had under its name. -/
theorem Reached.same (h : Reached client earlier reports) (hkey : earlier.key v = later.key w)
    (hlater : later = (earlier.visit client v).follow client middle)
    {opened : Session} (opens : earlier.opening v = (.ok scope, opened)) :
    ∃ calls scope' opened', later.trace = earlier.trace ++ calls ∧
      later.opening w = (.ok scope', opened') ∧
        scope.Writes (callsOn (earlier.key v) calls) scope' := by
  have hopens := opens_openScope opens
  obtain ⟨calls, hdevelops⟩ := h.develops_opened opens
  obtain ⟨next, hnext, hwrites⟩ := hdevelops.known _ scope hopens.found
  obtain ⟨calls', htrace, hothers⟩ :=
    (h.run v.definition v.scenario v.caller).writes_follow middle
  obtain ⟨scope', hfound, hwrites'⟩ := hothers _ next hnext
  rw [← visit, ← hlater] at htrace hfound
  have hfound' : later.scopes.get? (later.key w) = some scope' := by
    rw [← hkey]
    exact hfound
  refine ⟨calls ++ calls', scope', _, ?_, openScope_of_found hfound' w.caller, ?_⟩
  · rw [htrace, visit, hdevelops.trace, hopens.trace, List.append_assoc]
  · rw [callsOn_append]
    exact hwrites.trans hwrites'

/-- **Two runs of a session meet in a scope if and only if both share it and their definitions have
one path.** The later run then finds the scope as the earlier one left it, but for what the runs
between them write to it; a run that does not share finds no scope of its name. Whatever a name
stands for stays under that name, and a run that does not get a scope leaves all as they are. -/
theorem meet_in_scope (client : Client) (options : Options) (suffixes : Suffixes)
    (visits : List Visit) (distinct : (drawn client { options, suffixes } visits).Nodup) :
    (∀ front v middle w rest, visits = front ++ v :: middle ++ w :: rest →
      Meeting (follow client { options, suffixes } front)
        (follow client { options, suffixes } (front ++ v :: middle)) v w) ∧
    ∀ front v rest, visits = front ++ v :: rest →
      Entering client (follow client { options, suffixes } front) v := by
  have hnew : Reached client { options, suffixes } [] := .new options suffixes
  constructor
  · rintro front v middle w rest rfl
    obtain ⟨reports, hreached⟩ := hnew.follow front
    refine ⟨key_eq_iff_of_nodup distinct, fun hkey scope opened opens => ?_⟩
    exact hreached.same hkey (follow_append client _ front (v :: middle)) opens
  · rintro front v rest rfl
    obtain ⟨reports, hreached⟩ := hnew.follow front
    constructor
    case named => exact fun scope opened opens => hreached.name_of_opens (opens_openScope opens)
    case fresh =>
      intro hshared
      rw [Option.eq_none_iff_forall_ne_some]
      intro scope hfound
      rcases hnew.exists_key front hfound with hnone | ⟨first, w, middle, rfl, hname⟩
      · cases hnone
      · -- The name would be that of an earlier run, and this one does not share.
        have hmeet := (key_eq_iff_of_nodup distinct).1 hname.symm
        rw [hshared] at hmeet
        cases hmeet.2.2
    case stays => exact hreached.writes_follow [v]
    case unopened =>
      intro e opened opens
      rw [opening] at opens
      rw [visit, runScenario, opens]
      exact (openScope_error opens).2.2

/-! ### Four runs -/

/-- A scenario that reads something in a scope of its own. -/
def readingAlone : Scenario := { readingOnce with shareScope := false }

/-- Two runs in scopes of their own and two in a shared one. -/
def fourVisits : List Visit :=
  [⟨bare, readingOnce, supplied⟩, ⟨bare, readingAlone, supplied⟩, ⟨bare, readingAlone, supplied⟩,
    ⟨bare, readingOnce, supplied⟩]

/-- The runs that share meet, and the second of the others has a scope of its own. -/
theorem meet_in_scope_fourVisits :
    (drawn obliging { suffixes := ⟨[], 0⟩ } fourVisits).Nodup ∧
      Meeting (follow obliging { suffixes := ⟨[], 0⟩ } [])
        (follow obliging { suffixes := ⟨[], 0⟩ } (fourVisits.take 3))
        ⟨bare, readingOnce, supplied⟩ ⟨bare, readingOnce, supplied⟩ ∧
      Entering obliging (follow obliging { suffixes := ⟨[], 0⟩ } (fourVisits.take 2))
        ⟨bare, readingAlone, supplied⟩ := by
  have hdistinct : (drawn obliging { suffixes := ⟨[], 0⟩ } fourVisits).Nodup := by
    decide +kernel
  have hmeet := meet_in_scope obliging {} ⟨[], 0⟩ fourVisits hdistinct
  exact ⟨hdistinct, hmeet.1 [] _ ((fourVisits.take 3).drop 1) _ [] rfl,
    hmeet.2 (fourVisits.take 2) _ (fourVisits.drop 3) rfl⟩

end Session

end Rehearsal
