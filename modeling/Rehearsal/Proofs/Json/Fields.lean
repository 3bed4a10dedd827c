import Rehearsal.Json.Fields
import Rehearsal.Proofs.Dict

/-!
# Records in documents

A record is written as the object of its fields that have a value, and it is read field by field,
whichever form it has. A reader and a writer form a codec (`Json.Codec`) for the values that documents
can represent: only these are read, and each of them is read from what is written of it. A record has a
codec if its fields have.

* `Fields.get?_written`: a field of an object is the one that was written;
* `Fields.get?_ofList_without`: what is left of an object without some fields;
* `Dict.mapValues_eq_of_mapM`: what is written of a dictionary that was read value by value;
* `Json.Codec.optional`, `Json.Codec.withDefault`, `Json.Codec.required`: the kinds of fields;
* `Json.Codec.listOf`, `Json.Codec.dictOf`: lists and dictionaries.
-/

namespace Rehearsal

variable {α β : Type}

/-! ### Walks that may find nothing -/

/-- A reader finds something if it finds what it goes on with, and something with that. -/
theorem bind_eq_some_iff {a? : Option α} {f : α → Option β} {b : β} :
    (a? >>= f) = some b ↔ ∃ a, a? = some a ∧ f a = some b := Option.bind_eq_some_iff

theorem exists_of_mem_of_mapM_eq_some {f : α → Option β} {as : List α} {bs : List β}
    (h : as.mapM f = some bs) {b : β} (hb : b ∈ bs) : ∃ a, f a = some b := by
  induction as generalizing bs with
  | nil =>
    cases h
    cases hb
  | cons a as ih =>
    rw [List.mapM_cons] at h
    obtain ⟨first, hfirst, h⟩ := Option.bind_eq_some_iff.1 h
    obtain ⟨rest, hrest, h⟩ := Option.bind_eq_some_iff.1 h
    cases h
    rcases List.mem_cons.1 hb with rfl | hb
    · exact ⟨a, hfirst⟩
    · exact ih hrest hb

theorem mapM_map_eq_some {f : β → Option α} {g : α → β} {as : List α}
    (h : ∀ a ∈ as, f (g a) = some a) : (as.map g).mapM f = some as := by
  induction as with
  | nil => rfl
  | cons a as ih =>
    rw [List.map_cons, List.mapM_cons, h a List.mem_cons_self,
      ih fun a' hmem => h a' (List.mem_cons_of_mem a hmem)]
    rfl

/-- What every step of a walk leaves as it was is the same in what the walk makes. -/
theorem map_eq_map_of_mapM_eq_some {γ : Type} {f : α → Option β} {g : α → γ} {g' : β → γ} {as : List α}
    {bs : List β} (h : as.mapM f = some bs) (hg : ∀ a ∈ as, ∀ b, f a = some b → g' b = g a) :
    bs.map g' = as.map g := by
  induction as generalizing bs with
  | nil => cases h; rfl
  | cons a as ih =>
    rw [List.mapM_cons] at h
    obtain ⟨b, hb, h⟩ := Option.bind_eq_some_iff.1 h
    obtain ⟨rest, hrest, h⟩ := Option.bind_eq_some_iff.1 h
    cases h
    rw [List.map_cons, List.map_cons, hg a List.mem_cons_self b hb,
      ih hrest fun a' hmem => hg a' (List.mem_cons_of_mem a hmem)]

/-- A dictionary that was read value by value is written as the one that it was read from, if what is
read is written so. -/
theorem Dict.mapValues_eq_of_mapM {γ : Type} {f : String → α → Option β} {g : String → α → γ}
    {g' : String → β → γ} {dict : Dict α} {dict' : Dict β} (h : dict.mapM f = some dict')
    (hg : ∀ entry ∈ dict.entries, ∀ b, f entry.1 entry.2 = some b → g' entry.1 b = g entry.1 entry.2) :
    dict'.mapValues g' = dict.mapValues g := by
  obtain ⟨entries, hentries, heq⟩ := Option.bind_eq_some_iff.1 h
  cases heq
  have hstep : ∀ entry ∈ dict.entries, ∀ entry' : String × β,
      (do return (entry.1, ← f entry.1 entry.2) : Option (String × β)) = some entry' →
        entry'.1 = entry.1 ∧ g' entry'.1 entry'.2 = g entry.1 entry.2 := by
    intro entry hmem entry' h
    obtain ⟨b, hb, heq⟩ := Option.bind_eq_some_iff.1 h
    cases heq
    exact ⟨rfl, hg entry hmem b hb⟩
  have hnames : entries.map Prod.fst = dict.entries.map Prod.fst :=
    map_eq_map_of_mapM_eq_some hentries fun entry hmem entry' h => (hstep entry hmem entry' h).1
  have hascending : Assoc.Ascending entries := by
    have hpairwise : (dict.entries.map Prod.fst).Pairwise (· < ·) := List.pairwise_map.2 dict.ascending
    rw [← hnames] at hpairwise
    exact List.pairwise_map.1 hpairwise
  have hread : Dict.ofList entries = ⟨entries, hascending⟩ := Dict.ofList_entries ⟨entries, hascending⟩
  have hvalues : entries.map (fun entry => (entry.1, g' entry.1 entry.2)) =
      dict.entries.map fun entry => (entry.1, g entry.1 entry.2) :=
    map_eq_map_of_mapM_eq_some hentries fun entry hmem entry' h =>
      Prod.ext (hstep entry hmem entry' h).1 (hstep entry hmem entry' h).2
  rw [hread]
  unfold Dict.mapValues
  congr 1

/-- What every step of a walk keeps is kept by the walk. -/
theorem mem_foldlM_keeps {P : β → Prop} {f : β → α → Option β} {as : List α} {b b' : β}
    (h : b' ∈ as.foldlM f b) (hb : P b) (keeps : ∀ a ∈ as, ∀ b b', b' ∈ f b a → P b → P b') :
    P b' := by
  induction as generalizing b with
  | nil =>
    cases h
    exact hb
  | cons a as ih =>
    rw [List.foldlM_cons] at h
    obtain ⟨next, hnext, hrest⟩ := Option.bind_eq_some_iff.1 h
    exact ih hrest (keeps a List.mem_cons_self b next hnext hb) fun a' hmem =>
      keeps a' (List.mem_cons_of_mem a hmem)

/-! ### Members of an object -/

/-- The members of the object that has the fields with a value. -/
def Fields.written (fields : List (String × Option Json)) : Fields :=
  Assoc.sort (fields.filterMap fun field => field.2.map (field.1, ·))

/-- A field of an object is the one that was written. -/
theorem Fields.get?_written {fields : List (String × Option Json)}
    (h : (fields.map Prod.fst).Nodup) (name : String) :
    Assoc.get? name (written fields) = (Assoc.get? name fields).join := by
  have hnames : ((fields.filterMap fun field => field.2.map (field.1, ·)).map Prod.fst).Nodup := by
    refine h.sublist ?_
    clear h
    induction fields with
    | nil => exact List.Sublist.slnil
    | cons field fields ih =>
      obtain ⟨key, value⟩ := field
      cases value with
      | none => exact ih.cons key
      | some value => exact ih.cons_cons key
  refine Option.ext fun value => ?_
  rw [Option.join_eq_some_iff, Assoc.get?_eq_some_iff h]
  refine (Dict.get?_ofList_iff hnames).trans ?_
  rw [List.mem_filterMap]
  constructor
  · rintro ⟨⟨key, found⟩, hmem, heq⟩
    obtain ⟨found, rfl, heq⟩ := Option.map_eq_some_iff.1 heq
    cases heq
    exact hmem
  · exact fun hmem => ⟨(name, some value), hmem, rfl⟩

/-- The object of a dictionary with further members behind it. -/
theorem Json.ofMembers_entries_append (dict : Dict Json) (more : List (String × Json)) :
    ofMembers (dict.entries ++ more) =
      ofDict (more.foldl (fun dict member => dict.insert member.1 member.2) dict) := by
  have hsort : Assoc.sort dict.entries = dict.entries := congrArg Dict.entries dict.ofList_entries
  rw [ofMembers, ofDict, Assoc.sort, List.foldl_append]
  change Json.obj (more.foldl _ (Assoc.sort dict.entries)) = _
  rw [hsort]
  refine congrArg Json.obj ?_
  induction more generalizing dict with
  | nil => rfl
  | cons member more ih =>
    exact ih (dict.insert member.1 member.2) (congrArg Dict.entries (Dict.ofList_entries _))

theorem Json.eq_str_of_str? {value : Json} {text : String} (h : value.str? = some text) :
    value = .str text := by
  cases value with
  | str => cases h; rfl
  | null | bool | int | float | arr | obj => cases h

theorem Json.eq_arr_of_items? {value : Json} {items : List Json} (h : value.items? = some items) :
    value = .arr items := by
  cases value with
  | arr => cases h; rfl
  | null | bool | int | float | str | obj => cases h

/-- A record of several kinds is read as before by a reader of kinds that reads more. -/
theorem Json.tagged?_mono {tag : String} {readKind readMore : Json → Option α} {names : α → List String}
    {json : Json} {kind : α} {fields : Fields}
    (hmore : ∀ value kind, readKind value = some kind → readMore value = some kind)
    (h : json.tagged? tag readKind names = some (kind, fields)) :
    json.tagged? tag readMore names = some (kind, fields) := by
  -- In either form the kind is read once, and what follows depends on the kind alone.
  cases json with
  | obj members =>
    obtain ⟨found, hfound, h⟩ := bind_eq_some_iff.1 h
    obtain ⟨value, hvalue, hfound⟩ := bind_eq_some_iff.1 hfound
    exact bind_eq_some_iff.2
      ⟨found, bind_eq_some_iff.2 ⟨value, hvalue, hmore value found hfound⟩, h⟩
  | arr items =>
    cases items with
    | nil => cases h
    | cons first rest =>
      obtain ⟨found, hfound, h⟩ := bind_eq_some_iff.1 h
      exact bind_eq_some_iff.2 ⟨found, hmore first found hfound, h⟩
  | null | bool | int | float | str => cases h

/-! ### Codecs -/

namespace Json

/-- An object of fields with different names has each of them. -/
theorem exists_written {json : Json} {fields : List (String × Option Json)} (h : json = ofFields fields)
    (hnodup : (fields.map Prod.fst).Nodup) :
    ∃ fields' : Fields, json = .obj fields' ∧
      ∀ name, Assoc.get? name fields' = (Assoc.get? name fields).join :=
  ⟨_, h, Fields.get?_written hnodup⟩

/-- Documents can represent some values: only these are read, and each of them is read from what is
written of it, which is never null. -/
structure Codec (read : Json → Option α) (write : α → Json) (Representable : α → Prop) : Prop where
  sound : ∀ {json : Json} {a : α}, read json = some a → Representable a
  again : ∀ {a : α}, Representable a → read (write a) = some a
  notNull : ∀ a : α, write a ≠ .null

namespace Codec

variable {read : Json → Option α} {write : α → Json} {Representable : α → Prop} {fields : Fields}
  {name : String}

theorem bool : Codec bool? .bool fun _ => True := ⟨fun _ => trivial, fun _ => rfl, nofun⟩

theorem str : Codec str? .str fun _ => True := ⟨fun _ => trivial, fun _ => rfl, nofun⟩

theorem int : Codec int64? .int fun n => inSigned64 n = true where
  sound {json n} h := by
    cases json with
    | int m =>
      rw [int64?] at h
      split at h
      · next hrange =>
        cases h
        exact hrange
      · cases h
    | null | bool | float | str | arr | obj => cases h
  again h := if_pos h
  notNull := nofun

theorem items : Codec items? .arr fun _ => True := ⟨fun _ => trivial, fun _ => rfl, nofun⟩

/-- Lists of any values. -/
theorem list : Codec items? (ofListWith id) fun _ => True where
  sound _ := trivial
  again {as} _ := congrArg some (List.map_id as)
  notNull := nofun

/-- Dictionaries of any values. -/
theorem dict : Codec dict? (ofDictWith id) fun _ => True where
  sound _ := trivial
  again {dict} _ := by
    rw [ofDictWith, dict?, Dict.ofList_entries]
    exact congrArg some dict.mapValues_id
  notNull := nofun

theorem listOf (h : Codec read write Representable) :
    Codec (listOf? read) (ofListWith write) fun as => ∀ a ∈ as, Representable a where
  sound {_ as} hread a hmem := by
    obtain ⟨sources, -, hread⟩ := Option.bind_eq_some_iff.1 hread
    obtain ⟨source, hsource⟩ := exists_of_mem_of_mapM_eq_some hread hmem
    exact h.sound hsource
  again hall := mapM_map_eq_some fun a hmem => h.again (hall a hmem)
  notNull := nofun

theorem dictOf (h : Codec read write Representable) :
    Codec (dictOf? read) (ofDictWith write) fun dict =>
      ∀ entry ∈ dict.entries, Representable entry.2 where
  sound {_ dict} hread entry hmem := by
    obtain ⟨sources, -, hread⟩ := Option.bind_eq_some_iff.1 hread
    obtain ⟨entries, hentries, hread⟩ := Option.bind_eq_some_iff.1 hread
    cases hread
    obtain ⟨source, hsource⟩ := exists_of_mem_of_mapM_eq_some hentries (Assoc.mem_sort hmem)
    obtain ⟨value, hvalue, heq⟩ := Option.bind_eq_some_iff.1 hsource
    cases heq
    exact h.sound hvalue
  again {dict} hall := by
    have hwalk : (dict.mapValues fun _ value => write value).entries.mapM (fun entry => do
        return (entry.1, ← read entry.2) : String × Json → Option (String × α)) = some dict.entries := by
      refine mapM_map_eq_some fun entry hmem => ?_
      rw [h.again (hall entry hmem)]
      rfl
    rw [dictOf?, ofDictWith, dict?, Dict.ofList_entries, Option.bind_eq_bind, Option.bind_some,
      Dict.mapM, hwalk]
    exact congrArg some dict.ofList_entries
  notNull := nofun

theorem sound_optional (h : Codec read write Representable) {value : Option α}
    (hread : fields.optional name read = some value) : ∀ a ∈ value, Representable a := by
  rw [Fields.optional] at hread
  split at hread
  · cases hread
    nofun
  · cases hread
    nofun
  · obtain ⟨found, hfound, heq⟩ := Option.map_eq_some_iff.1 hread
    cases heq
    rintro a ⟨⟩
    exact h.sound hfound

/-- An optional field is read where its value is written, if it has one. -/
theorem optional (h : Codec read write Representable) {value : Option α}
    (hvalue : ∀ a ∈ value, Representable a) (hget : Assoc.get? name fields = value.map write) :
    fields.optional name read = some value := by
  cases value with
  | none => rw [Fields.optional, hget, Option.map_none]
  | some a =>
    rw [Fields.optional, hget, Option.map_some]
    split
    · next heq => cases heq
    · next heq => exact absurd (Option.some.inj heq) (h.notNull a)
    · next value _ _ heq =>
      cases heq
      rw [h.again (hvalue a rfl), Option.map_some]

theorem sound_withDefault (h : Codec read write Representable) {default a : α}
    (hdefault : Representable default) (hread : fields.withDefault name default read = some a) :
    Representable a := by
  rw [Fields.withDefault] at hread
  split at hread
  · cases hread
    exact hdefault
  · exact h.sound hread

/-- A field with a default is read where its value is written, or where it is left out and has its
default. -/
theorem withDefault (h : Codec read write Representable) {default a : α} (ha : Representable a)
    (hget : Assoc.get? name fields = some (write a) ∨ Assoc.get? name fields = none ∧ a = default) :
    fields.withDefault name default read = some a := by
  rcases hget with hget | ⟨hget, rfl⟩
  · rw [Fields.withDefault, hget]
    exact h.again ha
  · rw [Fields.withDefault, hget]

/-- A field that has to be there is read where it is written. -/
theorem required (h : Codec read write Representable) {a : α} (ha : Representable a)
    (hget : Assoc.get? name fields = some (write a)) : fields.required name read = some a := by
  rw [Fields.required, hget]
  exact h.again ha

end Codec

end Json

namespace Fields

variable {fields : Fields} {name : String} {value : Option Json}

/-- An optional field that may have any value has the one that is there, unless that is null. -/
theorem optional_some (fields : Fields) (name : String) :
    fields.optional name some = some ((Assoc.get? name fields).filter fun value => !value.isNull) := by
  rw [optional]
  split
  · next hnone => rw [hnone]; rfl
  · next hnull => rw [hnull]; rfl
  · next value hvalue hsome =>
    rw [hsome]
    cases value with
    | null => exact (hvalue rfl).elim
    | bool | int | float | str | arr | obj => rfl

/-- An optional field that may have any value is not read as null. -/
theorem ne_null_of_optional (h : fields.optional name some = some value) : value ≠ some .null := by
  rw [optional_some, Option.some.injEq] at h
  rintro rfl
  obtain ⟨-, hnull⟩ := Option.filter_eq_some_iff.1 h
  cases hnull

theorem optional_of_ne_null (h : value ≠ some .null) (hget : Assoc.get? name fields = value) :
    fields.optional name some = some value := by
  rw [optional_some, hget]
  cases value with
  | none => rfl
  | some json =>
    cases json with
    | null => exact absurd rfl h
    | bool | int | float | str | arr | obj => rfl

/-- The members that are not among some names are those of the other names. -/
theorem get?_without (fields : Fields) (names : List String) (name : String) :
    Assoc.get? name (fields.without names) = if name ∈ names then none else Assoc.get? name fields := by
  induction fields with
  | nil => exact (ite_self none).symm
  | cons field fields ih =>
    obtain ⟨key, value⟩ := field
    change Assoc.get? name (List.filter _ fields) = _ at ih
    rw [without, List.filter_cons]
    by_cases hkey : key = name
    · subst hkey
      by_cases hmem : key ∈ names
      · simpa [hmem] using ih
      · simp [hmem, Assoc.get?]
    · by_cases hmem : key ∈ names <;> simpa [hmem, hkey, Assoc.get?] using ih

theorem get?_ofList_without (members : Dict Json) (names : List String) (name : String) :
    (Dict.ofList (without members.entries names)).get? name =
      if name ∈ names then none else members.get? name := by
  let rest : Dict Json := ⟨without members.entries names, members.ascending.filter _⟩
  have hrest : Dict.ofList rest.entries = rest := rest.ofList_entries
  exact (congrArg (Dict.get? · name) hrest).trans (get?_without members.entries names name)

/-- What is made of a field with a default, or of a stand-in where it is left out, is what is written of
the value that was read, if that is so in either case. -/
theorem eq_write_of_withDefault (f : Json → Json) {write : α → Json} {absent : Json} {default a : α}
    {read : Json → Option α} (h : fields.withDefault name default read = some a)
    (habsent : f absent = write default)
    (hread : ∀ value, Assoc.get? name fields = some value → read value = some a → f value = write a) :
    f ((Assoc.get? name fields).getD absent) = write a := by
  rw [withDefault] at h
  cases hget : Assoc.get? name fields with
  | none =>
    rw [hget] at h
    cases h
    exact habsent
  | some value =>
    rw [hget] at h
    exact hread value hget h

theorem unify_of_none {other : String} (h : Assoc.get? other fields = none) :
    fields.unify name other = some fields := by
  rw [unify, h]
  cases Assoc.get? name fields <;> rfl

end Fields

end Rehearsal
