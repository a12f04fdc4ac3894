import Mathlib.Data.List.Induction
import SearchSelect.Proofs.StoreRuns

/-! Field sets as they are discovered. Whichever tier answers each of the two discoveries, and
however the answers differ between them, a set is found on which validation can rely; and what is
kept in a store is always what some discovery has found. -/

namespace SearchSelect.Schema

/-- A field that is offered for sorting when it is listed. -/
structure Field.Sortable (f : Field) : Prop where
  named : f.name ≠ ""
  shown : isHidden f.name = false
  single : f.multiValued ≠ some true
  typed : (SortType.ofTypeName? f.typeName).isSome

/-- Every field can be sorted by in both directions, one of which is its default. -/
def Directed (m : Keyed FieldInfo) : Prop :=
  ∀ e ∈ m, (∀ d, e.2.supports d) ∧ e.2.default ∈ e.2.directions

/-- What can be relied on in a field set, whatever is known of the collection. -/
structure FieldSet.Sound (s : FieldSet) : Prop where
  distinct : s.searchable.Nodup
  usual : ∀ name ∈ usualFields, name ∈ s.searchable
  score : Keyed.get? s.sortable scoreField = some .score
  directed : Directed s.sortable

/-! ## What each tier finds -/

theorem mem_withUsual {name : String} {names : List String} :
    name ∈ withUsual names ↔ name ∈ names ∨ name ∈ usualFields := by
  unfold withUsual
  rw [List.mem_append, List.mem_filter]
  by_cases known : name ∈ names <;> simp [known]

theorem directed_bothWays (type : SortType) (default : Direction) (searchable : Bool) :
    (∀ d, (FieldInfo.bothWays type default searchable).supports d) ∧
      default ∈ (FieldInfo.bothWays type default searchable).directions := by
  have supports := FieldInfo.supports_bothWays type default searchable
  exact ⟨supports, by simpa [FieldInfo.supports] using supports default⟩

theorem Directed.insert {m : Keyed FieldInfo} (directed : Directed m) (name : String)
    {info : FieldInfo} (both : (∀ d, info.supports d) ∧ info.default ∈ info.directions) :
    Directed (Keyed.insert m name info) := by
  intro e he
  obtain rfl | he := Keyed.mem_insert he
  · exact both
  · exact directed e he

theorem directed_addPseudo {m : Keyed FieldInfo} (directed : Directed m) :
    Directed (addPseudo m) :=
  (directed.insert scoreField (directed_bothWays .numeric .desc true)).insert docIdField
    (directed_bothWays .numeric .asc false)

theorem get?_addPseudo_score (m : Keyed FieldInfo) :
    Keyed.get? (addPseudo m) scoreField = some .score := by
  unfold addPseudo
  rw [Keyed.get?_insert, Keyed.get?_insert, if_neg (by decide), if_pos rfl]

theorem contains_addPseudo (m : Keyed FieldInfo) (name : String) :
    Keyed.contains (addPseudo m) name ↔ isPseudo name ∨ Keyed.contains m name := by
  unfold addPseudo isPseudo
  rw [Keyed.contains_insert, Keyed.contains_insert]
  simp only [Bool.or_eq_true, decide_eq_true_eq, or_assoc, or_left_comm]

theorem isMultiValued_eq_false {f : Field} :
    f.isMultiValued = false ↔ f.multiValued ≠ some true := by
  unfold Field.isMultiValued
  rcases f.multiValued with _ | _ | _ <;> simp

theorem sortInfo?_isSome {f : Field} : f.sortInfo?.isSome ↔ f.Sortable := by
  unfold Field.sortInfo?
  by_cases excluded : (f.name = "" || isHidden f.name || f.isMultiValued) = true
  · rw [if_pos excluded]
    refine iff_of_false (by simp) fun h => ?_
    simp [h.named, h.shown, isMultiValued_eq_false.mpr h.single] at excluded
  · rw [if_neg excluded, Option.isSome_map]
    simp only [Bool.or_eq_true, decide_eq_true_eq, not_or, Bool.not_eq_true] at excluded
    exact ⟨fun typed => ⟨excluded.1.1, excluded.1.2, isMultiValued_eq_false.mp excluded.2, typed⟩,
      fun h => h.typed⟩

theorem sortInfo?_eq_some {f : Field} {info : FieldInfo} (h : f.sortInfo? = some info) :
    ∃ type default searchable, info = .bothWays type default searchable := by
  unfold Field.sortInfo? at h
  split at h
  · cases h
  · obtain ⟨type, -, rfl⟩ := Option.map_eq_some_iff.mp h
    exact ⟨type, _, true, rfl⟩

theorem contains_sortableOfListing (fields : List Field) (name : String) :
    Keyed.contains (sortableOfListing fields) name ↔
      isPseudo name ∨ ∃ f ∈ fields, f.Sortable ∧ f.name = name := by
  unfold sortableOfListing
  rw [contains_addPseudo, Keyed.contains_foldl fun f a => f.Sortable ∧ f.name = a]
  · simp [Keyed.contains]
  · intro m f a
    rw [← sortInfo?_isSome]
    cases f.sortInfo? with
    | none => simp
    | some info =>
      rw [Keyed.contains_insert, eq_comm, or_comm]
      simp

theorem directed_sortableOfListing (fields : List Field) : Directed (sortableOfListing fields) := by
  apply directed_addPseudo
  refine List.foldlRecOn fields _ (fun e he => by cases he) fun m directed f _ => ?_
  split
  · next info sorted =>
    obtain ⟨type, default, searchable, rfl⟩ := sortInfo?_eq_some sorted
    exact directed.insert f.name (directed_bothWays type default searchable)
  · exact directed

/-! ## What is found -/

namespace Store

variable {α : Type} {src : Source} {c : String} {s t : Store}

theorem searchable_usual {names : List String} (found : (discoverSearchable src c).run s = (.ok names, t))
    {name : String} (usual : name ∈ usualFields) : name ∈ names := by
  obtain ⟨names', u, run, tier⟩ := run_discoverSearchable src c s
  rw [run] at found
  cases found
  obtain ⟨fields, -, rfl⟩ | ⟨-, ⟨answer, -, rfl⟩ | ⟨-, rfl⟩⟩ := tier
  · exact mem_withUsual.mpr (.inr usual)
  · exact mem_withUsual.mpr (.inr usual)
  · exact usual

theorem sortable_found {sortable : Keyed FieldInfo}
    (found : (discoverSortable src c).run s = (.ok sortable, t)) :
    Keyed.get? sortable scoreField = some .score ∧ Directed sortable ∧
      ∀ fields, ((listing src c).run s).1 = .ok fields → sortable = sortableOfListing fields := by
  obtain ⟨sortable', u, run, tier⟩ := run_discoverSortable src c s
  rw [run] at found
  cases found
  obtain ⟨fields, listed, rfl⟩ | ⟨⟨f, refused⟩, tier⟩ := tier
  · refine ⟨get?_addPseudo_score _, directed_sortableOfListing fields, fun fields' same => ?_⟩
    rw [listed] at same
    cases same
    rfl
  · refine ⟨?_, ?_, fun fields listed => ?_⟩
    · obtain ⟨-, -, rfl⟩ | ⟨-, rfl⟩ := tier
      · exact get?_addPseudo_score []
      · rfl
    · obtain ⟨-, -, rfl⟩ | ⟨-, rfl⟩ := tier
      · exact directed_addPseudo fun e he => by cases he
      · intro e he
        cases List.mem_singleton.mp he
        exact directed_bothWays .numeric .desc true
    · rw [refused] at listed
      cases listed

/-- A field set that the two discoveries find from this store on, one after the other. If the
second of them can read the listing, then the set can be sorted by the sortable fields listed and
the pseudo-fields, and by nothing else. -/
def Discovered (src : Source) (c : String) (s : Store) (fields : FieldSet) : Prop :=
  ∃ searchable t sortable u, (discoverSearchable src c).run s = (.ok searchable, t) ∧
    (discoverSortable src c).run t = (.ok sortable, u) ∧ fields = .make searchable sortable ∧
    ∀ listed, ((listing src c).run t).1 = .ok listed → ∀ name,
      Keyed.contains fields.sortable name ↔
        isPseudo name ∨ ∃ f ∈ listed, f.Sortable ∧ f.name = name

theorem discovered_of_discover {fields : FieldSet}
    (found : (discover src c).run s = (.ok fields, t)) :
    fields.Sound ∧ Discovered src c s fields := by
  obtain ⟨searchable, u, sortable, v, first, second, run⟩ := run_discover src c s
  rw [run] at found
  cases found
  obtain ⟨score, directed, ofListing⟩ := sortable_found second
  constructor
  · exact ⟨FieldSet.nodup_make _ _,
      fun name usual => FieldSet.mem_make.mpr (searchable_usual first usual), score, directed⟩
  · refine ⟨searchable, u, sortable, _, first, second, rfl, fun listed read name => ?_⟩
    change Keyed.contains sortable name ↔ _
    rw [ofListing listed read]
    exact contains_sortableOfListing listed name

/-! ## What is kept -/

theorem keeps_document (src : Source) (c : String) :
    Action.Keeps Store.fieldSets (document src c) := by
  have fetches : Action.Keeps Store.fieldSets (fetchDocument src c) :=
    Action.Keeps.bind (fun _ => rfl) fun _ => .of _
  refine Action.Keeps.bind (fun _ => rfl) fun t => ?_
  cases Keyed.get? t.documents c with
  | some doc => exact .pure doc
  | none => exact (fetches.mapFault _).bind fun _ => fun _ => rfl

theorem keeps_typeMap (src : Source) (c : String) :
    Action.Keeps Store.fieldSets (typeMap src c) := by
  refine Action.Keeps.bind (fun _ => rfl) fun t => ?_
  cases Keyed.get? t.typeMaps c with
  | some types => exact .pure types
  | none => exact (keeps_document src c).bind fun _ => fun _ => rfl

theorem keeps_knownTypes (c : String) : Action.Keeps Store.fieldSets (knownTypes c) := by
  have loads : Action.Keeps Store.fieldSets (loadedDocument c) :=
    fun s => congrArg Store.fieldSets (reads_loadedDocument c s)
  refine Action.Keeps.bind (fun _ => rfl) fun t => ?_
  cases Keyed.get? t.typeMaps c with
  | some types => exact .pure types
  | none => exact loads.bind fun _ => fun _ => rfl

/-- The field sets of a store, after an operation about a collection: as before, or with what has
just been discovered about it. -/
theorem fieldSets_fieldSet (src : Source) (now : Nat) (c : String) (s : Store) :
    ((fieldSet src now c).run s).2.fieldSets = s.fieldSets ∨
      ∃ fields t, (discover src c).run s = (.ok fields, t) ∧
        ((fieldSet src now c).run s).2.fieldSets = s.fieldSets.store c fields now := by
  obtain ⟨fields, updated, -, run⟩ | ⟨fields, t, found, run⟩ := run_fieldSet src now c s
  · rw [run]
    exact .inl rfl
  · have keeps : Action.Keeps Store.fieldSets (discover src c) :=
      keeps_discover (fun _ => rfl) fun _ => rfl
    have same := keeps s
    rw [found] at same
    refine .inr ⟨fields, t, found, ?_⟩
    rw [run, ← same]

theorem fieldSets_perform (src : Source) (now : Nat) (c : String) (op : Op α) (s : Store) :
    ((perform src now c op).run s).2.fieldSets = s.fieldSets ∨
      ∃ fields t, (discover src c).run s = (.ok fields, t) ∧
        ((perform src now c op).run s).2.fieldSets = s.fieldSets.store c fields now := by
  rw [state_perform]
  cases op.effect with
  | still => exact .inl rfl
  | document => exact .inl (keeps_document src c s)
  | typeMap => exact .inl (keeps_typeMap src c s)
  | knownTypes => exact .inl (keeps_knownTypes c s)
  | fieldSet => exact fieldSets_fieldSet src now c s
  | load =>
    have same := keeps_typeMap src c ((fieldSet src now c).run s).2
    change (affected src now c .load s).fieldSets = _ at same
    rw [same]
    exact fieldSets_fieldSet src now c s
  | searchable => exact .inl (keeps_inTiers (fun _ => rfl) (fun _ => rfl) s)
  | sortable => exact .inl (keeps_inTiers (fun _ => rfl) (fun _ => rfl) s)

/-- Every field set that is kept is what a discovery of the run has found. -/
theorem discovered_of_kept {maxAge : Nat} {calls : List Call} {entry : Stamped}
    (kept : Keyed.get? (after src calls (.empty maxAge)).fieldSets c = some entry) :
    ∃ before rest t, calls = before ++ rest ∧
      (discover src c).run (after src before (.empty maxAge)) = (.ok entry.fields, t) := by
  induction calls using List.reverseRecOn with
  | nil => cases kept
  | append_singleton calls call ih =>
    rw [after_append] at kept
    have earlier (h : Keyed.get? (after src calls (.empty maxAge)).fieldSets c = some entry) :
        ∃ before rest t, calls ++ [call] = before ++ rest ∧
          (discover src c).run (after src before (.empty maxAge)) = (.ok entry.fields, t) := by
      obtain ⟨before, rest, t, same, found⟩ := ih h
      exact ⟨before, rest ++ [call], t, by rw [same, List.append_assoc], found⟩
    cases call with
    | forget which => cases which <;> exact earlier kept
    | about op now d =>
      change Keyed.get? ((perform src now d op).run _).2.fieldSets c = some entry at kept
      obtain same | ⟨fields, t, found, stored⟩ :=
        fieldSets_perform src now d op (after src calls (.empty maxAge))
      · rw [same] at kept
        exact earlier kept
      · rw [stored, FieldCache.store, Keyed.get?_insert] at kept
        split at kept
        · next here =>
          cases kept
          exact ⟨calls, [_], t, rfl, here ▸ found⟩
        · exact earlier kept

/-- Whatever the source answers, a field set is returned and kept that can be relied on, and it is
one that the run has discovered. -/
theorem fieldSet_sound (src : Source) (maxAge : Nat) (calls : List Call) (now : Nat) (c : String) :
    ∃ fields updated s',
      (fieldSet src now c).run (after src calls (.empty maxAge)) = (.ok fields, s') ∧
      Keyed.get? s'.fieldSets c = some ⟨fields, updated⟩ ∧ fields.Sound ∧
      ∃ before rest, calls = before ++ rest ∧
        Discovered src c (after src before (.empty maxAge)) fields := by
  obtain ⟨fields, updated, kept, run⟩ | ⟨fields, t, found, run⟩ :=
    run_fieldSet src now c (after src calls (.empty maxAge))
  · obtain ⟨before, rest, t, made, found⟩ := discovered_of_kept kept
    obtain ⟨sound, discovered⟩ := discovered_of_discover found
    exact ⟨fields, updated, _, run, kept, sound, before, rest, made, discovered⟩
  · obtain ⟨sound, discovered⟩ := discovered_of_discover found
    refine ⟨fields, now, _, run, ?_, sound, calls, [], (List.append_nil calls).symm, discovered⟩
    exact (Keyed.get?_insert _ _ _ _).trans (if_pos rfl)

/-! ### A listing that comes late -/

def listedAs (name type : String) : Json :=
  .obj [("name", .str name), ("type", .str type)]

/-- The listing can be read from the second question on, and declares a field `score` of its own,
one name twice, a hidden field and one without a name. -/
def lateSource : Source where
  schema _ _ := .error .json
  listing n _ :=
    if n = 0 then .ok (.obj [("fields", .str "none")])
    else .ok (.obj [("fields", .arr [listedAs "score" "string", listedAs "a" "text_general",
      listedAs "a" "boolean", listedAs "_b" "pint", .obj [("type", .str "pint")]])])
  probe _ _ := .ok (.obj [("responseHeader", .obj [("params", .obj [("fl", .str "x, title,x")])])])

def lateFields : List Field :=
  [⟨"score", some "string", none, none, none, none⟩,
    ⟨"a", some "text_general", none, none, none, none⟩,
    ⟨"a", some "boolean", none, none, none, none⟩, ⟨"_b", some "pint", none, none, none, none⟩,
    ⟨"", some "pint", none, none, none, none⟩]

theorem fieldSet_sound_late :
    ∃ fields updated s', (fieldSet lateSource 7 "c").run (.empty 0) = (.ok fields, s') ∧
      Keyed.get? s'.fieldSets "c" = some ⟨fields, updated⟩ ∧
      fields.searchable = ["x", "title", "content", "_text_"] ∧
      Keyed.get? fields.sortable "score" = some .score ∧
      Keyed.contains fields.sortable "a" ∧ Keyed.contains fields.sortable "_docid_" ∧
      Keyed.contains fields.sortable "_b" = false := by
  obtain ⟨fields, updated, s', run, kept, sound, before, rest, made, searchable, t, sortable, u,
    first, second, rfl, names⟩ := fieldSet_sound lateSource 0 [] 7 "c"
  obtain ⟨rfl, rfl⟩ := List.append_eq_nil_iff.mp made.symm
  cases first
  cases second
  have names := names lateFields rfl
  have sortable : (⟨"a", some "boolean", none, none, none, none⟩ : Field).Sortable :=
    ⟨by decide, by decide, by decide, rfl⟩
  exact ⟨_, updated, s', run, kept, rfl, sound.score,
    (names "a").mpr (.inr ⟨_, by simp [lateFields], sortable, rfl⟩),
    (names "_docid_").mpr (.inl rfl), rfl⟩

end Store

end SearchSelect.Schema
