import SearchSelect.Proofs.FieldDiscovery
import SearchSelect.Validation

/-! Sorting is checked twice, by rules of their own: a sort specification against the schema, where
a field needs recorded values, and the order of a statement against the listing, where it needs a
shown name, single values and a simple type. Loading gets both ready, and on one list of fields they
agree on just those names for which the two rules come to the same. -/

namespace SearchSelect.Schema

/-- A field that the schema declares sortable: its values are recorded with the document. -/
structure Field.Recorded (f : Field) : Prop where
  named : f.name ≠ ""
  recorded : f.docValues = some true ∨ f.stored = some true

theorem Document.contains_sortable (doc : Document) (name : String) :
    Keyed.contains doc.fieldSet.sortable name ↔
      isPseudo name ∨ ∃ f ∈ doc.fields, f.Recorded ∧ f.name = name := by
  unfold fieldSet
  rw [contains_addPseudo,
    Keyed.contains_foldl fun f a => (f.hasDocValues || f.isStored) ∧ f.name = a]
  · have recorded (f : Field) :
        f.Recorded ↔ f.name ≠ "" ∧ (f.hasDocValues || f.isStored) = true := by
      have written : (f.hasDocValues || f.isStored) = true ↔
          f.docValues = some true ∨ f.stored = some true := by
        simp [Field.hasDocValues, Field.isStored, Option.getD_eq_iff]
      rw [written]
      exact ⟨fun h => ⟨h.named, h.recorded⟩, fun h => ⟨h.1, h.2⟩⟩
    simp [Keyed.contains, recorded, and_assoc]
  · intro m f a
    split
    · next written =>
      rw [Keyed.contains_insert, eq_comm, or_comm]
      simp [written]
    · next skipped => simp [skipped]

theorem FieldSet.checkSortable_eq_ok {s : FieldSet} {c : String} {names : List String} :
    s.checkSortable c names = .ok () ↔ ∀ name ∈ names, s.isSortable name := by
  have none : names.filter (fun f => !s.isSortable f) = [] ↔ ∀ name ∈ names, s.isSortable name := by
    simp
  unfold checkSortable
  rw [← none]
  cases names.filter fun f => !s.isSortable f <;> simp

namespace Store

/-- The schema of a collection and its listing give the same fields, however often they are
asked for. -/
structure Serves (src : Source) (c : String) (fields : List Field) : Prop where
  schema : ∀ n, ∃ doc, fetched src n c = .ok doc ∧ doc.fields = fields
  listing : ∀ n, (src.listing n c).bind Field.listing = .ok fields

variable {src : Source} {c : String} {fields : List Field} {s : Store}

theorem discovered_sortable {known : FieldSet} (serves : Serves src c fields)
    (discovered : Discovered src c s known) (name : String) :
    known.isSortable name ↔ isPseudo name ∨ ∃ f ∈ fields, f.Sortable ∧ f.name = name := by
  obtain ⟨_, t, _, _, -, -, -, names⟩ := discovered
  exact names fields ((run_listing src c t).trans (serves.listing _)) name

/-- What the two checks read of a store in which a collection has been loaded. -/
structure Ready (c : String) (fields : List Field) (s : Store) : Prop where
  declared : ∃ doc, Keyed.get? s.documents c = some doc ∧ doc.fields = fields
  discovered : ∀ name, (s.fieldSets.fieldSetD c).isSortable name ↔
    isPseudo name ∨ ∃ f ∈ fields, f.Sortable ∧ f.name = name

/-- A new store gets a collection ready. -/
theorem run_load_empty (serves : Serves src c fields) (now maxAge : Nat) :
    ∃ s, (load src now c).run (.empty maxAge) = (.ok (), s) ∧ Ready c fields s := by
  obtain ⟨_, _, kept, -⟩ | ⟨known, t, found, run⟩ := run_fieldSet src now c (.empty maxAge)
  · cases kept
  · obtain ⟨-, discovered⟩ := discovered_of_discover found
    have keeps : Action.Keeps (fun s => (s.documents, s.typeMaps)) (discover src c) :=
      keeps_discover (fun _ => rfl) fun _ => rfl
    have unread := keeps (.empty maxAge)
    rw [found] at unread
    obtain ⟨noDocuments, noTypeMaps⟩ := Prod.mk.inj unread
    obtain ⟨doc, answer, same⟩ := serves.schema t.asked.schema
    have fetch : (typeMap src c).run { t with fieldSets := t.fieldSets.store c known now } = _ :=
      run_typeMap_fetched (by rw [noTypeMaps]; rfl) (by rw [noDocuments]; rfl) answer
    have loaded : (load src now c).run (.empty maxAge) = _ :=
      (Action.run_bind_ok run).trans (Action.run_bind_ok fetch)
    have stored : (t.fieldSets.store c known now).fieldSetD c = known := by
      simp [FieldCache.fieldSetD, FieldCache.fieldSet?, FieldCache.store, Keyed.get?_insert]
    refine ⟨_, loaded, ⟨doc, (Keyed.get?_insert _ _ _ _).trans (if_pos rfl), same⟩, ?_⟩
    intro name
    rw [← discovered_sortable serves discovered name]
    change ((t.fieldSets.store c known now).fieldSetD c).isSortable name ↔ _
    rw [stored]

end Store

end SearchSelect.Schema

namespace SearchSelect.Validation

open Schema Store Text

section Checks

variable {σ : Type} {cat : Catalog σ} {c field : String} {s t : σ}

theorem succeeds_sortBy {sortable : Keyed FieldInfo} {word : Option String}
    (known : (cat.sortable c).run s = (.ok sortable, t)) :
    (sortBy cat c field word).Succeeds s ↔
      ∃ info, Keyed.get? sortable field = some info ∧ ∃ d, sortDirection info field word = .ok d := by
  unfold sortBy
  rw [Action.succeeds_bind (Action.run_mapFault_ok known)]
  cases Keyed.get? sortable field with
  | none => exact iff_of_false nofun nofun
  | some info =>
    simp only [Option.some.injEq, exists_eq_left']
    cases sorted : sortDirection info field word with
    | error f => exact iff_of_false nofun nofun
    | ok d => exact iff_of_true ⟨_, t, rfl⟩ ⟨d, rfl⟩

/-- Without a direction the default one is taken, so only the field matters. -/
theorem succeeds_sortBy_none {sortable : Keyed FieldInfo}
    (known : (cat.sortable c).run s = (.ok sortable, t)) :
    (sortBy cat c field none).Succeeds s ↔ Keyed.contains sortable field := by
  rw [succeeds_sortBy known]
  simp [sortDirection, Keyed.contains, Option.isSome_iff_exists]

theorem wordsOf_solid (named : field ≠ "") (solid : field.toList.any isBlank = false) :
    wordsOf field = [field] := by
  have some : field.toList ≠ [] := by simpa using named
  unfold wordsOf words
  rw [pieces_of_none fun ch mem => by simpa using List.any_eq_false.mp solid ch mem]
  simp [some]

theorem normalSort_bare {text : String} (words : wordsOf text = [field]) :
    normalSort cat (some text) c = some <$> sortBy cat c field none := by
  unfold normalSort
  simp only [words]

end Checks

section Loaded

variable {src : Source} {c name : String} {fields : List Field} {s : Store}

theorem succeeds_normalSort (ready : Ready c fields s) (named : name ≠ "")
    (solid : name.toList.any isBlank = false) :
    (normalSort Store.catalog (some name) c).Succeeds s ↔
      isPseudo name ∨ ∃ f ∈ fields, f.Recorded ∧ f.name = name := by
  obtain ⟨doc, kept, rfl⟩ := ready.declared
  have known : (knownSortable c).run s = (.ok doc.fieldSet.sortable, s) := run_knownSortable kept
  rw [normalSort_bare (wordsOf_solid named solid), Action.succeeds_map, succeeds_sortBy_none known,
    Document.contains_sortable]

theorem succeeds_checkSortFields (ready : Ready c fields s) (name : String) :
    (checkSortFields Store.catalog c [name]).Succeeds s ↔
      isPseudo name ∨ ∃ f ∈ fields, f.Sortable ∧ f.name = name := by
  change ((knownSort c [name]).mapFault .sortRefused).Succeeds s ↔ _
  rw [Action.succeeds_mapFault, ← ready.discovered name]
  unfold knownSort
  rw [Action.succeeds_bind (Action.run_get s), Action.succeeds_of]
  have alone : (∀ n ∈ [name], (s.fieldSets.fieldSetD c).isSortable n) ↔
      (s.fieldSets.fieldSetD c).isSortable name :=
    List.forall_mem_singleton
  rw [← alone, ← FieldSet.checkSortable_eq_ok]
  exact ⟨fun ⟨(), h⟩ => h, fun h => ⟨(), h⟩⟩

/-- Once a collection is loaded, a bare name passes as a sort specification if it is that of a
recorded field, and in the order of a statement if it is that of a listed sortable field; the
pseudo-fields pass both. -/
theorem sortChecks_compared (serves : Serves src c fields) (named : name ≠ "")
    (solid : name.toList.any isBlank = false) (now maxAge : Nat) :
    ∃ s, (load src now c).run (.empty maxAge) = (.ok (), s) ∧
      ((normalSort Store.catalog (some name) c).Succeeds s ↔
        isPseudo name ∨ ∃ f ∈ fields, f.Recorded ∧ f.name = name) ∧
      ((checkSortFields Store.catalog c [name]).Succeeds s ↔
        isPseudo name ∨ ∃ f ∈ fields, f.Sortable ∧ f.name = name) ∧
      (((normalSort Store.catalog (some name) c).Succeeds s ↔
          (checkSortFields Store.catalog c [name]).Succeeds s) ↔
        isPseudo name ∨ ((∃ f ∈ fields, f.Recorded ∧ f.name = name) ↔
          ∃ f ∈ fields, f.Sortable ∧ f.name = name)) := by
  obtain ⟨s, run, ready⟩ := run_load_empty serves now maxAge
  have spec := succeeds_normalSort ready named solid
  have order := succeeds_checkSortFields ready name
  refine ⟨s, run, spec, order, ?_⟩
  rw [spec, order]
  by_cases pseudo : isPseudo name <;> simp [pseudo]

end Loaded

/-! ### A shelf of fields -/

def titleField : Field := ⟨"title", some "text_general", none, some true, none, none⟩

def keyField : Field := ⟨"id", some "string", none, none, none, none⟩

def priceField : Field := ⟨"price", some "pint", none, none, some true, none⟩

def shelfFields : List Field := [titleField, keyField, priceField]

def shelfListing : Json :=
  .arr [.obj [("name", .str "title"), ("type", .str "text_general"), ("stored", .bool true)],
    .obj [("name", .str "id"), ("type", .str "string")],
    .obj [("name", .str "price"), ("type", .str "pint"), ("docValues", .bool true)]]

def shelfSource : Source where
  schema _ _ := .ok (.obj [("schema", .obj [("fields", shelfListing)])])
  listing _ _ := .ok (.obj [("fields", shelfListing)])
  probe _ _ := .error .json

theorem serves_shelf : Serves shelfSource "docs" shelfFields :=
  ⟨fun _ => ⟨⟨none, none, shelfFields, [], []⟩, by with_unfolding_all rfl, rfl⟩,
    fun _ => by with_unfolding_all rfl⟩

theorem sortChecks_compared_price :
    ∃ s, (load shelfSource 0 "docs").run (.empty 0) = (.ok (), s) ∧
      (normalSort Store.catalog (some "price") "docs").Succeeds s ∧
      (checkSortFields Store.catalog "docs" ["price"]).Succeeds s := by
  obtain ⟨s, run, spec, order, -⟩ :=
    sortChecks_compared serves_shelf (show "price" ≠ "" by decide) (by decide) 0 0
  exact ⟨s, run, spec.mpr (.inr ⟨priceField, by simp [shelfFields], ⟨by decide, by decide⟩, rfl⟩),
    order.mpr (.inr ⟨priceField, by simp [shelfFields], ⟨by decide, rfl, by decide, rfl⟩, rfl⟩)⟩

/-- A stored text can only be specified as a sort, a plain key can only be ordered by. -/
theorem sortChecks_differ :
    Serves shelfSource "docs" shelfFields ∧
      ∃ s, (load shelfSource 0 "docs").run (.empty 0) = (.ok (), s) ∧
        (normalSort Store.catalog (some "title") "docs").Succeeds s ∧
        ¬ (checkSortFields Store.catalog "docs" ["title"]).Succeeds s ∧
        ¬ (normalSort Store.catalog (some "id") "docs").Succeeds s ∧
        (checkSortFields Store.catalog "docs" ["id"]).Succeeds s := by
  obtain ⟨s, run, ready⟩ := run_load_empty serves_shelf 0 0
  have untyped : ¬ titleField.Sortable := fun h => absurd h.typed (by decide)
  have unrecorded : ¬ keyField.Recorded := fun h => absurd h.recorded (by decide)
  refine ⟨serves_shelf, s, run, ?_, ?_, ?_, ?_⟩
  · rw [succeeds_normalSort ready (by decide) (by decide)]
    exact .inr ⟨titleField, by simp [shelfFields], ⟨by decide, by decide⟩, rfl⟩
  · rw [succeeds_checkSortFields ready]
    simp [shelfFields, untyped, keyField, priceField, isPseudo, scoreField, docIdField]
  · rw [succeeds_normalSort ready (by decide) (by decide)]
    simp [shelfFields, unrecorded, titleField, priceField, isPseudo, scoreField, docIdField]
  · rw [succeeds_checkSortFields ready]
    exact .inr ⟨keyField, by simp [shelfFields], ⟨by decide, rfl, by decide, rfl⟩, rfl⟩

end SearchSelect.Validation
