import SearchSelect.Proofs.Accepted
import SearchSelect.Proofs.RoundTrip
import SearchSelect.Request
import SearchSelect.Validation

/-! What a request asks to have returned. A field list is cut at its commas, and what stands before
a colon labels an entry. The names that are left are the validated columns of the statement as long
as no label has a comma or a colon in it; otherwise a label can ask for fields of its own. -/

namespace SearchSelect

open Sql Text

namespace Request

/-! ## Names in a field list -/

/-- An entry of a field list without the label in front of it. -/
def unlabelled (entry : List Char) : List Char :=
  match entry.dropWhile (· != ':') with
  | _ :: name => name
  | [] => entry

def entryNames (entries : List Char) : List String :=
  (pieces (· = ',') entries).map fun entry => String.ofList (unlabelled entry)

/-- The names a field list asks for. Without a list all stored fields are returned. -/
def requestedNames : Option String → List String
  | none => ["*"]
  | some fields => entryNames fields.toList

/-! ## Labels -/

theorem unlabelled_append {label : List Char} (none : ':' ∉ label) (name : List Char) :
    unlabelled (label ++ ':' :: name) = name := by
  rw [unlabelled, dropWhile_append_stop (bne_of_not_mem none) (by simp)]

theorem unlabelled_of_none {s : List Char} (none : ':' ∉ s) : unlabelled s = s := by
  rw [unlabelled, List.dropWhile_eq_nil_iff.mpr (bne_of_not_mem none)]

theorem length_unlabelled_lt {s : List Char} (mem : ':' ∈ s) :
    (unlabelled s).length < s.length := by
  obtain ⟨a, b, rfl, none⟩ := List.eq_append_cons_of_mem mem
  rw [unlabelled_append none, List.length_append, List.length_cons]
  omega

end Request

/-! ## Columns -/

namespace Sql

/-- Neither name of the column can be taken for more than one entry, and the name that is shown
cannot be taken for a label with a name behind it. -/
def Column.Plain (c : Column) : Prop :=
  ',' ∉ c.source.toList ∧ ',' ∉ c.shown.toList ∧ ':' ∉ c.shown.toList

instance : DecidablePred Column.Plain := fun c =>
  inferInstanceAs (Decidable (',' ∉ c.source.toList ∧ ',' ∉ c.shown.toList ∧ ':' ∉ c.shown.toList))

def Projection.Plain : Projection → Prop
  | everything => True
  | columns items => ∀ c ∈ items, c.Plain

end Sql

namespace Request

/-- The names that a column asks for. -/
def columnNames (c : Column) : List String :=
  entryNames (fieldEntry c).toList

theorem columnNames_ne_nil (c : Column) : columnNames c ≠ [] := by
  unfold columnNames entryNames
  simpa using pieces_ne_nil _ _

theorem comma_mem_fieldEntry {c : Column} :
    ',' ∈ (fieldEntry c).toList ↔ ',' ∈ c.source.toList ∨ ',' ∈ c.shown.toList := by
  obtain ⟨source, label⟩ := c
  cases label with
  | none => simp [fieldEntry, Column.shown]
  | some label => simp [fieldEntry, Column.shown, or_comm]

theorem unlabelled_fieldEntry {c : Column} :
    unlabelled (fieldEntry c).toList = c.source.toList ↔ ':' ∉ c.shown.toList := by
  obtain ⟨source, label⟩ := c
  cases label with
  | none =>
    change unlabelled source.toList = source.toList ↔ ':' ∉ source.toList
    constructor
    · intro same mem
      have shorter := length_unlabelled_lt mem
      rw [same] at shorter
      exact Nat.lt_irrefl _ shorter
    · exact unlabelled_of_none
  | some label =>
    have entry : (fieldEntry ⟨source, some label⟩).toList =
        label.toList ++ ':' :: source.toList := by
      simp [fieldEntry]
    rw [entry]
    change unlabelled (label.toList ++ ':' :: source.toList) = source.toList ↔ ':' ∉ label.toList
    constructor
    · intro same mem
      obtain ⟨a, b, split, none⟩ := List.eq_append_cons_of_mem mem
      rw [split, List.append_assoc, List.cons_append, unlabelled_append none] at same
      have lengths := congrArg List.length same
      rw [List.length_append, List.length_cons] at lengths
      omega
    · exact fun none => unlabelled_append none _

theorem columnNames_eq_iff {c : Column} : columnNames c = [c.source] ↔ c.Plain := by
  unfold columnNames entryNames
  by_cases comma : ',' ∈ (fieldEntry c).toList
  · have several := two_le_length_pieces (p := (· = ',')) comma (by simp)
    constructor
    · intro same
      have lengths := congrArg List.length same
      rw [List.length_map, List.length_singleton] at lengths
      omega
    · rintro ⟨source, shown, -⟩
      exact absurd (comma_mem_fieldEntry.mp comma) (not_or.mpr ⟨source, shown⟩)
  · have whole := pieces_of_none (uncut_of_not_mem comma)
    obtain ⟨source, shown⟩ := not_or.mp (mt comma_mem_fieldEntry.mpr comma)
    rw [whole, List.map_singleton, List.singleton_inj, ← String.toList_inj, String.toList_ofList,
      unlabelled_fieldEntry]
    exact ⟨fun colon => ⟨source, shown, colon⟩, fun plain => plain.2.2⟩

end Request

/-! ## Statements -/

section Joined

variable {α β : Type} {f : α → List β} {g : α → β} {l : List α}

/-- Lists of which none is empty cannot join to one item each if anything is in front of them. -/
theorem eq_singleton_of_append {xs : List β} (some : ∀ a ∈ l, f a ≠ [])
    (joined : xs ++ l.flatMap f = l.map g) : xs = [] ∧ ∀ a ∈ l, f a = [g a] := by
  induction l generalizing xs with
  | nil => simpa using joined
  | cons a l ih =>
    obtain ⟨ha, hl⟩ := List.forall_mem_cons.mp some
    rw [List.flatMap_cons, List.map_cons] at joined
    cases xs with
    | nil =>
      obtain ⟨b, bs, hb⟩ := List.exists_cons_of_ne_nil ha
      rw [hb] at joined
      obtain ⟨rfl, rest⟩ := List.cons.inj joined
      obtain ⟨rfl, tail⟩ := ih hl rest
      exact ⟨rfl, List.forall_mem_cons.mpr ⟨hb, tail⟩⟩
    | cons x xs =>
      rw [List.cons_append] at joined
      obtain ⟨-, rest⟩ := List.cons.inj joined
      rw [← List.append_assoc] at rest
      exact absurd (List.append_eq_nil_iff.mp (ih hl rest).1).2 ha

theorem flatMap_eq_map_iff (some : ∀ a ∈ l, f a ≠ []) :
    l.flatMap f = l.map g ↔ ∀ a ∈ l, f a = [g a] := by
  constructor
  · intro joined
    have front : [] ++ l.flatMap f = l.map g := joined
    exact (eq_singleton_of_append some front).2
  · intro each
    rw [List.map_eq_flatMap, List.flatMap_def, List.flatMap_def, List.map_congr_left each]

end Joined

namespace Request

theorem entryNames_intercalate {xs : List String} (some : xs ≠ []) :
    entryNames (String.intercalate "," xs).toList = xs.flatMap fun x => entryNames x.toList := by
  unfold entryNames
  have joined : (String.intercalate "," xs).toList = [','].intercalate (xs.map String.toList) :=
    String.toList_intercalate
  rw [joined, pieces_intercalate (by simp) (by simpa using some), List.flatMap_map, List.map_flatMap]

/-- What is asked for is what the statement projects, column by column, exactly if every column is
plain. -/
theorem requestedNames_fieldList_iff {p : Projection} (ok : p.WellFormed) :
    requestedNames (fieldList p) = p.sources ↔ p.Plain := by
  cases p with
  | everything => simp [fieldList, requestedNames, Projection.sources, Projection.Plain]
  | columns items =>
    have some : items.map fieldEntry ≠ [] := by simpa using ok.1
    have names : requestedNames (fieldList (.columns items)) = items.flatMap columnNames := by
      change entryNames (String.intercalate "," (items.map fieldEntry)).toList = _
      rw [entryNames_intercalate some, List.flatMap_map]
      rfl
    rw [names, Projection.sources, flatMap_eq_map_iff fun c _ => columnNames_ne_nil c]
    simp only [columnNames_eq_iff, Projection.Plain]

end Request

/-! ## Accepted texts -/

namespace Validation

open Schema Request

variable {σ : Type} {cat : Catalog σ} {sql collection : String} {q : Query} {s s' : σ}

theorem run_checkFields_eq_ok {fields : List String}
    (h : (checkFields cat collection fields).run s = (.ok (), s')) :
    ∃ types, (cat.fieldTypes collection).run s = (.ok types, s') ∧
      ∀ f ∈ fields, isUniversal f ∨ Keyed.contains types f := by
  unfold checkFields at h
  obtain ⟨types, t, known, h⟩ := Action.run_bind_eq_ok h
  split at h
  · cases h
  · next none =>
    cases h
    refine ⟨types, Action.run_mapFault_eq_ok known, fun f hf => ?_⟩
    have passed := List.find?_eq_none.mp none f hf
    by_cases universal : isUniversal f
    · exact .inl universal
    · exact .inr (by simpa [universal] using passed)

/-- What is known of a query that has been accepted. -/
theorem run_checkedQuery_eq_ok (h : (checkedQuery cat sql).run s = (.ok q, s')) :
    Query.ofText sql = .ok q ∧ ∃ t types t', (cat.checkCollection q.collection).run s = (.ok (), t) ∧
      (cat.fieldTypes q.collection).run t = (.ok types, t') ∧
      ∀ f ∈ q.sources, isUniversal f ∨ Keyed.contains types f := by
  unfold checkedQuery at h
  obtain ⟨p, _, parsed, collectionNext⟩ := Action.run_bind_eq_ok h
  obtain ⟨read, rfl⟩ := Action.run_of_eq_ok parsed
  obtain ⟨_, t, found, fieldsNext⟩ := Action.run_bind_eq_ok collectionNext
  obtain ⟨_, t', fields, sortNext⟩ := Action.run_bind_eq_ok fieldsNext
  obtain ⟨_, _, -, done⟩ := Action.run_bind_eq_ok sortNext
  obtain rfl : p = q := Except.ok.inj (Prod.mk.inj done).1
  obtain ⟨types, known, checked⟩ := run_checkFields_eq_ok fields
  exact ⟨read, t, types, t', Action.run_mapFault_eq_ok found, known, checked⟩

/-- The projected columns of an accepted text are all known. They are what is asked for exactly if
every column is plain; then nothing is asked for that has not been checked. -/
theorem requestedNames_checkedQuery (accepted : (checkedQuery cat sql).run s = (.ok q, s')) :
    ∃ t types t', (cat.checkCollection q.collection).run s = (.ok (), t) ∧
      (cat.fieldTypes q.collection).run t = (.ok types, t') ∧
      (∀ f ∈ q.sources, isUniversal f ∨ Keyed.contains types f) ∧
      (requestedNames (ofSelect q.statement).fields = q.sources ↔ q.statement.projection.Plain) ∧
      (q.statement.projection.Plain → ∀ n ∈ requestedNames (ofSelect q.statement).fields,
        n ∈ q.sources ∧ (isUniversal n ∨ Keyed.contains types n)) := by
  obtain ⟨read, t, types, t', found, known, checked⟩ := run_checkedQuery_eq_ok accepted
  have formed := wellFormed_of_ofText? (ofText?_of_query read).1
  have same := requestedNames_fieldList_iff formed.projection
  refine ⟨t, types, t', found, known, checked, same, fun plain n hn => ?_⟩
  have mem : n ∈ q.sources := by
    rw [Query.sources, ← same.mpr plain]
    exact hn
  exact ⟨mem, checked n mem⟩

/-! ### A label with a comma in it -/

/-- Collections whose only field is `id`. -/
def idCatalog : Catalog Unit where
  checkCollection _ := return ()
  fieldTypes _ := return [("id", "string")]
  sortable _ := return []
  checkSort _ _ := return ()

def labelled (label : String) : Query where
  statement := ⟨.columns [⟨"id", some label⟩], some "c", none, [], none, none⟩
  collection := "c"

theorem run_checkedQuery_labelled {label : String} (ok : IsName label)
    (laid : sql = String.ofList (plainText (labelled label).statement.tokens))
    (plain : expandShorthand sql = sql) (starts : Query.startsWithSelect sql.toList) :
    (checkedQuery idCatalog sql).run () = (.ok (labelled label), ()) := by
  have formed : (labelled label).statement.WellFormed := by
    refine ⟨?_, by simp [labelled], by simp [labelled]⟩
    have source : IsName "id" := by decide
    simpa [labelled, Projection.WellFormed, Column.WellFormed, source] using ok
  have tokens : Laid (labelled label).statement.tokens sql.toList := by
    rw [laid, String.toList_ofList]
    exact laid_plainText (allFit_select formed)
  have read : Query.ofText sql = .ok (labelled label) :=
    Query.ofText_laid formed tokens plain starts rfl (by simp [labelled])
  unfold checkedQuery
  rw [read]
  rfl

theorem requestedNames_labelled :
    (checkedQuery idCatalog " select `id` as `key` from 'c'").run () = (.ok (labelled "key"), ()) ∧
      (labelled "key").statement.projection.Plain ∧
      requestedNames (ofSelect (labelled "key").statement).fields = ["id"] := by
  have accepted : (checkedQuery idCatalog " select `id` as `key` from 'c'").run () =
      (.ok (labelled "key"), ()) :=
    run_checkedQuery_labelled (by decide) (by decide +kernel) (by decide +kernel) (by decide +kernel)
  have plain : (labelled "key").statement.projection.Plain := by
    simp [labelled, Projection.Plain, Column.Plain, Column.shown]
  obtain ⟨_, _, _, -, -, -, same, -⟩ := requestedNames_checkedQuery accepted
  exact ⟨accepted, plain, same.mpr plain⟩

/-- A field is asked for that no collection has. -/
theorem requestedNames_unchecked :
    (checkedQuery idCatalog " select `id` as `secret,x` from 'c'").run () =
        (.ok (labelled "secret,x"), ()) ∧
      "secret" ∈ requestedNames (ofSelect (labelled "secret,x").statement).fields ∧
      "secret" ∉ (labelled "secret,x").sources ∧ isUniversal "secret" = false ∧
      ∀ collection types, (idCatalog.fieldTypes collection).run () = (.ok types, ()) →
        Keyed.contains types "secret" = false := by
  refine ⟨run_checkedQuery_labelled (by decide) (by decide +kernel) (by decide +kernel)
    (by decide +kernel), by decide +kernel, by decide +kernel, by decide +kernel, fun collection types known => ?_⟩
  cases known
  decide

end Validation

end SearchSelect
