import SearchSelect.Proofs.Accepted
import SearchSelect.Proofs.EqualityReading
import SearchSelect.Request

/-! What a request tells about its statement. Fields and sort keys are joined by commas, a label
stands in front of a colon and a direction behind a blank. Bare names hold none of these, so the
columns and the order are cut out of the request again. -/

namespace SearchSelect

open Sql Text

/-! ## Bare names -/

namespace Sql

variable {f : String}

/-- A character of a bare name is no blank. -/
theorem not_isBlank_of_isNameChar {c : Char} (h : isNameChar c) : isBlank c = false := by
  have visible : 32 < c.toNat ∧ c.toNat < 128 := by
    have kinds : ((c.isAlpha ∨ c.isDigit) ∨ c = '_') ∨ c = '.' := by
      simpa [isNameChar, isWordChar, Char.isAlphanum] using h
    obtain ((alpha | digit) | rfl) | rfl := kinds
    · have letter := isAlpha_iff_toNat.mp alpha
      omega
    · have figure := Char.isDigit_iff_toNat.mp digit
      simp only [Char.reduceToNat] at figure
      omega
    · decide
    · decide
  cases blank : isBlank c with
  | false => rfl
  | true =>
    have out := toNat_of_isBlank blank
    omega

theorem IsBareName.solid_chars (bare : IsBareName f) :
    f ≠ "" ∧ ∀ c ∈ f.toList, isBlank c = false := by
  refine ⟨?_, fun c hc => not_isBlank_of_isNameChar (bare.chars c hc)⟩
  obtain ⟨c, cs, hf, -⟩ := bare.spelling
  rintro rfl
  cases hf

/-- All names that are projected, shown or sorted by are bare. -/
structure Select.HasBareNames (s : Select) : Prop where
  columns : ∀ items, s.projection = .columns items → ∀ c ∈ items,
    IsBareName c.source ∧ ∀ label ∈ c.label, IsBareName label
  order : ∀ k ∈ s.order, IsBareName k.column

end Sql

namespace Request

/-! ## Fields -/

/-- An entry of a field list, cut at its first colon. -/
def columnOf (entry : String) : Column :=
  match entry.toList.dropWhile (· != ':') with
  | [] => ⟨entry, none⟩
  | _ :: source => ⟨String.ofList source, some (String.ofList (entry.toList.takeWhile (· != ':')))⟩

section Fields

variable {c : Column} {items : List Column}

theorem comma_not_mem_fieldEntry (source : IsBareName c.source)
    (label : ∀ label ∈ c.label, IsBareName label) : ',' ∉ (fieldEntry c).toList := by
  have comma {f : String} (bare : IsBareName f) : ',' ∉ f.toList := bare.not_mem (by decide)
  rcases c with ⟨_, _ | l⟩
  · exact comma source
  · simpa [fieldEntry] using ⟨comma (label l rfl), comma source⟩

theorem columnOf_fieldEntry (source : IsBareName c.source)
    (label : ∀ label ∈ c.label, IsBareName label) : columnOf (fieldEntry c) = c := by
  have plain {f : String} (bare : IsBareName f) : ∀ d ∈ f.toList, (d != ':') :=
    bne_of_not_mem (bare.not_mem (by decide))
  rcases c with ⟨name, _ | l⟩
  · rw [fieldEntry, columnOf, List.dropWhile_eq_nil_iff.mpr (plain source)]
  · have stop : ∀ d ∈ (':' :: name.toList).head?, (d != ':') = false := by simp
    have entry : (fieldEntry ⟨name, some l⟩).toList = l.toList ++ ':' :: name.toList := by
      simp [fieldEntry]
    rw [columnOf, entry, dropWhile_append_stop (plain (label l rfl)) stop,
      takeWhile_append_stop (plain (label l rfl)) stop]
    simp

/-- The field list gives the columns back, each with its label. -/
theorem columns_of_fieldList (some_ : items ≠ [])
    (bare : ∀ c ∈ items, IsBareName c.source ∧ ∀ label ∈ c.label, IsBareName label) :
    (cutAt ',' (",".intercalate (items.map fieldEntry))).map columnOf = items := by
  have entries : cutAt ',' (",".intercalate (items.map fieldEntry)) = items.map fieldEntry := by
    apply cutAt_intercalate rfl (by simpa using some_)
    rw [List.forall_mem_map]
    exact fun c hc => comma_not_mem_fieldEntry (bare c hc).1 (bare c hc).2
  have each : items.map (columnOf ∘ fieldEntry) = items.map id :=
    List.map_congr_left fun c hc => columnOf_fieldEntry (bare c hc).1 (bare c hc).2
  rw [entries, List.map_map, each, List.map_id]

/-- A field list is absent for all fields, and otherwise gives the columns back. -/
theorem fieldList_tells {p : Projection} (ok : p.WellFormed)
    (bare : ∀ items, p = .columns items → ∀ c ∈ items,
      IsBareName c.source ∧ ∀ label ∈ c.label, IsBareName label) :
    (fieldList p = none ↔ p = .everything) ∧
      ∀ fields, fieldList p = some fields → p = .columns ((cutAt ',' fields).map columnOf) := by
  cases p with
  | everything => exact ⟨iff_of_true rfl rfl, nofun⟩
  | columns items =>
    refine ⟨iff_of_false nofun nofun, ?_⟩
    rintro _ ⟨⟩
    rw [columns_of_fieldList ok.1 (bare items rfl)]

end Fields

/-! ## The order -/

section Order

variable {keys : List SortKey}

theorem keyword_solid (d : Direction) :
    d.keyword ≠ "" ∧ ∀ c ∈ d.keyword.toList, isBlank c = false :=
  ⟨by cases d <;> decide, solid_of_all (by cases d <;> decide)⟩

theorem sortEntry_eq (k : SortKey) : sortEntry k = " ".intercalate [k.column, k.effective.keyword] := by
  simp [sortEntry]

theorem sortEntry_solid {k : SortKey} (bare : IsBareName k.column) :
    ∀ w ∈ [k.column, k.effective.keyword], w ≠ "" ∧ ∀ c ∈ w.toList, isBlank c = false := by
  simpa using ⟨bare.solid_chars, keyword_solid k.effective⟩

theorem cutAt_sortEntry {k : SortKey} (bare : IsBareName k.column) :
    cutAt ' ' (sortEntry k) = [k.column, k.effective.keyword] := by
  rw [sortEntry_eq]
  refine cutAt_intercalate rfl (by simp) fun w hw blank => ?_
  exact absurd ((sortEntry_solid bare w hw).2 ' ' blank) (by decide)

theorem wordsOf_sortEntry {k : SortKey} (bare : IsBareName k.column) :
    wordsOf (sortEntry k) = [k.column, k.effective.keyword] := by
  rw [sortEntry_eq]
  exact wordsOf_intercalate rfl (by decide) (sortEntry_solid bare)

theorem comma_not_mem_sortEntry {k : SortKey} (bare : IsBareName k.column) :
    ',' ∉ (sortEntry k).toList := by
  have named : ',' ∉ k.column.toList := bare.not_mem (by decide)
  have directed : ',' ∉ k.effective.keyword.toList := by cases k.effective <;> decide
  simpa [sortEntry] using ⟨named, directed⟩

/-- A sort specification falls into its entries. -/
theorem entries_of_sort (some_ : keys ≠ []) (bare : ∀ k ∈ keys, IsBareName k.column) :
    cutAt ',' (",".intercalate (keys.map sortEntry)) = keys.map sortEntry := by
  apply cutAt_intercalate rfl (by simpa using some_)
  rw [List.forall_mem_map]
  exact fun k hk => comma_not_mem_sortEntry (bare k hk)

theorem sortNames_of_sort (some_ : keys ≠ []) (bare : ∀ k ∈ keys, IsBareName k.column) :
    sortNamesOf (",".intercalate (keys.map sortEntry)) = keys.map SortKey.column := by
  have named : ∀ k ∈ keys, (wordsOf (sortEntry k)).head? = some k.column := by
    intro k hk
    rw [wordsOf_sortEntry (bare k hk)]
    rfl
  calc sortNamesOf (",".intercalate (keys.map sortEntry))
      = keys.filterMap fun k => (wordsOf (sortEntry k)).head? := by
        rw [sortNamesOf, entries_of_sort some_ bare, List.filterMap_map]
        rfl
    _ = keys.filterMap fun k => some k.column := List.filterMap_congr named
    _ = keys.map SortKey.column := congrFun List.filterMap_eq_map keys

/-- An order is absent without sort keys, and otherwise gives them back with their directions. -/
theorem sortClause_tells (bare : ∀ k ∈ keys, IsBareName k.column) :
    (sortClause keys = none ↔ keys = []) ∧
      ∀ sort, sortClause keys = some sort →
        (cutAt ',' sort).map (cutAt ' ') =
            keys.map (fun k => [k.column, (k.direction.getD .asc).keyword]) ∧
          sortNamesOf sort = keys.map SortKey.column := by
  cases keys with
  | nil => exact ⟨iff_of_true rfl rfl, nofun⟩
  | cons k ks =>
    refine ⟨iff_of_false nofun nofun, ?_⟩
    rintro _ ⟨⟩
    have some_ := List.cons_ne_nil k ks
    refine ⟨?_, sortNames_of_sort some_ bare⟩
    rw [entries_of_sort some_ bare, List.map_map]
    exact List.map_congr_left fun k hk => cutAt_sortEntry (bare k hk)

end Order

/-! ## Accepted texts -/

/-- The request for a statement with bare names tells what is projected, under which labels, in
which order, and which window is asked for. -/
theorem ofSelect_tells {text : String} {s : Select} (read : Select.ofText? text = .ok s)
    (bare : s.HasBareNames) :
    ((ofSelect s).fields = none ↔ s.projection = .everything) ∧
      (∀ fields, (ofSelect s).fields = some fields →
        s.projection = .columns ((cutAt ',' fields).map columnOf)) ∧
      ((ofSelect s).sort = none ↔ s.order = []) ∧
      (∀ sort, (ofSelect s).sort = some sort →
        (cutAt ',' sort).map (cutAt ' ') =
            s.order.map (fun k => [k.column, (k.direction.getD .asc).keyword]) ∧
          sortNamesOf sort = s.sortFields.map Prod.fst) ∧
      (ofSelect s).rows = s.limit ∧ (ofSelect s).start = s.offset := by
  have listed := fieldList_tells (wellFormed_of_ofText? read).projection bare.columns
  have sorted := sortClause_tells bare.order
  have names : s.sortFields.map Prod.fst = s.order.map SortKey.column := List.map_map
  rw [names]
  exact ⟨listed.1, listed.2, sorted.1, sorted.2, rfl, rfl⟩

/-- A label, a direction that is left out, and names that are keywords in part. -/
def labelledText : String :=
  "SELECT id, title AS headline FROM docs ORDER BY order_by.x, price DESC LIMIT 5 OFFSET 2"

def labelledSelect : Select where
  projection := .columns [⟨"id", none⟩, ⟨"title", some "headline"⟩]
  collection := some "docs"
  condition := none
  order := [⟨"order_by.x", none⟩, ⟨"price", some .desc⟩]
  limit := some 5
  offset := some 2

theorem ofSelect_tells_labelled :
    Select.ofText? labelledText = .ok labelledSelect ∧ labelledSelect.HasBareNames ∧
      (ofSelect labelledSelect).fields = some "id,headline:title" ∧
      labelledSelect.projection = .columns ((cutAt ',' "id,headline:title").map columnOf) ∧
      (ofSelect labelledSelect).sort = some "order_by.x ASC,price DESC" ∧
      sortNamesOf "order_by.x ASC,price DESC" = ["order_by.x", "price"] := by
  have read : Select.ofText? labelledText = .ok labelledSelect := by with_unfolding_all rfl
  have bare : labelledSelect.HasBareNames := by
    refine ⟨?_, by decide⟩
    rintro _ ⟨⟩
    decide
  have fields : (ofSelect labelledSelect).fields = some "id,headline:title" := by decide +kernel
  have sort : (ofSelect labelledSelect).sort = some "order_by.x ASC,price DESC" := by decide +kernel
  obtain ⟨-, columns, -, keys, -, -⟩ := ofSelect_tells read bare
  exact ⟨read, bare, fields, columns _ fields, sort, (keys _ sort).2⟩

end Request

end SearchSelect
