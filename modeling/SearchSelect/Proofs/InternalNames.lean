import SearchSelect.Proofs.FieldDiscovery

/-! Internal names in what is discovered about a new collection. The listing is cleared of them for
searching and for sorting, and what is assumed without it holds none. The field list that a probing
request echoes is taken over as it stands: that is the one way in, and only for searching. -/

namespace SearchSelect.Schema

open Text

/-- A name with an underscore in front, other than the two that are let through. -/
structure Internal (name : String) : Prop where
  underscore : ∃ rest, name.toList = '_' :: rest
  notText : name ≠ textField
  notDocId : name ≠ docIdField

theorem isHidden_iff {name : String} : isHidden name ↔ Internal name := by
  have underscore : startsUnderscore name ↔ ∃ rest, name.toList = '_' :: rest := by
    unfold startsUnderscore
    rw [decide_eq_true_iff, List.head?_eq_some_iff]
  have notScore : (∃ rest, name.toList = '_' :: rest) → name ≠ scoreField := by
    rintro ⟨rest, starts⟩ rfl
    cases starts
  unfold isHidden isPseudo
  simp only [Bool.and_eq_true, Bool.not_eq_true', Bool.or_eq_false_iff, decide_eq_false_iff_not,
    bne_iff_ne, underscore]
  exact ⟨fun ⟨⟨starts, text⟩, _, docId⟩ => ⟨starts, text, docId⟩,
    fun h => ⟨⟨h.underscore, h.notText⟩, notScore h.underscore, h.notDocId⟩⟩

theorem Internal.ne_empty {name : String} (internal : Internal name) : name ≠ "" := by
  rintro rfl
  obtain ⟨rest, starts⟩ := internal.underscore
  cases starts

/-! ## The field list that is echoed -/

/-- What the answer to a probing request repeats as the field list of that request. -/
def echo? (answer : Json) : Option Json := do
  let header ← answer.get? "responseHeader"
  let params ← header.get? "params"
  params.get? "fl"

/-- The field list is echoed as one text or as several. -/
def Echoes (answer : Json) (list : String) : Prop :=
  echo? answer = some (.str list) ∨ ∃ items, echo? answer = some (.arr items) ∧ .str list ∈ items

/-- A name between the commas of an echoed list, without the blanks around it. -/
def Echoed (answer : Json) (name : String) : Prop :=
  ∃ list, Echoes answer list ∧ ∃ entry ∈ cutAt ',' list, trimmed entry = name

theorem mem_echoedFields {answer : Json} {name : String} :
    name ∈ echoedFields answer ↔ Echoed answer name ∧ name ≠ "" := by
  unfold echoedFields
  rw [← echo?.eq_def]
  simp only [List.mem_eraseDups, List.mem_filter, List.mem_flatMap, List.mem_map, bne_iff_ne]
  refine and_congr_left fun _ => exists_congr fun list => and_congr_left fun _ => ?_
  unfold Echoes
  cases echo? answer with
  | none => simp
  | some lists =>
    cases lists with
    | str s => simp [eq_comm]
    | arr items => simp [Json.text?_eq_some]
    | _ => simp

/-! ## What each tier lets through -/

variable {name : String}

theorem Internal.not_usual (internal : Internal name) : name ∉ usualFields := by
  obtain ⟨rest, starts⟩ := internal.underscore
  have notText := internal.notText
  unfold usualFields
  rintro (_ | ⟨_, _ | ⟨_, _ | ⟨_, ⟨⟩⟩⟩⟩)
  · cases starts
  · cases starts
  · exact notText rfl

theorem Internal.not_pseudo (internal : Internal name) : isPseudo name = false := by
  have hidden := isHidden_iff.mpr internal
  unfold isHidden at hidden
  simpa using (Bool.and_eq_true_iff.mp hidden).2

theorem Internal.not_listed (internal : Internal name) (fields : List Field) :
    name ∉ searchableOfListing fields := by
  obtain ⟨rest, starts⟩ := internal.underscore
  unfold searchableOfListing
  rw [mem_withUsual]
  rintro (listed | usual)
  · obtain ⟨f, candidate, rfl⟩ := List.mem_map.mp listed
    have candidate := (List.mem_filter.mp candidate).2
    have underscore : startsUnderscore f.name := by simp [startsUnderscore, starts]
    simp [Field.isSearchCandidate, underscore, internal.notText] at candidate
  · exact internal.not_usual usual

/-- Whatever tier is reached, no internal name is offered for sorting. -/
theorem Internal.not_sortable (internal : Internal name) {src : Source} {c : String} {s t : Store}
    {sortable : Keyed FieldInfo}
    (found : (Store.discoverSortable src c).run s = (.ok sortable, t)) :
    Keyed.contains sortable name = false := by
  have unlisted (m : Keyed FieldInfo) (h : Keyed.contains m name = false) :
      Keyed.contains (addPseudo m) name = false := by
    rw [Bool.eq_false_iff, ne_eq, contains_addPseudo, internal.not_pseudo, h]
    simp
  obtain ⟨sortable', u, run, tier⟩ := Store.run_discoverSortable src c s
  rw [run] at found
  cases found
  obtain ⟨fields, -, rfl⟩ | ⟨-, ⟨answer, -, rfl⟩ | ⟨-, rfl⟩⟩ := tier
  · rw [Bool.eq_false_iff, ne_eq, contains_sortableOfListing, internal.not_pseudo]
    rintro (⟨⟨⟩⟩ | ⟨f, -, sortable, rfl⟩)
    exact absurd (isHidden_iff.mpr internal) (by simp [sortable.shown])
  · exact unlisted [] rfl
  · have notScore : name ≠ scoreField := by
      rintro rfl
      cases internal.not_pseudo
    simp [Keyed.contains, Keyed.get?_cons, notScore]

/-- An internal name is searched only if the listing cannot be read and a probe echoes it. -/
theorem Internal.mem_searchable_iff (internal : Internal name) {src : Source} {c : String}
    {s t : Store} {names : List String}
    (found : (Store.discoverSearchable src c).run s = (.ok names, t)) :
    name ∈ names ↔ (∃ f, ((Store.listing src c).run s).1 = .error f) ∧
      ∃ answer, src.probe s.asked.probe c = .ok answer ∧ Echoed answer name := by
  obtain ⟨names', u, run, tier⟩ := Store.run_discoverSearchable src c s
  rw [run] at found
  cases found
  obtain ⟨fields, listed, rfl⟩ | ⟨⟨f, refused⟩, tier⟩ := tier
  · simp [internal.not_listed fields, listed]
  · obtain ⟨answer, probed, rfl⟩ | ⟨⟨g, unprobed⟩, rfl⟩ := tier
    · have echoed : name ∈ echoedFields answer ↔ Echoed answer name := by
        rw [mem_echoedFields]
        exact and_iff_left internal.ne_empty
      simp [mem_withUsual, internal.not_usual, echoed, refused, probed]
    · simp [internal.not_usual, unprobed]

/-- In what is discovered of a collection by a new store, no internal name can be sorted by, and
one can be searched only if the listing cannot be read and the probe echoes it. -/
theorem internal_discovered (src : Source) (now maxAge : Nat) (c : String) :
    ∃ fields s, (Store.fieldSet src now c).run (.empty maxAge) = (.ok fields, s) ∧
      ∀ name, Internal name →
        Keyed.contains fields.sortable name = false ∧
        (name ∈ fields.searchable ↔
          (∃ f, (src.listing 0 c).bind Field.listing = .error f) ∧
            ∃ answer, src.probe 0 c = .ok answer ∧ Echoed answer name) := by
  obtain ⟨_, _, kept, -⟩ | ⟨fields, t, found, run⟩ := Store.run_fieldSet src now c (.empty maxAge)
  · cases kept
  · obtain ⟨searchable, u, sortable, v, first, second, both⟩ :=
      Store.run_discover src c (.empty maxAge)
    rw [both] at found
    cases found
    refine ⟨_, _, run, fun name internal => ⟨internal.not_sortable second, ?_⟩⟩
    rw [FieldSet.mem_make, internal.mem_searchable_iff first, Store.run_listing]
    rfl

/-! ### Echoed names -/

def echo (lists : Json) : Json :=
  .obj [("responseHeader", .obj [("params", .obj [("fl", lists)])])]

/-- Only probes are answered. -/
def echoSource (lists : Json) : Source where
  schema _ _ := .error .json
  listing _ _ := .error .json
  probe _ _ := .ok (echo lists)

theorem internal_discovered_echoed :
    Internal "_root_" ∧ Internal "_version_" ∧
      ∃ fields s, (Store.fieldSet (echoSource (.arr [.str "id, _version_", .str "_text_"])) 0
          "docs").run (.empty 0) = (.ok fields, s) ∧
        Keyed.contains fields.sortable "_version_" = false ∧ "_version_" ∈ fields.searchable ∧
        "_root_" ∉ fields.searchable := by
  have version : Internal "_version_" := ⟨⟨_, rfl⟩, by decide, by decide⟩
  have root : Internal "_root_" := ⟨⟨_, rfl⟩, by decide, by decide⟩
  obtain ⟨fields, s, run, names⟩ :=
    internal_discovered (echoSource (.arr [.str "id, _version_", .str "_text_"])) 0 0 "docs"
  have echoed : Echoed (echo (.arr [.str "id, _version_", .str "_text_"])) "_version_" :=
    ⟨"id, _version_", .inr ⟨_, rfl, by simp⟩, " _version_", by decide, by decide⟩
  refine ⟨root, version, fields, s, run, (names _ version).1,
    (names _ version).2.mpr ⟨⟨_, rfl⟩, _, rfl, echoed⟩, fun mem => ?_⟩
  obtain ⟨-, answer, probed, unechoed⟩ := (names _ root).2.mp mem
  cases probed
  exact absurd (mem_echoedFields.mpr ⟨unechoed, root.ne_empty⟩) (by decide)

theorem internal_searchable :
    Internal "_version_" ∧
      ∃ fields s, (Store.fieldSet (echoSource (.str "id,_version_")) 0 "docs").run (.empty 0) =
        (.ok fields, s) ∧ "_version_" ∈ fields.searchable :=
  ⟨⟨⟨_, rfl⟩, by decide, by decide⟩, _, _, rfl, by decide⟩

end SearchSelect.Schema
