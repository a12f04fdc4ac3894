import SearchSelect.Proofs.SortAgreement

/-! Sort specifications in normal form. A specification is read as one or two words, whatever blanks
lie around them and however the direction is spelled; what it asks for is written as the field, one
space and the direction, and is read back from there unchanged. -/

namespace SearchSelect.Text

/-! ## The words of a text -/

/-- A text consists of these words, with blanks around and between them. -/
inductive Spaced : List Char → List (List Char) → Prop where
  | blank {s : List Char} (blanks : ∀ c ∈ s, isBlank c) : Spaced s []
  | word {a w r : List Char} {ws : List (List Char)} (blanks : ∀ c ∈ a, isBlank c) (some : w ≠ [])
    (solid : ∀ c ∈ w, isBlank c = false) (ends : ∀ c ∈ r.head?, isBlank c) (rest : Spaced r ws) :
    Spaced (a ++ w ++ r) (w :: ws)

theorem spaced_nil_iff {s : List Char} : Spaced s [] ↔ ∀ c ∈ s, isBlank c :=
  ⟨fun | .blank blanks => blanks, .blank⟩

theorem Spaced.solid {s w : List Char} {ws : List (List Char)} (spaced : Spaced s (w :: ws)) :
    w ≠ [] ∧ ∀ c ∈ w, isBlank c = false := by
  cases spaced with
  | word _ some solid _ _ => exact ⟨some, solid⟩

theorem words_append_of_blank {a : List Char} (blanks : ∀ c ∈ a, isBlank c) (s : List Char) :
    words (a ++ s) = words s := by
  induction a with
  | nil => rfl
  | cons c a ih =>
    obtain ⟨hc, ha⟩ := List.forall_mem_cons.mp blanks
    rw [← ih ha]
    simp [words, pieces, hc]

theorem words_append_of_solid {w r : List Char} (some : w ≠ [])
    (solid : ∀ c ∈ w, isBlank c = false) (ends : ∀ c ∈ r.head?, isBlank c) :
    words (w ++ r) = w :: words r := by
  cases r with
  | nil => simp [words, pieces_of_none solid, pieces, some]
  | cons c r =>
    have hc : isBlank c := ends c rfl
    simp [words, pieces_append hc, pieces_of_none solid, pieces, hc, some]

theorem Spaced.words_eq {s : List Char} {ws : List (List Char)} (spaced : Spaced s ws) :
    words s = ws := by
  induction spaced with
  | @blank s blanks =>
    rw [← List.append_nil s, words_append_of_blank blanks]
    rfl
  | word blanks some solid ends _ ih =>
    rw [List.append_assoc, words_append_of_blank blanks, words_append_of_solid some solid ends, ih]

theorem exists_spaced (s : List Char) : ∃ ws, Spaced s ws := by
  induction s with
  | nil => exact ⟨[], .blank nofun⟩
  | cons c s ih =>
    obtain ⟨ws, spaced⟩ := ih
    cases hc : isBlank c with
    | true =>
      cases spaced with
      | blank blanks => exact ⟨[], .blank (List.forall_mem_cons.mpr ⟨hc, blanks⟩)⟩
      | word blanks some solid ends rest =>
        exact ⟨_, .word (List.forall_mem_cons.mpr ⟨hc, blanks⟩) some solid ends rest⟩
    | false =>
      have alone : ∀ d ∈ [c], isBlank d = false := List.forall_mem_singleton.mpr hc
      -- a character that is no blank begins a word, or goes on with the one behind it
      cases spaced with
      | blank blanks =>
        refine ⟨_, .word (a := []) nofun (by simp) alone (fun d hd => ?_) (.blank blanks)⟩
        exact blanks d (List.mem_of_mem_head? hd)
      | @word a w r ws blanks some solid ends rest =>
        cases a with
        | nil =>
          have longer : ∀ d ∈ c :: w, isBlank d = false := List.forall_mem_cons.mpr ⟨hc, solid⟩
          exact ⟨_, .word (a := []) (w := c :: w) nofun (by simp) longer ends rest⟩
        | cons b a =>
          have ended : ∀ d ∈ (b :: a ++ w ++ r).head?, isBlank d := by
            rintro d ⟨⟩
            exact blanks b List.mem_cons_self
          exact ⟨_, .word (a := []) nofun (by simp) alone ended (.word blanks some solid ends rest)⟩

theorem words_eq_iff {s : List Char} {ws : List (List Char)} : words s = ws ↔ Spaced s ws := by
  constructor
  · rintro rfl
    obtain ⟨ws, spaced⟩ := exists_spaced s
    rwa [spaced.words_eq]
  · exact Spaced.words_eq

theorem wordsOf_eq_iff {s : String} {ws : List String} :
    wordsOf s = ws ↔ Spaced s.toList (ws.map String.toList) := by
  rw [← words_eq_iff]
  unfold wordsOf
  constructor
  · rintro rfl
    simp [Function.comp_def]
  · intro h
    simp [h, Function.comp_def]

end SearchSelect.Text

namespace SearchSelect.Schema

/-- Every field that the schema declares sortable has a default direction that it allows. -/
theorem Document.directed_sortable (doc : Document) : Directed doc.fieldSet.sortable := by
  apply directed_addPseudo
  refine List.foldlRecOn _ _ (fun e he => by cases he) fun m directed f _ => ?_
  split
  · exact directed.insert f.name (directed_bothWays _ .asc f.isIndexed)
  · exact directed

end SearchSelect.Schema

namespace SearchSelect.Validation

open Schema Store Text

/-! ## What a specification asks for, and what comes of it -/

/-- What a specification asks for: a sortable field, and a direction that the field allows, its
default one unless a second word spells another. -/
inductive Specifies (sortable : Keyed FieldInfo) (text field : String) : Direction → Prop where
  | bare {info : FieldInfo} (spaced : Spaced text.toList [field.toList])
    (known : Keyed.get? sortable field = some info) : Specifies sortable text field info.default
  | directed {word : String} {info : FieldInfo} {d : Direction}
    (spaced : Spaced text.toList [field.toList, word.toList])
    (known : Keyed.get? sortable field = some info)
    (spelled : word.toList.map Char.toLower = d.name.toList) (allowed : info.supports d) :
    Specifies sortable text field d

section Outcomes

variable {σ : Type} {cat : Catalog σ} {c text field : String} {s : σ} {sortable : Keyed FieldInfo}

theorem sortDirection_word {info : FieldInfo} {word : String} {d : Direction} :
    sortDirection info field (some word) = .ok d ↔
      word.toList.map Char.toLower = d.name.toList ∧ info.supports d := by
  rw [← Direction.ofText?_eq_some]
  cases read : Direction.ofText? word with
  | none => simp [sortDirection, read]
  | some d' =>
    rw [Option.some.injEq]
    by_cases allowed : info.supports d'
    · have chosen : sortDirection info field (some word) = .ok d' := by
        simp [sortDirection, read, allowed]
      rw [chosen, Except.ok.injEq]
      exact ⟨fun same => ⟨same, same ▸ allowed⟩, And.left⟩
    · have refused : sortDirection info field (some word) = .error (.badDirection word field) := by
        simp [sortDirection, read, allowed]
      rw [refused]
      refine iff_of_false (by simp) ?_
      rintro ⟨rfl, allows⟩
      exact allowed allows

theorem sortDirection_refused {info : FieldInfo} {word : Option String} {f : Fault}
    (refused : sortDirection info field word = .error f) : f.kind = .query := by
  unfold sortDirection at refused
  split at refused
  · cases refused
  · split at refused
    · split at refused
      · cases refused
      · cases refused
        rfl
    · cases refused
      rfl

theorem run_sortBy_ok {word : Option String} {info : FieldInfo} {d : Direction}
    (asked : (cat.sortable c).run s = (.ok sortable, s))
    (known : Keyed.get? sortable field = some info)
    (chosen : sortDirection info field word = .ok d) :
    (sortBy cat c field word).run s = (.ok (field ++ " " ++ d.name), s) := by
  unfold sortBy
  rw [Action.run_bind_ok (Action.run_mapFault_ok asked), known]
  exact Action.run_bind_ok (Action.run_of_eq chosen s)

theorem run_sortBy (word : Option String) (asked : (cat.sortable c).run s = (.ok sortable, s)) :
    (∃ info d, Keyed.get? sortable field = some info ∧ sortDirection info field word = .ok d) ∨
      ∃ f, (sortBy cat c field word).run s = (.error f, s) ∧ f.kind = .query := by
  cases known : Keyed.get? sortable field with
  | none =>
    refine .inr ⟨.notSortable field, ?_, rfl⟩
    unfold sortBy
    rw [Action.run_bind_ok (Action.run_mapFault_ok asked), known]
    rfl
  | some info =>
    cases chosen : sortDirection info field word with
    | ok d => exact .inl ⟨info, d, rfl, chosen⟩
    | error f =>
      refine .inr ⟨f, ?_, sortDirection_refused chosen⟩
      unfold sortBy
      rw [Action.run_bind_ok (Action.run_mapFault_ok asked), known]
      exact Action.run_bind_error (Action.run_of_eq chosen s)

theorem normalSort_directed {word : String} (words : wordsOf text = [field, word]) :
    normalSort cat (some text) c = some <$> sortBy cat c field (some word) := by
  unfold normalSort
  simp only [words]

theorem normalSort_longer {w w' w'' : String} {ws : List String}
    (words : wordsOf text = w :: w' :: w'' :: ws) :
    normalSort cat (some text) c = throw (.sortShape (trimmed text)) := by
  unfold normalSort
  simp only [words]

theorem run_normalSort_blank (blank : ∀ ch ∈ text.toList, isBlank ch) :
    (normalSort cat (some text) c).run s = (.ok none, s) := by
  have words : wordsOf text = [] := wordsOf_eq_iff.mpr (.blank blank)
  unfold normalSort
  simp only [words]
  rfl

theorem run_normalSort_of_specifies {d : Direction}
    (asked : (cat.sortable c).run s = (.ok sortable, s))
    (specifies : Specifies sortable text field d) :
    (normalSort cat (some text) c).run s = (.ok (some (field ++ " " ++ d.name)), s) := by
  cases specifies with
  | bare spaced known =>
    rw [normalSort_bare (wordsOf_eq_iff.mpr spaced), map_eq_pure_bind,
      Action.run_bind_ok (run_sortBy_ok asked known rfl)]
    rfl
  | @directed word _ _ spaced known spelled allowed =>
    have chosen : sortDirection _ field (some word) = .ok d :=
      sortDirection_word.mpr ⟨spelled, allowed⟩
    rw [normalSort_directed (wordsOf_eq_iff.mpr spaced), map_eq_pure_bind,
      Action.run_bind_ok (run_sortBy_ok asked known chosen)]
    rfl

theorem Specifies.solid {d : Direction} (specifies : Specifies sortable text field d) :
    field ≠ "" ∧ ∀ ch ∈ field.toList, isBlank ch = false := by
  have named (ws : List (List Char)) (spaced : Spaced text.toList (field.toList :: ws)) :
      field ≠ "" ∧ ∀ ch ∈ field.toList, isBlank ch = false := by
    simpa using spaced.solid
  cases specifies with
  | bare spaced _ => exact named [] spaced
  | directed spaced _ _ _ => exact named _ spaced

theorem name_solid (d : Direction) : d.name ≠ "" ∧ ∀ ch ∈ d.name.toList, isBlank ch = false :=
  ⟨by cases d <;> decide, solid_of_all (by cases d <;> decide)⟩

/-- Written in full, a specification asks for the same again. -/
theorem Specifies.normal {d : Direction} (directed : Directed sortable)
    (specifies : Specifies sortable text field d) :
    Specifies sortable (field ++ " " ++ d.name) field d := by
  have words : wordsOf (field ++ " " ++ d.name) = [field, d.name] := by
    have joined : field ++ " " ++ d.name = " ".intercalate [field, d.name] := by simp
    rw [joined]
    exact wordsOf_intercalate rfl (by decide) (by simpa using ⟨specifies.solid, name_solid d⟩)
  have spaced : Spaced (field ++ " " ++ d.name).toList [field.toList, d.name.toList] :=
    wordsOf_eq_iff.mp words
  have lower : d.name.toList.map Char.toLower = d.name.toList := by cases d <;> decide
  cases specifies with
  | @bare info _ known =>
    obtain ⟨supports, -⟩ := directed _ (Keyed.mem_of_get? known)
    exact .directed spaced known lower (supports info.default)
  | directed _ known _ allowed => exact .directed spaced known lower allowed

/-- A specification is blank, asks for something, or is a fault of the query. -/
theorem normalSort_cases (asked : (cat.sortable c).run s = (.ok sortable, s)) (text : String) :
    (∀ ch ∈ text.toList, isBlank ch) ∨ (∃ field d, Specifies sortable text field d) ∨
      ∃ f, (normalSort cat (some text) c).run s = (.error f, s) ∧ f.kind = .query := by
  have failing {a : Action σ String} {f : Fault} (run : a.run s = (.error f, s)) :
      (some <$> a).run s = (.error f, s) := by
    rw [map_eq_pure_bind, Action.run_bind_error run]
  match words : wordsOf text with
  | [] => exact .inl (spaced_nil_iff.mp (wordsOf_eq_iff.mp words))
  | [field] =>
    have spaced : Spaced text.toList [field.toList] := wordsOf_eq_iff.mp words
    rw [normalSort_bare words]
    obtain ⟨info, d, known, -⟩ | ⟨f, run, query⟩ := run_sortBy none asked
    · exact .inr (.inl ⟨field, _, .bare spaced known⟩)
    · exact .inr (.inr ⟨f, failing run, query⟩)
  | [field, word] =>
    have spaced : Spaced text.toList [field.toList, word.toList] := wordsOf_eq_iff.mp words
    rw [normalSort_directed words]
    obtain ⟨info, d, known, chosen⟩ | ⟨f, run, query⟩ := run_sortBy (some word) asked
    · obtain ⟨spelled, allowed⟩ := sortDirection_word.mp chosen
      exact .inr (.inl ⟨field, d, .directed spaced known spelled allowed⟩)
    · exact .inr (.inr ⟨f, failing run, query⟩)
  | _ :: _ :: _ :: _ =>
    rw [normalSort_longer words]
    exact .inr (.inr ⟨_, rfl, rfl⟩)

/-- Which of the three it is shows in the outcome. -/
theorem run_normalSort (asked : (cat.sortable c).run s = (.ok sortable, s)) (text : String) :
    ∃ outcome, (normalSort cat (some text) c).run s = (outcome, s) ∧
      (outcome = .ok none ↔ ∀ ch ∈ text.toList, isBlank ch) ∧
      (∀ form, outcome = .ok (some form) ↔
        ∃ field d, Specifies sortable text field d ∧ form = field ++ " " ++ d.name) ∧
      ∀ f, outcome = .error f → f.kind = .query := by
  have runBlank (blank : ∀ ch ∈ text.toList, isBlank ch) :
      (normalSort cat (some text) c).run s = (.ok none, s) := run_normalSort_blank blank
  have runSpecified {field : String} {d : Direction} (specifies : Specifies sortable text field d) :
      (normalSort cat (some text) c).run s = (.ok (some (field ++ " " ++ d.name)), s) :=
    run_normalSort_of_specifies asked specifies
  obtain blank | ⟨field, d, specifies⟩ | ⟨f, run, query⟩ := normalSort_cases asked text
  · refine ⟨_, runBlank blank, iff_of_true rfl blank, fun form => iff_of_false nofun ?_, nofun⟩
    rintro ⟨field, d, specifies, -⟩
    cases (runBlank blank).symm.trans (runSpecified specifies)
  · refine ⟨_, runSpecified specifies, iff_of_false nofun fun blank => ?_,
      fun form => ⟨?_, ?_⟩, nofun⟩
    · cases (runBlank blank).symm.trans (runSpecified specifies)
    · rintro ⟨⟩
      exact ⟨field, d, specifies, rfl⟩
    · rintro ⟨field', d', specifies', rfl⟩
      exact congrArg Prod.fst ((runSpecified specifies).symm.trans (runSpecified specifies'))
  · refine ⟨_, run, iff_of_false nofun fun blank => ?_, fun form => iff_of_false nofun ?_, ?_⟩
    · cases (runBlank blank).symm.trans run
    · rintro ⟨field, d, specifies, -⟩
      cases (runSpecified specifies).symm.trans run
    · rintro f' ⟨⟩
      exact query

end Outcomes

/-- Over a collection whose schema is known, a specification has a normal form exactly if it asks
for something, and then the field and the direction it asks for; one that is blank has none. The
normal form is its own, nothing is changed, and whatever fails is a fault of the query. -/
theorem normalSort_normal {s : Store} {c : String} {doc : Document}
    (kept : Keyed.get? s.documents c = some doc) (sort : Option String) :
    ∃ outcome, (normalSort Store.catalog sort c).run s = (outcome, s) ∧
      (outcome = .ok none ↔ ∀ text ∈ sort, ∀ ch ∈ text.toList, isBlank ch) ∧
      (∀ form, outcome = .ok (some form) ↔
        ∃ text ∈ sort, ∃ field d, Specifies doc.fieldSet.sortable text field d ∧
          form = field ++ " " ++ d.name) ∧
      (∀ form, outcome = .ok (some form) →
        (normalSort Store.catalog (some form) c).run s = (.ok (some form), s)) ∧
      ∀ f, outcome = .error f → f.kind = .query := by
  have asked : (Store.catalog.sortable c).run s = (.ok doc.fieldSet.sortable, s) :=
    run_knownSortable kept
  cases sort with
  | none =>
    refine ⟨_, rfl, iff_of_true rfl nofun, fun form => iff_of_false nofun ?_, nofun, nofun⟩
    rintro ⟨text, ⟨⟩, _⟩
  | some text =>
    obtain ⟨outcome, run, blank, named, query⟩ := run_normalSort asked text
    refine ⟨outcome, run, ?_, fun form => ?_, fun form made => ?_, query⟩
    · simpa using blank
    · simpa using named form
    · obtain ⟨field, d, specifies, rfl⟩ := (named form).mp made
      exact run_normalSort_of_specifies asked (specifies.normal doc.directed_sortable)

/-! ### Forms of one sort -/

/-- The schema of the shelf is known, and nothing else. -/
def shelfStore : Store :=
  { Store.empty 0 with documents := [("docs", ⟨none, none, shelfFields, [], []⟩)] }

theorem normalSort_normal_price :
    Keyed.get? shelfStore.documents "docs" = some ⟨none, none, shelfFields, [], []⟩ ∧
      ∀ sort ∈ [" price\u2003DeSC\n", "price desc"],
        (normalSort Store.catalog (some sort) "docs").run shelfStore =
          (.ok (some "price desc"), shelfStore) := by
  have kept : Keyed.get? shelfStore.documents "docs" = some ⟨none, none, shelfFields, [], []⟩ := rfl
  obtain ⟨outcome, run, -, named, again, -⟩ := normalSort_normal kept (some " price\u2003DeSC\n")
  have words : wordsOf " price\u2003DeSC\n" = ["price", "DeSC"] := by decide
  have made : outcome = .ok (some "price desc") :=
    (named "price desc").mpr
      ⟨_, rfl, "price", .desc, .directed (wordsOf_eq_iff.mp words) rfl rfl rfl, rfl⟩
  rw [List.forall_mem_cons, List.forall_mem_singleton]
  exact ⟨kept, run.trans (by rw [made]), again _ made⟩

end SearchSelect.Validation
