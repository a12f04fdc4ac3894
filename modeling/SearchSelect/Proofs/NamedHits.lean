import SearchSelect.Proofs.RequestDiscipline
import SearchSelect.Proofs.Terms

/-! Which documents a statement over given ones names. The filter of their ids is read back by the
rules of filter queries, whatever the ids hold, and it is all that the given documents add to the
request. So the second request of a statement over neighbours names one document for each of them,
in their order: by the internal id of the neighbour or, where it has none, by its stored id or `0`
in place of that. -/

namespace SearchSelect

open Sql

/-! ## Reading a filter of ids -/

namespace Filter

/-- The items between the separators ` OR `. What follows a backslash stands for itself and begins
no separator. -/
def items : List Char → List (List Char)
  | [] => [[]]
  | '\x5c' :: c :: r => (items r).modifyHead (c :: ·)
  | ' ' :: 'O' :: 'R' :: ' ' :: r => [] :: items r
  | c :: r => (items r).modifyHead (c :: ·)

/-- The filter names the documents with these internal ids, in this order. -/
def Names (filter : String) (ids : List String) : Prop :=
  ∃ body, filter.toList = "_docid_:(".toList ++ body ++ [')'] ∧
    ids = (items body).map String.ofList

theorem items_backslash (c : Char) (r : List Char) :
    items ('\x5c' :: c :: r) = (items r).modifyHead (c :: ·) := by
  rw [items]

theorem items_plain {c : Char} (plain : isSpecial c = false) (r : List Char) :
    items (c :: r) = (items r).modifyHead (c :: ·) := by
  rw [items]
  · rintro _ _ rfl
    exact absurd plain (by decide)
  · rintro _ rfl
    exact absurd plain (by decide)

theorem items_separator (r : List Char) : items (" OR ".toList ++ r) = [] :: items r := by
  change items (' ' :: 'O' :: 'R' :: ' ' :: r) = _
  rw [items]

theorem items_escaped (s r : List Char) :
    items (escaped s ++ r) = (items r).modifyHead (s ++ ·) := by
  unfold escaped
  induction s with
  | nil => cases h : items r <;> simp [h]
  | cons c s ih =>
    rw [List.flatMap_cons]
    split
    · rw [List.append_assoc, List.cons_append, List.cons_append, List.nil_append,
        items_backslash, ih]
      cases items r <;> rfl
    · next plain =>
      rw [List.append_assoc, List.singleton_append, items_plain (by simpa using plain), ih]
      cases items r <;> rfl

/-- Escaped texts that are joined are read back, whatever they hold. -/
theorem items_joined {ids : List (List Char)} (some : ids ≠ []) :
    items (" OR ".toList.intercalate (ids.map escaped)) = ids := by
  induction ids with
  | nil => exact absurd rfl some
  | cons id ids ih =>
    by_cases last : ids = []
    · subst last
      have alone := items_escaped id []
      rw [List.append_nil] at alone
      simp [alone, items]
    · rw [List.map_cons, List.intercalate_cons_of_ne_nil (by simpa using last), List.append_assoc,
        items_escaped, items_separator, ih last]
      simp

theorem names_ofDocIds {ids : List String} (some : ids ≠ []) (ids' : List String) :
    Names (ofDocIds ids) ids' ↔ ids' = ids := by
  have back : (items (" OR ".toList.intercalate ((ids.map String.toList).map escaped))).map
      String.ofList = ids := by
    rw [items_joined (by simpa using some)]
    simp [Function.comp_def]
  unfold Names
  rw [toList_ofDocIds]
  constructor
  · rintro ⟨body, same, rfl⟩
    rw [← List.append_cancel_left (List.append_cancel_right same), back]
  · rintro rfl
    exact ⟨_, rfl, back.symm⟩

end Filter

/-! ## Statements over given documents -/

namespace Request

variable {sql : String} {ids : List String}

theorem overHits_error {f : Fault} (refused : Query.ofText sql = .error f) (ids : List String) :
    overHits sql ids = .error f := by
  rw [overHits, refused]
  rfl

theorem ofHits_some (s : Select) (some : ids ≠ []) :
    ofHits s ids = (ofSelect s).addFilter (Filter.ofDocIds ids) := by
  obtain ⟨id, ids, rfl⟩ := List.exists_cons_of_ne_nil some
  rfl

/-- A statement over given documents is accepted and refused as the statement is. Without any
document the request only loses its offset. Otherwise it gets one filter behind its own, which names
the given ids, and keeps everything else. -/
theorem overHits_restricts (sql : String) (ids : List String) :
    (∀ f, overHits sql ids = .error f ↔ Query.ofText sql = .error f) ∧
      ((∃ r, overHits sql ids = .ok r) ↔ ∃ q, Query.ofText sql = .ok q) ∧
      ∀ q, Query.ofText sql = .ok q →
        (ids = [] → overHits sql ids = .ok { ofSelect q.statement with start := none }) ∧
        (ids ≠ [] → ∃ filter,
          overHits sql ids = .ok { ofSelect q.statement with
            filters := (ofSelect q.statement).filters ++ [filter] } ∧
          ∀ ids', Filter.Names filter ids' ↔ ids' = ids) := by
  cases read : Query.ofText sql with
  | error f =>
    rw [overHits_error read]
    simp
  | ok q =>
    rw [overHits_ok read]
    refine ⟨by simp, by simp, fun _ same => ?_⟩
    cases same
    refine ⟨?_, fun some => ⟨Filter.ofDocIds ids, ?_, Filter.names_ofDocIds some⟩⟩
    · rintro rfl
      rfl
    · rw [ofHits_some q.statement some]
      rfl

/-- Ids with the separator, parentheses and backslashes in them, and an empty one. -/
def oddIds : List String :=
  ["a OR b", "", "(c\\)", "OR"]

def pagedText : String :=
  " select `id` from 'docs' where `n` = 1 order by `id` limit 5 offset 2"

def pagedQuery : Query where
  statement := ⟨.columns [⟨"id", none⟩], some "docs", some (.compare "n" .eq (.number "1")),
    [⟨"id", none⟩], some 5, some 2⟩
  collection := "docs"

theorem pagedQuery_wellFormed : pagedQuery.statement.WellFormed where
  projection := by simp [pagedQuery, Projection.WellFormed, Column.WellFormed, IsName, backtick]
  condition := by
    have number : IsNumber ['1'] :=
      ⟨[], ['1'], [], [], .inl rfl, by simp [IsDigits], .inl rfl, .inl rfl, rfl⟩
    simp [pagedQuery, Condition.WellFormed, Condition.Formed, Condition.Spelled,
      Literal.WellFormed, IsName, backtick, number]
  order := by simp [pagedQuery, IsName, backtick]

theorem ofText_pagedText : Query.ofText pagedText = .ok pagedQuery := by
  have text : pagedText = String.ofList (plainText pagedQuery.statement.tokens) := by
    decide +kernel
  have laid : Laid pagedQuery.statement.tokens pagedText.toList := by
    rw [text, String.toList_ofList]
    exact laid_plainText (allFit_select pagedQuery_wellFormed)
  exact Query.ofText_laid pagedQuery_wellFormed laid (by with_unfolding_all rfl)
    (by with_unfolding_all rfl) rfl (by decide)

theorem overHits_oddIds :
    Query.ofText pagedText = .ok pagedQuery ∧ oddIds ≠ [] ∧
      overHits pagedText [] = .ok ⟨"*:*", ["n:1"], some "id", some "id ASC", some 5, none⟩ ∧
      ∃ filter, overHits pagedText oddIds =
          .ok ⟨"*:*", ["n:1", filter], some "id", some "id ASC", some 5, some 2⟩ ∧
        Filter.Names filter oddIds := by
  have plain : ofSelect pagedQuery.statement =
      ⟨"*:*", ["n:1"], some "id", some "id ASC", some 5, some 2⟩ := by decide +kernel
  have some : oddIds ≠ [] := by decide
  obtain ⟨-, -, none⟩ := overHits_restricts pagedText []
  obtain ⟨-, -, given⟩ := overHits_restricts pagedText oddIds
  have free := (none pagedQuery ofText_pagedText).1 rfl
  obtain ⟨filter, restricted, names⟩ := (given pagedQuery ofText_pagedText).2 some
  rw [plain] at free restricted
  exact ⟨ofText_pagedText, some, free, filter, restricted, (names oddIds).mpr rfl⟩

end Request

/-! ## The ids of neighbours -/

namespace DocId

/-- What stands for the internal id of a document that has none: its stored id, or else `0`. -/
def standIn (doc : Doc) : String :=
  (first? ["id"] doc).getD "0"

def naming (doc : Doc) : String :=
  (internal? doc).getD (standIn doc)

theorem any?_getD (doc : Doc) : (any? doc).getD "0" = naming doc := by
  unfold any? naming standIn
  cases internal? doc <;> rfl

/-- Only internal ids are named just if each stand-in happens to be one of them. -/
theorem naming_internal (docs : List Doc) :
    (∀ id ∈ docs.map naming, ∃ doc ∈ docs, internal? doc = some id) ↔
      ∀ doc ∈ docs, internal? doc = none → ∃ other ∈ docs, internal? other = some (standIn doc) := by
  rw [List.forall_mem_map]
  refine forall₂_congr fun doc mem => ?_
  unfold naming
  cases own : internal? doc with
  | none => simp
  | some id => exact iff_of_true ⟨doc, mem, own⟩ nofun

end DocId

theorem Hits.idsOf_eq (answer : Json) : idsOf answer = (docsOf answer).map DocId.naming :=
  List.map_congr_left fun doc _ => DocId.any?_getD doc

/-! ## The second request -/

theorem Sends.unique {α : Type} {a : Action Session α} {s : Session}
    {l m : List (String × Request)} (hl : Sends a s l) (hm : Sends a s m) : l = m :=
  List.append_cancel_left (hl.symm.trans hm)

namespace Engine

variable {e : Engine} {w : World} {s : Session} {sql : String} {vector : QueryVector}
  {first second : String × Request}

/-- A second request is only sent once the first one has found neighbours, and is restricted to
these. -/
theorem of_sends_two (sends : Sends (e.vectorSelect w sql vector) s [first, second]) :
    ∃ (q : Query) (knn : Json), w.client s.traffic.requests.length first.1 first.2 = .ok knn ∧
      Hits.docsOf knn ≠ [] ∧
      second = (q.collection, neighbourRequest q.statement (Hits.idsOf knn)) := by
  cases prepared : (prepare w sql).run s with
  | mk r s' =>
    cases r with
    | error f =>
      have none : Sends (e.vectorSelect w sql vector) s [] :=
        (Sends.of_quiet (quiet_prepare w sql)).bind_error prepared
      cases sends.unique none
    | ok q =>
      cases size : e.reach q.statement with
      | error f =>
        have refused : Sends (e.vectorSelect w sql vector) s [] := by
          unfold Sends
          rw [run_vectorSelect_error prepared size, traffic_prepared prepared, List.append_nil]
        cases sends.unique refused
      | ok k =>
        by_cases found : ∃ knn, w.client s.traffic.requests.length q.collection
            (e.vectors.request vector none (some k) none) = .ok knn ∧ Hits.docsOf knn ≠ []
        · obtain ⟨knn, asked, some_⟩ := found
          cases sends.unique (sends_vectorSelect prepared size asked some_)
          exact ⟨q, knn, asked, some_, rfl⟩
        · have once : Sends (e.vectorSelect w sql vector) s [_] :=
            sends_vectorSelect_once prepared size fun knn asked =>
              Classical.not_not.mp fun some_ => found ⟨knn, asked, some_⟩
          cases sends.unique once

theorem getLast?_filters (st : Select) {ids : List String} (some_ : ids ≠ []) :
    (neighbourRequest st ids).filters.getLast? = some (Filter.ofDocIds ids) := by
  obtain ⟨id, ids, rfl⟩ := List.exists_cons_of_ne_nil some_
  exact List.getLast?_concat

/-- The last filter of a second request names each neighbour in turn by its internal id or, if it
has none, by its stand-in. So it names neighbours only if every stand-in happens to be the internal
id of a neighbour, and just the neighbours if all of them have internal ids. -/
theorem second_names_neighbours
    (sends : Sends (e.vectorSelect w sql vector) s [first, second]) :
    ∃ knn, w.client s.traffic.requests.length first.1 first.2 = .ok knn ∧
      ∃ filter ids, second.2.filters.getLast? = some filter ∧
        (∀ ids', Filter.Names filter ids' ↔ ids' = ids) ∧
        ids = (Hits.docsOf knn).map DocId.naming ∧
        ((∀ id ∈ ids, ∃ doc ∈ Hits.docsOf knn, DocId.internal? doc = some id) ↔
          ∀ doc ∈ Hits.docsOf knn, DocId.internal? doc = none →
            ∃ other ∈ Hits.docsOf knn, DocId.internal? other = some (DocId.standIn doc)) ∧
        ((∀ doc ∈ Hits.docsOf knn, DocId.internal? doc ≠ none) →
          ids.map some = (Hits.docsOf knn).map DocId.internal?) := by
  obtain ⟨q, knn, asked, found, rfl⟩ := of_sends_two sends
  have some_ := Hits.idsOf_ne_nil found
  refine ⟨knn, asked, _, Hits.idsOf knn, getLast?_filters q.statement some_,
    Filter.names_ofDocIds some_, Hits.idsOf_eq knn, ?_, fun all => ?_⟩
  · rw [Hits.idsOf_eq]
    exact DocId.naming_internal (Hits.docsOf knn)
  · rw [Hits.idsOf_eq, List.map_map]
    refine List.map_congr_left fun doc mem => ?_
    obtain ⟨id, own⟩ := Option.ne_none_iff_exists'.mp (all doc mem)
    simp [DocId.naming, own]

def secondPage : Query :=
  ⟨⟨.everything, some "c", none, [], some 2, some 1⟩, "c"⟩

theorem second_names_neighbours_tied :
    ∃ first second filter, Sends (plainEngine.vectorSelect tiedWorld
        "SELECT * FROM c LIMIT 2 OFFSET 1" []) plainEngine.start [first, second] ∧
      second.2.filters.getLast? = some filter ∧ Filter.Names filter ["7", "3", "7"] := by
  have text : Query.ofText "SELECT * FROM c LIMIT 2 OFFSET 1" = .ok secondPage := by
    with_unfolding_all rfl
  obtain ⟨_, prepared⟩ := prepare_bare tiedWorld.client text
  have sends : Sends (plainEngine.vectorSelect tiedWorld _ []) plainEngine.start [_, _] :=
    sends_vectorSelect prepared (reach_ok (by decide)) rfl (by decide)
  obtain ⟨knn, asked, filter, ids, last, names, rfl, -, -⟩ := second_names_neighbours sends
  cases asked
  exact ⟨_, _, filter, sends, last, (names _).mpr (by decide)⟩

/-! ### Neighbours without internal ids -/

def gapNeighbours : Json :=
  answerOf [numbered 7 "a", [("id", .str "9")], []]

def gapWorld : World :=
  ⟨bareSource, fun _ _ _ => .ok gapNeighbours, 0⟩

def everyDocument : Query :=
  ⟨⟨.everything, some "c", none, [], none, none⟩, "c"⟩

/-- The second request names the documents `9` and `0`, which are no neighbours. -/
theorem second_names_strangers :
    ∃ first second filter, Sends (plainEngine.vectorSelect gapWorld "SELECT * FROM c" [])
        plainEngine.start [("c", first), ("c", second)] ∧
      gapWorld.client plainEngine.start.traffic.requests.length "c" first = .ok gapNeighbours ∧
      second.filters = [filter] ∧ Filter.Names filter ["7", "9", "0"] ∧
      ∀ doc ∈ Hits.docsOf gapNeighbours,
        DocId.internal? doc ≠ some "9" ∧ DocId.internal? doc ≠ some "0" := by
  have text : Query.ofText "SELECT * FROM c" = .ok everyDocument := by with_unfolding_all rfl
  obtain ⟨_, prepared⟩ := prepare_bare gapWorld.client text
  have sends : Sends (plainEngine.vectorSelect gapWorld _ []) plainEngine.start [_, _] :=
    sends_vectorSelect prepared (reach_ok (by decide)) rfl (by decide)
  exact ⟨_, _, _, sends, rfl, rfl, (Filter.names_ofDocIds (by decide) _).mpr (by decide), by decide⟩

end Engine

end SearchSelect
