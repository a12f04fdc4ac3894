import SearchSelect.Proofs.FieldEntries
import SearchSelect.Proofs.RequestedFields
import SearchSelect.Proofs.RoundTrip
import SearchSelect.Proofs.VectorSelect

/-! Which requests a statement sends, for every outcome of every step: one at most by keywords, two
at most over neighbours, and none before the statement is accepted. The text is read once more for
the second request, which cannot fail any more and reads the same statement. -/

namespace SearchSelect

open Schema Sql Text

/-! ## Requests sent -/

/-- From this session on the action sends just these requests, whatever comes of it. -/
def Sends {α : Type} (a : Action Session α) (s : Session) (sent : List (String × Request)) : Prop :=
  (a.run s).2.traffic.requests = s.traffic.requests ++ sent

namespace Sends

variable {α β : Type} {a : Action Session α} {f : α → Action Session β} {x : α} {s s' : Session}
  {l m : List (String × Request)} {w : World} {collection : String} {request : Request}

theorem of_quiet (h : Quiet a) : Sends a s [] := by
  unfold Sends
  rw [h s, List.append_nil]

theorem bind_ok (run : a.run s = (.ok x, s')) (first : Sends a s l) (rest : Sends (f x) s' m) :
    Sends (a >>= f) s (l ++ m) := by
  unfold Sends at first rest ⊢
  rw [run] at first
  rw [Action.run_bind_ok run, rest, first, List.append_assoc]

theorem bind_error {e : Fault} (run : a.run s = (.error e, s')) (first : Sends a s l) :
    Sends (a >>= f) s l := by
  unfold Sends at first ⊢
  rw [Action.run_bind_error run]
  rwa [run] at first

theorem bind_quiet (first : Sends a s l) (quiet : ∀ x, Quiet (f x)) : Sends (a >>= f) s l := by
  cases run : a.run s with
  | mk r s' =>
    cases r with
    | ok x => simpa using first.bind_ok run (of_quiet (quiet x))
    | error e => exact first.bind_error run

theorem quiet_bind (run : a.run s = (.ok x, s')) (quiet : Quiet a) (rest : Sends (f x) s' m) :
    Sends (a >>= f) s m :=
  (of_quiet quiet).bind_ok run rest

theorem send (w : World) (collection : String) (request : Request) (s : Session) :
    Sends (Session.onTraffic (Traffic.send w.client collection request)) s [(collection, request)] :=
  rfl

theorem ask (w : World) (collection : String) (request : Request) (s : Session) :
    Sends (Engine.ask w collection request) s [(collection, request)] :=
  (send w collection request s).bind_quiet fun _ => .of _

theorem search (v : VectorSearch) (w : World) (collection : String) (vector : QueryVector)
    (topK : Option UInt64) (s : Session) :
    Sends (Session.onTraffic (v.search w.client collection vector none topK none)) s
      [(collection, v.request vector none topK none)] :=
  rfl

end Sends

/-! ## Requests -/

namespace Request

theorem overHits_ok {sql : String} {q : Query} (read : Query.ofText sql = .ok q)
    (ids : List String) : overHits sql ids = .ok (ofHits q.statement ids) := by
  rw [overHits, read]
  rfl

theorem sortClause_of_ne_nil {keys : List SortKey} (some_ : keys ≠ []) :
    sortClause keys = some (",".intercalate (keys.map
      fun k => k.column ++ if k.direction = some .desc then " DESC" else " ASC")) := by
  have entry (k : SortKey) : sortEntry k =
      k.column ++ if k.direction = some .desc then " DESC" else " ASC" := by
    obtain ⟨column, _ | _ | _⟩ := k <;>
      simp [sortEntry, SortKey.effective, Direction.keyword, String.append_assoc]
  obtain ⟨k, keys, rfl⟩ := List.exists_cons_of_ne_nil some_
  rw [sortClause, List.map_congr_left fun k _ => entry k]
  nofun

theorem fieldList_columns (items : List Column) :
    fieldList (.columns items) =
      some (",".intercalate (items.map fun c => c.label.elim "" (· ++ ":") ++ c.source)) := by
  have entry (c : Column) : fieldEntry c = c.label.elim "" (· ++ ":") ++ c.source := by
    obtain ⟨source, _ | label⟩ := c <;> simp [fieldEntry]
  rw [fieldList, List.map_congr_left fun c _ => entry c]

end Request

namespace Engine

variable {e : Engine} {w : World} {s s' : Session} {sql : String} {vector : QueryVector} {q : Query}

/-! ## Accepted texts -/

theorem ofText_of_prepared (prepared : (prepare w sql).run s = (.ok q, s')) :
    Query.ofText sql = .ok q := by
  unfold prepare at prepared
  obtain ⟨_, _, -, loadNext⟩ := Action.run_bind_eq_ok prepared
  obtain ⟨_, t, -, checked⟩ := Action.run_bind_eq_ok loadNext
  unfold Session.onStore at checked
  rw [Action.run_onPart] at checked
  obtain ⟨accepted, -⟩ := Prod.mk.inj checked
  exact (Validation.run_checkedQuery_eq_ok (Prod.ext accepted rfl)).1

/-- Reading an accepted text again cannot fail, and gives the same statement. -/
theorem overHits_of_prepared (prepared : (prepare w sql).run s = (.ok q, s')) (ids : List String) :
    Request.overHits sql ids = .ok (Request.ofHits q.statement ids) :=
  Request.overHits_ok (ofText_of_prepared prepared) ids

/-- The statement over neighbours with its second request made from the text, which is read anew. -/
def vectorSelectAnew (e : Engine) (w : World) (sql : String) (vector : QueryVector) :
    Action Session Response := do
  let q ← prepare w sql
  let topK ← Action.of (e.reach q.statement)
  let answer ← Session.onTraffic
    (e.vectors.search w.client q.collection vector none (some topK) none)
  match (Hits.ofAnswer answer topK).ids with
  | [] => return .empty
  | ids =>
    let base ← Action.of (Request.overHits sql ids)
    let r ← ask w q.collection
      { base.ensureField docIdField with start := none, rows := some (.ofNat ids.length) }
    return e.window q.statement (ordered q.statement ids r)

theorem run_vectorSelectAnew (e : Engine) (w : World) (s : Session) (sql : String)
    (vector : QueryVector) :
    (e.vectorSelectAnew w sql vector).run s = (e.vectorSelect w sql vector).run s := by
  unfold vectorSelectAnew vectorSelect
  cases prepared : (prepare w sql).run s with
  | mk r s' =>
    cases r with
    | error f => rw [Action.run_bind_error prepared, Action.run_bind_error prepared]
    | ok q =>
      rw [Action.run_bind_ok prepared, Action.run_bind_ok prepared]
      simp only [overHits_of_prepared prepared]
      rfl

/-! ## The requests of a run -/

theorem sends_select (prepared : (prepare w sql).run s = (.ok q, s')) :
    Sends (select w sql) s [(q.collection, Request.ofSelect q.statement)] :=
  .quiet_bind prepared (quiet_prepare w sql) (.ask w q.collection _ s')

section Vectors

variable {k : UInt64} {knn : Json}

theorem run_search_error {v : VectorSearch} {topK : Option UInt64} {collection : String} {f : Fault}
    (failed : w.client s.traffic.requests.length collection (v.request vector none topK none) =
      .error f) :
    (Session.onTraffic (v.search w.client collection vector none topK none)).run s =
      (.error (.searchFailed f), s.sent collection (v.request vector none topK none)) := by
  unfold Session.onTraffic VectorSearch.search
  rw [Action.run_onPart, Action.run_mapFault, Traffic.run_send, failed]
  rfl

theorem sends_vectorSelect (prepared : (prepare w sql).run s = (.ok q, s'))
    (size : e.reach q.statement = .ok k)
    (asked : w.client s.traffic.requests.length q.collection
      (e.vectors.request vector none (some k) none) = .ok knn)
    (found : Hits.docsOf knn ≠ []) :
    Sends (e.vectorSelect w sql vector) s
      [(q.collection, e.vectors.request vector none (some k) none),
        (q.collection, neighbourRequest q.statement (Hits.idsOf knn))] := by
  rw [← traffic_prepared prepared] at asked
  have accepted := Action.run_of_eq size s'
  refine .quiet_bind prepared (quiet_prepare w sql) (.quiet_bind accepted (.of _) ?_)
  refine (Sends.search e.vectors w q.collection vector (some k) s').bind_ok (run_search asked)
    (m := [_]) ?_
  obtain ⟨id, ids, h⟩ := List.exists_cons_of_ne_nil (Hits.idsOf_ne_nil found)
  rw [Hits.ids_ofAnswer, h]
  exact (Sends.ask w q.collection _ _).bind_quiet fun _ _ => rfl

/-- Without any neighbour, or without an answer, there is no second request. -/
theorem sends_vectorSelect_once (prepared : (prepare w sql).run s = (.ok q, s'))
    (size : e.reach q.statement = .ok k)
    (nothing : ∀ knn, w.client s.traffic.requests.length q.collection
      (e.vectors.request vector none (some k) none) = .ok knn → Hits.docsOf knn = []) :
    Sends (e.vectorSelect w sql vector) s
      [(q.collection, e.vectors.request vector none (some k) none)] := by
  rw [← traffic_prepared prepared] at nothing
  have accepted := Action.run_of_eq size s'
  refine .quiet_bind prepared (quiet_prepare w sql) (.quiet_bind accepted (.of _) ?_)
  have first := Sends.search e.vectors w q.collection vector (some k) s'
  cases answer : w.client s'.traffic.requests.length q.collection
      (e.vectors.request vector none (some k) none) with
  | error f =>
    exact first.bind_error (run_search_error answer)
  | ok knn =>
    refine first.bind_ok (run_search answer) (m := []) (Sends.of_quiet ?_)
    have none : Hits.idsOf knn = [] := by simp [Hits.idsOf, nothing knn answer]
    rw [Hits.ids_ofAnswer, none]
    exact fun _ => rfl

end Vectors

/-! ## Discipline -/

/-- An unfiltered request for the `n` nearest neighbours of a vector. -/
structure IsSearch (field : String) (vector : QueryVector) (n : Nat) (r : Request) : Prop where
  query : r.query = "\x7b!knn f=" ++ field ++ " topK=" ++ String.ofList (Nat.toDigits 10 n) ++
    "\x7d" ++ vectorText vector
  rows : r.rows.map UInt64.toNat = some n
  filters : r.filters = []
  start : r.start = none
  sort : r.sort = none
  fields : r.fields = some "_docid_,score,_vector_distance_"

/-- The request of a statement, restricted to these documents and asking for all of them and for
their ids. It is the one that comes of reading the text again. -/
structure IsRestriction (sql : String) (q : Query) (ids : List String) (r : Request) : Prop where
  query : r.query = "*:*"
  filters : r.filters =
    (q.statement.condition.map Filter.ofCondition).toList ++ [Filter.ofDocIds ids]
  rows : ∃ n : UInt64, r.rows = some n ∧ (ids.length < UInt64.size → n.toNat = ids.length)
  start : r.start = none
  unsorted : q.statement.order = [] → r.sort = none
  sorted : q.statement.order ≠ [] → r.sort = some (",".intercalate (q.statement.order.map
    fun k => k.column ++ if k.direction = some .desc then " DESC" else " ASC"))
  ensured : "_docid_" ∈ Request.fieldEntries r.fields
  everything : q.statement.projection = .everything → r.fields = some "*,_docid_"
  columns : ∀ items, q.statement.projection = .columns items → ∀ listed,
    listed = ",".intercalate (items.map fun c => c.label.elim "" (· ++ ":") ++ c.source) →
      r.fields = some (if "_docid_" ∈ Request.fieldEntries (some listed) then listed
        else if listed = "" then "_docid_" else listed ++ ",_docid_")
  again : ∃ base, Request.overHits sql ids = .ok base ∧
    r = { base.ensureField docIdField with start := none, rows := some (.ofNat ids.length) }

theorem isSearch_request (vector : QueryVector) {n : Nat} (fits : n < UInt64.size) :
    IsSearch e.vectors.field vector n (e.vectors.request vector none (some (.ofNat n)) none) := by
  have whole : (UInt64.ofNat n).toNat = n := UInt64.toNat_ofNat_of_lt' fits
  have fields : VectorSearch.fieldNames = "_docid_,score,_vector_distance_" := by decide
  refine ⟨?_, congrArg some whole, rfl, rfl, rfl, congrArg some fields⟩
  change knnQuery e.vectors.field (some (.ofNat n)) vector = _
  simp only [knnQuery, whole, String.append_assoc]

theorem isRestriction_neighbourRequest (prepared : (prepare w sql).run s = (.ok q, s'))
    {ids : List String} (some_ : ids ≠ []) :
    IsRestriction sql q ids (neighbourRequest q.statement ids) := by
  obtain ⟨id, ids, rfl⟩ := List.exists_cons_of_ne_nil some_
  have filled : docIdField ≠ "" := by decide
  have fields : (neighbourRequest q.statement (id :: ids)).fields =
      some (Request.withName (Request.fieldList q.statement.projection) docIdField) := rfl
  have sort : (neighbourRequest q.statement (id :: ids)).sort =
      Request.sortClause q.statement.order := rfl
  refine ⟨rfl, rfl, ⟨_, rfl, UInt64.toNat_ofNat_of_lt'⟩, rfl, fun none => ?_, fun keys => ?_, ?_,
    fun all => ?_, fun items cols listed joined => ?_, ⟨_, overHits_of_prepared prepared _, rfl⟩⟩
  · rw [sort, none]
    rfl
  · rw [sort, Request.sortClause_of_ne_nil keys]
  · rw [fields]
    exact (Request.lists_iff filled).mp (Request.lists_withName (by decide) _)
  · rw [fields, all]
    rfl
  · have behind : "," ++ docIdField = ",_docid_" := by decide
    rw [fields, cols, Request.fieldList_columns, ← joined, Request.withName]
    simp only [Request.lists_iff filled, String.append_assoc, behind]
    rfl

/-- What is sent for a text, for whatever it is and whatever is answered. -/
theorem requests_of_text (e : Engine) (w : World) (s : Session) (sql : String)
    (vector : QueryVector) :
    (∀ f s', (prepare w sql).run s = (.error f, s') →
      (select w sql).run s = (.error f, s') ∧ Sends (select w sql) s [] ∧
        (e.vectorSelect w sql vector).run s = (.error f, s') ∧
        Sends (e.vectorSelect w sql vector) s []) ∧
    ∀ q s', (prepare w sql).run s = (.ok q, s') →
      q.statement.collection.map trimmed = some q.collection ∧
      Sends (select w sql) s [(q.collection, Request.ofSelect q.statement)] ∧
      (∀ ids, Request.overHits sql ids = .ok (Request.ofHits q.statement ids)) ∧
      (UInt64.size ≤ (q.statement.limit.getD e.vectors.defaultTopK).toNat +
          (q.statement.offset.getD 0).toNat →
        (∃ f, f.kind = .query ∧ (e.vectorSelect w sql vector).run s = (.error f, s')) ∧
          Sends (e.vectorSelect w sql vector) s []) ∧
      ((q.statement.limit.getD e.vectors.defaultTopK).toNat +
          (q.statement.offset.getD 0).toNat < UInt64.size →
        ∃ first, IsSearch e.vectors.field vector
            ((q.statement.limit.getD e.vectors.defaultTopK).toNat +
              (q.statement.offset.getD 0).toNat) first ∧
          ((∀ knn, w.client s.traffic.requests.length q.collection first = .ok knn →
              Hits.docsOf knn = []) →
            Sends (e.vectorSelect w sql vector) s [(q.collection, first)]) ∧
          ∀ knn, w.client s.traffic.requests.length q.collection first = .ok knn →
            Hits.docsOf knn ≠ [] → ∃ second, IsRestriction sql q (Hits.idsOf knn) second ∧
              Sends (e.vectorSelect w sql vector) s
                [(q.collection, first), (q.collection, second)]) := by
  constructor
  · intro f s' refused
    have quiet := Sends.of_quiet (s := s) (quiet_prepare w sql)
    exact ⟨Action.run_bind_error refused, quiet.bind_error refused,
      Action.run_bind_error refused, quiet.bind_error refused⟩
  · intro q s' prepared
    refine ⟨(ofText?_of_query (ofText_of_prepared prepared)).2.1, sends_select prepared,
      overHits_of_prepared prepared, fun large => ?_, fun fits => ?_⟩
    · have refused : (e.vectorSelect w sql vector).run s = (.error .windowTooLarge, s') :=
        run_vectorSelect_error prepared (reach_error large)
      refine ⟨⟨.windowTooLarge, rfl, refused⟩, ?_⟩
      unfold Sends
      rw [refused, traffic_prepared prepared, List.append_nil]
    · have size := reach_ok fits
      refine ⟨_, isSearch_request vector fits, sends_vectorSelect_once prepared size,
        fun knn asked found => ⟨_, isRestriction_neighbourRequest prepared ?_,
          sends_vectorSelect prepared size asked found⟩⟩
      simpa [Hits.idsOf] using found

/-- A condition and an offset, but no limit. -/
def filtered : Query :=
  ⟨⟨.everything, some "c", some (.compare "a" .eq (.text "x")), [], none, some 1⟩, "c"⟩

theorem ofText_filteredText :
    Query.ofText " select * from 'c' where `a` = 'x' offset 1" = .ok filtered := by
  have ok : filtered.statement.WellFormed := by
    refine ⟨trivial, ?_, by simp [filtered]⟩
    simp [filtered, Condition.WellFormed, Condition.Formed, Condition.Spelled, IsName, backtick,
      Literal.WellFormed]
  have plain : " select * from 'c' where `a` = 'x' offset 1" =
      String.ofList (plainText filtered.statement.tokens) := by decide +kernel
  have laid : Laid filtered.statement.tokens " select * from 'c' where `a` = 'x' offset 1".toList := by
    rw [plain, String.toList_ofList]
    exact laid_plainText (allFit_select ok)
  exact Query.ofText_laid ok laid (by with_unfolding_all rfl) (by with_unfolding_all rfl) rfl
    (show filtered.collection ≠ "" by decide)

theorem requests_of_filtered :
    Sends (pairEngine.vectorSelect tiedWorld " select * from 'c' where `a` = 'x' offset 1"
        [.infinite false, .nan]) pairEngine.start
      [("c", ⟨"\x7b!knn f=v topK=3\x7d[inf,NaN]", [], some "_docid_,score,_vector_distance_",
          none, some 3, none⟩),
        ("c", ⟨"*:*", ["a:\"x\"", "_docid_:(7 OR 3 OR 7)"], some "*,_docid_", none, some 3,
          none⟩)] := by
  obtain ⟨_, prepared⟩ := prepare_bare tiedWorld.client ofText_filteredText
  obtain ⟨-, accepted⟩ := requests_of_text pairEngine tiedWorld pairEngine.start
    " select * from 'c' where `a` = 'x' offset 1" [.infinite false, .nan]
  obtain ⟨-, -, -, -, runs⟩ := accepted filtered _ prepared
  obtain ⟨first, search, -, answered⟩ := runs (by decide)
  obtain ⟨second, restriction, sends⟩ := answered tiedNeighbours rfl (by decide)
  have three {n : UInt64} (same : n.toNat = 3) : n = 3 := UInt64.toNat_inj.mp same
  have searches : first = ⟨"\x7b!knn f=v topK=3\x7d[inf,NaN]", [],
      some "_docid_,score,_vector_distance_", none, some 3, none⟩ := by
    obtain ⟨query, rows, filters, start, sort, fields⟩ := search
    obtain ⟨n, rows, count⟩ := Option.map_eq_some_iff.mp rows
    rw [three count] at rows
    have line : "\x7b!knn f=" ++ "v" ++ " topK=" ++ String.ofList (Nat.toDigits 10 3) ++ "\x7d" ++
        vectorText [.infinite false, .nan] = "\x7b!knn f=v topK=3\x7d[inf,NaN]" := by
      decide +kernel
    exact Request.ext (query.trans line) filters fields sort rows start
  have restricts : second = ⟨"*:*", ["a:\"x\"", "_docid_:(7 OR 3 OR 7)"], some "*,_docid_", none,
      some 3, none⟩ := by
    obtain ⟨n, rows, count⟩ := restriction.rows
    rw [three (count (by decide))] at rows
    have filters : (filtered.statement.condition.map Filter.ofCondition).toList ++
        [Filter.ofDocIds (Hits.idsOf tiedNeighbours)] = ["a:\"x\"", "_docid_:(7 OR 3 OR 7)"] := by
      decide +kernel
    exact Request.ext restriction.query (restriction.filters.trans filters)
      (restriction.everything rfl) (restriction.unsorted rfl) rows restriction.start
  rwa [searches, restricts] at sends

end Engine

end SearchSelect
