import SearchSelect.Engine
import SearchSelect.Proofs.Ranking

/-! A statement over neighbours, step by step: what it asks, in which order, and which documents
it returns. The window is cut out of all documents, in their final order, by natural numbers; no
count is cut off or wraps around once it has passed the check of its size. -/

namespace SearchSelect

open Sql

namespace Traffic

def sent (t : Traffic) (collection : String) (request : Request) : Traffic :=
  { t with requests := t.requests ++ [(collection, request)] }

theorem run_send (client : Client) (collection : String) (request : Request) (t : Traffic) :
    (send client collection request).run t =
      (client t.requests.length collection request, t.sent collection request) := rfl

theorem length_sent (t : Traffic) (collection : String) (request : Request) :
    (t.sent collection request).requests.length = t.requests.length + 1 := by
  simp [sent]

end Traffic

namespace Session

def sent (s : Session) (collection : String) (request : Request) : Session :=
  { s with traffic := s.traffic.sent collection request }

end Session

/-! ## Quiet actions -/

/-- Whatever comes of it, the action sends no request. -/
def Quiet {α : Type} (a : Action Session α) : Prop :=
  ∀ s : Session, (a.run s).2.traffic = s.traffic

namespace Quiet

variable {α β : Type}

theorem of (r : Except Fault α) : Quiet (Action.of r) := by
  intro s
  rfl

theorem onStore (a : Action Schema.Store α) : Quiet (Session.onStore a) := by
  intro s
  rfl

theorem bind {a : Action Session α} {f : α → Action Session β} (ha : Quiet a)
    (hf : ∀ x, Quiet (f x)) : Quiet (a >>= f) :=
  Action.Keeps.bind ha hf

end Quiet

namespace Hits

/-- The id of every document of an answer, in its order. -/
def idsOf (answer : Json) : List String :=
  (docsOf answer).map fun d => (DocId.any? d).getD "0"

theorem ids_ofAnswer (answer : Json) (topK : UInt64) : (ofAnswer answer topK).ids = idsOf answer := by
  unfold ids ofAnswer idsOf
  rw [List.map_map]
  rfl

theorem idsOf_ne_nil {answer : Json} (found : docsOf answer ≠ []) : idsOf answer ≠ [] := by
  simpa [idsOf] using found

end Hits

namespace Engine

variable {e : Engine} {w : World} {s : Session} {collection : String} {answer : Json}

theorem quiet_prepare (w : World) (sql : String) : Quiet (prepare w sql) := by
  unfold prepare
  apply Quiet.bind (Quiet.of _)
  intro q
  apply Quiet.bind (Quiet.onStore _)
  intro _
  exact Quiet.onStore _

theorem traffic_prepared {w : World} {sql : String} {s s' : Session} {q : Query}
    (prepared : (prepare w sql).run s = (.ok q, s')) : s'.traffic = s.traffic := by
  have quiet := quiet_prepare w sql s
  rw [prepared] at quiet
  exact quiet

theorem run_search {v : VectorSearch} {vector : QueryVector} {topK : Option UInt64}
    (asked : w.client s.traffic.requests.length collection (v.request vector none topK none) =
      .ok answer) :
    (Session.onTraffic (v.search w.client collection vector none topK none)).run s =
      (.ok answer, s.sent collection (v.request vector none topK none)) := by
  unfold Session.onTraffic VectorSearch.search
  rw [Action.run_onPart, Action.run_mapFault, Traffic.run_send, asked]
  rfl

theorem run_ask {request : Request} {r : Response}
    (answered : w.client s.traffic.requests.length collection request = .ok answer)
    (normal : Response.ofAnswer answer = .ok r) :
    (ask w collection request).run s = (.ok r, s.sent collection request) := by
  have sent : (Session.onTraffic (Traffic.send w.client collection request)).run s =
      (.ok answer, s.sent collection request) := by
    unfold Session.onTraffic
    rw [Action.run_onPart, Traffic.run_send, answered]
    rfl
  unfold ask
  rw [Action.run_bind_ok sent, Action.run_of, normal]

theorem reach_ok {st : Select} (fits : (e.limit st).toNat + (offset st).toNat < UInt64.size) :
    e.reach st = .ok (.ofNat ((e.limit st).toNat + (offset st).toNat)) :=
  if_pos fits

theorem reach_error {st : Select}
    (large : UInt64.size ≤ (e.limit st).toNat + (offset st).toNat) :
    e.reach st = .error .windowTooLarge :=
  if_neg (Nat.not_lt.mpr large)

section Run

variable {s' : Session} {sql : String} {vector : QueryVector} {q : Query} {k : UInt64} {knn : Json}
  {r : Response}

theorem run_vectorSelect_error {f : Fault} (prepared : (prepare w sql).run s = (.ok q, s'))
    (size : e.reach q.statement = .error f) :
    (e.vectorSelect w sql vector).run s = (.error f, s') := by
  unfold vectorSelect
  rw [Action.run_bind_ok prepared, Action.run_bind_error (Action.run_of_eq size s')]

/-- Once the statement is accepted, exactly two requests are sent if the first one finds
anything. -/
theorem run_vectorSelect (prepared : (prepare w sql).run s = (.ok q, s'))
    (size : e.reach q.statement = .ok k)
    (asked : w.client s.traffic.requests.length q.collection
      (e.vectors.request vector none (some k) none) = .ok knn)
    (found : Hits.docsOf knn ≠ [])
    (answered : w.client (s.traffic.requests.length + 1) q.collection
      (neighbourRequest q.statement (Hits.idsOf knn)) = .ok answer)
    (normal : Response.ofAnswer answer = .ok r) :
    (e.vectorSelect w sql vector).run s =
      (.ok (e.window q.statement (ordered q.statement (Hits.idsOf knn) r)),
        (s'.sent q.collection (e.vectors.request vector none (some k) none)).sent q.collection
          (neighbourRequest q.statement (Hits.idsOf knn))) := by
  rw [← traffic_prepared prepared] at asked answered
  unfold vectorSelect
  rw [Action.run_bind_ok prepared, Action.run_bind_ok (Action.run_of_eq size s'),
    Action.run_bind_ok (run_search asked), Hits.ids_ofAnswer]
  obtain ⟨id, ids, h⟩ := List.exists_cons_of_ne_nil (Hits.idsOf_ne_nil found)
  rw [h] at answered ⊢
  rw [← Traffic.length_sent s'.traffic q.collection (e.vectors.request vector none (.some k) none)]
    at answered
  have asked₂ : (ask w q.collection (neighbourRequest q.statement (id :: ids))).run
      (s'.sent q.collection (e.vectors.request vector none (.some k) none)) = _ :=
    run_ask answered normal
  exact Action.run_bind_ok asked₂

/-- Without any neighbour there is nothing to restrict the statement to. -/
theorem run_vectorSelect_empty (prepared : (prepare w sql).run s = (.ok q, s'))
    (size : e.reach q.statement = .ok k)
    (asked : w.client s.traffic.requests.length q.collection
      (e.vectors.request vector none (some k) none) = .ok knn)
    (nothing : Hits.idsOf knn = []) :
    (e.vectorSelect w sql vector).run s =
      (.ok .empty, s'.sent q.collection (e.vectors.request vector none (some k) none)) := by
  rw [← traffic_prepared prepared] at asked
  unfold vectorSelect
  rw [Action.run_bind_ok prepared, Action.run_bind_ok (Action.run_of_eq size s'),
    Action.run_bind_ok (run_search asked), Hits.ids_ofAnswer, nothing]
  rfl

end Run

/-! ## The window -/

/-- The documents in the order in which the window is cut out of them. -/
def inOrder (st : Select) (ids : List String) (docs : List Doc) : List Doc :=
  if st.order = [] then Response.ranked DocId.internal? ids docs else docs

theorem docs_ordered (st : Select) (ids : List String) (r : Response) :
    (ordered st ids r).docs = inOrder st ids r.docs := by
  unfold ordered inOrder
  split
  · rw [Response.reorder_docs]
  · rfl

theorem inOrder_perm (st : Select) (ids : List String) (docs : List Doc) :
    (inOrder st ids docs).Perm docs := by
  unfold inOrder
  split
  · exact Response.ranked_perm ids docs
  · exact List.Perm.refl docs

theorem getElem?_window (e : Engine) (st : Select) (r : Response) (i : Nat) :
    (e.window st r).docs[i]? =
      if i < (e.limit st).toNat then r.docs[(offset st).toNat + i]? else none := by
  unfold window
  rw [List.getElem?_take]
  split
  · rw [List.getElem?_drop]
  · rfl

/-- The whole of a statement over neighbours: it is refused without any request if its window
reaches too far; otherwise the window shows the documents at its positions, and no others. -/
theorem vectorSelect_window {s' : Session} {sql : String} {vector : QueryVector} {q : Query}
    {knn : Json} {r : Response} (prepared : (prepare w sql).run s = (.ok q, s'))
    (asked : w.client s.traffic.requests.length q.collection
      (e.vectors.request vector none
        (some (.ofNat ((q.statement.limit.getD e.vectors.defaultTopK).toNat +
          (q.statement.offset.getD 0).toNat))) none) = .ok knn)
    (found : Hits.docsOf knn ≠ [])
    (answered : w.client (s.traffic.requests.length + 1) q.collection
      (neighbourRequest q.statement (Hits.idsOf knn)) = .ok answer)
    (normal : Response.ofAnswer answer = .ok r) :
    (UInt64.size ≤ (q.statement.limit.getD e.vectors.defaultTopK).toNat +
        (q.statement.offset.getD 0).toNat →
      (e.vectorSelect w sql vector).run s = (.error .windowTooLarge, s')) ∧
    ((q.statement.limit.getD e.vectors.defaultTopK).toNat +
        (q.statement.offset.getD 0).toNat < UInt64.size →
      ∃ out s'', (e.vectorSelect w sql vector).run s = (.ok out, s'') ∧
        out.numFound = r.docs.length ∧ out.start = (q.statement.offset.getD 0).toNat ∧
        (inOrder q.statement (Hits.idsOf knn) r.docs).Perm r.docs ∧
        ∀ i, out.docs[i]? =
          if i < (q.statement.limit.getD e.vectors.defaultTopK).toNat then
            (inOrder q.statement (Hits.idsOf knn) r.docs)[(q.statement.offset.getD 0).toNat + i]?
          else none) := by
  constructor
  · intro large
    exact run_vectorSelect_error prepared (reach_error large)
  · intro fits
    have run := run_vectorSelect prepared (reach_ok fits) asked found answered normal
    refine ⟨_, _, run, ?_, rfl, inOrder_perm _ _ _, fun i => ?_⟩
    · change (ordered q.statement (Hits.idsOf knn) r).docs.length = r.docs.length
      rw [docs_ordered]
      exact (inOrder_perm _ _ _).length_eq
    · rw [getElem?_window, docs_ordered]
      rfl

/-! ## A page with ties -/

/-- Collections about which nothing is known but that they exist. -/
def bareSource : Schema.Source where
  schema _ _ := .ok (.obj [("schema", .obj [])])
  listing _ _ := .error .json
  probe _ _ := .error .json

def answerOf (docs : List Doc) : Json :=
  .obj [("response", .obj [("docs", .arr (docs.map .obj))])]

def numbered (n : Int) (id : String) : Doc :=
  [("_docid_", .num (.int n)), ("id", .str id)]

def plainEngine : Engine :=
  ⟨.default, .onField "v"⟩

theorem prepare_bare (client : Client) {sql : String} {condition : Option Condition}
    {limit offset : Option UInt64}
    (text : Query.ofText sql = .ok ⟨⟨.everything, some "c", condition, [], limit, offset⟩, "c"⟩) :
    ∃ s', (prepare ⟨bareSource, client, 0⟩ sql).run plainEngine.start =
      (.ok ⟨⟨.everything, some "c", condition, [], limit, offset⟩, "c"⟩, s') := by
  unfold prepare Validation.checkedQuery
  rw [text]
  exact ⟨_, rfl⟩

/-- The stored id of the second document looks like an internal one, and the last two share
theirs. -/
def tied : List Doc :=
  [numbered 3 "a", [("id", .str "7")], numbered 7 "b", numbered 7 "c"]

def tiedNeighbours : Json :=
  answerOf [numbered 7 "b", numbered 3 "a", numbered 7 "c"]

def tiedWorld : World :=
  ⟨bareSource, fun n _ _ => .ok (if n = 0 then tiedNeighbours else answerOf tied), 0⟩

/-- Where a statement says nothing else, a page shows two documents. -/
def pairEngine : Engine :=
  ⟨.default, { VectorSearch.onField "v" with defaultTopK := 2 }⟩

def unlimited : Query :=
  ⟨⟨.everything, some "c", none, [], none, some 1⟩, "c"⟩

theorem vectorSelect_window_unlimited :
    ∃ out s', (pairEngine.vectorSelect tiedWorld "SELECT * FROM c OFFSET 1" []).run
        pairEngine.start = (.ok out, s') ∧
      out.numFound = 4 ∧ out.start = 1 ∧ out.docs[0]? = some (numbered 7 "c") ∧
      out.docs[1]? = some (numbered 3 "a") ∧ out.docs[2]? = none := by
  have text : Query.ofText "SELECT * FROM c OFFSET 1" = .ok unlimited := by
    with_unfolding_all rfl
  obtain ⟨_, prepared⟩ := prepare_bare tiedWorld.client text
  have found : Hits.docsOf tiedNeighbours ≠ [] := by decide
  have normal : Response.ofAnswer (answerOf tied) = .ok ⟨4, 0, none, tied⟩ := by with_unfolding_all rfl
  have fits : (unlimited.statement.limit.getD pairEngine.vectors.defaultTopK).toNat +
      (unlimited.statement.offset.getD 0).toNat < UInt64.size := by decide
  obtain ⟨out, s', run, count, start, -, docs⟩ :=
    (vectorSelect_window prepared rfl found rfl normal).2 fits
  refine ⟨out, s', run, count, start, ?_, ?_, ?_⟩
  · rw [docs]
    with_unfolding_all rfl
  · rw [docs]
    with_unfolding_all rfl
  · rw [docs]
    with_unfolding_all rfl

end Engine

end SearchSelect
