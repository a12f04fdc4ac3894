import SearchSelect.Proofs.RoundTrip
import SearchSelect.Proofs.VectorSelect

/-! Pages of a statement over neighbours. The search goes as far as the window reaches, and the
condition of the statement is applied to what it finds before the window is cut. So a page is a
window of those among the nearest neighbours that satisfy the condition, and two pages next to each
other leave something out of the page that joins them unless the first one is full or nothing
follows. -/

namespace SearchSelect

/-! ## Windows of a filtered ranking -/

section Windows

variable {α : Type} {keep : α → Bool} {ranking : List α} {n m : Nat}

/-- The window of length `n` behind `o` of what is kept among the `n + o` first. -/
def shown (keep : α → Bool) (ranking : List α) (n o : Nat) : List α :=
  (((ranking.take (n + o)).filter keep).drop o).take n

def kept (keep : α → Bool) (ranking : List α) (n : Nat) : List α :=
  (ranking.take n).filter keep

def keptNext (keep : α → Bool) (ranking : List α) (n m : Nat) : List α :=
  ((ranking.drop n).take m).filter keep

theorem kept_length_le (keep : α → Bool) (ranking : List α) (n : Nat) :
    (kept keep ranking n).length ≤ n := by
  have filtered : (kept keep ranking n).length ≤ (ranking.take n).length := List.length_filter_le _ _
  have taken : (ranking.take n).length ≤ n := List.length_take_le n ranking
  omega

theorem keptNext_length_le (keep : α → Bool) (ranking : List α) (n m : Nat) :
    (keptNext keep ranking n m).length ≤ m :=
  kept_length_le keep (ranking.drop n) m

theorem kept_add (keep : α → Bool) (ranking : List α) (n m : Nat) :
    kept keep ranking (n + m) = kept keep ranking n ++ keptNext keep ranking n m := by
  unfold kept keptNext
  rw [List.take_add, List.filter_append]

theorem shown_first (keep : α → Bool) (ranking : List α) (n : Nat) :
    shown keep ranking n 0 = kept keep ranking n := by
  change (kept keep ranking n).take n = kept keep ranking n
  rw [List.take_of_length_le (kept_length_le keep ranking n)]

theorem shown_next (keep : α → Bool) (ranking : List α) (n m : Nat) :
    shown keep ranking m n =
      (keptNext keep ranking n m).drop (n - (kept keep ranking n).length) := by
  have before := kept_length_le keep ranking n
  have behind := keptNext_length_le keep ranking n m
  change ((kept keep ranking (m + n)).drop n).take m = _
  rw [Nat.add_comm m n, kept_add, List.drop_append, List.drop_of_length_le before, List.nil_append]
  apply List.take_of_length_le
  rw [List.length_drop]
  omega

theorem shown_front (keep : α → Bool) (ranking : List α) (n m : Nat) :
    shown keep ranking n 0 <+: shown keep ranking (n + m) 0 := by
  rw [shown_first, shown_first, kept_add]
  exact List.prefix_append _ _

theorem shown_back (keep : α → Bool) (ranking : List α) (n m : Nat) :
    shown keep ranking m n <:+ shown keep ranking (n + m) 0 := by
  rw [shown_first, shown_next, kept_add]
  exact (List.drop_suffix _ _).trans (List.suffix_append _ _)

theorem shown_sublist (keep : α → Bool) (ranking : List α) (n m : Nat) :
    (shown keep ranking n 0 ++ shown keep ranking m n).Sublist (shown keep ranking (n + m) 0) := by
  rw [shown_first, shown_first, shown_next, kept_add]
  exact (List.Sublist.refl _).append (List.drop_sublist _ _)

theorem kept_full (all : ∀ a ∈ ranking.take n, keep a) (reach : n ≤ ranking.length) :
    (kept keep ranking n).length = n := by
  unfold kept
  rw [List.filter_eq_self.mpr all, List.length_take_of_le reach]

theorem all_of_kept_full (full : (kept keep ranking n).length = n) :
    ∀ a ∈ ranking.take n, keep a := by
  have taken : (ranking.take n).length ≤ n := List.length_take_le n ranking
  have filtered : (kept keep ranking n).length ≤ (ranking.take n).length := List.length_filter_le _ _
  have same : ((ranking.take n).filter keep).length = (ranking.take n).length := by
    change (kept keep ranking n).length = _
    omega
  exact List.length_filter_eq_length_iff.mp same

theorem keptNext_eq_nil :
    keptNext keep ranking n m = [] ↔ ∀ a ∈ (ranking.drop n).take m, keep a = false := by
  unfold keptNext
  rw [List.filter_eq_nil_iff]
  simp

theorem map_eq_of_sublist {β : Type} (f : α → β) {as bs : List α} (sub : as.Sublist bs) :
    as.map f = bs.map f ↔ as = bs := by
  constructor
  · intro same
    have lengths := congrArg List.length same
    rw [List.length_map, List.length_map] at lengths
    exact sub.eq_of_length lengths
  · intro same
    rw [same]

/-- Two windows next to each other tile the joined one exactly if the first is full or nothing is
kept behind it. -/
theorem shown_tile :
    shown keep ranking n 0 ++ shown keep ranking m n = shown keep ranking (n + m) 0 ↔
      (∀ a ∈ ranking.take n, keep a) ∨ ∀ a ∈ (ranking.drop n).take m, keep a = false := by
  rw [shown_first, shown_first, shown_next, kept_add, List.append_cancel_left_eq, ← keptNext_eq_nil]
  have bound := kept_length_le keep ranking n
  constructor
  · intro same
    have lengths := congrArg List.length same
    rw [List.length_drop] at lengths
    by_cases full : (kept keep ranking n).length = n
    · exact .inl (all_of_kept_full full)
    · right
      apply List.eq_nil_of_length_eq_zero
      omega
  · rintro (all | none)
    · by_cases reach : n ≤ ranking.length
      · rw [kept_full all reach, Nat.sub_self, List.drop_zero]
      · have ended : ranking.drop n = [] := List.drop_of_length_le (by omega)
        unfold keptNext
        rw [ended]
        simp
    · rw [none, List.drop_nil]

end Windows

/-! ## Neighbours in the order of the ranking -/

namespace Response

variable {keep : String → Bool} {doc : String → Doc} {key : Doc → Option String}

/-- Whatever order the matching documents come in, they are put into that of their ids. -/
theorem ranked_named {ids : List String} {docs : List Doc} (distinct : ids.Nodup)
    (named : ∀ id ∈ ids, key (doc id) = some id)
    (matching : docs.Perm ((ids.filter keep).map doc)) :
    ranked key ids docs = (ids.filter keep).map doc := by
  induction ids generalizing docs with
  | nil => exact List.perm_nil.mp matching
  | cons id ids ih =>
    obtain ⟨fresh, distinct⟩ := List.nodup_cons.mp distinct
    have rest : ∀ i ∈ ids, key (doc i) = some i := fun i hi => named i (by simp [hi])
    have own : key (doc id) = some id := named id (by simp)
    have others : ∀ d ∈ (ids.filter keep).map doc, key d ≠ some id := by
      intro d hd same
      obtain ⟨i, hi, rfl⟩ := List.mem_map.mp hd
      have known := (List.mem_filter.mp hi).1
      rw [rest i known] at same
      exact fresh (Option.some.inj same ▸ known)
    have noFirst : ((ids.filter keep).map doc).filter (fun d => key d = some id) = [] :=
      List.filter_eq_nil_iff.mpr fun d hd => by simpa using others d hd
    have allLater : ((ids.filter keep).map doc).filter (fun d => key d ≠ some id) =
        (ids.filter keep).map doc :=
      List.filter_eq_self.mpr fun d hd => by simpa using others d hd
    have first := matching.filter fun d => key d = some id
    have later := matching.filter fun d => key d ≠ some id
    unfold ranked
    by_cases wanted : keep id
    · rw [List.filter_cons_of_pos wanted, List.map_cons] at first later ⊢
      rw [List.filter_cons_of_pos (by simpa using own), noFirst] at first
      rw [List.filter_cons_of_neg (by simpa using own), allLater] at later
      rw [List.perm_singleton.mp first, ih distinct rest later]
      rfl
    · rw [List.filter_cons_of_neg wanted] at first later ⊢
      rw [noFirst] at first
      rw [allLater] at later
      rw [List.perm_nil.mp first, ih distinct rest later, List.nil_append]

end Response

/-! ## Pages -/

namespace Sql.Query

def windowed (q : Query) (limit offset : UInt64) : Query :=
  { q with statement := { q.statement with limit := some limit, offset := some offset } }

end Sql.Query

namespace Engine

open Sql

/-- A client with one ranking of its documents. A search for `k` neighbours answers the first `k`
of them; a statement restricted to some of these answers the documents among them that satisfy its
condition, in any order. -/
structure Ideal (e : Engine) (client : Client) (vector : QueryVector) (q : Query)
    (ranking : List String) (keep : String → Bool) (doc : String → Doc) : Prop where
  distinct : ranking.Nodup
  named : ∀ id ∈ ranking, DocId.internal? (doc id) = some id
  nearest : ∀ (n : Nat) (k : UInt64), ∃ knn,
    client n q.collection (e.vectors.request vector none (some k) none) = .ok knn ∧
      Hits.idsOf knn = ranking.take k.toNat
  matching : ∀ (n : Nat) (ids : List String), ids <+: ranking → ∃ answer r,
    client n q.collection (neighbourRequest q.statement ids) = .ok answer ∧
      Response.ofAnswer answer = .ok r ∧ r.docs.Perm ((ids.filter keep).map doc)
  unrestricted : q.statement.condition = none → ∀ id ∈ ranking, keep id

section Pages

variable {e : Engine} {w : World} {s s' : Session} {sql : String} {vector : QueryVector} {q : Query}
  {ranking : List String} {keep : String → Bool} {doc : String → Doc}

/-- What is asked for neighbours does not depend on the window. -/
theorem neighbourRequest_windowed (q : Query) (limit offset : UInt64) (ids : List String) :
    neighbourRequest (q.windowed limit offset).statement ids =
      neighbourRequest q.statement ids := by
  cases ids <;> rfl

theorem run_page (ideal : Ideal e w.client vector q ranking keep doc)
    (plain : q.statement.order = []) {n o : UInt64} (fits : n.toNat + o.toNat < UInt64.size)
    (prepared : (prepare w sql).run s = (.ok (q.windowed n o), s')) :
    ∃ out t, (e.vectorSelect w sql vector).run s = (.ok out, t) ∧
      out.docs = (shown keep ranking n.toNat o.toNat).map doc := by
  have size : e.reach (q.windowed n o).statement = .ok (.ofNat (n.toNat + o.toNat)) := reach_ok fits
  obtain ⟨knn, asked, ids⟩ :=
    ideal.nearest s.traffic.requests.length (.ofNat (n.toNat + o.toNat))
  rw [UInt64.toNat_ofNat_of_lt' fits] at ids
  have front : Hits.idsOf knn <+: ranking := ids ▸ List.take_prefix _ ranking
  by_cases nothing : Hits.idsOf knn = []
  · refine ⟨_, _, run_vectorSelect_empty prepared size asked nothing, ?_⟩
    rw [nothing] at ids
    unfold shown
    rw [← ids]
    simp [Response.empty]
  · obtain ⟨answer, r, answered, normal, matching⟩ :=
      ideal.matching (s.traffic.requests.length + 1) (Hits.idsOf knn) front
    rw [← neighbourRequest_windowed q n o] at answered
    have found : Hits.docsOf knn ≠ [] := by simpa [Hits.idsOf] using nothing
    have order : inOrder (q.windowed n o).statement (Hits.idsOf knn) r.docs =
        ((Hits.idsOf knn).filter keep).map doc := by
      unfold inOrder
      rw [if_pos (show (q.windowed n o).statement.order = [] from plain)]
      exact Response.ranked_named (ideal.distinct.sublist front.sublist)
        (fun id hid => ideal.named id (front.subset hid)) matching
    refine ⟨_, _, run_vectorSelect prepared size asked found answered normal, ?_⟩
    change ((ordered (q.windowed n o).statement (Hits.idsOf knn) r).docs.drop o.toNat).take n.toNat
      = _
    rw [docs_ordered, order, ids]
    unfold shown
    rw [List.map_take, List.map_drop]

/-- Two pages next to each other repeat nothing and keep the order of the joined page. They are all
of it exactly if every document that the first page reaches satisfies the condition, or none of
those that the second one adds; without a condition they always are. -/
theorem vectorSelect_pages {w₁ w₂ w₃ : World} {s₁ s₂ s₃ s₁' s₂' s₃' : Session}
    {sql₁ sql₂ sql₃ : String}
    (ideal : ∀ w ∈ [w₁, w₂, w₃], Ideal e w.client vector q ranking keep doc)
    (plain : q.statement.order = []) {n m : UInt64} (fits : n.toNat + m.toNat < UInt64.size)
    (first : (prepare w₁ sql₁).run s₁ = (.ok (q.windowed n 0), s₁'))
    (second : (prepare w₂ sql₂).run s₂ = (.ok (q.windowed m n), s₂'))
    (joined : (prepare w₃ sql₃).run s₃ = (.ok (q.windowed (n + m) 0), s₃')) :
    ∃ p₁ t₁ p₂ t₂ p t, (e.vectorSelect w₁ sql₁ vector).run s₁ = (.ok p₁, t₁) ∧
      (e.vectorSelect w₂ sql₂ vector).run s₂ = (.ok p₂, t₂) ∧
      (e.vectorSelect w₃ sql₃ vector).run s₃ = (.ok p, t) ∧
      p.docs = ((ranking.take (n.toNat + m.toNat)).filter keep).map doc ∧
      p₁.docs <+: p.docs ∧ p₂.docs <:+ p.docs ∧ (p₁.docs ++ p₂.docs).Sublist p.docs ∧
      (p₁.docs ++ p₂.docs = p.docs ↔ (∀ id ∈ ranking.take n.toNat, keep id) ∨
        ∀ id ∈ (ranking.drop n.toNat).take m.toNat, keep id = false) ∧
      (q.statement.condition = none → p₁.docs ++ p₂.docs = p.docs) := by
  have sum : (n + m).toNat = n.toNat + m.toNat := by
    rw [UInt64.toNat_add]
    exact Nat.mod_eq_of_lt fits
  obtain ⟨p₁, t₁, run₁, docs₁⟩ := run_page (ideal w₁ (by simp)) plain (by simp; omega) first
  obtain ⟨p₂, t₂, run₂, docs₂⟩ := run_page (ideal w₂ (by simp)) plain (by omega) second
  obtain ⟨p, t, run, docs⟩ := run_page (ideal w₃ (by simp)) plain (by simp; omega) joined
  rw [sum] at docs
  rw [UInt64.toNat_zero] at docs₁ docs
  have sub := shown_sublist keep ranking n.toNat m.toNat
  have tile : p₁.docs ++ p₂.docs = p.docs ↔ (∀ id ∈ ranking.take n.toNat, keep id) ∨
      ∀ id ∈ (ranking.drop n.toNat).take m.toNat, keep id = false := by
    rw [docs₁, docs₂, docs, ← List.map_append, map_eq_of_sublist doc sub]
    exact shown_tile
  refine ⟨p₁, t₁, p₂, t₂, p, t, run₁, run₂, run, ?_, ?_, ?_, ?_, tile, fun free => tile.mpr ?_⟩
  · rw [docs, shown_first]
    rfl
  · rw [docs₁, docs]
    exact (shown_front keep ranking n.toNat m.toNat).map doc
  · rw [docs₂, docs]
    exact (shown_back keep ranking n.toNat m.toNat).map doc
  · rw [docs₁, docs₂, docs, ← List.map_append]
    exact sub.map doc
  · left
    intro id hid
    exact (ideal w₁ (by simp)).unrestricted free id (List.mem_of_mem_take hid)

end Pages

end Engine

/-! ## A client with one ranking -/

namespace Engine

open Sql

def identified (id : String) : Doc :=
  [("_docid_", .str id)]

/-- Answers from the number of rows asked for: searches with the first so many documents, any
other request with those of them that are kept. -/
def rankedClient (ranking : List String) (keep : String → Bool) : Client := fun _ _ r =>
  if r.query = Request.everything then
    .ok (answerOf (((ranking.take (r.rows.getD 0).toNat).filter keep).map identified))
  else .ok (answerOf ((ranking.take (r.rows.getD 0).toNat).map identified))

theorem docsOf_answerOf (docs : List Doc) : Hits.docsOf (answerOf docs) = docs := by
  have items : (docs.map Json.obj).filterMap Json.doc? = docs := by
    induction docs with
    | nil => rfl
    | cons d docs ih => simp [Json.doc?, ih]
  exact items

theorem idsOf_identified (ids : List String) :
    Hits.idsOf (answerOf (ids.map identified)) = ids := by
  unfold Hits.idsOf
  rw [docsOf_answerOf, List.map_map]
  exact List.map_id ids

theorem ofAnswer_identified (ids : List String) :
    Response.ofAnswer (answerOf (ids.map identified)) =
      .ok ⟨ids.length, 0, none, ids.map identified⟩ := by
  have docs : Response.docsOf (.obj [("docs", .arr ((ids.map identified).map .obj))]) =
      ids.map identified := by
    change (Hits.docsOf (answerOf (ids.map identified))).map Response.flatten = _
    rw [docsOf_answerOf, List.map_map]
    rfl
  change Except.ok (Response.ofBody _ (Response.docsOf _)) = _
  rw [docs]
  unfold Response.ofBody
  rw [← List.length_map identified]
  rfl

theorem knnQuery_ne_everything (field : String) (k : Option UInt64) (vector : QueryVector) :
    knnQuery field k vector ≠ Request.everything := by
  intro same
  have first := congrArg (fun s => s.toList.head?) same
  simp [knnQuery, Request.everything] at first

theorem rankedClient_ideal (e : Engine) (vector : QueryVector) (q : Query) {ranking : List String}
    {keep : String → Bool} (distinct : ranking.Nodup) (small : ranking.length < UInt64.size)
    (free : q.statement.condition = none → ∀ id ∈ ranking, keep id) :
    Ideal e (rankedClient ranking keep) vector q ranking keep identified where
  distinct := distinct
  named := fun id _ => rfl
  nearest := by
    intro n k
    have query : (e.vectors.request vector none (some k) none).query =
      knnQuery e.vectors.field (some k) vector := rfl
    have search : (e.vectors.request vector none (some k) none).query ≠ Request.everything := by
      rw [query]
      exact knnQuery_ne_everything e.vectors.field (some k) vector
    refine ⟨answerOf ((ranking.take k.toNat).map identified), ?_, idsOf_identified _⟩
    unfold rankedClient
    rw [if_neg search]
    rfl
  matching := by
    intro n ids front
    have fits : ids.length < UInt64.size := Nat.lt_of_le_of_lt front.length_le small
    have query : (neighbourRequest q.statement ids).query = Request.everything := by
      cases ids <;> rfl
    have first : ranking.take ((neighbourRequest q.statement ids).rows.getD 0).toNat = ids := by
      change ranking.take (UInt64.ofNat ids.length).toNat = ids
      rw [UInt64.toNat_ofNat_of_lt' fits]
      exact (List.prefix_iff_eq_take.mp front).symm
    refine ⟨answerOf ((ids.filter keep).map identified), _, ?_,
      ofAnswer_identified (ids.filter keep), List.Perm.refl _⟩
    unfold rankedClient
    rw [if_pos query, first]
  unrestricted := free

/-! ### Two documents, of which the second matches -/

def secondOnly : World :=
  ⟨bareSource, rankedClient ["1", "2"] fun id => id == "2", 0⟩

def matching : Query :=
  ⟨⟨.everything, some "c", some (.compare "a" .eq (.number "1")), [], none, none⟩, "c"⟩

theorem ideal_secondOnly :
    Ideal plainEngine secondOnly.client [] matching ["1", "2"] (fun id => id == "2") identified :=
  rankedClient_ideal plainEngine [] matching (by decide) (by decide) (by rintro ⟨⟩)

theorem matching_wellFormed (n o : UInt64) : (matching.windowed n o).statement.WellFormed where
  projection := trivial
  condition := by
    have number : IsNumber ['1'] :=
      ⟨[], ['1'], [], [], .inl rfl, by simp [IsDigits], .inl rfl, .inl rfl, rfl⟩
    simp [matching, Query.windowed, Condition.WellFormed, Condition.Formed, Condition.Spelled,
      Literal.WellFormed, IsName, backtick, number]
  order := by simp [matching, Query.windowed]

theorem prepare_matching {sql : String} {n o : UInt64}
    (text : sql = String.ofList (plainText (matching.windowed n o).statement.tokens))
    (plain : expandShorthand sql = sql) (starts : Query.startsWithSelect sql.toList) :
    ∃ s, (prepare secondOnly sql).run plainEngine.start = (.ok (matching.windowed n o), s) := by
  have ok := matching_wellFormed n o
  have laid : Laid (matching.windowed n o).statement.tokens sql.toList := by
    rw [text, String.toList_ofList]
    exact laid_plainText (allFit_select ok)
  have some : matching.collection ≠ "" := by decide
  exact prepare_bare secondOnly.client (Query.ofText_laid ok laid plain starts rfl some)

theorem prepare_firstPage :
    ∃ s, (prepare secondOnly " select * from 'c' where `a` = 1 limit 1 offset 0").run
      plainEngine.start = (.ok (matching.windowed 1 0), s) :=
  prepare_matching (by decide +kernel) (by with_unfolding_all rfl) (by with_unfolding_all rfl)

theorem prepare_secondPage :
    ∃ s, (prepare secondOnly " select * from 'c' where `a` = 1 limit 1 offset 1").run
      plainEngine.start = (.ok (matching.windowed 1 1), s) :=
  prepare_matching (by decide +kernel) (by with_unfolding_all rfl) (by with_unfolding_all rfl)

theorem prepare_bothPages :
    ∃ s, (prepare secondOnly " select * from 'c' where `a` = 1 limit 2 offset 0").run
      plainEngine.start = (.ok (matching.windowed 2 0), s) :=
  prepare_matching (by decide +kernel) (by with_unfolding_all rfl) (by with_unfolding_all rfl)

/-- The second document is on the page of two, but on none of the pages of one. -/
theorem pages_skip :
    Ideal plainEngine secondOnly.client [] matching ["1", "2"] (fun id => id == "2") identified ∧
    ∃ p₁ t₁ p₂ t₂ p t,
      (plainEngine.vectorSelect secondOnly " select * from 'c' where `a` = 1 limit 1 offset 0" []).run
        plainEngine.start = (.ok p₁, t₁) ∧
      (plainEngine.vectorSelect secondOnly " select * from 'c' where `a` = 1 limit 1 offset 1" []).run
        plainEngine.start = (.ok p₂, t₂) ∧
      (plainEngine.vectorSelect secondOnly " select * from 'c' where `a` = 1 limit 2 offset 0" []).run
        plainEngine.start = (.ok p, t) ∧
      p₁.docs = [] ∧ p₂.docs = [] ∧ p.docs = [identified "2"] := by
  obtain ⟨_, first⟩ := prepare_firstPage
  obtain ⟨_, second⟩ := prepare_secondPage
  obtain ⟨_, joined⟩ := prepare_bothPages
  obtain ⟨p₁, t₁, run₁, docs₁⟩ := run_page ideal_secondOnly rfl (by decide) first
  obtain ⟨p₂, t₂, run₂, docs₂⟩ := run_page ideal_secondOnly rfl (by decide) second
  obtain ⟨p, t, run, docs⟩ := run_page ideal_secondOnly rfl (by decide) joined
  refine ⟨ideal_secondOnly, p₁, t₁, p₂, t₂, p, t, run₁, run₂, run, ?_, ?_, ?_⟩
  · rw [docs₁]
    decide
  · rw [docs₂]
    decide
  · rw [docs]
    rfl

theorem vectorSelect_pages_secondOnly :
    ∃ p₁ t₁ p₂ t₂ p t,
      (plainEngine.vectorSelect secondOnly " select * from 'c' where `a` = 1 limit 1 offset 0" []).run
        plainEngine.start = (.ok p₁, t₁) ∧
      (plainEngine.vectorSelect secondOnly " select * from 'c' where `a` = 1 limit 1 offset 1" []).run
        plainEngine.start = (.ok p₂, t₂) ∧
      (plainEngine.vectorSelect secondOnly " select * from 'c' where `a` = 1 limit 2 offset 0" []).run
        plainEngine.start = (.ok p, t) ∧
      p.docs = [identified "2"] ∧ (p₁.docs ++ p₂.docs).Sublist p.docs ∧
      p₁.docs ++ p₂.docs ≠ p.docs := by
  obtain ⟨_, first⟩ := prepare_firstPage
  obtain ⟨_, second⟩ := prepare_secondPage
  obtain ⟨_, joined⟩ := prepare_bothPages
  have ideal : ∀ w ∈ [secondOnly, secondOnly, secondOnly],
      Ideal plainEngine w.client [] matching ["1", "2"] (fun id => id == "2") identified := by
    simpa using ideal_secondOnly
  obtain ⟨p₁, t₁, p₂, t₂, p, t, run₁, run₂, run, docs, -, -, sub, tile, -⟩ :=
    vectorSelect_pages ideal rfl (n := 1) (m := 1) (by decide) first second joined
  refine ⟨p₁, t₁, p₂, t₂, p, t, run₁, run₂, run, docs, sub, ?_⟩
  rw [ne_eq, tile]
  decide

end Engine

end SearchSelect
