import SearchSelect.Response

/-! Answers in their one form. What an answer says of its window is kept, its display fields are
flat and its markers are gone, so the form is read back from its own JSON as it stands. The two
shapes of an answer differ in nothing but the markers. -/

namespace SearchSelect.Response

/-! ## Flat documents -/

/-- If there is a text under the name, it is all that stands there. -/
def Flat (doc : Doc) (name : String) : Prop :=
  ∀ text, ((Keyed.get? doc name).bind TextValue.ofJson?).bind TextValue.text? = some text →
    Keyed.get? doc name = some (.str text)

section Flattening

variable {doc : Doc} {a : String}

theorem flattenField_of_flat (flat : Flat doc a) : flattenField doc a = doc := by
  unfold flattenField
  split
  · next text found => exact Keyed.insert_of_get? (flat text found)
  · rfl

theorem get?_flattenField_of_ne {name : String} (other : a ≠ name) :
    Keyed.get? (flattenField doc name) a = Keyed.get? doc a := by
  unfold flattenField
  split
  · rw [Keyed.get?_insert, if_neg other]
  · rfl

theorem flat_flattenField (doc : Doc) (name : String) : Flat (flattenField doc name) name := by
  unfold flattenField
  split
  · next text _ =>
    have written : Keyed.get? (Keyed.insert doc name (.str text)) name = some (.str text) := by
      rw [Keyed.get?_insert, if_pos rfl]
    intro text' found
    rw [written] at found ⊢
    exact congrArg (fun s => some (Json.str s)) (Option.some.inj found)
  · next none =>
    intro text found
    rw [none] at found
    cases found

theorem Flat.flattenField (flat : Flat doc a) (name : String) : Flat (flattenField doc name) a := by
  by_cases same : a = name
  · rw [same]
    exact flat_flattenField doc name
  · unfold Flat
    rw [get?_flattenField_of_ne same]
    exact flat

theorem flat_foldl (names : List String) (done : Flat doc a ∨ a ∈ names) :
    Flat (names.foldl Response.flattenField doc) a := by
  induction names generalizing doc with
  | nil => exact done.resolve_right List.not_mem_nil
  | cons name names ih =>
    apply ih
    obtain flat | mem := done
    · exact .inl (flat.flattenField name)
    · obtain rfl | mem := List.mem_cons.mp mem
      · exact .inl (flat_flattenField doc a)
      · exact .inr mem

theorem foldl_of_flat {names : List String} (flat : ∀ a ∈ names, Flat doc a) :
    names.foldl Response.flattenField doc = doc := by
  induction names with
  | nil => rfl
  | cons name names ih =>
    obtain ⟨first, rest⟩ := List.forall_mem_cons.mp flat
    rw [List.foldl_cons, flattenField_of_flat first, ih rest]

theorem flatten_flatten (doc : Doc) : flatten (flatten doc) = flatten doc :=
  foldl_of_flat fun _ mem => flat_foldl displayFields (.inr mem)

theorem get?_foldl {names : List String} (other : a ∉ names) :
    Keyed.get? (names.foldl Response.flattenField doc) a = Keyed.get? doc a := by
  induction names generalizing doc with
  | nil => rfl
  | cons name names ih =>
    obtain ⟨first, rest⟩ := List.ne_and_not_mem_of_not_mem_cons other
    rw [List.foldl_cons, ih rest, get?_flattenField_of_ne first]

/-- Only display fields are flattened. -/
theorem get?_flatten (doc : Doc) (other : a ∉ displayFields) :
    Keyed.get? (flatten doc) a = Keyed.get? doc a :=
  get?_foldl other

end Flattening

/-! ## Bodies -/

section Bodies

variable {body : Json} {d : Doc} {docs : List Doc} {r : Response}

theorem docsOf_eq {items : List Json} (listed : body.get? "docs" = some (.arr items)) :
    docsOf body = (items.filterMap Json.doc?).map flatten := by
  rw [docsOf, listed]
  rfl

/-- The documents of a body are flattened from the objects among its entries. -/
theorem mem_docsOf (mem : d ∈ docsOf body) :
    ∃ items doc, body.get? "docs" = some (.arr items) ∧ .obj doc ∈ items ∧ d = flatten doc := by
  unfold docsOf at mem
  obtain ⟨doc, object, rfl⟩ := List.mem_map.mp mem
  obtain ⟨entry, listed, isDoc⟩ := List.mem_filterMap.mp object
  obtain rfl := Json.doc?_eq_some.mp isDoc
  cases found : (body.get? "docs").bind Json.items? with
  | none =>
    rw [found] at listed
    cases listed
  | some items =>
    rw [found] at listed
    obtain ⟨docs, named, isList⟩ := Option.bind_eq_some_iff.mp found
    rw [Json.items?_eq_some.mp isList] at named
    exact ⟨items, doc, named, listed, rfl⟩

/-- A document that marks the end, and one that reports a failure. -/
def IsMarker (d : Doc) : Prop :=
  Keyed.contains d "EOF" ∨ exception? d ≠ none

theorem ofResultSet_of_unmarked (unmarked : ∀ d ∈ docsOf body, ¬ IsMarker d) :
    ofResultSet body = .ok (ofBody body (docsOf body)) := by
  have silent : (docsOf body).findSome? exception? = none := by
    rw [List.findSome?_eq_none_iff]
    exact fun d hd => Classical.not_not.mp (not_or.mp (unmarked d hd)).2
  have kept : (docsOf body).filter (fun d => !Keyed.contains d "EOF") = docsOf body := by
    rw [List.filter_eq_self]
    intro d hd
    simpa using (not_or.mp (unmarked d hd)).1
  unfold ofResultSet
  dsimp only
  rw [silent, kept]

theorem ofResultSet_eq_ok (normal : ofResultSet body = .ok r) :
    ∃ docs, docs ⊆ docsOf body ∧ (∀ d ∈ docs, ¬ IsMarker d) ∧ r = ofBody body docs := by
  unfold ofResultSet at normal
  dsimp only at normal
  split at normal
  · cases normal
  · next silent =>
    cases normal
    refine ⟨_, List.filter_sublist.subset, fun d hd => ?_, rfl⟩
    obtain ⟨mem, unended⟩ := List.mem_filter.mp hd
    rw [IsMarker, List.findSome?_eq_none_iff.mp silent d mem]
    simpa using unended

end Bodies

/-! ## Normal responses -/

/-- What an answer is brought to: counts of 64 bits, except that the number of hits may be that of
the documents, and flat documents without markers. -/
structure Normal (r : Response) : Prop where
  numFound : r.numFound < UInt64.size ∨ r.numFound = r.docs.length
  start : r.start < UInt64.size
  flat : ∀ d ∈ r.docs, flatten d = d
  unmarked : ∀ d ∈ r.docs, ¬ IsMarker d

section Normality

variable {body : Json} {docs : List Doc} {r : Response}

theorem normal_ofBody (from_body : docs ⊆ docsOf body) (unmarked : ∀ d ∈ docs, ¬ IsMarker d) :
    (ofBody body docs).Normal where
  numFound := by
    cases counted : (body.get? "numFound").bind Json.count? with
    | none => exact .inr (by rw [ofBody, counted]; rfl)
    | some n =>
      obtain ⟨_, -, count⟩ := Option.bind_eq_some_iff.mp counted
      refine .inl ?_
      rw [ofBody, counted]
      exact Json.count?_lt count
  start := by
    cases counted : (body.get? "start").bind Json.count? with
    | none =>
      rw [ofBody, counted]
      change 0 < UInt64.size
      decide
    | some n =>
      obtain ⟨_, -, count⟩ := Option.bind_eq_some_iff.mp counted
      rw [ofBody, counted]
      exact Json.count?_lt count
  flat := by
    intro d hd
    obtain ⟨_, doc, -, -, rfl⟩ := mem_docsOf (from_body hd)
    exact flatten_flatten doc
  unmarked := unmarked

/-- The body that a response is written in. -/
def written (r : Response) : Json :=
  .obj ([("numFound", .ofNat r.numFound), ("start", .ofNat r.start),
    ("docs", .arr (r.docs.map .obj))] ++
    (r.maxScore.map fun x => ("maxScore", Json.ofBinary x)).toList)

theorem docsOf_written (r : Response) : docsOf r.written = r.docs.map flatten := by
  have objects : (r.docs.map Json.obj).filterMap Json.doc? = r.docs := by
    simp [List.filterMap_map, Function.comp_def, Json.doc?]
  have listed : r.written.get? "docs" = some (.arr (r.docs.map .obj)) := rfl
  rw [docsOf_eq listed, objects]

theorem maxScore_written (r : Response) :
    (r.written.get? "maxScore").bind Json.double? = r.maxScore := by
  obtain ⟨_, _, score, _⟩ := r
  cases score <;> rfl

theorem ofBody_written (normal : r.Normal) : ofBody r.written r.docs = r := by
  have found : ((r.written.get? "numFound").bind Json.count?).getD r.docs.length = r.numFound := by
    change (Json.count? (.ofNat r.numFound)).getD r.docs.length = r.numFound
    rw [Json.count?_ofNat]
    split
    · rfl
    · next large => exact (normal.numFound.resolve_left large).symm
  have first : ((r.written.get? "start").bind Json.count?).getD 0 = r.start := by
    change (Json.count? (.ofNat r.start)).getD 0 = r.start
    rw [Json.count?_ofNat, if_pos normal.start]
    rfl
  rw [ofBody, found, first, maxScore_written]

/-- A normal response is read back from its JSON. -/
theorem ofAnswer_toJson (normal : r.Normal) : ofAnswer r.toJson = .ok r := by
  have docs : docsOf r.written = r.docs := by
    rw [docsOf_written, List.map_congr_left normal.flat, List.map_id']
  have shape : ofAnswer r.toJson = ofResultSet r.written := rfl
  rw [shape, ofResultSet_of_unmarked (docs.symm ▸ normal.unmarked), docs, ofBody_written normal]

end Normality

/-! ## Answers -/

/-- No document of the body marks an end or reports a failure. -/
def Unmarked (body : Json) : Prop :=
  ∀ items, body.get? "docs" = some (.arr items) → ∀ doc, Json.obj doc ∈ items →
    Keyed.contains doc "EOF" = false ∧ Keyed.contains doc "EXCEPTION" = false

theorem Unmarked.not_isMarker {body : Json} (unmarked : Unmarked body) :
    ∀ d ∈ docsOf body, ¬ IsMarker d := by
  intro d hd
  obtain ⟨items, doc, listed, mem, rfl⟩ := mem_docsOf hd
  obtain ⟨endless, quiet⟩ := unmarked items listed doc mem
  have silent : Keyed.get? doc "EXCEPTION" = none := by simpa [Keyed.contains] using quiet
  rw [IsMarker, exception?, Keyed.contains, get?_flatten doc (by decide),
    get?_flatten doc (by decide), silent]
  simpa [Keyed.contains] using endless

/-- Whatever answer a response comes from, it is read back from its own JSON, if only a body under
`response` has no markers. A body without markers reads the same under both names. -/
theorem ofAnswer_stable :
    (∀ answer r, ofAnswer answer = .ok r →
        (∀ body, answer.get? "response" = some body → Unmarked body) →
        ofAnswer r.toJson = .ok r) ∧
      ∀ body, Unmarked body → ∃ r, ofAnswer (.obj [("response", body)]) = .ok r ∧
        ofAnswer (.obj [("result-set", body)]) = .ok r := by
  constructor
  · intro answer r normal unmarked
    apply ofAnswer_toJson
    unfold ofAnswer at normal
    split at normal
    · next body found =>
      cases normal
      exact normal_ofBody (List.Subset.refl _) (unmarked body found).not_isMarker
    · split at normal
      · obtain ⟨docs, from_body, unmarked, rfl⟩ := ofResultSet_eq_ok normal
        exact normal_ofBody from_body unmarked
      · cases normal
  · intro body unmarked
    exact ⟨_, rfl, ofResultSet_of_unmarked unmarked.not_isMarker⟩

/-- Titles of several texts, of none and of no texts, an entry that is no document, a score that is
an integer, and a count of the wrong kind. -/
def variedBody : Json :=
  .obj [("numFound", .str "3"), ("maxScore", .num (.int 2)),
    ("docs", .arr [.obj [("title", .arr [.str "a", .str "b"]), ("content", .arr [])], .null,
      .obj [("id", .str "7"), ("title", .arr [.str "c", .null])]])]

theorem ofAnswer_stable_varied :
    Unmarked variedBody ∧
      ∃ r, ofAnswer (.obj [("response", variedBody)]) = .ok r ∧
        ofAnswer (.obj [("result-set", variedBody)]) = .ok r ∧
        r.docs = [[("title", .str "a"), ("content", .arr [])],
          [("id", .str "7"), ("title", .arr [.str "c", .null])]] ∧
        ofAnswer r.toJson = .ok r := by
  have unmarked : Unmarked variedBody := by
    rintro _ ⟨⟩ doc mem
    obtain rfl | rfl : doc = [("title", .arr [.str "a", .str "b"]), ("content", .arr [])] ∨
        doc = [("id", .str "7"), ("title", .arr [.str "c", .null])] := by
      simpa using mem
    · decide
    · decide
  obtain ⟨stable, shapes⟩ := ofAnswer_stable
  obtain ⟨r, select, table⟩ := shapes variedBody unmarked
  refine ⟨unmarked, r, select, table, ?_, stable _ r select ?_⟩
  · cases select
    rfl
  · rintro _ ⟨⟩
    exact unmarked

end SearchSelect.Response
