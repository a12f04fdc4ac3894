import SearchSelect.Schema.Catalog

/-! Everything that can be done with a store, as data, and runs of it. The source may answer every
question differently, so a run is one list of calls with nothing assumed of the answers. -/

namespace SearchSelect.Schema

/-- What can be asked of a store about one collection, by what comes of it. -/
inductive Op : Type → Type 1 where
  | document : Op Document
  | typeMap : Op (Keyed String)
  | fieldType (field : String) : Op String
  | declared : Op FieldSet
  | sortInfo (field : String) : Op FieldInfo
  | checkField (field : String) : Op Unit
  | checkSortField (field : String) : Op Unit
  | checkCollection : Op Unit
  | listFields : Op (List Document.Listed)
  | fieldSet : Op FieldSet
  | load : Op Unit
  | checkFields (fields : List String) : Op Unit
  | checkSortFields (fields : List String) : Op Unit
  | discoverSearchable : Op (List String)
  | discoverSortable : Op (Keyed FieldInfo)
  | knownCollection : Op Unit
  | knownTypes : Op (Keyed String)
  | knownSortable : Op (Keyed FieldInfo)
  | knownSort (fields : List String) : Op Unit

namespace Store

variable {α β : Type}

def perform (src : Source) (now : Nat) (c : String) : {α : Type} → Op α → Action Store α
  | _, .document => document src c
  | _, .typeMap => typeMap src c
  | _, .fieldType field => fieldType src c field
  | _, .declared => declared src c
  | _, .sortInfo field => sortInfo src c field
  | _, .checkField field => checkField src field c
  | _, .checkSortField field => checkSortField src field c
  | _, .checkCollection => checkCollection src c
  | _, .listFields => listFields src c
  | _, .fieldSet => fieldSet src now c
  | _, .load => load src now c
  | _, .checkFields fields => checkFields src now c fields
  | _, .checkSortFields fields => checkSortFields src now c fields
  | _, .discoverSearchable => discoverSearchable src c
  | _, .discoverSortable => discoverSortable src c
  | _, .knownCollection => catalog.checkCollection c
  | _, .knownTypes => catalog.fieldTypes c
  | _, .knownSortable => catalog.sortable c
  | _, .knownSort fields => catalog.checkSort c fields

/-- An operation on a collection at some time, or the command to forget one collection or all. -/
inductive Call where
  | about {α : Type} (op : Op α) (now : Nat) (collection : String)
  | forget (collection : Option String)

def Call.after (src : Source) : Call → Store → Store
  | about op now c, s => ((perform src now c op).run s).2
  | forget c, s => s.forget c

/-- The store after some calls, made one after another whatever comes of them. -/
def after (src : Source) (calls : List Call) (s : Store) : Store :=
  calls.foldl (fun s call => call.after src s) s

theorem after_cons (src : Source) (call : Call) (calls : List Call) (s : Store) :
    after src (call :: calls) s = after src calls (call.after src s) := rfl

theorem after_append (src : Source) (calls more : List Call) (s : Store) :
    after src (calls ++ more) s = after src more (after src calls s) :=
  List.foldl_append

/-! ## Fetching a schema -/

section Fetching

variable {src : Source} {c : String} {s : Store} {doc : Document} {f : Fault}

/-- What the n-th question about the schema of a collection brings. -/
def fetched (src : Source) (n : Nat) (c : String) : Except Fault Document :=
  (src.schema n c).bind fun answer => Document.ofAnswer answer c

def asking (s : Store) : Store :=
  { s with asked.schema := s.asked.schema + 1 }

theorem run_fetchDocument (src : Source) (c : String) (s : Store) :
    (fetchDocument src c).run s = (fetched src s.asked.schema c, s.asking) := by
  have asked : (askSchema src c).run s = (src.schema s.asked.schema c, s.asking) := rfl
  unfold fetchDocument fetched
  cases answer : src.schema s.asked.schema c with
  | error f =>
    rw [answer] at asked
    exact Action.run_bind_error asked
  | ok j =>
    rw [answer] at asked
    rw [Action.run_bind_ok asked]
    rfl

theorem run_document_kept (kept : Keyed.get? s.documents c = some doc) :
    (document src c).run s = (.ok doc, s) := by
  unfold document
  rw [Action.run_bind_ok (Action.run_get s), kept]
  rfl

theorem run_document_fetched (absent : Keyed.get? s.documents c = none)
    (answer : fetched src s.asked.schema c = .ok doc) :
    (document src c).run s =
      (.ok doc, { s.asking with documents := Keyed.insert s.documents c doc }) := by
  have got : ((fetchDocument src c).mapFault (.schemaUnavailable c)).run s =
      (.ok doc, s.asking) := by
    rw [Action.run_mapFault, run_fetchDocument, answer]
    rfl
  unfold document
  rw [Action.run_bind_ok (Action.run_get s), absent]
  exact Action.run_bind_ok got

theorem run_document_refused (absent : Keyed.get? s.documents c = none)
    (answer : fetched src s.asked.schema c = .error f) :
    (document src c).run s = (.error (.schemaUnavailable c f), s.asking) := by
  have refused : ((fetchDocument src c).mapFault (.schemaUnavailable c)).run s =
      (.error (.schemaUnavailable c f), s.asking) := by
    rw [Action.run_mapFault, run_fetchDocument, answer]
    rfl
  unfold document
  rw [Action.run_bind_ok (Action.run_get s), absent]
  exact Action.run_bind_error refused

theorem run_typeMap_kept {types : Keyed String} (kept : Keyed.get? s.typeMaps c = some types) :
    (typeMap src c).run s = (.ok types, s) := by
  unfold typeMap
  rw [Action.run_bind_ok (Action.run_get s), kept]
  rfl

/-- A type map that is not kept is made from the schema, and kept if there is one. -/
theorem run_typeMap_absent (absent : Keyed.get? s.typeMaps c = none) :
    (typeMap src c).run s = (document src c >>= keepTypeMap c).run s := by
  unfold typeMap
  rw [Action.run_bind_ok (Action.run_get s), absent]

theorem run_typeMap_fetched (untyped : Keyed.get? s.typeMaps c = none)
    (absent : Keyed.get? s.documents c = none) (answer : fetched src s.asked.schema c = .ok doc) :
    (typeMap src c).run s =
      (.ok doc.typeMap, { s.asking with
        documents := Keyed.insert s.documents c doc
        typeMaps := Keyed.insert s.typeMaps c doc.typeMap }) := by
  rw [run_typeMap_absent untyped, Action.run_bind_ok (run_document_fetched absent answer)]
  rfl

theorem run_loadedDocument_kept (kept : Keyed.get? s.documents c = some doc) :
    (loadedDocument c).run s = (.ok doc, s) := by
  unfold loadedDocument
  rw [Action.run_bind_ok (Action.run_get s), kept]
  rfl

theorem run_loadedDocument_absent (absent : Keyed.get? s.documents c = none) :
    (loadedDocument c).run s = (.error (.schemaNotLoaded c), s) := by
  unfold loadedDocument
  rw [Action.run_bind_ok (Action.run_get s), absent]
  rfl

theorem run_knownSortable (kept : Keyed.get? s.documents c = some doc) :
    (knownSortable c).run s = (.ok doc.fieldSet.sortable, s) := by
  unfold knownSortable
  rw [Action.run_bind_ok (run_loadedDocument_kept kept)]
  rfl

theorem run_knownTypes_kept {types : Keyed String} (kept : Keyed.get? s.typeMaps c = some types) :
    (knownTypes c).run s = (.ok types, s) := by
  unfold knownTypes
  rw [Action.run_bind_ok (Action.run_get s), kept]
  rfl

theorem run_knownTypes_absent (absent : Keyed.get? s.typeMaps c = none) :
    (knownTypes c).run s = (loadedDocument c >>= keepTypeMap c).run s := by
  unfold knownTypes
  rw [Action.run_bind_ok (Action.run_get s), absent]

end Fetching

/-! ## Discovering a field set -/

section Discovering

variable {src : Source} {c : String} {s : Store} {view : Store → β}

/-- Both discoveries go down the same tiers: the listing, a probe, and what is assumed without
either. -/
def inTiers (src : Source) (c : String) (ofListing : List Field → α) (ofProbe : Json → α)
    (otherwise : α) : Action Store α := do
  match ← (listing src c).attempt with
  | .ok fields => return ofListing fields
  | .error _ =>
    match ← (askProbe src c).attempt with
    | .ok answer => return ofProbe answer
    | .error _ => return otherwise

section Tiers

variable {ofListing : List Field → α} {ofProbe : Json → α} {otherwise : α}

theorem keeps_inTiers (asked : Action.Keeps view (askListing src c))
    (probed : Action.Keeps view (askProbe src c)) :
    Action.Keeps view (inTiers src c ofListing ofProbe otherwise) := by
  have listed : Action.Keeps view (listing src c) := asked.bind fun _ => .of _
  apply listed.attempt.bind
  rintro (_ | fields)
  · apply probed.attempt.bind
    rintro (_ | answer)
    · exact .pure _
    · exact .pure _
  · exact .pure _

/-- Something is found in any case: it is made of the listing if that can be read, and otherwise of
the answer to the probe if there is one. -/
theorem run_inTiers (src : Source) (c : String) (s : Store) :
    ∃ x t, (inTiers src c ofListing ofProbe otherwise).run s = (.ok x, t) ∧
      ((∃ fields, ((listing src c).run s).1 = .ok fields ∧ x = ofListing fields) ∨
        (∃ f, ((listing src c).run s).1 = .error f) ∧
          ((∃ answer, src.probe s.asked.probe c = .ok answer ∧ x = ofProbe answer) ∨
            (∃ f, src.probe s.asked.probe c = .error f) ∧ x = otherwise)) := by
  have keeps : Action.Keeps (fun s => s.asked.probe) (listing src c) :=
    Action.Keeps.bind (fun _ => rfl) fun _ => .of _
  have unprobed : ((listing src c).run s).2.asked.probe = s.asked.probe := keeps s
  unfold inTiers
  rw [Action.run_bind_ok (Action.run_attempt _ _)]
  cases listed : ((listing src c).run s).1 with
  | ok fields => exact ⟨_, _, rfl, .inl ⟨fields, rfl, rfl⟩⟩
  | error f =>
    rw [← unprobed]
    generalize ((listing src c).run s).2 = t
    have probed : ((askProbe src c).run t).1 = src.probe t.asked.probe c := rfl
    simp only
    rw [Action.run_bind_ok (Action.run_attempt _ _), probed]
    cases src.probe t.asked.probe c with
    | ok answer => exact ⟨_, _, rfl, .inr ⟨⟨f, rfl⟩, .inl ⟨answer, rfl, rfl⟩⟩⟩
    | error g => exact ⟨_, _, rfl, .inr ⟨⟨f, rfl⟩, .inr ⟨⟨g, rfl⟩, rfl⟩⟩⟩

end Tiers

theorem run_discoverSearchable (src : Source) (c : String) (s : Store) :
    ∃ names t, (discoverSearchable src c).run s = (.ok names, t) ∧
      ((∃ fields, ((listing src c).run s).1 = .ok fields ∧ names = searchableOfListing fields) ∨
        (∃ f, ((listing src c).run s).1 = .error f) ∧
          ((∃ answer, src.probe s.asked.probe c = .ok answer ∧
              names = withUsual (echoedFields answer)) ∨
            (∃ f, src.probe s.asked.probe c = .error f) ∧ names = usualFields)) :=
  run_inTiers src c s

theorem run_discoverSortable (src : Source) (c : String) (s : Store) :
    ∃ sortable t, (discoverSortable src c).run s = (.ok sortable, t) ∧
      ((∃ fields, ((listing src c).run s).1 = .ok fields ∧ sortable = sortableOfListing fields) ∨
        (∃ f, ((listing src c).run s).1 = .error f) ∧
          ((∃ answer, src.probe s.asked.probe c = .ok answer ∧ sortable = addPseudo []) ∨
            (∃ f, src.probe s.asked.probe c = .error f) ∧ sortable = [(scoreField, .score)])) :=
  run_inTiers src c s

def discover (src : Source) (c : String) : Action Store FieldSet := do
  let searchable ← discoverSearchable src c
  let sortable ← discoverSortable src c
  return .make searchable sortable

theorem keeps_discover (asked : Action.Keeps view (askListing src c))
    (probed : Action.Keeps view (askProbe src c)) : Action.Keeps view (discover src c) :=
  (keeps_inTiers asked probed).bind fun _ => (keeps_inTiers asked probed).bind fun _ => .pure _

/-- Whatever the source answers, a field set is found: what the two discoveries find, one after
the other. -/
theorem run_discover (src : Source) (c : String) (s : Store) :
    ∃ searchable t sortable u, (discoverSearchable src c).run s = (.ok searchable, t) ∧
      (discoverSortable src c).run t = (.ok sortable, u) ∧
      (discover src c).run s = (.ok (.make searchable sortable), u) := by
  obtain ⟨searchable, t, first, -⟩ := run_discoverSearchable src c s
  obtain ⟨sortable, u, second, -⟩ := run_discoverSortable src c t
  refine ⟨searchable, t, sortable, u, first, second, ?_⟩
  unfold discover
  rw [Action.run_bind_ok first, Action.run_bind_ok second]
  rfl

/-- A field set that is fresh is returned as it stands; otherwise what is discovered now is kept
and returned. -/
theorem run_fieldSet (src : Source) (now : Nat) (c : String) (s : Store) :
    (∃ fields updated, Keyed.get? s.fieldSets c = some ⟨fields, updated⟩ ∧
      (fieldSet src now c).run s = (.ok fields, s)) ∨
    ∃ fields t, (discover src c).run s = (.ok fields, t) ∧
      (fieldSet src now c).run s =
        (.ok fields, { t with fieldSets := t.fieldSets.store c fields now }) := by
  obtain ⟨searchable, t, sortable, u, first, second, both⟩ := run_discover src c s
  unfold fieldSet
  rw [Action.run_bind_ok (Action.run_get s)]
  split
  · next fields kept fresh =>
    obtain ⟨entry, at_, rfl⟩ := Option.map_eq_some_iff.mp kept
    exact .inl ⟨entry.fields, entry.updated, at_, rfl⟩
  · refine .inr ⟨_, u, both, ?_⟩
    rw [Action.run_bind_ok first, Action.run_bind_ok second]
    rfl

theorem run_listing (src : Source) (c : String) (s : Store) :
    ((listing src c).run s).1 = (src.listing s.asked.listing c).bind Field.listing := by
  have asked : (askListing src c).run s =
      (src.listing s.asked.listing c, { s with asked.listing := s.asked.listing + 1 }) := rfl
  unfold listing
  cases answer : src.listing s.asked.listing c with
  | error f =>
    rw [answer] at asked
    rw [Action.run_bind_error asked]
    rfl
  | ok j =>
    rw [answer] at asked
    rw [Action.run_bind_ok asked]
    rfl

end Discovering

end Store

/-! ## The store after an operation -/

/-- What an operation can do to a store: most operations read what one of a few others brings. -/
inductive Effect where
  | still
  | document
  | typeMap
  | knownTypes
  | fieldSet
  | load
  | searchable
  | sortable

def Op.effect : {α : Type} → Op α → Effect
  | _, .document => .document
  | _, .typeMap => .typeMap
  | _, .fieldType _ => .typeMap
  | _, .declared => .document
  | _, .sortInfo _ => .document
  | _, .checkField field => if field = "*" then .still else .document
  | _, .checkSortField _ => .document
  | _, .checkCollection => .document
  | _, .listFields => .document
  | _, .fieldSet => .fieldSet
  | _, .load => .load
  | _, .checkFields _ => .fieldSet
  | _, .checkSortFields _ => .fieldSet
  | _, .discoverSearchable => .searchable
  | _, .discoverSortable => .sortable
  | _, .knownCollection => .still
  | _, .knownTypes => .knownTypes
  | _, .knownSortable => .still
  | _, .knownSort _ => .still

namespace Store

variable {α : Type} {src : Source} {now : Nat} {c : String} {s : Store}

def affected (src : Source) (now : Nat) (c : String) : Effect → Store → Store
  | .still, s => s
  | .document, s => ((document src c).run s).2
  | .typeMap, s => ((typeMap src c).run s).2
  | .knownTypes, s => ((knownTypes c).run s).2
  | .fieldSet, s => ((fieldSet src now c).run s).2
  | .load, s => ((typeMap src c).run ((fieldSet src now c).run s).2).2
  | .searchable, s => ((discoverSearchable src c).run s).2
  | .sortable, s => ((discoverSortable src c).run s).2

theorem reads_knownCollection (c : String) : Action.Keeps id (knownCollection c) := by
  apply Action.Keeps.bind (fun _ => rfl)
  intro t
  cases Keyed.get? t.documents c <;> exact .of _

theorem reads_loadedDocument (c : String) : Action.Keeps id (loadedDocument c) := by
  apply Action.Keeps.bind (fun _ => rfl)
  intro t
  cases Keyed.get? t.documents c <;> exact .of _

theorem reads_knownSortable (c : String) : Action.Keeps id (knownSortable c) :=
  (reads_loadedDocument c).bind fun _ => .pure _

theorem state_load (src : Source) (now : Nat) (c : String) (s : Store) :
    ((load src now c).run s).2 = affected src now c .load s := by
  have rest (t : Store) : ((typeMap src c >>= fun _ => (return () : Action Store Unit)).run t).2 =
      ((typeMap src c).run t).2 :=
    Action.Keeps.bind_reads (fun _ => .pure ()) t
  change _ = ((typeMap src c).run ((fieldSet src now c).run s).2).2
  unfold load
  obtain ⟨fields, updated, -, run⟩ | ⟨fields, t, -, run⟩ := run_fieldSet src now c s
  · rw [Action.run_bind_ok run, run]
    exact rest s
  · rw [Action.run_bind_ok run, run]
    exact rest _

/-- Beyond its effect an operation only reads. -/
theorem state_perform (src : Source) (now : Nat) (c : String) (op : Op α) (s : Store) :
    ((perform src now c op).run s).2 = affected src now c op.effect s := by
  have declaredReads : ((declared src c).run s).2 = ((document src c).run s).2 :=
    Action.Keeps.bind_reads (fun _ => .pure _) s
  cases op with
  | document | typeMap | fieldSet | discoverSearchable | discoverSortable | knownTypes
  | knownSort _ => rfl
  | fieldType field =>
    refine Action.Keeps.bind_reads (fun types => ?_) s
    cases Keyed.get? types field <;> exact .of _
  | declared => exact declaredReads
  | sortInfo field =>
    refine .trans (Action.Keeps.bind_reads (fun fields => ?_) s) declaredReads
    cases Keyed.get? fields.sortable field <;> exact .of _
  | checkField field =>
    change ((checkField src field c).run s).2 =
      affected src now c (if field = "*" then .still else .document) s
    unfold checkField
    split
    · rfl
    · refine .trans (Action.Keeps.bind_reads (fun fields => ?_) s) declaredReads
      split <;> exact .of _
  | checkSortField field =>
    refine .trans (Action.Keeps.bind_reads (fun fields => ?_) s) declaredReads
    split <;> exact .of _
  | checkCollection => exact Action.Keeps.bind_reads (fun _ => .pure _) s
  | listFields => exact Action.Keeps.bind_reads (fun _ => .pure _) s
  | load => exact state_load src now c s
  | checkFields fields => exact Action.Keeps.bind_reads (fun _ => .of _) s
  | checkSortFields fields => exact Action.Keeps.bind_reads (fun _ => .of _) s
  | knownCollection => exact reads_knownCollection c s
  | knownSortable => exact reads_knownSortable c s

end Store

end SearchSelect.Schema
