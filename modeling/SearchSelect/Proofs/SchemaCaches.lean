import SearchSelect.Proofs.StoreRuns

/-! Schemas and type maps over any run of calls. Whatever an operation does to them is one of a few
changes; that the two agree, that a schema once read is the one that is seen until it is forgotten,
that nothing is kept of a failure, and that collections do not disturb each other is read off the
changes. -/

namespace SearchSelect.Schema.Store

variable {α β : Type} {src : Source} {now : Nat} {c d : String} {s : Store} {doc : Document}

/-! ## Changes -/

/-- The schemas and type maps that are kept, and how often a schema has been asked for. -/
structure Schemas where
  documents : Keyed Document
  typeMaps : Keyed (Keyed String)
  asked : Nat

def schemas (s : Store) : Schemas :=
  ⟨s.documents, s.typeMaps, s.asked.schema⟩

/-- All that an operation about a collection can do to the schemas and type maps. -/
inductive Change (src : Source) (c : String) (k : Schemas) : Schemas → Prop where
  | still : Change src c k k
  | mapped {doc : Document} (kept : Keyed.get? k.documents c = some doc) :
    Change src c k { k with typeMaps := Keyed.insert k.typeMaps c doc.typeMap }
  | refused {f : Fault} (absent : Keyed.get? k.documents c = none)
      (answer : fetched src k.asked c = .error f) :
    Change src c k { k with asked := k.asked + 1 }
  | obtained {doc : Document} (absent : Keyed.get? k.documents c = none)
      (answer : fetched src k.asked c = .ok doc) :
    Change src c k
      { k with documents := Keyed.insert k.documents c doc, asked := k.asked + 1 }
  | both {doc : Document} (absent : Keyed.get? k.documents c = none)
      (answer : fetched src k.asked c = .ok doc) :
    Change src c k
      ⟨Keyed.insert k.documents c doc, Keyed.insert k.typeMaps c doc.typeMap, k.asked + 1⟩

theorem change_document (src : Source) (c : String) (s : Store) :
    Change src c s.schemas ((document src c).run s).2.schemas := by
  cases kept : Keyed.get? s.documents c with
  | some doc =>
    rw [run_document_kept kept]
    exact .still
  | none =>
    cases answer : fetched src s.asked.schema c with
    | ok doc =>
      rw [run_document_fetched kept answer]
      exact .obtained kept answer
    | error f =>
      rw [run_document_refused kept answer]
      exact .refused kept answer

theorem change_typeMap (src : Source) (c : String) (s : Store) :
    Change src c s.schemas ((typeMap src c).run s).2.schemas := by
  cases known : Keyed.get? s.typeMaps c with
  | some types =>
    rw [run_typeMap_kept known]
    exact .still
  | none =>
    rw [run_typeMap_absent known]
    cases kept : Keyed.get? s.documents c with
    | some doc =>
      rw [Action.run_bind_ok (run_document_kept kept)]
      exact .mapped kept
    | none =>
      cases answer : fetched src s.asked.schema c with
      | ok doc =>
        rw [Action.run_bind_ok (run_document_fetched kept answer)]
        exact .both kept answer
      | error f =>
        rw [Action.run_bind_error (run_document_refused kept answer)]
        exact .refused kept answer

theorem change_knownTypes (src : Source) (c : String) (s : Store) :
    Change src c s.schemas ((knownTypes c).run s).2.schemas := by
  cases known : Keyed.get? s.typeMaps c with
  | some types =>
    rw [run_knownTypes_kept known]
    exact .still
  | none =>
    rw [run_knownTypes_absent known]
    cases kept : Keyed.get? s.documents c with
    | some doc =>
      rw [Action.run_bind_ok (run_loadedDocument_kept kept)]
      exact .mapped kept
    | none =>
      rw [Action.run_bind_error (run_loadedDocument_absent kept)]
      exact .still

theorem keeps_fieldSet (src : Source) (now : Nat) (c : String) :
    Action.Keeps schemas (fieldSet src now c) := by
  have same : Action.Keeps schemas (discover src c) :=
    keeps_discover (fun _ => rfl) (fun _ => rfl)
  intro s
  obtain ⟨fields, updated, -, run⟩ | ⟨fields, t, found, run⟩ := run_fieldSet src now c s
  · rw [run]
  · rw [run, ← same s, found]
    rfl

theorem change_perform (src : Source) (now : Nat) (c : String) (op : Op α) (s : Store) :
    Change src c s.schemas ((perform src now c op).run s).2.schemas := by
  have quiet {γ : Type} {a : Action Store γ} (keeps : Action.Keeps schemas a) :
      Change src c s.schemas (a.run s).2.schemas := by
    rw [keeps s]
    exact .still
  rw [state_perform]
  cases op.effect with
  | still => exact .still
  | document => exact change_document src c s
  | typeMap => exact change_typeMap src c s
  | knownTypes => exact change_knownTypes src c s
  | fieldSet => exact quiet (keeps_fieldSet src now c)
  | load =>
    have change := change_typeMap src c ((fieldSet src now c).run s).2
    rwa [keeps_fieldSet src now c s] at change
  | searchable => exact quiet (keeps_inTiers (fun _ => rfl) fun _ => rfl)
  | sortable => exact quiet (keeps_inTiers (fun _ => rfl) fun _ => rfl)

/-! ## What every change respects -/

namespace Schemas

/-- Every type map kept is that of the schema kept. -/
def Agree (k : Schemas) : Prop :=
  ∀ c types, Keyed.get? k.typeMaps c = some types →
    ∃ doc, Keyed.get? k.documents c = some doc ∧ types = doc.typeMap

theorem Agree.typeMap_eq {k : Schemas} {types : Keyed String} (agree : k.Agree)
    (known : Keyed.get? k.typeMaps c = some types) (kept : Keyed.get? k.documents c = some doc) :
    types = doc.typeMap := by
  obtain ⟨doc', same, rfl⟩ := agree c types known
  rw [Option.some.inj (same.symm.trans kept)]

end Schemas

section Respects

variable {k k' : Schemas}

theorem Change.agree (change : Change src c k k') (agree : k.Agree) : k'.Agree := by
  have inserted {doc : Document} {types : Keyed String} {d : String}
      (h : Keyed.get? (Keyed.insert k.typeMaps c doc.typeMap) d = some types) :
      d = c ∧ types = doc.typeMap ∨ d ≠ c ∧ Keyed.get? k.typeMaps d = some types := by
    rw [Keyed.get?_insert] at h
    split at h
    · next same => exact .inl ⟨same, (Option.some.inj h).symm⟩
    · next other => exact .inr ⟨other, h⟩
  intro d types h
  cases change with
  | still => exact agree d types h
  | refused => exact agree d types h
  | mapped kept =>
    obtain ⟨rfl, rfl⟩ | ⟨-, h⟩ := inserted h
    · exact ⟨_, kept, rfl⟩
    · exact agree d types h
  | obtained absent =>
    obtain ⟨doc, kept, same⟩ := agree d types h
    have other : d ≠ c := by
      rintro rfl
      rw [absent] at kept
      cases kept
    exact ⟨doc, by rw [Keyed.get?_insert, if_neg other, kept], same⟩
  | both absent =>
    obtain ⟨rfl, rfl⟩ | ⟨other, h⟩ := inserted h
    · exact ⟨_, by rw [Keyed.get?_insert, if_pos rfl], rfl⟩
    · obtain ⟨doc, kept, same⟩ := agree d types h
      exact ⟨doc, by rw [Keyed.get?_insert, if_neg other, kept], same⟩

theorem Change.others (change : Change src c k k') (other : d ≠ c) :
    Keyed.get? k'.documents d = Keyed.get? k.documents d ∧
      Keyed.get? k'.typeMaps d = Keyed.get? k.typeMaps d := by
  cases change <;> simp [Keyed.get?_insert, other]

/-- Nothing is kept of a failure. -/
theorem Change.unobtained (change : Change src c k k')
    (absent : Keyed.get? k'.documents c = none) :
    k'.documents = k.documents ∧ k'.typeMaps = k.typeMaps := by
  cases change with
  | still => exact ⟨rfl, rfl⟩
  | refused => exact ⟨rfl, rfl⟩
  | mapped kept =>
    rw [kept] at absent
    cases absent
  | obtained => simp [Keyed.get?_insert] at absent
  | both => simp [Keyed.get?_insert] at absent

theorem Change.refusal (change : Change src c k k') (absent : Keyed.get? k.documents c = none)
    {f : Fault} (answer : fetched src k.asked c = .error f) :
    Keyed.get? k'.documents c = none := by
  cases change with
  | still => exact absent
  | refused => exact absent
  | mapped kept =>
    rw [kept] at absent
    cases absent
  | obtained _ found =>
    rw [found] at answer
    cases answer
  | both _ found =>
    rw [found] at answer
    cases answer

/-- Once a schema is kept, it stays and is not asked for again. -/
theorem Change.kept (change : Change src c k k') (kept : Keyed.get? k.documents c = some doc) :
    Keyed.get? k'.documents c = some doc ∧ k'.asked = k.asked := by
  cases change with
  | still => exact ⟨kept, rfl⟩
  | mapped => exact ⟨kept, rfl⟩
  | refused absent => rw [kept] at absent; cases absent
  | obtained absent => rw [kept] at absent; cases absent
  | both absent => rw [kept] at absent; cases absent

end Respects

end SearchSelect.Schema.Store

namespace SearchSelect.Schema

/-! ## What is seen of a schema -/

/-- What an operation answers about a collection with this schema; nothing is said of operations
that look at field sets alone. -/
def Op.view? (c : String) (doc : Document) : {α : Type} → Op α → Option (Except Fault α)
  | _, .document => some (.ok doc)
  | _, .typeMap => some (.ok doc.typeMap)
  | _, .knownTypes => some (.ok doc.typeMap)
  | _, .fieldType field =>
    some ((Keyed.get? doc.typeMap field).elim (.error (.fieldUntyped field)) .ok)
  | _, .declared => some (.ok doc.fieldSet)
  | _, .knownSortable => some (.ok doc.fieldSet.sortable)
  | _, .sortInfo field =>
    some ((Keyed.get? doc.fieldSet.sortable field).elim (.error (.fieldUnknown field c)) .ok)
  | _, .checkField field =>
    some (if field = "*" ∨ field ∈ doc.fieldSet.searchable then .ok ()
      else .error (.fieldUnknown field c))
  | _, .checkSortField field =>
    some (if doc.fieldSet.isSortable field then .ok () else .error (.sortUnknown field c))
  | _, .listFields => some (.ok doc.listed)
  | _, .checkCollection => some (.ok ())
  | _, .knownCollection => some (.ok ())
  | _, .load => some (.ok ())
  | _, .fieldSet => none
  | _, .checkFields _ => none
  | _, .checkSortFields _ => none
  | _, .discoverSearchable => none
  | _, .discoverSortable => none
  | _, .knownSort _ => none

namespace Store

variable {α : Type} {src : Source} {now : Nat} {c d : String} {s : Store} {doc : Document}

theorem run_typeMap_seen (src : Source) (agree : s.schemas.Agree)
    (kept : Keyed.get? s.documents c = some doc) :
    ∃ t, (typeMap src c).run s = (.ok doc.typeMap, t) := by
  cases known : Keyed.get? s.typeMaps c with
  | some types =>
    obtain rfl := agree.typeMap_eq known kept
    exact ⟨s, run_typeMap_kept known⟩
  | none =>
    rw [run_typeMap_absent known, Action.run_bind_ok (run_document_kept kept)]
    exact ⟨_, rfl⟩

theorem run_knownTypes_seen (agree : s.schemas.Agree)
    (kept : Keyed.get? s.documents c = some doc) :
    ((knownTypes c).run s).1 = .ok doc.typeMap := by
  cases known : Keyed.get? s.typeMaps c with
  | some types =>
    obtain rfl := agree.typeMap_eq known kept
    rw [run_knownTypes_kept known]
  | none =>
    rw [run_knownTypes_absent known, Action.run_bind_ok (run_loadedDocument_kept kept)]
    rfl

theorem run_load_seen (agree : s.schemas.Agree) (kept : Keyed.get? s.documents c = some doc) :
    ((load src now c).run s).1 = .ok () := by
  have seen (t : Store) (same : t.schemas = s.schemas) :
      ∃ u, (typeMap src c).run t = (.ok doc.typeMap, u) := by
    apply run_typeMap_seen
    · rwa [same]
    · exact (congrArg (Keyed.get? ·.documents c) same).trans kept
  have same := keeps_fieldSet src now c s
  unfold load
  obtain ⟨fields, updated, -, run⟩ | ⟨fields, t, -, run⟩ := run_fieldSet src now c s
  · obtain ⟨u, types⟩ := seen s rfl
    rw [Action.run_bind_ok run, Action.run_bind_ok types]
    rfl
  · rw [run] at same
    obtain ⟨u, types⟩ := seen _ same
    rw [Action.run_bind_ok run, Action.run_bind_ok types]
    rfl

/-- Every operation sees the schema that is kept. -/
theorem run_perform_seen (agree : s.schemas.Agree) (kept : Keyed.get? s.documents c = some doc)
    (op : Op α) {r : Except Fault α} (view : op.view? c doc = some r) :
    ((perform src now c op).run s).1 = r := by
  have declaredRun : (declared src c).run s = (.ok doc.fieldSet, s) := by
    unfold declared
    rw [Action.run_bind_ok (Action.run_mapFault_ok (run_document_kept kept))]
    rfl
  cases op with
  | document =>
    cases view
    exact congrArg Prod.fst (run_document_kept kept)
  | typeMap =>
    cases view
    obtain ⟨t, run⟩ := run_typeMap_seen src agree kept
    exact congrArg Prod.fst run
  | knownTypes =>
    cases view
    exact run_knownTypes_seen agree kept
  | fieldType field =>
    cases view
    obtain ⟨t, run⟩ := run_typeMap_seen src agree kept
    change ((fieldType src c field).run s).1 = _
    unfold fieldType
    rw [Action.run_bind_ok run]
    cases Keyed.get? doc.typeMap field <;> rfl
  | declared =>
    cases view
    exact congrArg Prod.fst declaredRun
  | knownSortable =>
    cases view
    exact congrArg Prod.fst (run_knownSortable kept)
  | sortInfo field =>
    cases view
    change ((sortInfo src c field).run s).1 = _
    unfold sortInfo
    rw [Action.run_bind_ok declaredRun]
    cases Keyed.get? doc.fieldSet.sortable field <;> rfl
  | checkField field =>
    cases view
    change ((checkField src field c).run s).1 = _
    unfold checkField
    by_cases star : field = "*"
    · simp only [star, true_or, if_true]
      rfl
    · rw [if_neg star, Action.run_bind_ok declaredRun]
      by_cases listed : field ∈ doc.fieldSet.searchable <;> simp [star, listed] <;> rfl
  | checkSortField field =>
    cases view
    change ((checkSortField src field c).run s).1 = _
    unfold checkSortField
    rw [Action.run_bind_ok declaredRun]
    split <;> rfl
  | listFields =>
    cases view
    change ((listFields src c).run s).1 = _
    unfold listFields
    rw [Action.run_bind_ok (run_document_kept kept)]
    rfl
  | checkCollection =>
    cases view
    change ((checkCollection src c).run s).1 = _
    unfold checkCollection
    rw [Action.run_bind_ok (Action.run_mapFault_ok (run_document_kept kept))]
    rfl
  | knownCollection =>
    cases view
    change ((knownCollection c).run s).1 = _
    unfold knownCollection
    rw [Action.run_bind_ok (Action.run_get s), kept]
    rfl
  | load =>
    cases view
    exact run_load_seen agree kept
  | fieldSet | checkFields _ | checkSortFields _ | discoverSearchable | discoverSortable
  | knownSort _ => cases view

/-! ## Runs -/

theorem agree_forget (agree : s.schemas.Agree) (which : Option String) :
    (s.forget which).schemas.Agree := by
  intro d types h
  cases which with
  | none => cases h
  | some c =>
    change Keyed.get? (Keyed.erase s.typeMaps c) d = some types at h
    rw [Keyed.get?_erase] at h
    split at h
    · cases h
    · next other =>
      obtain ⟨doc, kept, same⟩ := agree d types h
      refine ⟨doc, ?_, same⟩
      change Keyed.get? (Keyed.erase s.documents c) d = some doc
      rw [Keyed.get?_erase, if_neg other]
      exact kept

theorem agree_after (src : Source) (calls : List Call) (agree : s.schemas.Agree) :
    (after src calls s).schemas.Agree := by
  induction calls generalizing s with
  | nil => exact agree
  | cons call calls ih =>
    apply ih
    cases call with
    | about op now c => exact (change_perform src now c op s).agree agree
    | forget which => exact agree_forget agree which

/-- A call that does not make the store forget this collection. -/
def Call.Spares (c : String) : Call → Prop
  | about .. => True
  | forget none => False
  | forget (some d) => d ≠ c

theorem kept_call {call : Call} (spares : call.Spares c)
    (kept : Keyed.get? s.documents c = some doc) :
    Keyed.get? (call.after src s).documents c = some doc := by
  cases call with
  | about op now d =>
    have change := change_perform src now d op s
    by_cases same : c = d
    · subst same
      exact (change.kept kept).1
    · exact (change.others same).1.trans kept
  | forget which =>
    cases which with
    | none => cases spares
    | some d =>
      change Keyed.get? (Keyed.erase s.documents d) c = some doc
      rw [Keyed.get?_erase, if_neg (Ne.symm spares), kept]

theorem kept_after {calls : List Call} (spares : ∀ call ∈ calls, call.Spares c)
    (kept : Keyed.get? s.documents c = some doc) :
    Keyed.get? (after src calls s).documents c = some doc := by
  induction calls generalizing s with
  | nil => exact kept
  | cons call calls ih =>
    obtain ⟨first, rest⟩ := List.forall_mem_cons.mp spares
    exact ih rest (kept_call first kept)

/-! ## Answers that are not looked at -/

section Unasked

variable {other : Nat → String → Except Fault Json}

theorem run_document_unasked (same : (∃ doc, Keyed.get? s.documents c = some doc) ∨
      ∀ n, other n c = src.schema n c) :
    (document { src with schema := other } c).run s = (document src c).run s := by
  cases kept : Keyed.get? s.documents c with
  | some doc => rw [run_document_kept kept, run_document_kept kept]
  | none =>
    obtain ⟨doc, found⟩ | same := same
    · rw [kept] at found
      cases found
    · have answers : fetched { src with schema := other } s.asked.schema c =
          fetched src s.asked.schema c :=
        congrArg (Except.bind · fun answer => Document.ofAnswer answer c) (same _)
      cases answer : fetched src s.asked.schema c with
      | ok doc =>
        rw [run_document_fetched kept answer, run_document_fetched kept (answers.trans answer)]
      | error f =>
        rw [run_document_refused kept answer, run_document_refused kept (answers.trans answer)]

theorem run_typeMap_unasked (same : (∃ doc, Keyed.get? s.documents c = some doc) ∨
      ∀ n, other n c = src.schema n c) :
    (typeMap { src with schema := other } c).run s = (typeMap src c).run s := by
  cases known : Keyed.get? s.typeMaps c with
  | some types => rw [run_typeMap_kept known, run_typeMap_kept known]
  | none =>
    rw [run_typeMap_absent known, run_typeMap_absent known, Action.run_bind, Action.run_bind,
      run_document_unasked same]

theorem state_perform_unasked (same : (∃ doc, Keyed.get? s.documents c = some doc) ∨
      ∀ n, other n c = src.schema n c) (op : Op α) :
    ((perform { src with schema := other } now c op).run s).2 =
      ((perform src now c op).run s).2 := by
  rw [state_perform, state_perform]
  cases op.effect with
  | still | knownTypes | fieldSet | searchable | sortable => rfl
  | document => exact congrArg Prod.snd (run_document_unasked same)
  | typeMap => exact congrArg Prod.snd (run_typeMap_unasked same)
  | load =>
    have kept : ((fieldSet src now c).run s).2.documents = s.documents :=
      congrArg Schemas.documents (keeps_fieldSet src now c s)
    rw [← kept] at same
    exact congrArg Prod.snd (run_typeMap_unasked same)

/-- While the schema of a collection is kept, nothing depends on what the source would say about
it. -/
theorem after_unasked (same : ∀ n d, d ≠ c → other n d = src.schema n d) {calls : List Call}
    (spares : ∀ call ∈ calls, call.Spares c) (kept : Keyed.get? s.documents c = some doc) :
    after { src with schema := other } calls s = after src calls s := by
  induction calls generalizing s with
  | nil => rfl
  | cons call calls ih =>
    obtain ⟨first, rest⟩ := List.forall_mem_cons.mp spares
    have next : call.after { src with schema := other } s = call.after src s := by
      cases call with
      | forget which => rfl
      | about op now d =>
        apply state_perform_unasked
        by_cases here : d = c
        · exact .inl ⟨doc, here ▸ kept⟩
        · exact .inr fun n => same n d here
    rw [after_cons, after_cons, next]
    exact ih rest (kept_call first kept)

end Unasked

/-! ## Consistency -/

/-- An operation about a collection leaves what is kept of other collections alone, and leaves
everything as it was if it has not obtained a schema. -/
structure Careful (src : Source) (c : String) (s s' : Store) : Prop where
  others : ∀ d, d ≠ c → Keyed.get? s'.documents d = Keyed.get? s.documents d ∧
    Keyed.get? s'.typeMaps d = Keyed.get? s.typeMaps d
  unobtained : Keyed.get? s'.documents c = none →
    s'.documents = s.documents ∧ s'.typeMaps = s.typeMaps
  refusal : Keyed.get? s.documents c = none → ∀ f, fetched src s.asked.schema c = .error f →
    Keyed.get? s'.documents c = none

theorem careful_perform (src : Source) (now : Nat) (c : String) (op : Op α) (s : Store) :
    Careful src c s ((perform src now c op).run s).2 where
  others _ other := (change_perform src now c op s).others other
  unobtained absent := (change_perform src now c op s).unobtained absent
  refusal absent _ answer := (change_perform src now c op s).refusal absent answer

/-- One schema is what every operation about the collection sees, and none asks for another. -/
structure Sees (src : Source) (c : String) (doc : Document) (s : Store) : Prop where
  kept : Keyed.get? s.documents c = some doc
  answers : ∀ (α : Type) (op : Op α) (now : Nat) (r : Except Fault α), op.view? c doc = some r →
    ((perform src now c op).run s).1 = r
  unasked : ∀ (α : Type) (op : Op α) (now : Nat),
    ((perform src now c op).run s).2.asked.schema = s.asked.schema

theorem sees_of_kept (agree : s.schemas.Agree) (kept : Keyed.get? s.documents c = some doc) :
    Sees src c doc s where
  kept := kept
  answers _ op _ _ view := run_perform_seen agree kept op view
  unasked _ op now := ((change_perform src now c op s).kept kept).2

theorem kept_of_document {s' : Store} (got : (document src c).run s = (.ok doc, s')) :
    Keyed.get? s'.documents c = some doc := by
  cases kept : Keyed.get? s.documents c with
  | some doc' =>
    rw [run_document_kept kept] at got
    cases got
    exact kept
  | none =>
    cases answer : fetched src s.asked.schema c with
    | ok doc' =>
      rw [run_document_fetched kept answer] at got
      cases got
      exact (Keyed.get?_insert _ _ _ _).trans (if_pos rfl)
    | error f =>
      rw [run_document_refused kept answer] at got
      cases got

/-- What holds after any calls whatever, with any answers of the source. -/
theorem schemas_consistent (src : Source) (maxAge : Nat) (calls : List Call) :
    let s := after src calls (.empty maxAge)
    (∀ c types, Keyed.get? s.typeMaps c = some types →
      ∃ doc, Keyed.get? s.documents c = some doc ∧ types = doc.typeMap) ∧
    (∀ (α : Type) (op : Op α) (now : Nat) (c : String),
      Careful src c s ((perform src now c op).run s).2) ∧
    (∀ c d, d ≠ c → Keyed.get? (s.forget (some c)).documents d = Keyed.get? s.documents d ∧
      Keyed.get? (s.forget (some c)).typeMaps d = Keyed.get? s.typeMaps d) ∧
    ∀ c doc s', (document src c).run s = (.ok doc, s') →
      ∀ more : List Call, (∀ call ∈ more, call.Spares c) →
        Sees src c doc (after src more s') ∧
        ∀ other : Nat → String → Except Fault Json, (∀ n d, d ≠ c → other n d = src.schema n d) →
          after { src with schema := other } more s' = after src more s' := by
  have agree : (after src calls (.empty maxAge)).schemas.Agree :=
    agree_after src calls fun _ _ h => by cases h
  refine ⟨agree, fun _ op now c => careful_perform src now c op _, fun c d other => ?_,
    fun c doc s' got more spares => ?_⟩
  · exact ⟨(Keyed.get?_erase _ _ _).trans (if_neg other),
      (Keyed.get?_erase _ _ _).trans (if_neg other)⟩
  · have change := change_document src c (after src calls (.empty maxAge))
    rw [got] at change
    have kept := kept_of_document got
    exact ⟨sees_of_kept (agree_after src more (change.agree agree)) (kept_after spares kept),
      fun other same => after_unasked same spares kept⟩

/-! ### A source that changes its mind -/

/-- The first question about a schema is refused, and the answers differ from the second on. -/
def changingSource : Source where
  schema n _ :=
    if n = 0 then .error .json
    else .ok (.obj [("schema", .obj [("fields", .arr [.obj
      [("name", .str "a"), ("type", .str (if n = 1 then "string" else "pint"))]])])])
  listing _ _ := .error .json
  probe _ _ := .error .json

def silentAbout (collection : String) (n : Nat) (c : String) : Except Fault Json :=
  if c = collection then .error .json else changingSource.schema n c

def firstAnswer : Document :=
  ⟨none, none, [⟨"a", some "string", none, none, none, none⟩], [], []⟩

def refusedCalls : List Call := [.about .typeMap 0 "c"]

def laterCalls : List Call :=
  [.about .load 5 "d", .forget (some "d"), .about (.fieldType "a") 6 "c"]

theorem schemas_consistent_changing :
    let s := after changingSource refusedCalls (.empty 0)
    ∃ s', (document changingSource "c").run s = (.ok firstAnswer, s') ∧
      Keyed.get? (s.forget (some "d")).documents "c" = none ∧
      (∀ call ∈ laterCalls, call.Spares "c") ∧
      ((perform changingSource 7 "c" .knownTypes).run (after changingSource laterCalls s')).1 =
        .ok [("a", "string")] ∧
      after { changingSource with schema := silentAbout "c" } laterCalls s' =
        after changingSource laterCalls s' := by
  have got : (document changingSource "c").run (after changingSource refusedCalls (.empty 0)) =
      (.ok firstAnswer, _) := rfl
  have spares : ∀ call ∈ laterCalls, call.Spares "c" := by
    simp [laterCalls, Call.Spares]
  obtain ⟨-, -, others, seen⟩ := schemas_consistent changingSource 0 refusedCalls
  obtain ⟨sees, unasked⟩ := seen "c" firstAnswer _ got laterCalls spares
  exact ⟨_, got, (others "d" "c" (by decide)).1, spares, sees.answers _ .knownTypes 7 _ rfl,
    unasked (silentAbout "c") fun n d other => if_neg other⟩

end Store

end SearchSelect.Schema
