import SearchSelect.Proofs.Accepted
import SearchSelect.Proofs.SchemaCaches
import SearchSelect.Proofs.SortAgreement

/-! Which texts pass as queries over what a store has loaded. A text passes exactly if it stands for
a query and the query is legal: its collection has a schema, its columns have types in it, and its
order uses fields that the collection can be sorted by. Anything else is a fault of the query, and
the check leaves nothing behind but the type map of the collection. -/

namespace SearchSelect

open Sql

/-! ## Checks -/

namespace Validation

variable {σ α β : Type} {a : Action σ α} {f : α → Action σ β} {g : Fault → Fault} {x : α} {y : β}
  {s t u : σ} {P Q : Prop}

/-- Run from `s` the check gives `x` under `P` and blames the query otherwise; in both cases it
leaves `t` behind. -/
inductive Decides (a : Action σ α) (s : σ) (x : α) (P : Prop) (t : σ) : Prop
  | passed (holds : P) (run : a.run s = (.ok x, t))
  | failed (fails : ¬ P) (e : Fault) (query : e.kind = .query) (run : a.run s = (.error e, t))

namespace Decides

theorem state (h : Decides a s x P t) : (a.run s).2 = t := by
  cases h with
  | passed _ run => rw [run]
  | failed _ _ _ run => rw [run]

theorem passes (h : Decides a s x P t) (y : α) : (a.run s).1 = .ok y ↔ y = x ∧ P := by
  cases h with
  | passed holds run => rw [run, Except.ok.injEq, eq_comm, and_iff_left holds]
  | failed fails e _ run =>
    rw [run]
    exact iff_of_false nofun fun h => fails h.2

theorem faults (h : Decides a s x P t) {e : Fault} (error : (a.run s).1 = .error e) :
    e.kind = .query := by
  cases h with
  | passed _ run =>
    rw [run] at error
    cases error
  | failed _ _ query run =>
    rw [run] at error
    cases error
    exact query

theorem pure (x : α) (s : σ) : Decides (Pure.pure x : Action σ α) s x True s :=
  .passed trivial rfl

theorem imp (h : Decides a s x P t) (same : P ↔ Q) : Decides a s x Q t := by
  rwa [← propext same]

theorem bind_passed (first : Decides a s x P t) (holds : P) (rest : Decides (f x) t y Q u) :
    Decides (a >>= f) s y Q u := by
  cases first with
  | passed _ run =>
    cases rest with
    | passed too next => exact .passed too ((Action.run_bind_ok run).trans next)
    | failed fails e query next =>
      exact .failed fails e query ((Action.run_bind_ok run).trans next)
  | failed fails => exact absurd holds fails

theorem bind_failed (first : Decides a s x P t) (fails : ¬ P) (stops : ¬ Q) :
    Decides (a >>= f) s y Q t := by
  cases first with
  | passed holds => exact absurd holds fails
  | failed _ e query run => exact .failed stops e query (Action.run_bind_error run)

theorem bind (first : Decides a s x P t) (rest : Decides (f x) t y Q t) :
    Decides (a >>= f) s y (P ∧ Q) t := by
  by_cases holds : P
  · exact (first.bind_passed holds rest).imp (and_iff_right holds).symm
  · exact first.bind_failed holds fun both => holds both.1

/-- Whatever goes wrong is wrapped in a fault of the query. -/
theorem mapFault (query : ∀ e, (g e).kind = .query) (state : (a.run s).2 = t)
    (passes : ∀ y, (a.run s).1 = .ok y ↔ y = x ∧ P) : Decides (a.mapFault g) s x P t := by
  cases run : a.run s with
  | mk r t' =>
    rw [run] at state passes
    obtain rfl : t' = t := state
    cases r with
    | ok y =>
      obtain ⟨rfl, holds⟩ := (passes y).mp rfl
      exact .passed holds (Action.run_mapFault_ok run)
    | error e =>
      refine .failed (fun holds => ?_) (g e) (query e) ?_
      · cases (passes x).mpr ⟨rfl, holds⟩
      · rw [Action.run_mapFault, run]
        rfl

end Decides

open Schema

section Parts

variable {cat : Catalog σ} {c : String} {types : Keyed String} {fields : List String}

theorem decides_checkFields (known : (cat.fieldTypes c).run s = (.ok types, t)) :
    Decides (checkFields cat c fields) s ()
      (∀ f ∈ fields, isUniversal f ∨ Keyed.contains types f) t := by
  have all_known : fields.find? (fun f => !isUniversal f && !Keyed.contains types f) = none ↔
      ∀ f ∈ fields, isUniversal f ∨ Keyed.contains types f := by
    simp [List.find?_eq_none, or_iff_not_imp_left]
  refine Decides.bind_passed (P := True) (.passed trivial (Action.run_mapFault_ok known)) trivial ?_
  cases unknown : fields.find? fun f => !isUniversal f && !Keyed.contains types f with
  | none => exact .passed (all_known.mp unknown) rfl
  | some field =>
    refine .failed (fun all => ?_) (.invalidField field) rfl rfl
    rw [all_known.mpr all] at unknown
    cases unknown

theorem decides_checkSortFields {store : Store} :
    Decides (checkSortFields Store.catalog c fields) store ()
      (∀ f ∈ fields, (store.fieldSets.fieldSetD c).isSortable f) store := by
  unfold checkSortFields
  split
  · next none =>
    subst none
    exact (Decides.pure () store).imp (by simp)
  · refine .mapFault (fun _ => rfl) rfl fun _ => ?_
    rw [← FieldSet.checkSortable_eq_ok (c := c)]
    exact ⟨fun sorted => ⟨rfl, sorted⟩, And.right⟩

theorem decides_checkCollection {store : Store} :
    Decides ((Store.catalog.checkCollection c).mapFault .collectionRefused) store ()
      (∃ doc, Keyed.get? store.documents c = some doc) store := by
  refine .mapFault (fun _ => rfl) (Store.reads_knownCollection c store) fun _ => ?_
  change ((Store.knownCollection c).run store).1 = .ok () ↔ _
  unfold Store.knownCollection
  rw [Action.run_bind_ok (Action.run_get store)]
  cases Keyed.get? store.documents c with
  | none => exact iff_of_false nofun (by simp)
  | some doc => exact iff_of_true rfl ⟨rfl, doc, rfl⟩

end Parts

end Validation

/-! ## Legal queries -/

namespace Schema.Store

open Validation

variable {src : Source} {c sql : String} {s : Store} {doc : Document} {q : Query}

/-- The collection is loaded, its schema gives every projected column a type, apart from those that
may always be projected, and it can be sorted by every column of the order. -/
structure Legal (s : Store) (q : Query) : Prop where
  known : ∃ doc, Keyed.get? s.documents q.collection = some doc ∧
    ∀ items, q.statement.projection = .columns items → ∀ c ∈ items,
      c.source = "*" ∨ c.source = "score" ∨ c.source = "_docid_" ∨
        Keyed.contains doc.typeMap c.source
  sorted : ∀ k ∈ q.statement.order,
    Keyed.contains (s.fieldSets.fieldSetD q.collection).sortable k.column

/-- The store with the type map of a collection kept. -/
def typed (s : Store) (c : String) (doc : Document) : Store :=
  match Keyed.get? s.typeMaps c with
  | some _ => s
  | none => { s with typeMaps := Keyed.insert s.typeMaps c doc.typeMap }

theorem fieldSets_typed : (s.typed c doc).fieldSets = s.fieldSets := by
  unfold typed
  split <;> rfl

theorem run_knownTypes_typed (agree : s.schemas.Agree)
    (kept : Keyed.get? s.documents c = some doc) :
    (knownTypes c).run s = (.ok doc.typeMap, s.typed c doc) := by
  unfold typed
  cases known : Keyed.get? s.typeMaps c with
  | some types =>
    obtain rfl := agree.typeMap_eq known kept
    exact run_knownTypes_kept known
  | none =>
    rw [run_knownTypes_absent known, Action.run_bind_ok (run_loadedDocument_kept kept)]
    rfl

theorem isUniversal_iff (f : String) :
    isUniversal f ↔ f = "*" ∨ f = "score" ∨ f = "_docid_" := by
  unfold isUniversal isPseudo scoreField docIdField
  simp only [Bool.or_eq_true, decide_eq_true_eq]

theorem forall_mem_sources (q : Query) {doc : Document} :
    (∀ f ∈ q.sources, isUniversal f ∨ Keyed.contains doc.typeMap f) ↔
      ∀ items, q.statement.projection = .columns items → ∀ c ∈ items,
        c.source = "*" ∨ c.source = "score" ∨ c.source = "_docid_" ∨
          Keyed.contains doc.typeMap c.source := by
  cases projection : q.statement.projection with
  | everything => simp [Query.sources, Projection.sources, projection, isUniversal_iff]
  | columns items => simp [Query.sources, Projection.sources, projection, isUniversal_iff, or_assoc]

/-- Whether a query is legal decides whether its text passes. -/
theorem decides_checkedQuery (agree : s.schemas.Agree) (read : Query.ofText sql = .ok q) :
    Decides (checkedQuery catalog sql) s q (Legal s q)
      ((Keyed.get? s.documents q.collection).elim s (s.typed q.collection)) := by
  have order : (∀ f ∈ q.sortNames, (s.fieldSets.fieldSetD q.collection).isSortable f) ↔
      ∀ k ∈ q.statement.order,
        Keyed.contains (s.fieldSets.fieldSetD q.collection).sortable k.column := by
    simp [Query.sortNames, Query.sortFields, Select.sortFields, FieldSet.isSortable]
  have collection : Decides ((catalog.checkCollection q.collection).mapFault .collectionRefused)
    s () _ s := decides_checkCollection
  refine Decides.bind_passed (P := True) (.passed trivial (Action.run_of_eq read s)) trivial ?_
  cases kept : Keyed.get? s.documents q.collection with
  | none =>
    refine collection.bind_failed (by simp [kept]) fun legal => ?_
    obtain ⟨doc, loaded, -⟩ := legal.known
    rw [kept] at loaded
    cases loaded
  | some doc =>
    have sorting : Decides (Validation.checkSortFields catalog q.collection q.sortNames)
      (s.typed q.collection doc) () _ _ := decides_checkSortFields
    rw [fieldSets_typed, order] at sorting
    have typing : Decides (Validation.checkFields catalog q.collection q.sources) s () _ _ :=
      decides_checkFields (run_knownTypes_typed agree kept)
    refine collection.bind_passed ⟨doc, kept⟩ ((typing.bind (sorting.bind (.pure q _))).imp ?_)
    constructor
    · rintro ⟨typed, sorted, -⟩
      exact ⟨⟨doc, kept, (forall_mem_sources q).mp typed⟩, sorted⟩
    · rintro ⟨⟨doc', kept', typed⟩, sorted⟩
      obtain rfl : doc = doc' := Option.some.inj (kept.symm.trans kept')
      exact ⟨(forall_mem_sources q).mpr typed, sorted, trivial⟩

theorem run_checkedQuery_unread {f : Fault} (unread : Query.ofText sql = .error f) :
    (checkedQuery catalog sql).run s = (.error f, s) := by
  unfold checkedQuery
  exact Action.run_bind_error (Action.run_of_eq unread s)

theorem state_checkedQuery (agree : s.schemas.Agree) (sql : String) :
    ((checkedQuery catalog sql).run s).2 = s ∨
      ∃ q doc, Query.ofText sql = .ok q ∧ Keyed.get? s.documents q.collection = some doc ∧
        Keyed.get? s.typeMaps q.collection = none ∧ ((checkedQuery catalog sql).run s).2 =
          { s with typeMaps := Keyed.insert s.typeMaps q.collection doc.typeMap } := by
  cases read : Query.ofText sql with
  | error f =>
    rw [run_checkedQuery_unread read]
    exact .inl rfl
  | ok q =>
    rw [(decides_checkedQuery agree read).state]
    cases kept : Keyed.get? s.documents q.collection with
    | none => exact .inl rfl
    | some doc =>
      cases known : Keyed.get? s.typeMaps q.collection with
      | some types => exact .inl (by simp [typed, known])
      | none => exact .inr ⟨q, doc, rfl, kept, known, by simp [typed, known]⟩

/-! ## Reached stores -/

/-- The stores that calls can lead to, with queries checked and the cache of field sets written to
in between. -/
inductive Reached (src : Source) : Store → Prop
  | empty (maxAge : Nat) : Reached src (.empty maxAge)
  | call {s : Store} (call : Call) (before : Reached src s) : Reached src (call.after src s)
  | checked {s : Store} (sql : String) (before : Reached src s) :
    Reached src ((checkedQuery catalog sql).run s).2
  | written {s : Store} (fieldSets : FieldCache) (before : Reached src s) :
    Reached src { s with fieldSets }

theorem Reached.agree (reached : Reached src s) : s.schemas.Agree := by
  induction reached with
  | empty => exact fun _ _ h => by cases h
  | call call _ ih => exact agree_after src [call] ih
  | @checked s sql _ ih =>
    obtain same | ⟨q, doc, -, kept, -, state⟩ := state_checkedQuery ih sql
    · rwa [same]
    · rw [state]
      have change : Change src q.collection s.schemas _ := .mapped kept
      exact change.agree ih
  | written _ _ ih => exact ih

/-- In every store that can be reached, a text passes exactly if it stands for a legal query, and
fails by a fault of the query otherwise. The check keeps the type map of the collection, made from
its schema, if there was none, and changes nothing else. -/
theorem checkedQuery_legal (reached : Reached src s) (sql : String) :
    (∀ q, ((checkedQuery catalog sql).run s).1 = .ok q ↔
      Query.ofText sql = .ok q ∧ Legal s q) ∧
    (∀ f, ((checkedQuery catalog sql).run s).1 = .error f → f.kind = .query) ∧
    (((checkedQuery catalog sql).run s).2 = s ∨
      ∃ q doc, Query.ofText sql = .ok q ∧ Keyed.get? s.documents q.collection = some doc ∧
        Keyed.get? s.typeMaps q.collection = none ∧ ((checkedQuery catalog sql).run s).2 =
          { s with typeMaps := Keyed.insert s.typeMaps q.collection doc.typeMap }) := by
  refine ⟨fun q => ?_, fun f failed => ?_, state_checkedQuery reached.agree sql⟩
  · cases read : Query.ofText sql with
    | error f =>
      rw [run_checkedQuery_unread read]
      exact iff_of_false nofun nofun
    | ok q' =>
      rw [(decides_checkedQuery reached.agree read).passes, Except.ok.injEq, eq_comm]
      constructor
      · rintro ⟨rfl, legal⟩
        exact ⟨rfl, legal⟩
      · rintro ⟨rfl, legal⟩
        exact ⟨rfl, legal⟩
  · cases read : Query.ofText sql with
    | error f' =>
      rw [run_checkedQuery_unread read] at failed
      cases failed
      exact kind_of_ofText read
    | ok q => exact (decides_checkedQuery reached.agree read).faults failed

/-! ### A shelf of which only the schema and the field set are known -/

def shelfCalls : List Call :=
  [.about .fieldSet 0 "docs", .about .document 1 "docs"]

def pricedTitles : Query where
  statement := ⟨.columns [⟨"title", some "t"⟩, ⟨"score", none⟩], some "docs", none,
    [⟨"price", some .desc⟩], none, none⟩
  collection := "docs"

def shelfDocument : Document := ⟨none, none, shelfFields, [], []⟩

theorem checkedQuery_legal_priced :
    let s := after shelfSource shelfCalls (.empty 0)
    Reached shelfSource s ∧ Keyed.get? s.typeMaps "docs" = none ∧
      ((checkedQuery catalog "SELECT title AS t, score FROM docs ORDER BY price DESC").run s).1 =
        .ok pricedTitles := by
  intro s
  have reached : Reached shelfSource s :=
    Reached.call (.about .document 1 "docs") (.call (.about .fieldSet 0 "docs") (.empty 0))
  have text : Query.ofText "SELECT title AS t, score FROM docs ORDER BY price DESC" =
      .ok pricedTitles := by with_unfolding_all rfl
  have kept : Keyed.get? s.documents "docs" = some shelfDocument := by with_unfolding_all rfl
  have legal : Legal s pricedTitles := by
    refine ⟨⟨shelfDocument, kept, ?_⟩, by decide⟩
    rintro _ ⟨⟩
    decide
  exact ⟨reached, by with_unfolding_all rfl,
    ((checkedQuery_legal reached _).1 pricedTitles).mpr ⟨text, legal⟩⟩

end Schema.Store

end SearchSelect
