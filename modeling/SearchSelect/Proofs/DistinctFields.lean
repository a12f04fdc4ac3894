import Mathlib.Data.List.Induction
import SearchSelect.Schema.FieldSet

/-! Duplicates in the searchable fields of a cache. Whatever is written as a whole is cleared of
them, and a partial update is not: a list with duplicates is found after a run of writes exactly if
an update has put it there and no later write has replaced it. -/

namespace SearchSelect.Schema.FieldCache

/-- Whatever can be written to a cache: a whole field set, parts of one, or nothing in place of one
collection or of all. -/
inductive Write where
  | store (collection : String) (searchable : List String) (sortable : Keyed FieldInfo) (now : Nat)
  | update (collection : String) (searchable : Option (List String))
    (sortable : Option (Keyed FieldInfo)) (now : Nat)
  | clear (collection : Option String)

def Write.apply (cache : FieldCache) : Write → FieldCache
  | store collection searchable sortable now =>
    cache.store collection (.make searchable sortable) now
  | update collection searchable sortable now => cache.update collection searchable sortable now
  | clear collection => cache.clear collection

/-- The cache after some writes, which starts empty. -/
def after (writes : List Write) : FieldCache :=
  writes.foldl Write.apply []

/-- The write decides anew what the searchable fields of a collection are. -/
def Write.Replaces (c : String) : Write → Prop
  | store collection _ _ _ => collection = c
  | update collection searchable _ _ => collection = c ∧ searchable ≠ none
  | clear collection => collection = none ∨ collection = some c

/-- The list that an update gave for a collection, if nothing has replaced it since. -/
def Updated (writes : List Write) (c : String) (names : List String) : Prop :=
  ∃ before sortable now rest, writes = before ++ .update c (some names) sortable now :: rest ∧
    ∀ w ∈ rest, ¬ w.Replaces c

/-! ## One write -/

/-- The searchable fields of a collection, if there is an entry for it. -/
def searchable? (cache : FieldCache) (c : String) : Option (List String) :=
  (cache.fieldSet? c).map FieldSet.searchable

section Step

variable {cache : FieldCache} {c : String} {names : List String}

theorem fieldSet?_store (cache : FieldCache) (d : String) (fields : FieldSet) (now : Nat)
    (c : String) :
    (cache.store d fields now).fieldSet? c = if c = d then some fields else cache.fieldSet? c := by
  unfold fieldSet? store
  rw [Keyed.get?_insert]
  split <;> rfl

theorem searchable?_update (cache : FieldCache) (d : String) (searchable : Option (List String))
    (sortable : Option (Keyed FieldInfo)) (now : Nat) (c : String) :
    (cache.update d searchable sortable now).searchable? c =
      if c = d then some (searchable.getD ((cache.searchable? c).getD [])) else
        cache.searchable? c := by
  unfold searchable? update
  rw [fieldSet?_store]
  split
  · next same =>
    rw [same]
    cases cache.fieldSet? d <;> rfl
  · rfl

theorem searchable?_clear (cache : FieldCache) (which : Option String) (c : String) :
    (cache.clear which).searchable? c =
      if which = none ∨ which = some c then none else cache.searchable? c := by
  unfold searchable? fieldSet?
  cases which with
  | none => rfl
  | some d =>
    rw [clear, Keyed.get?_erase]
    by_cases same : c = d <;> simp [same, eq_comm]

/-- A write that does not replace a list leaves it as it is. -/
theorem searchable?_apply {w : Write} (known : cache.searchable? c = some names)
    (spared : ¬ w.Replaces c) : (w.apply cache).searchable? c = some names := by
  cases w with
  | store d searchable sortable now =>
    have other : c ≠ d := fun same => spared same.symm
    unfold searchable? Write.apply
    rw [fieldSet?_store, if_neg other]
    exact known
  | update d searchable sortable now =>
    unfold Write.apply
    rw [searchable?_update, known]
    split
    · next same =>
      have none : searchable = none := by_contra fun some => spared ⟨same.symm, some⟩
      rw [none]
      rfl
    · rfl
  | clear which =>
    unfold Write.apply
    rw [searchable?_clear]
    exact (if_neg spared).trans known

/-- What stands after a write has no duplicates, was given by it as an update, or stood before. -/
theorem searchable?_of_apply {w : Write} (known : (w.apply cache).searchable? c = some names) :
    names.Nodup ∨ (∃ sortable now, w = .update c (some names) sortable now) ∨
      cache.searchable? c = some names ∧ ¬ w.Replaces c := by
  cases w with
  | store d searchable sortable now =>
    unfold searchable? Write.apply at known
    rw [fieldSet?_store] at known
    split at known
    · cases known
      exact .inl (FieldSet.nodup_make searchable sortable)
    · next other => exact .inr (.inr ⟨known, fun same => other same.symm⟩)
  | update d searchable sortable now =>
    unfold Write.apply at known
    rw [searchable?_update] at known
    split at known
    · next same =>
      cases searchable with
      | some given =>
        cases known
        exact .inr (.inl ⟨sortable, now, by rw [same]; rfl⟩)
      | none =>
        have spared : ¬ (Write.update d none sortable now).Replaces c := fun h => h.2 rfl
        cases before : cache.searchable? c with
        | some old =>
          rw [before] at known
          exact .inr (.inr ⟨known, spared⟩)
        | none =>
          rw [before] at known
          cases known
          exact .inl List.nodup_nil
    · next other => exact .inr (.inr ⟨known, fun h => other h.1.symm⟩)
  | clear which =>
    unfold Write.apply at known
    rw [searchable?_clear] at known
    split at known
    · cases known
    · next spared => exact .inr (.inr ⟨known, spared⟩)

end Step

/-! ## A run of writes -/

section Run

variable {cache : FieldCache} {writes : List Write} {c : String} {names : List String}

theorem after_append (writes more : List Write) :
    after (writes ++ more) = more.foldl (fun cache w => w.apply cache) (after writes) :=
  List.foldl_append

theorem searchable?_foldl (known : cache.searchable? c = some names)
    (spared : ∀ w ∈ writes, ¬ w.Replaces c) :
    (writes.foldl (fun cache w => w.apply cache) cache).searchable? c = some names := by
  induction writes generalizing cache with
  | nil => exact known
  | cons w writes ih =>
    obtain ⟨first, rest⟩ := List.forall_mem_cons.mp spared
    exact ih (searchable?_apply known first) rest

theorem searchable?_of_updated (updated : Updated writes c names) :
    (after writes).searchable? c = some names := by
  obtain ⟨before, sortable, now, rest, rfl, spared⟩ := updated
  have written :
      ((after before).update c (some names) sortable now).searchable? c = some names := by
    rw [searchable?_update, if_pos rfl]
    rfl
  rw [after_append, List.foldl_cons]
  exact searchable?_foldl written spared

theorem nodup_or_updated (known : (after writes).searchable? c = some names) :
    names.Nodup ∨ Updated writes c names := by
  -- the last write decides, or leaves what the writes before it have left
  induction writes using List.reverseRecOn with
  | nil => cases known
  | append_singleton writes w ih =>
    rw [after_append] at known
    obtain nodup | ⟨sortable, now, rfl⟩ | ⟨before, spared⟩ := searchable?_of_apply known
    · exact .inl nodup
    · exact .inr ⟨writes, sortable, now, [], rfl, nofun⟩
    · refine (ih before).imp_right ?_
      rintro ⟨start, sortable, now, rest, rfl, kept⟩
      refine ⟨start, sortable, now, rest ++ [w], by simp, ?_⟩
      rw [List.forall_mem_append]
      exact ⟨kept, List.forall_mem_singleton.mpr spared⟩

theorem nodup_searchable?_iff (writes : List Write) (c : String) :
    (∀ names, (after writes).searchable? c = some names → names.Nodup) ↔
      ∀ names, Updated writes c names → names.Nodup := by
  constructor
  · intro nodup names updated
    exact nodup names (searchable?_of_updated updated)
  · intro nodup names known
    exact (nodup_or_updated known).elim id (nodup names)

end Run

/-- After any run of writes to an empty cache, a collection has no duplicates among its searchable
fields, be it in its entry, in the field set returned for it or in the one returned in any case,
exactly if no update has left a list with duplicates there. -/
theorem nodup_after_iff (writes : List Write) (c : String) :
    ((∀ entry, Keyed.get? (after writes) c = some entry → entry.fields.searchable.Nodup) ↔
      ∀ names, Updated writes c names → names.Nodup) ∧
    ((∀ fields, (after writes).fieldSet? c = some fields → fields.searchable.Nodup) ↔
      ∀ names, Updated writes c names → names.Nodup) ∧
    (((after writes).fieldSetD c).searchable.Nodup ↔
      ∀ names, Updated writes c names → names.Nodup) := by
  rw [← nodup_searchable?_iff]
  unfold searchable? fieldSetD fieldSet?
  cases Keyed.get? (after writes) c with
  | none => simp [FieldSet.minimal, FieldSet.nodup_make]
  | some entry => simp

/-! ### Updates with and without duplicates -/

theorem nodup_after_iff_mended :
    ((after [.update "c" (some ["a", "a"]) none 1, .update "c" none (some []) 2,
      .store "d" ["b", "b"] [] 3, .update "c" (some ["b", "a"]) none 4]).fieldSetD
        "c").searchable.Nodup := by
  refine (nodup_after_iff _ "c").2.2.mpr fun names updated => ?_
  have last := searchable?_of_updated updated
  cases last
  decide

theorem searchable_update_twice :
    ∃ entry, Keyed.get? (after [.update "c" (some ["a", "a"]) none 0]) "c" = some entry ∧
      ¬ entry.fields.searchable.Nodup :=
  ⟨_, rfl, by decide⟩

end SearchSelect.Schema.FieldCache
