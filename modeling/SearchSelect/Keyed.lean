/-! Values kept under distinct names, in the order the names were first written. -/

namespace SearchSelect

abbrev Keyed (α : Type) := List (String × α)

namespace Keyed

variable {α : Type}

def get? (m : Keyed α) (k : String) : Option α :=
  m.lookup k

def contains (m : Keyed α) (k : String) : Bool :=
  (get? m k).isSome

/-- A name already present keeps its place and takes the new value. -/
def insert : Keyed α → String → α → Keyed α
  | [], k, v => [(k, v)]
  | (k', v') :: m, k, v => if k' = k then (k, v) :: m else (k', v') :: insert m k v

def erase (m : Keyed α) (k : String) : Keyed α :=
  m.filter fun e => e.1 != k

/-- Of two values for one name the later one stays. -/
def ofList (entries : List (String × α)) : Keyed α :=
  entries.foldl (fun m e => insert m e.1 e.2) []

def keys (m : Keyed α) : List String :=
  m.map Prod.fst

@[simp] theorem get?_nil (k : String) : get? ([] : Keyed α) k = none := rfl

theorem get?_cons (k' : String) (v' : α) (m : Keyed α) (k : String) :
    get? ((k', v') :: m) k = if k = k' then some v' else get? m k := by
  by_cases h : k = k'
  · simp [get?, h]
  · have hb : (k == k') = false := by simp [h]
    simp [get?, List.lookup_cons, h, hb]

theorem mem_of_get? {m : Keyed α} {k : String} {v : α} (h : get? m k = some v) : (k, v) ∈ m := by
  obtain ⟨before, rest, rfl, -⟩ := List.lookup_eq_some_iff.mp h
  simp

theorem get?_insert (m : Keyed α) (k : String) (v : α) (a : String) :
    get? (insert m k v) a = if a = k then some v else get? m a := by
  induction m with
  | nil => simp [insert, get?_cons]
  | cons e m ih =>
    obtain ⟨k', v'⟩ := e
    by_cases h : k' = k
    · subst h
      by_cases ha : a = k' <;> simp [insert, get?_cons, ha]
    · by_cases ha : a = k'
      · subst ha
        simp [insert, get?_cons, h]
      · simp [insert, get?_cons, h, ha, ih]

theorem get?_erase (m : Keyed α) (k a : String) :
    get? (erase m k) a = if a = k then none else get? m a := by
  induction m with
  | nil => simp [erase]
  | cons e m ih =>
    obtain ⟨k', v'⟩ := e
    by_cases h : k' = k
    · subst h
      have hs : erase ((k', v') :: m) k' = erase m k' := by simp [erase]
      rw [hs, ih, get?_cons]
      by_cases ha : a = k' <;> simp [ha]
    · have hs : erase ((k', v') :: m) k = (k', v') :: erase m k := by simp [erase, h]
      by_cases ha : a = k'
      · subst ha
        simp [hs, get?_cons, h]
      · simp [hs, get?_cons, ha, ih]

/-- Writing what is there changes nothing. -/
theorem insert_of_get? {m : Keyed α} {k : String} {v : α} (h : get? m k = some v) :
    insert m k v = m := by
  induction m with
  | nil => cases h
  | cons e m ih =>
    obtain ⟨k', v'⟩ := e
    rw [get?_cons] at h
    by_cases same : k = k'
    · rw [if_pos same] at h
      rw [insert, if_pos same.symm, same, Option.some.inj h]
    · rw [if_neg same] at h
      rw [insert, if_neg (Ne.symm same), ih h]

theorem contains_insert (m : Keyed α) (k : String) (v : α) (a : String) :
    contains (insert m k v) a ↔ a = k ∨ contains m a := by
  unfold contains
  rw [get?_insert]
  by_cases h : a = k <;> simp [h]

theorem mem_insert {m : Keyed α} {k : String} {v : α} {e : String × α} (h : e ∈ insert m k v) :
    e = (k, v) ∨ e ∈ m := by
  induction m with
  | nil => exact .inl (List.mem_singleton.mp h)
  | cons e' m ih =>
    obtain ⟨k', v'⟩ := e'
    unfold insert at h
    split at h
    · obtain rfl | h := List.mem_cons.mp h
      · exact .inl rfl
      · exact .inr (List.mem_cons_of_mem _ h)
    · obtain rfl | h := List.mem_cons.mp h
      · exact .inr List.mem_cons_self
      · exact (ih h).imp_right (List.mem_cons_of_mem _)

/-- Adding things one by one, each of which writes its name or nothing, adds the names that are
written. -/
theorem contains_foldl {β : Type} {add : Keyed α → β → Keyed α} (writes : β → String → Prop)
    (step : ∀ m b a, contains (add m b) a ↔ contains m a ∨ writes b a) (bs : List β) (m : Keyed α)
    (a : String) : contains (bs.foldl add m) a ↔ contains m a ∨ ∃ b ∈ bs, writes b a := by
  induction bs generalizing m with
  | nil => simp
  | cons b bs ih =>
    rw [List.foldl_cons, ih, step]
    simp [or_assoc]

end Keyed

end SearchSelect
