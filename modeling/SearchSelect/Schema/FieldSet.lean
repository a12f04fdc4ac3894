import SearchSelect.Schema.Field

/-! The searchable and the sortable fields of a collection, and a cache of them. Instants and ages
are counted in nanoseconds. -/

namespace SearchSelect.Schema

theorem nodup_eraseDups (names : List String) : names.eraseDups.Nodup := by
  induction h : names.length using Nat.strongRecOn generalizing names with
  | ind n ih =>
    cases names with
    | nil => simp
    | cons name names =>
      rw [List.eraseDups_cons, List.nodup_cons]
      have fewer : (names.filter fun b => !b == name).length < n := by
        have le := List.length_filter_le (fun b => !b == name) names
        simp only [List.length_cons] at h
        omega
      exact ⟨by simp [List.mem_eraseDups], ih _ fewer _ rfl⟩

structure FieldSet where
  searchable : List String
  sortable : Keyed FieldInfo
  deriving DecidableEq, Repr

namespace FieldSet

/-- A field listed twice is kept at its first place. -/
def make (searchable : List String) (sortable : Keyed FieldInfo) : FieldSet :=
  ⟨searchable.eraseDups, sortable⟩

theorem nodup_make (searchable : List String) (sortable : Keyed FieldInfo) :
    (make searchable sortable).searchable.Nodup :=
  nodup_eraseDups searchable

theorem mem_make {searchable : List String} {sortable : Keyed FieldInfo} {name : String} :
    name ∈ (make searchable sortable).searchable ↔ name ∈ searchable :=
  List.mem_eraseDups

/-- What may be assumed of any collection. -/
def minimal : FieldSet :=
  make [textField] [(scoreField, .score)]

def contains (s : FieldSet) (field : String) : Bool :=
  s.searchable.contains field || s.sortable.contains field

def isSortable (s : FieldSet) (field : String) : Bool :=
  s.sortable.contains field

def checkKnown (s : FieldSet) (collection : String) (fields : List String) :
    Except Fault Unit :=
  match fields.filter fun f => f != "*" && !s.contains f with
  | [] => .ok ()
  | unknown => .error (.fieldsUnknown collection unknown)

def checkSortable (s : FieldSet) (collection : String) (fields : List String) :
    Except Fault Unit :=
  match fields.filter fun f => !s.isSortable f with
  | [] => .ok ()
  | unsortable => .error (.fieldsUnsortable collection unsortable)

end FieldSet

structure Stamped where
  fields : FieldSet
  updated : Nat

/-- One entry for each collection; every write replaces the entry. -/
abbrev FieldCache := Keyed Stamped

namespace FieldCache

def fieldSet? (c : FieldCache) (collection : String) : Option FieldSet :=
  (Keyed.get? c collection).map Stamped.fields

def fieldSetD (c : FieldCache) (collection : String) : FieldSet :=
  (c.fieldSet? collection).getD .minimal

def store (c : FieldCache) (collection : String) (fields : FieldSet) (now : Nat) : FieldCache :=
  Keyed.insert c collection ⟨fields, now⟩

/-- Replaces the given parts of an entry, which is empty if there was none. -/
def update (c : FieldCache) (collection : String) (searchable : Option (List String))
    (sortable : Option (Keyed FieldInfo)) (now : Nat) : FieldCache :=
  let fields := (c.fieldSet? collection).getD (.make [] [])
  c.store collection
    ⟨searchable.getD fields.searchable, sortable.getD fields.sortable⟩ now

def clear (c : FieldCache) : Option String → FieldCache
  | some collection => Keyed.erase c collection
  | none => []

/-- An absent entry is stale; a present one once it is older than `maxAge`. -/
def isStale (c : FieldCache) (collection : String) (maxAge now : Nat) : Bool :=
  match Keyed.get? c collection with
  | none => true
  | some entry => maxAge < now - entry.updated

end FieldCache

end SearchSelect.Schema
