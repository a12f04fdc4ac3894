import SearchSelect.Request
import SearchSelect.Schema.FieldSet

/-! Names that are added to the field list of a request, one after another. The entries that are
listed stay in front, and each name that is not among them is appended once, where it is first asked
for. Only the star that stands for an absent list is written twice, if it is also the first name. -/

namespace SearchSelect

open Text

namespace Request

/-! ## Entries -/

/-- The entries of a field list, without the blanks around them. An absent list is that of all
stored fields, and an empty text lists nothing. -/
def fieldEntries : Option String → List String
  | none => ["*"]
  | some fields => if fields = "" then [] else (cutAt ',' fields).map trimmed

/-- A name that is read as one entry when it is written to a field list. -/
structure IsEntry (name : String) : Prop where
  filled : name ≠ ""
  whole : ',' ∉ name.toList
  bare : trimmed name = name

instance : DecidablePred IsEntry := fun name =>
  decidable_of_iff (name ≠ "" ∧ ',' ∉ name.toList ∧ trimmed name = name)
    ⟨fun ⟨filled, whole, bare⟩ => ⟨filled, whole, bare⟩,
      fun ⟨filled, whole, bare⟩ => ⟨filled, whole, bare⟩⟩

section Entries

variable {fields name : String}

theorem IsEntry.map_cutAt (ok : IsEntry name) : (cutAt ',' name).map trimmed = [name] := by
  rw [cutAt_of_not_mem ok.whole, List.map_singleton, ok.bare]

theorem IsEntry.fieldEntries_eq (ok : IsEntry name) : fieldEntries (some name) = [name] := by
  rw [fieldEntries, if_neg ok.filled, ok.map_cutAt]

theorem fieldEntries_append (ok : IsEntry name) (filled : fields ≠ "") :
    fieldEntries (some (fields ++ "," ++ name)) = fieldEntries (some fields) ++ [name] := by
  have longer : fields ++ "," ++ name ≠ "" := by simp [filled]
  rw [fieldEntries, if_neg longer, cutAt_append rfl, List.map_append, ok.map_cutAt, fieldEntries,
    if_neg filled]

theorem lists_iff (filled : name ≠ "") :
    lists fields name ↔ name ∈ fieldEntries (some fields) := by
  have cut : lists fields name ↔ name ∈ (cutAt ',' fields).map trimmed := by simp [lists]
  rw [cut, fieldEntries]
  split
  · next empty =>
    have blank : (cutAt ',' "").map trimmed = [""] := by decide
    rw [empty, blank]
    simpa using filled
  · rfl

end Entries

/-! ## New names -/

/-- The names that are not present yet, each of them where it first occurs. -/
def newNames (present names : List String) : List String :=
  (names.filter fun n => n ∉ present).eraseDups

section NewNames

variable {present names : List String} {name : String}

theorem mem_newNames : name ∈ newNames present names ↔ name ∈ names ∧ name ∉ present := by
  simp [newNames, List.mem_eraseDups]

theorem nodup_newNames (present names : List String) : (newNames present names).Nodup :=
  Schema.nodup_eraseDups _

@[simp] theorem newNames_nil (present : List String) : newNames present [] = [] :=
  rfl

theorem newNames_congr {other : List String} (same : ∀ n, n ∈ present ↔ n ∈ other)
    (names : List String) : newNames present names = newNames other names := by
  simp only [newNames, same]

theorem newNames_of_mem (known : name ∈ present) (names : List String) :
    newNames present (name :: names) = newNames present names := by
  rw [newNames, List.filter_cons_of_neg (by simpa using known)]
  rfl

theorem newNames_of_not_mem (unknown : name ∉ present) (names : List String) :
    newNames present (name :: names) = name :: newNames (present ++ [name]) names := by
  have rest : ((names.filter fun n => n ∉ present).filter fun n => !n == name) =
      names.filter fun n => n ∉ present ++ [name] := by
    rw [List.filter_filter]
    refine List.filter_congr fun n _ => ?_
    by_cases same : n = name <;> simp [same]
  rw [newNames, List.filter_cons_of_pos (by simpa using unknown), List.eraseDups_cons, rest]
  rfl

theorem newNames_cons (present : List String) (name : String) (names : List String) :
    newNames present (name :: names) =
      newNames present [name] ++ newNames (present ++ newNames present [name]) names := by
  by_cases known : name ∈ present
  · rw [newNames_of_mem known, newNames_of_mem known, newNames_nil, List.nil_append,
      List.append_nil]
  · rw [newNames_of_not_mem known, newNames_of_not_mem known, newNames_nil, List.singleton_append]

end NewNames

/-! ## One name -/

section Step

variable {r : Request} {fields name : String}

theorem withName_of_mem (filled : name ≠ "") (mem : name ∈ fieldEntries (some fields)) :
    withName (some fields) name = fields := by
  rw [withName, if_pos ((lists_iff filled).mpr mem)]

theorem fieldEntries_withName (ok : IsEntry name) (fields : String) :
    fieldEntries (some (withName (some fields) name)) =
      fieldEntries (some fields) ++ newNames (fieldEntries (some fields)) [name] := by
  by_cases mem : name ∈ fieldEntries (some fields)
  · rw [withName_of_mem ok.filled mem, newNames_of_mem mem, newNames_nil, List.append_nil]
  · rw [newNames_of_not_mem mem, newNames_nil, withName,
      if_neg (mt (lists_iff ok.filled).mp mem)]
    split
    · next empty =>
      rw [ok.fieldEntries_eq, empty]
      rfl
    · next filled => exact fieldEntries_append ok filled

theorem fieldEntries_withName_none (ok : IsEntry name) :
    fieldEntries (some (withName none name)) = ["*", name] := by
  have star : fieldEntries (some "*") = ["*"] := by decide
  have filled : "*" ≠ "" := by decide
  have joined := fieldEntries_append ok filled
  rwa [star] at joined

/-- A name that is added to a field list is listed there. -/
theorem lists_withName (ok : IsEntry name) (fields : Option String) :
    lists (withName fields name) name := by
  rw [lists_iff ok.filled]
  cases fields with
  | none => simp [fieldEntries_withName_none ok]
  | some fields =>
    rw [fieldEntries_withName ok, List.mem_append, mem_newNames]
    by_cases mem : name ∈ fieldEntries (some fields) <;> simp [mem]

theorem ensureField_of_mem (listed : r.fields = some fields) (filled : name ≠ "")
    (mem : name ∈ fieldEntries r.fields) : r.ensureField name = r := by
  rw [listed] at mem
  rw [ensureField, listed, withName_of_mem filled mem, ← listed]

end Step

/-! ## A run of names -/

/-- The request after the names have been added one after another. -/
def ensureAll (r : Request) (names : List String) : Request :=
  names.foldl ensureField r

/-- The star of an absent list is written a second time if it is the first name to be added. -/
def starAgain (fields : Option String) (names : List String) : List String :=
  if fields = none ∧ names.head? = some "*" then ["*"] else []

section Run

variable {r : Request} {fields : String} {names : List String}

/-- Only the fields are changed. -/
theorem ensureAll_eq (r : Request) (names : List String) :
    r.ensureAll names = { r with fields := (r.ensureAll names).fields } := by
  induction names generalizing r with
  | nil => rfl
  | cons n names ih => exact ih (r.ensureField n)

theorem exists_fields_ensureAll (some_ : names ≠ []) (r : Request) :
    ∃ fields, (r.ensureAll names).fields = some fields := by
  rw [ensureAll, ← List.dropLast_concat_getLast some_, List.foldl_append]
  exact ⟨_, rfl⟩

theorem fieldEntries_of_listed (listed : r.fields = some fields) (ok : ∀ n ∈ names, IsEntry n) :
    fieldEntries (r.ensureAll names).fields =
      fieldEntries r.fields ++ newNames (fieldEntries r.fields) names := by
  induction names generalizing r fields with
  | nil => simp [ensureAll, newNames_nil]
  | cons n names ih =>
    obtain ⟨first, rest⟩ := List.forall_mem_cons.mp ok
    have step : fieldEntries (r.ensureField n).fields =
        fieldEntries r.fields ++ newNames (fieldEntries r.fields) [n] := by
      rw [ensureField, listed]
      exact fieldEntries_withName first fields
    have run := ih (r := r.ensureField n) rfl rest
    rw [step, List.append_assoc, ← newNames_cons] at run
    exact run

theorem fieldEntries_of_absent (absent : r.fields = none) (ok : ∀ n ∈ names, IsEntry n) :
    fieldEntries (r.ensureAll names).fields =
      "*" :: starAgain r.fields names ++ newNames ["*"] names := by
  cases names with
  | nil => simp [ensureAll, absent, fieldEntries, starAgain, newNames_nil]
  | cons n names =>
    obtain ⟨first, rest⟩ := List.forall_mem_cons.mp ok
    have step : fieldEntries (r.ensureField n).fields = ["*", n] := by
      rw [ensureField, absent]
      exact fieldEntries_withName_none first
    -- the first name has written a list, and the others meet one
    have run := fieldEntries_of_listed (r := r.ensureField n) rfl rest
    rw [step] at run
    refine run.trans ?_
    by_cases star : n = "*"
    · have same : ∀ m : String, m ∈ ["*", "*"] ↔ m ∈ ["*"] := by simp
      rw [star, newNames_of_mem (List.mem_singleton_self "*"), newNames_congr same, starAgain]
      simp [absent]
    · rw [newNames_of_not_mem (by simpa using star), starAgain]
      simp [star]

theorem starAgain_subset {fields : Option String} : starAgain fields names ⊆ fieldEntries fields := by
  unfold starAgain
  split
  · next first => simp [first.1, fieldEntries]
  · exact List.nil_subset _

/-- The entries that stood before, perhaps with a second star, and the new names behind them. -/
theorem fieldEntries_ensureAll (r : Request) (ok : ∀ n ∈ names, IsEntry n) :
    fieldEntries (r.ensureAll names).fields =
      fieldEntries r.fields ++ starAgain r.fields names ++
        newNames (fieldEntries r.fields) names := by
  cases listed : r.fields with
  | none =>
    rw [fieldEntries_of_absent listed ok, listed]
    rfl
  | some fields =>
    rw [fieldEntries_of_listed listed ok, listed]
    simp [starAgain]

theorem ensureAll_of_mem (listed : r.fields = some fields)
    (known : ∀ n ∈ names, n ≠ "" ∧ n ∈ fieldEntries r.fields) : r.ensureAll names = r := by
  induction names with
  | nil => rfl
  | cons n names ih =>
    obtain ⟨first, rest⟩ := List.forall_mem_cons.mp known
    rw [ensureAll, List.foldl_cons, ensureField_of_mem listed first.1 first.2]
    exact ih rest

/-- Names that have been added are listed. Whatever stood before is still in front, followed by
nothing but the new names, each of them once and in the order of the first requests; only the star
of an absent list can be there twice. To add the names again changes nothing, and the rest of the
request stays as it is. -/
theorem ensureAll_inserts (r : Request) (ok : ∀ n ∈ names, IsEntry n) :
    (∀ n ∈ names, n ∈ fieldEntries (r.ensureAll names).fields) ∧
      fieldEntries (r.ensureAll names).fields =
        fieldEntries r.fields ++ starAgain r.fields names ++
          newNames (fieldEntries r.fields) names ∧
      (∀ n ∈ names, n ∉ fieldEntries r.fields →
        (fieldEntries (r.ensureAll names).fields).count n = 1) ∧
      (∀ again, (∀ n ∈ again, n ∈ names) →
        (r.ensureAll names).ensureAll again = r.ensureAll names) ∧
      r.ensureAll names = { r with fields := (r.ensureAll names).fields } := by
  have entries := fieldEntries_ensureAll r ok
  have present : ∀ n ∈ names, n ∈ fieldEntries (r.ensureAll names).fields := by
    intro n hn
    rw [entries, List.mem_append, List.mem_append, mem_newNames]
    by_cases before : n ∈ fieldEntries r.fields <;> simp [before, hn]
  refine ⟨present, entries, fun n hn new => ?_, fun again known => ?_, ensureAll_eq r names⟩
  · have second : n ∉ starAgain r.fields names := fun mem => new (starAgain_subset mem)
    rw [entries, List.count_append, List.count_append, List.count_eq_zero.mpr new,
      List.count_eq_zero.mpr second, (nodup_newNames _ names).count,
      if_pos (mem_newNames.mpr ⟨hn, new⟩)]
  · cases again with
    | nil => rfl
    | cons n again =>
      have some_ : names ≠ [] := List.ne_nil_of_mem (known n List.mem_cons_self)
      obtain ⟨fields, listed⟩ := exists_fields_ensureAll some_ r
      exact ensureAll_of_mem listed fun m hm =>
        ⟨(ok m (known m hm)).filled, present m (known m hm)⟩

end Run

/-! ### A list with blanks, and an absent one -/

/-- An entry with blanks around it, one without a name, and one that is listed twice. -/
def spacedRequest : Request :=
  ⟨everything, ["a:1"], some " id ,,id", some "a ASC", some 5, none⟩

theorem ensureAll_inserts_spaced :
    (∀ n ∈ ["_docid_", "id", "*", "_docid_"], IsEntry n) ∧
      fieldEntries (spacedRequest.ensureAll ["_docid_", "id", "*", "_docid_"]).fields =
        ["id", "", "id", "_docid_", "*"] ∧
      (spacedRequest.ensureAll ["_docid_", "id", "*", "_docid_"]).ensureAll ["*", "_docid_"] =
        spacedRequest.ensureAll ["_docid_", "id", "*", "_docid_"] := by
  have ok : ∀ n ∈ ["_docid_", "id", "*", "_docid_"], IsEntry n := by decide
  obtain ⟨-, entries, -, again, -⟩ := ensureAll_inserts spacedRequest ok
  refine ⟨ok, ?_, again _ (by decide)⟩
  rw [entries]
  decide +kernel

example : (all.ensureAll ["*"]).fields = some "*,*" := by decide +kernel

end Request

end SearchSelect
