import SearchSelect.Proofs.NormalAnswers

/-! Failures that the search engine reports among the documents of an answer. The first report of a
list decides, whatever stands around it, and no answer with a report is taken for one with
documents. The wording of the report tells what the fault is about. -/

namespace SearchSelect.Response

open Text

/-! ## Reports among entries -/

/-- The entry is an object, and what it reports is this text. -/
def Reports (entry : Json) (report : String) : Prop :=
  entry.get? "EXCEPTION" = some (.str report)

/-- No entry in front of the one with this report has any. -/
def FirstReport (entries : List Json) (report : String) : Prop :=
  ∃ before entry after, entries = before ++ entry :: after ∧ Reports entry report ∧
    ∀ e ∈ before, ∀ r, ¬ Reports e r

def report? (entry : Json) : Option String :=
  (entry.get? "EXCEPTION").bind Json.text?

section Entries

variable {entry : Json} {entries : List Json} {report : String}

theorem report?_eq_some : report? entry = some report ↔ Reports entry report := by
  simp [report?, Reports, Option.bind_eq_some_iff, Json.text?_eq_some]

theorem report?_eq_none : report? entry = none ↔ ∀ report, ¬ Reports entry report := by
  rw [Option.eq_none_iff_forall_ne_some]
  simp only [ne_eq, report?_eq_some]

theorem findSome?_eq_some : entries.findSome? report? = some report ↔ FirstReport entries report := by
  rw [List.findSome?_eq_some_iff]
  simp only [report?_eq_some, report?_eq_none, FirstReport]

/-- Flattening a document leaves what it reports as it is. -/
theorem exception?_flatten (doc : Doc) : exception? (flatten doc) = exception? doc := by
  rw [exception?, get?_flatten doc (by decide)]
  rfl

theorem findSome?_docs (entries : List Json) :
    ((entries.filterMap Json.doc?).map flatten).findSome? exception? = entries.findSome? report? := by
  induction entries with
  | nil => rfl
  | cons entry entries ih =>
    cases entry with
    | obj doc =>
      change (flatten doc :: (entries.filterMap Json.doc?).map flatten).findSome? exception? = _
      rw [List.findSome?_cons, List.findSome?_cons, exception?_flatten, ih]
      rfl
    | null | bool | num | str | arr => exact ih

theorem ofResultSet_eq_error {body : Json} (listed : body.get? "docs" = some (.arr entries))
    (first : FirstReport entries report) : ofResultSet body = .error (faultOf report) := by
  have found : (docsOf body).findSome? exception? = some report := by
    rw [docsOf_eq listed, findSome?_docs]
    exact findSome?_eq_some.mpr first
  unfold ofResultSet
  dsimp only
  rw [found]

end Entries

/-! ## What a report says -/

section Faults

variable (report : String)

/-- The report asks for DocValues. -/
def AsksForDocValues : Prop :=
  "must have DocValues".toList <:+: report.toList

/-- The report says that the statement could not be parsed. -/
def SaysUnparsed : Prop :=
  "parse failed:".toList <:+: report.toList

instance : Decidable (AsksForDocValues report) :=
  decidable_of_iff (mentions report "must have DocValues") occursIn_iff

instance : Decidable (SaysUnparsed report) :=
  decidable_of_iff (mentions report "parse failed:") occursIn_iff

theorem report_in_message : report.toList <:+: (faultOf report).message.toList := by
  have behind (s : String) : report.toList <:+: (s ++ report).toList := by
    rw [String.toList_append]
    exact (List.suffix_append _ _).isInfix
  unfold faultOf
  split
  · exact behind _
  · split
    · exact behind _
    · exact behind _

/-- The fault is one of the query or one of the engine. It is the query's if the report says that
the statement could not be parsed, unless it asks for DocValues as well. -/
theorem kind_faultOf :
    ((faultOf report).kind = .query ↔ SaysUnparsed report ∧ ¬ AsksForDocValues report) ∧
      ((faultOf report).kind = .engine ↔ ¬ SaysUnparsed report ∨ AsksForDocValues report) := by
  have asks : mentions report "must have DocValues" ↔ AsksForDocValues report := occursIn_iff
  have unparsed : mentions report "parse failed:" ↔ SaysUnparsed report := occursIn_iff
  unfold faultOf
  split
  · next h => simp [Fault.kind, asks.mp h]
  · next h =>
    have silent := mt asks.mpr h
    split
    · next h => simp [Fault.kind, unparsed.mp h, silent]
    · next h => simp [Fault.kind, mt unparsed.mpr h]

end Faults

/-! ## Answers -/

section Answers

variable {answer body entry : Json} {entries : List Json} {report : String}

theorem exists_firstReport (mem : entry ∈ entries) (reports : Reports entry report) :
    ∃ first, FirstReport entries first := by
  have some_ : (entries.findSome? report?).isSome := by
    rw [List.findSome?_isSome_iff]
    exact ⟨entry, mem, by rw [report?_eq_some.mpr reports]; rfl⟩
  obtain ⟨first, found⟩ := Option.isSome_iff_exists.mp some_
  exact ⟨first, findSome?_eq_some.mp found⟩

/-- An answer with a report among its entries is refused, wherever the report stands. The fault
holds the first report word for word. It is a fault of the query exactly if that report says that
the statement could not be parsed and does not ask for DocValues, and one of the engine otherwise. -/
theorem ofAnswer_reported (shape : answer.get? "response" = none)
    (table : answer.get? "result-set" = some body) (listed : body.get? "docs" = some (.arr entries))
    (mem : entry ∈ entries) (reports : Reports entry report) :
    ∃ first fault, (∀ r, FirstReport entries r ↔ r = first) ∧ ofAnswer answer = .error fault ∧
      first.toList <:+: fault.message.toList ∧
      (fault.kind = .query ↔ SaysUnparsed first ∧ ¬ AsksForDocValues first) ∧
      (fault.kind = .engine ↔ ¬ SaysUnparsed first ∨ AsksForDocValues first) := by
  obtain ⟨first, leads⟩ := exists_firstReport mem reports
  refine ⟨first, faultOf first, fun r => ?_, ?_, report_in_message first, kind_faultOf first⟩
  · constructor
    · intro other
      rw [← findSome?_eq_some] at other leads
      exact Option.some.inj (other.symm.trans leads)
    · rintro rfl
      exact leads
  · rw [ofAnswer, shape]
    dsimp only
    rw [table]
    exact ofResultSet_eq_error listed leads

/-- The report stands behind an end, behind entries that are no objects and behind one whose report
is no text, and in front of another report. -/
def lateReport : List Json :=
  [.null, .obj [("EOF", .bool true)], .obj [("EXCEPTION", .num (.int 1))],
    .obj [("EXCEPTION", .str "parse failed: x")], .obj [("EXCEPTION", .str "boom")]]

def tableOf (entries : List Json) : Json :=
  .obj [("result-set", .obj [("docs", .arr entries)])]

theorem ofAnswer_reported_late :
    Json.obj [("EXCEPTION", .str "boom")] ∈ lateReport ∧
      Reports (.obj [("EXCEPTION", .str "boom")]) "boom" ∧
      ∃ fault, ofAnswer (tableOf lateReport) = .error fault ∧ fault.kind = .query ∧
        "parse failed: x".toList <:+: fault.message.toList := by
  have mem : Json.obj [("EXCEPTION", .str "boom")] ∈ lateReport := by simp [lateReport]
  have reports : Reports (.obj [("EXCEPTION", .str "boom")]) "boom" := rfl
  have shape : (tableOf lateReport).get? "response" = none := rfl
  obtain ⟨first, fault, unique, refused, word, query, -⟩ :=
    ofAnswer_reported shape rfl rfl mem reports
  have leads : FirstReport lateReport "parse failed: x" := findSome?_eq_some.mp rfl
  obtain rfl := (unique _).mp leads
  exact ⟨mem, reports, fault, refused, query.mpr (by decide +kernel), word⟩

/-! ### Reports with both wordings -/

def twofoldReport : String :=
  "parse failed: field title must have DocValues"

/-- The report says that the statement could not be parsed, and yet the fault is the engine's. -/
theorem ofAnswer_twofold :
    SaysUnparsed twofoldReport ∧
      ∃ fault, ofAnswer (tableOf [.obj [("EXCEPTION", .str twofoldReport)]]) = .error fault ∧
        fault.kind = .engine := by
  have unparsed : SaysUnparsed twofoldReport := by decide +kernel
  have asks : AsksForDocValues twofoldReport := by decide +kernel
  exact ⟨unparsed, faultOf twofoldReport, rfl, (kind_faultOf twofoldReport).2.mpr (.inr asks)⟩

end Answers

end SearchSelect.Response
