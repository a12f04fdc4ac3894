import SearchSelect.Proofs.PhraseShorthand

/-! Texts of a statement as phrases of its filter. Single quotes are doubled in the statement, double
quotes and backslashes are escaped in the filter. Whatever a text holds, its phrase is closed by the
last character and by no other, and read back it is the text. -/

namespace SearchSelect

open Sql

namespace Filter

/-! ## Reading a phrase -/

/-- A phrase behind its opening quote. A backslash makes the next character stand for itself, and the
first quote that has none in front closes the phrase. -/
def phraseRead? : List Char → Option (List Char × List Char)
  | '\x5c' :: c :: r => (phraseRead? r).map fun p => (c :: p.1, p.2)
  | '\x22' :: r => some ([], r)
  | c :: r => (phraseRead? r).map fun p => (c :: p.1, p.2)
  | [] => none

section Phrases

variable {c : Char}

theorem phraseRead?_escaped (c : Char) (r : List Char) :
    phraseRead? ('\x5c' :: c :: r) = (phraseRead? r).map fun p => (c :: p.1, p.2) := by
  rw [phraseRead?]

theorem phraseRead?_plain (slash : c ≠ '\x5c') (quote : c ≠ '\x22') (r : List Char) :
    phraseRead? (c :: r) = (phraseRead? r).map fun p => (c :: p.1, p.2) := by
  rw [phraseRead?]
  · exact fun _ _ first _ => slash first
  · exact quote

/-- The phrase of a text is read as the text, and leaves what follows it. -/
theorem phraseRead?_phraseBody (s t : List Char) :
    phraseRead? (phraseBody s ++ '\x22' :: t) = some (s, t) := by
  induction s with
  | nil => rfl
  | cons c s ih =>
    by_cases special : c = '\x5c' ∨ c = '\x22'
    · rw [phraseBody_escaped special, List.cons_append, List.cons_append, phraseRead?_escaped, ih]
      rfl
    · obtain ⟨slash, quote⟩ := not_or.mp special
      rw [phraseBody_plain slash quote, List.cons_append, phraseRead?_plain slash quote, ih]
      rfl

end Phrases

/-- The filter of a statement, if the text is one and has a condition. -/
def ofText? (sql : String) : Option String :=
  match Select.ofText? sql with
  | .ok s => s.condition.map ofCondition
  | .error _ => none

end Filter

/-! ## Texts between quotes -/

namespace Sql

/-- The statement that asks for the documents of `c` whose `f` is the text. -/
def textEquality (v : String) : String :=
  String.ofList ("SELECT * FROM c WHERE f = '".toList ++ (Shorthand.doubleQuotes v.toList ++ ['\x27']))

theorem ofText?_textEquality (v : String) :
    Select.ofText? (textEquality v) =
      .ok ⟨.everything, some "c", some (.equals "f" v), [], none, none⟩ := by
  have bare : IsBareName "f" := by decide
  have read : anyCondition (' ' :: (⟨"f", v⟩ : Equality).text) = some (.ok (.equals "f" v), []) :=
    anyCondition_equality bare
  have source (body : List Char) : fromClause (" FROM c WHERE".toList ++ ' ' :: body) =
      some ("c", " WHERE".toList ++ ' ' :: body) := rfl
  have lead : "SELECT * FROM c WHERE f = '".toList =
      "SELECT *".toList ++ (" FROM c WHERE".toList ++ ' ' :: ("f".toList ++ " = '".toList)) := rfl
  have text : textEquality v = String.ofList ("SELECT *".toList ++
      (" FROM c WHERE".toList ++ ' ' :: (⟨"f", v⟩ : Equality).text)) := by
    unfold textEquality Equality.text
    rw [lead]
    simp only [List.append_assoc, List.cons_append]
    rfl
  rw [text]
  exact ofText?_everything (source _) (whereClause_reads read)

end Sql

namespace Filter

theorem ofText?_textEquality_eq (v : String) :
    ofText? (textEquality v) = some ("f:" ++ String.ofList (phrase v.toList)) := by
  unfold ofText?
  rw [ofText?_textEquality]
  simp only [Option.map_some, Option.some.injEq, ← String.toList_inj]
  simp [ofCondition_equals, phraseShorthand]

/-- Whatever the text is, the filter is its column with a phrase that is closed by the last character
and read back as the text. So no two texts have one filter. -/
theorem ofText?_phrase (v : String) :
    (∃ body, (ofText? (textEquality v)).map String.toList = some ("f:\"".toList ++ body) ∧
        phraseRead? body = some (v.toList, [])) ∧
      ∀ w, ofText? (textEquality w) = ofText? (textEquality v) ↔ w = v := by
  have closed := phraseRead?_phraseBody v.toList []
  refine ⟨⟨phraseBody v.toList ++ ['\x22'], ?_, closed⟩, fun w => ⟨fun same => ?_, fun same => ?_⟩⟩
  · rw [ofText?_textEquality_eq]
    simp [phrase]
  · rw [ofText?_textEquality_eq, ofText?_textEquality_eq] at same
    have bodies : phraseBody w.toList = phraseBody v.toList := by
      simpa [phrase, String.ofList_inj] using same
    have read := phraseRead?_phraseBody w.toList []
    rw [bodies, closed] at read
    simpa [String.toList_inj, eq_comm] using read
  · rw [same]

end Filter

end SearchSelect
