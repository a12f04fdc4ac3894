import SearchSelect.Proofs.EqualityReading
import SearchSelect.Proofs.ShorthandScan

/-! Shorthand whose value is a phrase. A phrase escapes quotes and backslashes; the scan takes the
backslash off an escaped quote and leaves every other one, so an escaped backslash comes out as two
of them. -/

namespace SearchSelect.Sql

open Text
open Shorthand (phraseRest? value? pair? plainQuotes doubleQuotes isFieldStart isFieldChar)
open SearchSelect.Filter (phrase phraseBody filtered)

variable {f : String} {s t r body : List Char}

/-! ## The scan at a shorthand -/

theorem toNat_lt_of_isAsciiWord {c : Char} (h : isAsciiWord c) : c.toNat < 0x80 := by
  obtain word | line := (Bool.or_eq_true _ _).mp h
  · obtain alpha | digit : c.isAlpha ∨ c.isDigit := (Bool.or_eq_true _ _).mp word
    · have letter := isAlpha_iff_toNat.mp alpha
      omega
    · exact Nat.lt_of_le_of_lt (Char.isDigit_iff_toNat.mp digit).2 (by decide)
  · obtain rfl := of_decide_eq_true line
    decide

theorem isFieldChar_of_isNameChar {c : Char} (h : isNameChar c) : isFieldChar c := by
  obtain word | dot := (Bool.or_eq_true _ _).mp h
  · have ascii : isAsciiWord c := word
    have wide := isWord_of_isAsciiWord (toNat_lt_of_isAsciiWord ascii) ascii
    exact (Bool.or_eq_true _ _).mpr (.inl wide)
  · exact (Bool.or_eq_true _ _).mpr (.inr dot)

theorem pair?_field {c : Char} {field : List Char} (start : isFieldStart c)
    (chars : ∀ d ∈ field, isFieldChar d) (s : List Char) :
    pair? (c :: (field ++ ':' :: s)) = (value? s).map fun p => ⟨c :: field, p.1, p.2⟩ := by
  have stop : ∀ d ∈ (':' :: s).head?, isFieldChar d = false := by
    simp [isFieldChar, isWord, isAsciiWord]
  rw [pair?, if_pos start, dropWhile_append_stop chars stop, takeWhile_append_stop chars stop]
  rfl

theorem IsBareName.pair?_eq (bare : IsBareName f) (read : value? s = some (body, t)) :
    pair? (f.toList ++ ':' :: s) = some ⟨f.toList, body, t⟩ := by
  obtain ⟨c, cs, hf, start, chars, -⟩ := bare.spelling
  have fields : ∀ d ∈ cs, isFieldChar d := fun d hd => isFieldChar_of_isNameChar (chars d hd)
  rw [hf, List.cons_append, pair?_field start fields, read]
  rfl

theorem IsBareName.isQuiet {f : String} (bare : IsBareName f) : IsQuiet f.toList := by
  exact ⟨bare.not_mem (by decide), bare.not_mem (by decide)⟩

/-- The value of a shorthand becomes the text of an equality. -/
theorem expand_shorthand {v : String} (bare : IsBareName f)
    (read : value? s = some (doubleQuotes v.toList, t)) :
    Shorthand.expand (f.toList ++ ':' :: s) = (⟨f, v⟩ : Equality).text ++ Shorthand.expand t :=
  expand_pair (bare.pair?_eq read)

theorem no_colon_of_word {w : List Char} (plain : ':' ∉ w) (t : List Char) :
    (w ++ ' ' :: s).dropWhile isFieldChar ≠ ':' :: t := by
  induction w with
  | nil => simp [isFieldChar, isWord, isAsciiWord]
  | cons c w ih =>
    obtain ⟨hc, hw⟩ := not_or.mp (mt List.mem_cons.mpr plain)
    rw [List.cons_append, List.dropWhile_cons]
    split
    · exact ih hw
    · simp [Ne.symm hc]

/-- The scan leaves a word alone if a blank ends it. -/
theorem expand_word {w : List Char} (quiet : IsQuiet w) (s : List Char) :
    Shorthand.expand (w ++ ' ' :: s) = w ++ ' ' :: Shorthand.expand s := by
  induction w with
  | nil => exact expand_skip (by decide) rfl
  | cons c w ih =>
    obtain ⟨hc, hw⟩ := not_or.mp (mt List.mem_cons.mpr quiet.1)
    obtain ⟨-, hw'⟩ := not_or.mp (mt List.mem_cons.mpr quiet.2)
    have none : pair? (c :: (w ++ ' ' :: s)) = none :=
      pair?_of_no_colon (no_colon_of_word hw')
    rw [List.cons_append, expand_skip (Ne.symm hc) none, ih ⟨hw, hw'⟩, List.cons_append]

theorem ofText_where {body body' : List Char} {c : Condition}
    (expands : Shorthand.expand body = body')
    (read : anyCondition (' ' :: body') = some (.ok c, [])) :
    expandShorthand (whereText body) = whereText body' ∧
      Query.ofText (whereText body) = .ok ⟨filtered c, "docs"⟩ := by
  have expanded : expandShorthand (whereText body) = whereText body' := by
    have head := expand_word (w := "SELECT * FROM docs WHERE".toList) (by decide) body
    rw [expandShorthand, toList_whereText, head, expands]
    rfl
  have accepted : Select.ofText? (whereText body') = .ok (filtered c) := ofText?_where read
  have docs : trimmed "docs" = "docs" := by decide
  have named : (filtered c).collection.map trimmed = some "docs" := congrArg some docs
  refine ⟨expanded, ?_⟩
  unfold Query.ofText
  rw [expanded]
  simp only [if_pos (startsWithSelect_of_ofText? accepted), accepted]
  exact Query.ofStatement_named named (by decide)

/-! ## Phrases -/

theorem flatMap_eq_self {g : Char → List Char} (each : ∀ c ∈ s, g c = [c]) : s.flatMap g = s := by
  rw [List.flatMap_def, List.map_congr_left each, ← List.flatMap_def, List.flatMap_singleton']

def backslashesDoubled (s : List Char) : List Char :=
  s.flatMap fun c => if c = '\x5c' then ['\x5c', '\x5c'] else [c]

section Phrases

variable {c : Char}

theorem phraseBody_escaped (h : c = '\x5c' ∨ c = '\x22') (s : List Char) :
    phraseBody (c :: s) = '\x5c' :: c :: phraseBody s := by
  simp [phraseBody, h]

theorem phraseBody_plain (slash : c ≠ '\x5c') (quote : c ≠ '\x22') (s : List Char) :
    phraseBody (c :: s) = c :: phraseBody s := by
  simp [phraseBody, slash, quote]

theorem phraseRest?_phraseBody (s t : List Char) :
    phraseRest? (phraseBody s ++ '\x22' :: t) = some (phraseBody s, t) := by
  induction s with
  | nil => rfl
  | cons c s ih =>
    by_cases slash : c = '\x5c'
    · rw [phraseBody_escaped (.inl slash)]
      simp [phraseRest?, slash, ih]
    · by_cases quote : c = '\x22'
      · rw [phraseBody_escaped (.inr quote)]
        simp [phraseRest?, quote, ih]
      · rw [phraseBody_plain slash quote]
        simp [phraseRest?, slash, ih]

theorem plainQuotes_cons (plain : c = '\x5c' → '\x22' ∉ s.head?) :
    plainQuotes (c :: s) = c :: plainQuotes s := by
  rw [plainQuotes]
  rintro r slash rfl
  exact plain slash rfl

theorem head?_phraseBody (s : List Char) : '\x22' ∉ (phraseBody s).head? := by
  cases s with
  | nil => simp [phraseBody]
  | cons c s =>
    by_cases quote : c = '\x22'
    · simp [phraseBody_escaped (.inr quote)]
    · by_cases slash : c = '\x5c'
      · simp [phraseBody_escaped (.inl slash)]
      · simpa [phraseBody_plain slash quote] using quote

/-- No quote loses the second half of an escaped backslash: it brings a backslash of its own. -/
theorem plainQuotes_phraseBody (s : List Char) :
    plainQuotes (phraseBody s) = backslashesDoubled s := by
  induction s with
  | nil => rfl
  | cons c s ih =>
    by_cases slash : c = '\x5c'
    · rw [phraseBody_escaped (.inl slash), plainQuotes_cons (by simp [slash]),
        plainQuotes_cons fun _ => head?_phraseBody s, ih]
      simp [backslashesDoubled, slash]
    · by_cases quote : c = '\x22'
      · rw [phraseBody_escaped (.inr quote), quote, plainQuotes, ih]
        rfl
      · rw [phraseBody_plain slash quote, plainQuotes_cons (absurd · slash), ih]
        simp [backslashesDoubled, slash]

theorem value?_phrase (s t : List Char) :
    value? (phrase s ++ t) = some (doubleQuotes (backslashesDoubled s), t) := by
  have closed := phraseRest?_phraseBody s t
  rw [phrase, List.cons_append, List.append_assoc, List.singleton_append, value?, closed,
    Option.map_some, plainQuotes_phraseBody]

theorem count_backslashesDoubled (s : List Char) :
    (backslashesDoubled s).count '\x5c' = 2 * s.count '\x5c' := by
  induction s with
  | nil => rfl
  | cons c s ih =>
    have step : backslashesDoubled (c :: s) =
        (if c = '\x5c' then ['\x5c', '\x5c'] else [c]) ++ backslashesDoubled s := rfl
    rw [step, List.count_append, ih, List.count_cons]
    by_cases slash : c = '\x5c'
    · simp [slash]
      omega
    · simp [slash]

theorem backslashesDoubled_eq_iff : backslashesDoubled s = s ↔ '\x5c' ∉ s := by
  constructor
  · intro same
    have twice := count_backslashesDoubled s
    rw [same] at twice
    exact List.count_eq_zero.mp (by omega)
  · intro none
    exact flatMap_eq_self fun c hc => if_neg fun slash : c = '\x5c' => none (slash ▸ hc)

theorem not_mem_of_phrase_eq (same : phrase (backslashesDoubled s) = phrase s) : '\x5c' ∉ s := by
  have bodies : phraseBody (backslashesDoubled s) = phraseBody s := by simpa [phrase] using same
  have again := congrArg plainQuotes bodies
  rw [plainQuotes_phraseBody, plainQuotes_phraseBody, backslashesDoubled_eq_iff] at again
  have twice := count_backslashesDoubled s
  rw [List.count_eq_zero.mpr again] at twice
  exact List.count_eq_zero.mp (by omega)

end Phrases

/-! ## Main statement -/

def phraseShorthand (f v : String) : List Char :=
  f.toList ++ ':' :: phrase v.toList

theorem ofCondition_equals (f v : String) :
    (Filter.ofCondition (.equals f v)).toList = phraseShorthand f v :=
  String.toList_ofList

theorem anyCondition_equality {e : Equality} (bare : IsBareName e.column) :
    anyCondition (' ' :: e.text) = some (.ok e.condition, []) := by
  have read : anyCondition (' ' :: disjunctionText [[e]]) = some (.ok (disjunctionOf [[e]]), []) :=
    anyCondition_reads (by simp) (by simpa using bare)
  have alone : disjunctionText [[e]] = e.text := by simp [disjunctionText, conjunctionText]
  rwa [alone] at read

/-- A column with a phrase is read as an equality, with every backslash of the text doubled. So the
text comes back, and the filter with it, exactly if there is no backslash in the text. -/
theorem ofText_phraseShorthand {f : String} (bare : IsBareName f) (v : String) :
    ∃ w, w.toList = backslashesDoubled v.toList ∧
      Query.ofText (whereText (phraseShorthand f v)) = .ok ⟨filtered (.equals f w), "docs"⟩ ∧
      (w = v ↔ '\x5c' ∉ v.toList) ∧
      ((Filter.ofCondition (.equals f w)).toList = phraseShorthand f v ↔ '\x5c' ∉ v.toList) := by
  let w := String.ofList (backslashesDoubled v.toList)
  have doubled : w.toList = backslashesDoubled v.toList := String.toList_ofList
  have value : value? (phrase v.toList) = some (doubleQuotes w.toList, []) := by
    have read := value?_phrase v.toList []
    rwa [List.append_nil, ← doubled] at read
  have expands : Shorthand.expand (phraseShorthand f v) = (⟨f, w⟩ : Equality).text := by
    rw [phraseShorthand, expand_shorthand bare value, Shorthand.expand, List.append_nil]
  have same : w = v ↔ '\x5c' ∉ v.toList := by
    rw [← String.toList_inj, doubled, backslashesDoubled_eq_iff]
  refine ⟨w, doubled, (ofText_where expands (anyCondition_equality bare)).2, same, ?_⟩
  rw [ofCondition_equals]
  constructor
  · intro written
    have phrases : phrase w.toList = phrase v.toList := by
      simpa [phraseShorthand] using written
    rw [doubled] at phrases
    exact not_mem_of_phrase_eq phrases
  · intro plain
    rw [same.mpr plain]

/-- Quotes of both kinds. -/
def quotedTitle : String :=
  "it's \"so\""

theorem ofText_quotedTitle :
    IsBareName "a.title" ∧ '\x5c' ∉ quotedTitle.toList ∧
      Query.ofText (whereText (phraseShorthand "a.title" quotedTitle)) =
        .ok ⟨filtered (.equals "a.title" quotedTitle), "docs"⟩ := by
  have bare : IsBareName "a.title" := by decide
  have plain : '\x5c' ∉ quotedTitle.toList := by decide
  obtain ⟨w, -, read, same, -⟩ := ofText_phraseShorthand bare quotedTitle
  rw [same.mpr plain] at read
  exact ⟨bare, plain, read⟩

/-- The text `a\b` comes back with two backslashes, and its filter with four. -/
theorem ofText_backslash :
    whereText (phraseShorthand "f" "a\\b") = "SELECT * FROM docs WHERE f:\"a\\\\b\"" ∧
      Query.ofText "SELECT * FROM docs WHERE f:\"a\\\\b\"" =
        .ok ⟨filtered (.equals "f" "a\\\\b"), "docs"⟩ ∧
      Query.ofText "SELECT * FROM docs WHERE f:\"a\\\\b\"" ≠
        .ok ⟨filtered (.equals "f" "a\\b"), "docs"⟩ ∧
      Filter.ofCondition (.equals "f" "a\\\\b") = "f:\"a\\\\\\\\b\"" := by
  have text : whereText (phraseShorthand "f" "a\\b") =
      "SELECT * FROM docs WHERE f:\"a\\\\b\"" := by decide +kernel
  have bare : IsBareName "f" := by decide
  have expands : Shorthand.expand (phraseShorthand "f" "a\\b") =
      (⟨"f", "a\\\\b"⟩ : Equality).text := by decide +kernel
  have read := (ofText_where expands (anyCondition_equality bare)).2
  rw [text] at read
  refine ⟨text, read, ?_, by decide +kernel⟩
  rw [read]
  simp [filtered, Equality.condition, Condition.equals]

end SearchSelect.Sql
