import SearchSelect.Proofs.Layout
import SearchSelect.Sql.Statement

/-! What the readers of single lexemes do on a layout of tokens: each takes its own kind of token
and refuses the others. -/

namespace SearchSelect.Sql

open Text

variable {α : Type} {a : α} {x : List Token}

theorem lexeme_solid {s : List Char} (p : Reader α) (solid : ∀ c ∈ s.head?, isSpace c = false) :
    lexeme p s = p s := by
  have none : s.dropWhile isSpace = s := dropWhile_isSpace isBlank_nil solid
  change p (s.dropWhile isSpace) = p s
  rw [none]

/-! ## Words -/

section Words

variable {k w : String}

theorem headWord_word {t r : List Char} (known : k ∈ keywords) (spelled : (Token.word k).Spells t)
    (stop : ∀ c ∈ r.head?, isWordChar c = false) : headWord (t ++ r) = k := by
  have all : ∀ c ∈ t, isWordChar c := fun c hc =>
    isWordChar_of_isAlpha (Token.Spells.isAlpha known spelled c hc)
  rw [headWord, takeWhile_append_stop all stop, spelled]
  exact String.ofList_toList

theorem headWord_append {t r : List Char} (known : k ∈ keywords) (spelled : (Token.word k).Spells t)
    (apart : Apart r) : headWord (t ++ r) = k :=
  headWord_word known spelled (not_isWordChar_of_apart apart)

theorem isAlpha_of_headWord {c : Char} {r : List Char} (known : headWord (c :: r) ∈ keywords) :
    c.isAlpha := by
  obtain ⟨some, lower⟩ := keywords_lower known
  simp only [headWord, String.toList_ofList, List.takeWhile_cons] at some lower
  split at lower
  · exact isAlpha_of_toLower (lower _ (by simp))
  · next h => simp [h] at some

theorem takes_keyword (known : k ∈ keywords) : Takes (keyword k) () (.word k :: x) x := by
  refine takes_lexeme fun t r _ spelled apart => ?_
  have all : ∀ c ∈ t, isWordChar c := fun c hc =>
    isWordChar_of_isAlpha (Token.Spells.isAlpha known spelled c hc)
  rw [headWord_append known spelled apart, if_pos rfl,
    dropWhile_append_stop all (not_isWordChar_of_apart apart)]

theorem word_of_headKind (h : headKind x = .word) : ∃ v y, x = .word v :: y := by
  cases x with
  | nil => cases h
  | cons t y =>
    cases t with
    | word v => exact ⟨v, y, rfl⟩
    | _ => cases h

theorem fails_keyword (known : k ∈ keywords) (other : x.head? ≠ some (.word k)) :
    Fails (keyword k) x := by
  by_cases h : headKind x = .word
  · obtain ⟨v, y, rfl⟩ := word_of_headKind h
    refine fails_lexeme_token fun t r fits spelled apart => ?_
    rw [headWord_append fits spelled apart, if_neg (by simpa using other)]
  · refine fails_lexeme (if_neg fun empty => ?_) fun c r heads => if_neg fun word => h ?_
    · exact (keywords_lower known).1 (empty ▸ rfl)
    · have alpha : c.isAlpha := isAlpha_of_headWord (r := r) (word ▸ known)
      rw [← heads, ofChar_alpha alpha]

end Words

/-! ## Signs -/

section Signs

variable {s v : String}

theorem sign_of_headKind (h : headKind x = .sign) : ∃ v y, x = .sign v :: y := by
  cases x with
  | nil => cases h
  | cons t y =>
    cases t with
    | sign v => exact ⟨v, y, rfl⟩
    | _ => cases h

theorem literal_append (w r : List Char) : literal w (w ++ r) = some ((), r) := by
  simp [literal]

theorem literal_none {w t : List Char} (h : ¬ w <+: t) : literal w t = none :=
  if_neg (by simpa using h)

/-- Nothing that ends a token can go on with a sign. -/
theorem not_prefix_append {w t r : List Char} (solid : ∀ c ∈ w, isSignChar c) (h : ¬ w <+: t)
    (apart : Apart r) : ¬ w <+: t ++ r := by
  intro hw
  obtain hwt | ⟨u, rfl⟩ := List.prefix_or_prefix_of_prefix hw (List.prefix_append t r)
  · exact h hwt
  · cases u with
    | nil => exact h (by simp)
    | cons c u =>
      obtain ⟨r', rfl⟩ := (List.prefix_append_right_inj t).mp hw
      have sign : isSignChar c := solid c (by simp)
      obtain blank | rfl := apart c rfl
      · rw [not_isSpace_of_isSignChar sign] at blank
        cases blank
      · exact absurd sign (by decide)

theorem takes_symbol : Takes (symbol s) () (.sign s :: x) x := by
  refine takes_lexeme fun t r _ spelled _ => ?_
  rw [show t = s.toList from spelled, literal_append]

theorem fails_symbol (known : s ∈ signs)
    (other : ∀ v, x.head? = .some (.sign v) → ¬ s.toList <+: v.toList) :
    Fails (symbol s) x := by
  obtain ⟨some, solid⟩ := signs_solid known
  by_cases h : headKind x = .sign
  · obtain ⟨v, y, rfl⟩ := sign_of_headKind h
    refine fails_lexeme_token fun t r fits spelled apart => literal_none ?_
    rw [show t = v.toList from spelled]
    exact not_prefix_append solid (other v rfl) apart
  · refine fails_lexeme (literal_none (by simpa using some)) fun c r heads => literal_none ?_
    rintro ⟨u, hu⟩
    obtain ⟨c', w, hw⟩ := List.exists_cons_of_ne_nil some
    rw [hw] at hu
    obtain rfl := (List.cons.inj hu).1
    exact h (by rw [← heads, ofChar_sign (solid c' (by simp [hw]))])

end Signs

/-! ## Runs of characters -/

section Runs

variable {p : Char → Bool} {c : Char} {w r : List Char}

theorem charIf_cons (h : p c) : charIf p (c :: r) = some (c, r) :=
  if_pos h

theorem charIf_none (h : p c = false) : charIf p (c :: r) = none :=
  if_neg (by simp [h])

theorem char_cons (c : Char) (r : List Char) : char c (c :: r) = some (c, r) :=
  charIf_cons (by simp)

theorem run_append (all : ∀ c ∈ w, p c) (stop : ∀ c ∈ r.head?, p c = false) :
    run p (w ++ r) = some (w, r) := by
  rw [run, takeWhile_append_stop all stop, dropWhile_append_stop all stop]

theorem run1_append (some : w ≠ []) (all : ∀ c ∈ w, p c) (stop : ∀ c ∈ r.head?, p c = false) :
    run1 p (w ++ r) = .some (w, r) := by
  obtain ⟨c, w, rfl⟩ := List.exists_cons_of_ne_nil some
  rw [run1, bind_apply, List.cons_append, charIf_cons (all c (by simp)), Option.bind_some,
    bind_apply, run_append (fun c hc => all c (by simp [hc])) stop]
  rfl

theorem run1_none (stop : ∀ c ∈ r.head?, p c = false) : run1 p r = none := by
  cases r with
  | nil => rfl
  | cons c r =>
    rw [run1, bind_apply, charIf_none (stop c rfl)]
    rfl

end Runs

/-! ## Names -/

section Names

variable {n : String}

theorem quotedName_append (h : IsName n) (r : List Char) :
    quotedName (backtick :: (n.toList ++ [backtick]) ++ r) = some (n, r) := by
  have some : n.toList ≠ [] := by simpa using h.1
  have stop : ∀ c ∈ (backtick :: r).head?, (c != backtick) = false := by simp
  rw [quotedName, bind_apply, List.cons_append, char_cons, Option.bind_some, bind_apply,
    List.append_assoc, List.singleton_append, run1_append some (bne_of_not_mem h.2) stop, Option.bind_some,
    bind_apply, char_cons, Option.bind_some]
  exact congrArg (fun n => Option.some (n, r)) String.ofList_toList

theorem quotedName_none {c : Char} {r : List Char} (h : c ≠ backtick) :
    quotedName (c :: r) = none := by
  rw [quotedName, bind_apply, char, charIf_none (by simpa using h)]
  rfl

theorem takes_name : Takes name n (.name n :: x) x := by
  refine takes_lexeme fun t r fits spelled _ => ?_
  rw [orElse_apply, show t = _ from spelled, quotedName_append fits]
  rfl

theorem bareName_none {c : Char} {r : List Char} (h : isNameStart c = false) :
    bareName (c :: r) = none := by
  rw [bareName, bind_apply, notKeyword]
  split
  · rfl
  · rw [Option.bind_some, bind_apply, charIf_none h]
    rfl

theorem fails_name (other : headKind x ≠ .name) : Fails name x := by
  by_cases h : headKind x = .word
  · obtain ⟨k, y, rfl⟩ := word_of_headKind h
    refine fails_lexeme_token fun t r fits spelled apart => ?_
    obtain ⟨c, t', rfl, heads, -⟩ := spelled.begins fits
    have reserved : startsWithKeyword (c :: (t' ++ r)) := by
      have word : headWord (c :: (t' ++ r)) = k := headWord_append fits spelled apart
      rw [startsWithKeyword, word]
      exact List.contains_iff_mem.mpr fits
    have unquoted : c ≠ backtick := fun h => by
      rw [h] at heads
      cases heads
    rw [orElse_apply, List.cons_append, quotedName_none unquoted, bareName, bind_apply,
      notKeyword, if_pos reserved]
    rfl
  · refine fails_lexeme rfl fun c r heads => ?_
    have unquoted : c ≠ backtick := fun h => other (by rw [← heads, h]; rfl)
    have bare : isNameStart c = false := by
      cases start : isNameStart c with
      | false => rfl
      | true => exact absurd (by rw [← heads, Kind.ofChar, if_pos start]) h
    rw [orElse_apply, quotedName_none unquoted, bareName_none bare]
    rfl

end Names

/-! ## Texts -/

section Texts

variable {s : String}

theorem stringRest_append (cs : List Char) {r : List Char} (stop : '\x27' ∉ r.head?) :
    stringRest (Shorthand.doubleQuotes cs ++ '\x27' :: r) = some (cs, r) := by
  induction cs with
  | nil =>
    cases r with
    | nil => rfl
    | cons c r =>
      have unquoted : c ≠ '\x27' := by simpa using stop
      simp [Shorthand.doubleQuotes, stringRest, unquoted]
  | cons c cs ih =>
    by_cases quote : c = '\x27'
    · simp only [Shorthand.doubleQuotes] at ih
      simp [Shorthand.doubleQuotes, stringRest, quote, ih]
    · simp only [Shorthand.doubleQuotes] at ih
      simp [Shorthand.doubleQuotes, stringRest, quote, ih]

/-- No text goes on where a token ends. -/
theorem not_quote_of_apart {r : List Char} (apart : Apart r) : '\x27' ∉ r.head? := by
  intro h
  obtain blank | stop := apart _ h
  · exact absurd blank (by decide)
  · exact absurd stop (by decide)

theorem takes_string : Takes string s (.text s :: x) x := by
  refine takes_lexeme fun t r _ spelled apart => ?_
  rw [show t = _ from spelled, bind_apply, List.cons_append, char_cons, Option.bind_some,
    bind_apply, List.append_assoc, List.singleton_append,
    stringRest_append _ (not_quote_of_apart apart), Option.bind_some]
  exact congrArg (fun s => Option.some (s, r)) String.ofList_toList

theorem fails_string (other : headKind x ≠ .text) : Fails string x := by
  refine fails_lexeme rfl fun c r heads => ?_
  have unquoted : c ≠ '\x27' := fun h => other (by rw [← heads, h]; rfl)
  rw [bind_apply, char, charIf_none (by simpa using unquoted)]
  rfl

theorem takes_tableName : Takes tableName s (.text s :: x) x := by
  refine .otherwise (fails_lexeme rfl fun c r heads => quotedName_none fun h => ?_)
    takes_string.orElse
  rw [h] at heads
  cases heads

end Texts

/-! ## Numbers -/

section Numbers

/-- A character that ends every part of a number. -/
def Foreign (r : List Char) : Prop :=
  ∀ c ∈ r.head?, c.isDigit = false ∧ c ≠ '.' ∧ c ≠ 'e' ∧ c ≠ 'E'

theorem foreign_of_apart {r : List Char} (apart : Apart r) : Foreign r := by
  intro c hc
  obtain blank | rfl := apart c hc
  · obtain rfl | rfl | rfl | rfl := isSpace_cases blank <;> decide
  · decide

variable {ds s r : List Char}

theorem digits_append (h : IsDigits ds) (stop : ∀ c ∈ r.head?, c.isDigit = false) :
    digits (ds ++ r) = some (ds, r) :=
  run1_append h.1 h.2 stop

theorem signIf_none {p : Char → Bool} (h : ∀ c ∈ r.head?, p c = false) :
    signIf p r = some ([], r) := by
  cases r with
  | nil => rfl
  | cons c r => exact if_neg (by simp [h c rfl])

theorem signIf_cons {p : Char → Bool} {c : Char} (h : p c) : signIf p (c :: r) = some ([c], r) :=
  if_pos h

theorem fraction_append (h : IsFraction s) (stop : ∀ c ∈ r.head?, c.isDigit = false ∧ c ≠ '.') :
    fraction (s ++ r) = some (s, r) := by
  obtain rfl | ⟨ds, hds, rfl⟩ := h
  · cases r with
    | nil => rfl
    | cons c r =>
      have other : c ≠ '.' := (stop c rfl).2
      rw [List.nil_append, fraction, orElse_apply, bind_apply, char,
        charIf_none (by simpa using other)]
      rfl
  · rw [List.cons_append, fraction, orElse_apply, bind_apply, char_cons, Option.bind_some,
      bind_apply, digits_append hds fun c hc => (stop c hc).1]
    rfl

theorem exponent_append (h : IsExponent s) (stop : Foreign r) :
    exponent (s ++ r) = some (s, r) := by
  obtain rfl | ⟨e, sign, ds, he, hsign, hds, rfl⟩ := h
  · cases r with
    | nil => rfl
    | cons c r =>
      obtain ⟨-, -, small, capital⟩ := stop c rfl
      rw [List.nil_append, exponent, orElse_apply, bind_apply,
        charIf_none (by simp [small, capital])]
      rfl
  · have hd : digits (ds ++ r) = some (ds, r) := digits_append hds fun c hc => (stop c hc).1
    have signs : signIf (fun c => c = '+' || c = '-') (sign ++ (ds ++ r)) =
        some (sign, ds ++ r) := by
      obtain rfl | rfl | rfl := hsign
      · refine signIf_none fun c hc => ?_
        obtain ⟨d, ds, rfl⟩ := List.exists_cons_of_ne_nil hds.1
        obtain rfl : d = c := by simpa using hc
        have digit := hds.2 d (by simp)
        simp only [Bool.or_eq_false_iff, decide_eq_false_iff_not]
        constructor <;> (rintro rfl; exact absurd digit (by decide))
      · exact signIf_cons rfl
      · exact signIf_cons rfl
    rw [List.cons_append, List.append_assoc, exponent, orElse_apply, bind_apply,
      charIf_cons (by simpa using he), Option.bind_some, bind_apply, signs, Option.bind_some,
      bind_apply, hd]
    rfl

theorem exponent_stop (h : IsExponent s) (stop : Foreign r) :
    ∀ c ∈ (s ++ r).head?, c.isDigit = false ∧ c ≠ '.' := by
  intro c hc
  obtain rfl | ⟨e, sign, ds, he, -, -, rfl⟩ := h
  · exact ⟨(stop c hc).1, (stop c hc).2.1⟩
  · obtain rfl : e = c := by simpa using hc
    obtain rfl | rfl := he <;> decide

theorem fraction_stop (h : IsFraction s) (stop : ∀ c ∈ r.head?, c.isDigit = false ∧ c ≠ '.') :
    ∀ c ∈ (s ++ r).head?, c.isDigit = false := by
  intro c hc
  obtain rfl | ⟨ds, -, rfl⟩ := h
  · exact (stop c hc).1
  · obtain rfl : '.' = c := by simpa using hc
    decide

theorem number_append (h : IsNumber s) (foreign : Foreign r) :
    number (s ++ r) = some (String.ofList s, r) := by
  have fits : (Token.number (String.ofList s)).Fits := by rwa [Token.Fits, String.toList_ofList]
  have spelled : (Token.number (String.ofList s)).Spells s := String.toList_ofList.symm
  obtain ⟨c, t, hs, -, first⟩ := spelled.begins fits
  have solid : ∀ c ∈ (s ++ r).head?, isSpace c = false := by simpa [hs] using first
  obtain ⟨sign, whole, places, power, hsign, hwhole, hplaces, hpower, rfl⟩ := h
  have afterPlaces := exponent_stop hpower foreign
  have afterWhole := fraction_stop hplaces afterPlaces
  have signs : signIf (· = '-') (sign ++ (whole ++ (places ++ (power ++ r)))) =
      some (sign, whole ++ (places ++ (power ++ r))) := by
    obtain rfl | rfl := hsign
    · refine signIf_none fun c hc => ?_
      obtain ⟨d, ds, rfl⟩ := List.exists_cons_of_ne_nil hwhole.1
      obtain rfl : d = c := by simpa using hc
      have digit := hwhole.2 d (by simp)
      simp only [decide_eq_false_iff_not]
      rintro rfl
      exact absurd digit (by decide)
    · exact signIf_cons rfl
  rw [number, lexeme_solid _ solid]
  simp only [List.append_assoc]
  rw [bind_apply, signs, Option.bind_some, bind_apply, digits_append hwhole afterWhole,
    Option.bind_some, bind_apply, fraction_append hplaces afterPlaces, Option.bind_some,
    bind_apply, exponent_append hpower foreign, Option.bind_some]
  simp only [← List.append_assoc]
  rfl

theorem takes_number {spelling : String} : Takes number spelling (.number spelling :: x) x := by
  refine takes_lexeme fun t r fits spelled apart => ?_
  obtain ⟨c, w, hw, -, solid⟩ := spelled.begins fits
  have read := number_append fits (foreign_of_apart apart)
  rw [← show t = _ from spelled, number, lexeme_solid _ (by simpa [hw] using solid)] at read
  rw [read, show t = _ from spelled, String.ofList_toList]

theorem fails_number (other : headKind x ≠ .number) : Fails number x := by
  refine fails_lexeme rfl fun c r heads => ?_
  have unsigned : c ≠ '-' := fun h => other (by rw [← heads, h]; rfl)
  have digit : c.isDigit = false := by
    cases digit : c.isDigit with
    | false => rfl
    | true => exact absurd (by rw [← heads, ofChar_digit digit]) other
  rw [bind_apply, signIf_none (by simpa using unsigned), Option.bind_some, bind_apply, digits,
    run1_none (by simpa using digit)]
  rfl

theorem takes_integer (h : IsDigits ds) :
    Takes integer ds (.number (String.ofList ds) :: x) x := by
  refine takes_lexeme fun t r _ spelled apart => ?_
  rw [show t = _ from spelled, String.toList_ofList]
  exact digits_append h fun c hc => (foreign_of_apart apart c hc).1

end Numbers

end SearchSelect.Sql
