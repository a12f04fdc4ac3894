import SearchSelect.Proofs.Accepted
import SearchSelect.Proofs.RoundTrip

/-! Shorthand is written out before a statement is read, so statements without shorthand must come
through unchanged. The scan for shorthand knows strings but not quoted names. An accepted text
whose quoted names hold neither a single quote nor a colon comes through; a quote in a name shifts
the scan into the next string, and a colon in a name is taken for shorthand. -/

namespace SearchSelect.Sql

open Text

/-! ## Quoted names -/

/-- Where a scan over a statement stands. Inside a name it keeps what it has read of it. -/
inductive Region where
  | outside
  | text
  | name (read : List Char)

def namesFrom : Region → List Char → List (List Char)
  | _, [] => []
  | .outside, c :: s =>
    namesFrom (if c = '\x27' then .text else if c = backtick then .name [] else .outside) s
  | .text, c :: s => namesFrom (if c = '\x27' then .outside else .text) s
  | .name read, c :: s =>
    if c = backtick then read :: namesFrom .outside s else namesFrom (.name (read ++ [c])) s

/-- What stands between backticks outside the strings of a text. -/
def quotedNames (text : String) : List (List Char) :=
  namesFrom .outside text.toList

/-- Nothing in the name means anything to a scan for shorthand. -/
def IsQuiet (n : List Char) : Prop :=
  '\x27' ∉ n ∧ ':' ∉ n

instance : DecidablePred IsQuiet := fun n =>
  inferInstanceAs (Decidable ('\x27' ∉ n ∧ ':' ∉ n))

section Names

variable {s n inside t : List Char} {c : Char}

theorem namesFrom_ordinary (h : isOrdinary c) :
    namesFrom .outside (c :: s) = namesFrom .outside s := by
  simp only [isOrdinary, Bool.and_eq_true, bne_iff_ne] at h
  rw [namesFrom, if_neg h.1.1, if_neg h.1.2]

/-- A doubled quote closes a string and opens the next one. -/
theorem namesFrom_text (closed : Shorthand.stringRest? s = some (inside, t)) :
    namesFrom .text s = namesFrom .outside t := by
  fun_induction Shorthand.stringRest? s generalizing inside t with
  | case1 s _ _ h ih =>
    obtain ⟨-, rfl⟩ := Prod.mk.inj (Option.some.inj closed)
    exact ih h
  | case2 s _ _ =>
    obtain ⟨-, rfl⟩ := Prod.mk.inj (Option.some.inj closed)
    rfl
  | case3 s _ =>
    obtain ⟨-, rfl⟩ := Prod.mk.inj (Option.some.inj closed)
    rfl
  | case4 c s _ single ih =>
    obtain ⟨⟨_, u⟩, hs, hu⟩ := Option.map_eq_some_iff.mp closed
    obtain ⟨-, rfl⟩ := Prod.mk.inj hu
    have plain : c ≠ '\x27' := fun quote => single quote
    rw [namesFrom, if_neg plain]
    exact ih hs
  | case5 => cases closed

theorem namesFrom_name (read : List Char) (quoted : backtick ∉ n) :
    namesFrom (.name read) (n ++ backtick :: s) = (read ++ n) :: namesFrom .outside s := by
  induction n generalizing read with
  | nil => simp [namesFrom]
  | cons c n ih =>
    obtain ⟨hc, hn⟩ := not_or.mp (mt List.mem_cons.mpr quoted)
    rw [List.cons_append, namesFrom, if_neg (Ne.symm hc), ih _ hn, List.append_assoc]
    rfl

end Names

/-! ## Texts that hold no shorthand -/

theorem pair?_of_no_colon {c : Char} {s : List Char}
    (none : ∀ t, s.dropWhile Shorthand.isFieldChar ≠ ':' :: t) :
    Shorthand.pair? (c :: s) = .none := by
  rw [Shorthand.pair?]
  split
  · split
    · next t colon => exact absurd colon (none t)
    · rfl
  · rfl

/-- Apart from whole strings there is no single quote and no colon. -/
inductive Inert : List Char → Prop
  | nil : Inert []
  | char {c : Char} {s : List Char} (unquoted : c ≠ '\x27') (plain : c ≠ ':') (rest : Inert s) :
      Inert (c :: s)
  | text {s inside t : List Char} (closed : Shorthand.stringRest? s = some (inside, t))
      (rest : Inert t) : Inert ('\x27' :: s)

namespace Inert

variable {s r : List Char}

theorem append {w : List Char} (quiet : IsQuiet w) (h : Inert s) : Inert (w ++ s) := by
  induction w with
  | nil => exact h
  | cons c w ih =>
    obtain ⟨hc, hw⟩ := not_or.mp (mt List.mem_cons.mpr quiet.1)
    obtain ⟨hc', hw'⟩ := not_or.mp (mt List.mem_cons.mpr quiet.2)
    exact .char (Ne.symm hc) (Ne.symm hc') (ih ⟨hw, hw'⟩)

/-- What is passed over adds no shorthand, if the quoted names in it are quiet. -/
theorem of_passed (passed : Passed s r) (quiet : ∀ n ∈ namesFrom .outside s, IsQuiet n)
    (h : Inert r) : Inert s := by
  induction passed with
  | refl => exact h
  | @ordinary c s _ plain _ ih =>
    rw [namesFrom_ordinary plain] at quiet
    simp only [isOrdinary, Bool.and_eq_true, bne_iff_ne] at plain
    exact .char plain.1.1 plain.2 (ih quiet h)
  | text closed _ ih =>
    have names := namesFrom_text closed
    exact .text closed (ih (fun n hn => quiet n (names ▸ hn)) h)
  | @name n s _ quoted _ ih =>
    have names : namesFrom .outside (backtick :: (n ++ backtick :: s)) =
        n :: namesFrom .outside s := namesFrom_name [] quoted
    rw [names] at quiet
    obtain ⟨own, others⟩ := List.forall_mem_cons.mp quiet
    have closed : Inert (backtick :: s) := .char (by decide) (by decide) (ih others h)
    exact .char (by decide) (by decide) (append own closed)

/-- A run of field characters does not lead to a colon. -/
theorem no_colon (h : Inert s) (t : List Char) : s.dropWhile Shorthand.isFieldChar ≠ ':' :: t := by
  induction h with
  | nil => simp
  | @char c s _ plain _ ih =>
    rw [List.dropWhile_cons]
    split
    · exact ih
    · simp [plain]
  | text =>
    rw [List.dropWhile_cons_of_neg (by decide)]
    simp

theorem pair?_eq_none {c : Char} (h : Inert s) : Shorthand.pair? (c :: s) = none :=
  pair?_of_no_colon h.no_colon

end Inert

theorem eq_append_of_stringRest? {s inside t : List Char}
    (closed : Shorthand.stringRest? s = some (inside, t)) : s = inside ++ '\x27' :: t := by
  fun_induction Shorthand.stringRest? s generalizing inside t with
  | case1 s _ _ h ih =>
    obtain ⟨rfl, rfl⟩ := Prod.mk.inj (Option.some.inj closed)
    rw [List.cons_append, List.cons_append, ← ih h]
  | case2 s _ _ =>
    obtain ⟨rfl, rfl⟩ := Prod.mk.inj (Option.some.inj closed)
    rfl
  | case3 s _ =>
    obtain ⟨rfl, rfl⟩ := Prod.mk.inj (Option.some.inj closed)
    rfl
  | case4 c s _ _ ih =>
    obtain ⟨⟨_, _⟩, hs, hu⟩ := Option.map_eq_some_iff.mp closed
    obtain ⟨rfl, rfl⟩ := Prod.mk.inj hu
    rw [List.cons_append, ← ih hs]
  | case5 => cases closed

/-- What a text is written as between quotes ends at the quote behind it. -/
theorem stringRest?_doubleQuotes (v : List Char) {r : List Char} (single : '\x27' ∉ r.head?) :
    Shorthand.stringRest? (Shorthand.doubleQuotes v ++ '\x27' :: r) =
      some (Shorthand.doubleQuotes v, r) := by
  obtain ⟨inside, closed⟩ := stringRest?_of_stringRest (stringRest_append v single)
  obtain rfl := List.append_cancel_right (eq_append_of_stringRest? closed)
  exact closed

/-! ## One step of the scan -/

section Expand

variable {s t inside : List Char} {c : Char} {p : Shorthand.Pair}

/-- A string of the statement is passed over as a whole. -/
theorem expand_string (closed : Shorthand.stringRest? s = some (inside, t)) :
    Shorthand.expand ('\x27' :: s) = '\x27' :: (inside ++ '\x27' :: Shorthand.expand t) := by
  rw [Shorthand.expand, if_pos rfl]
  split
  · next i u found =>
    obtain ⟨rfl, rfl⟩ := Prod.mk.inj (Option.some.inj (closed.symm.trans found))
    rfl
  · next found =>
    rw [closed] at found
    cases found

/-- A quote that opens no string is passed over. -/
theorem expand_quote (unclosed : Shorthand.stringRest? s = none) :
    Shorthand.expand ('\x27' :: s) = '\x27' :: Shorthand.expand s := by
  rw [Shorthand.expand, if_pos rfl]
  split
  · next found =>
    rw [unclosed] at found
    cases found
  · rfl

theorem expand_skip (unquoted : c ≠ '\x27') (none : Shorthand.pair? (c :: s) = none) :
    Shorthand.expand (c :: s) = c :: Shorthand.expand s := by
  rw [Shorthand.expand, if_neg unquoted]
  split
  · next p found =>
    rw [none] at found
    cases found
  · rfl

theorem expand_pair (found : Shorthand.pair? s = some p) :
    Shorthand.expand s = p.text ++ Shorthand.expand p.rest := by
  cases s with
  | nil => cases found
  | cons c s =>
    have unquoted : c ≠ '\x27' := by
      rintro rfl
      cases found
    rw [Shorthand.expand, if_neg unquoted]
    split
    · next q same =>
      obtain rfl := Option.some.inj (found.symm.trans same)
      rfl
    · next none =>
      rw [found] at none
      cases none

end Expand

theorem expand_eq_self {s : List Char} (h : Inert s) : Shorthand.expand s = s := by
  induction h with
  | nil => rw [Shorthand.expand]
  | char unquoted _ rest ih => rw [expand_skip unquoted rest.pair?_eq_none, ih]
  | text closed _ ih => rw [expand_string closed, ih, eq_append_of_stringRest? closed]

/-! ## Statements without shorthand -/

theorem isBlank_of_isSpace {c : Char} (h : isSpace c) : isBlank c := by
  obtain rfl | rfl | rfl | rfl := isSpace_cases h <;> decide

theorem headWord_of_keyword {w : String} {s r : List Char} (h : keyword w s = some ((), r)) :
    headWord (s.dropWhile isSpace) = w := by
  change (if headWord (s.dropWhile isSpace) = w then _ else none) = _ at h
  split at h
  · assumption
  · cases h

theorem exists_of_seqLeft {α β : Type} {p : Reader α} {q : Reader β} {s r : List Char} {a : α}
    (h : (p <* q) s = some (a, r)) : ∃ t, p s = some (a, t) := by
  rw [seqLeft_apply] at h
  obtain ⟨⟨b, t⟩, hs, ht⟩ := Option.bind_eq_some_iff.mp h
  obtain ⟨_, -, hu⟩ := Option.map_eq_some_iff.mp ht
  obtain ⟨rfl, -⟩ := Prod.mk.inj hu
  exact ⟨t, hs⟩

theorem eq_s_of_toLower {c : Char} (h : c.toLower = 's') : c = 's' ∨ c = 'S' := by
  unfold Char.toLower at h
  split at h
  · have value : c.val + 32 = 83 + 32 := congrArg Char.val h
    exact .inr (Char.ext ((UInt32.add_left_inj 32).mp value))
  · exact .inl h

section Select

variable {t : List Char} {text : String} {s : Select}

theorem letters_of_headWord {w : String} (word : headWord t = w) :
    (t.takeWhile isWordChar).map Char.toLower = w.toList := by
  rw [← word, headWord, String.toList_ofList]

/-- Behind blanks, the word SELECT begins a statement in whatever case it is written. -/
theorem startsWithSelect_of_headWord {b : List Char} (blank : ∀ c ∈ b, isBlank c)
    (word : headWord t = "select") : Query.startsWithSelect (b ++ t) := by
  have letters := letters_of_headWord word
  have six : (t.takeWhile isWordChar).length = 6 := by
    rw [← List.length_map Char.toLower, letters]
    rfl
  have stops := List.head?_dropWhile_not isWordChar t
  have split := List.takeWhile_append_dropWhile (p := isWordChar) (l := t)
  generalize t.takeWhile isWordChar = w at letters six split
  generalize t.dropWhile isWordChar = r at stops split
  subst split
  have solid : ∀ c ∈ (w ++ r).head?, isBlank c = false := by
    intro c hc
    cases w with
    | nil => cases six
    | cons d w =>
      obtain rfl : d = c := by simpa using hc
      obtain rfl | rfl := eq_s_of_toLower (List.cons.inj letters).1 <;> decide
  have start : trimStart (b ++ (w ++ r)) = w ++ r := dropWhile_append_stop blank solid
  have ends : r.head?.any isWordChar = false := by
    cases r with
    | nil => rfl
    | cons c r => simpa using stops
  unfold Query.startsWithSelect
  simp only [start, List.take_left' six, List.drop_left' six, letters, ends]
  rfl

/-- An accepted text begins with the word SELECT, after blanks. -/
theorem startsWithSelect_of_ofText? (accepted : Select.ofText? text = .ok s) :
    Query.startsWithSelect text.toList := by
  obtain ⟨_, read⟩ := exists_of_seqLeft (statement_of_ofText? accepted)
  obtain ⟨_, read⟩ := exists_of_seqLeft read
  obtain ⟨⟨_, _⟩, first, -⟩ := Option.bind_eq_some_iff.mp read
  have word := headWord_of_keyword first
  have blank : ∀ c ∈ text.toList.takeWhile isSpace, isBlank c := fun c hc =>
    isBlank_of_isSpace (List.mem_takeWhile_imp hc)
  have starts := startsWithSelect_of_headWord blank word
  rwa [List.takeWhile_append_dropWhile] at starts

/-- A statement whose quoted names are quiet is read as it stands. -/
theorem ofText_of_ofText? (accepted : Select.ofText? text = .ok s)
    (quiet : ∀ n ∈ quotedNames text, IsQuiet n) :
    expandShorthand text = text ∧ ∀ c, s.collection.map trimmed = some c → c ≠ "" →
      Query.ofText text = .ok ⟨s, c⟩ := by
  have inert : Inert text.toList := .of_passed (passed_of_ofText? accepted) quiet .nil
  have same : expandShorthand text = text := by
    rw [expandShorthand, expand_eq_self inert, String.ofList_toList]
  refine ⟨same, fun c named some => ?_⟩
  unfold Query.ofText
  rw [same]
  simp only [if_pos (startsWithSelect_of_ofText? accepted), accepted]
  exact Query.ofStatement_named named some

end Select

/-! ### Colons and quotes in strings and names -/

/-- The statement that finds `text` in the column `name`. -/
def finding (name text : String) : Select where
  projection := .columns [⟨name, none⟩]
  collection := some "docs"
  condition := some (.compare "a" .eq (.text text))
  order := []
  limit := none
  offset := none

theorem ofText?_finding {name text sql : String} (ok : IsName name)
    (plain : sql = String.ofList (plainText (finding name text).tokens)) :
    Select.ofText? sql = .ok (finding name text) := by
  have formed : (finding name text).WellFormed := by
    refine ⟨?_, ?_, by simp [finding]⟩
    · simpa [finding, Projection.WellFormed, Column.WellFormed] using ok
    · simp [finding, Condition.WellFormed, Condition.Formed, Condition.Spelled, IsName, backtick,
        Literal.WellFormed]
  exact ofText?_plainText formed plain

def colonTexts : String :=
  " select `b \"c` from 'docs' where `a` = 'it''s x:y'"

theorem ofText_colonTexts :
    Select.ofText? colonTexts = .ok (finding "b \"c" "it's x:y") ∧
      (∀ n ∈ quotedNames colonTexts, IsQuiet n) ∧ expandShorthand colonTexts = colonTexts ∧
      Query.ofText colonTexts = .ok ⟨finding "b \"c" "it's x:y", "docs"⟩ := by
  have accepted : Select.ofText? colonTexts = .ok (finding "b \"c" "it's x:y") :=
    ofText?_finding (by decide) (by decide +kernel)
  have quiet : ∀ n ∈ quotedNames colonTexts, IsQuiet n := by decide
  have read := ofText_of_ofText? accepted quiet
  exact ⟨accepted, quiet, read.1, read.2 "docs" (by decide) (by decide)⟩

/-- A quote in a name lets the scan into the next string, and what it does there leaves no
statement behind. A colon in a name is enough as well. -/
theorem expandShorthand_disturbs :
    Select.ofText? " select `it's` from 'docs' where `a` = 'x:y'" = .ok (finding "it's" "x:y") ∧
      expandShorthand " select `it's` from 'docs' where `a` = 'x:y'" =
        " select `it's` from 'docs' where `a` = 'x = 'y''" ∧
      (Query.ofText " select `it's` from 'docs' where `a` = 'x:y'").isOk = false ∧
      Select.ofText? " select `x:y` from 'docs' where `a` = ''" = .ok (finding "x:y" "") ∧
      expandShorthand " select `x:y` from 'docs' where `a` = ''" =
        " select `x = 'y`' from 'docs' where `a` = ''" := by
  refine ⟨ofText?_finding (by decide) (by decide +kernel), by decide +kernel, by decide +kernel,
    ofText?_finding (by decide) (by decide +kernel), by decide +kernel⟩

end SearchSelect.Sql
