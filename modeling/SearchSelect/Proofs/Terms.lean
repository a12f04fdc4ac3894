import SearchSelect.Filter.Clause

/-! Patterns and terms as the search engine reads them. The pattern of a LIKE and the wildcard term
written for it describe the same texts. An escaped text is to be read as one term that stands for
the text; blanks other than the space are not escaped, nor is a word that is an operator, and these
are read as something else. -/

namespace SearchSelect.Filter

open Sql

/-! ## Patterns -/

/-- In the pattern of a LIKE `%` stands for any text, `_` for one character and every other
character for itself. -/
inductive LikeMatches : List Char → List Char → Prop
  | nil : LikeMatches [] []
  | any {p t : List Char} (w : List Char) (rest : LikeMatches p t) : LikeMatches ('%' :: p) (w ++ t)
  | one {p t : List Char} (c : Char) (rest : LikeMatches p t) : LikeMatches ('_' :: p) (c :: t)
  | char {c : Char} {p t : List Char} (run : c ≠ '%') (single : c ≠ '_') (rest : LikeMatches p t) :
      LikeMatches (c :: p) (c :: t)

/-- In a term `*` stands for any text, `?` for one character, a backslash makes the next character
stand for itself, and so does every other character. -/
inductive TermMatches : List Char → List Char → Prop
  | nil : TermMatches [] []
  | any {p t : List Char} (w : List Char) (rest : TermMatches p t) : TermMatches ('*' :: p) (w ++ t)
  | one {p t : List Char} (c : Char) (rest : TermMatches p t) : TermMatches ('?' :: p) (c :: t)
  | escaped {p t : List Char} (c : Char) (rest : TermMatches p t) :
      TermMatches ('\x5c' :: c :: p) (c :: t)
  | char {c : Char} {p t : List Char} (run : c ≠ '*') (single : c ≠ '?') (slash : c ≠ '\x5c')
      (rest : TermMatches p t) : TermMatches (c :: p) (c :: t)

section Patterns

variable {c : Char} {p t : List Char}

theorem wildcard_any (p : List Char) : wildcard ('%' :: p) = '*' :: wildcard p := rfl

theorem wildcard_one (p : List Char) : wildcard ('_' :: p) = '?' :: wildcard p := rfl

theorem wildcard_special (run : c ≠ '%') (single : c ≠ '_') (special : isSpecial c) :
    wildcard (c :: p) = '\x5c' :: c :: wildcard p := by
  simp [wildcard, run, single, special]

theorem wildcard_plain (run : c ≠ '%') (single : c ≠ '_') (plain : isSpecial c = false) :
    wildcard (c :: p) = c :: wildcard p := by
  simp [wildcard, run, single, plain]

/-- Whatever means something in a term is special. -/
theorem ne_of_plain {d : Char} (plain : isSpecial c = false) (special : isSpecial d) : c ≠ d := by
  rintro rfl
  rw [plain] at special
  cases special

/-- A character without a meaning of its own is cut off the text. -/
theorem TermMatches.tail (h : TermMatches (c :: p) t) (plain : isSpecial c = false) :
    ∃ u, t = c :: u ∧ TermMatches p u := by
  have other {d : Char} (special : isSpecial d) : c ≠ d := ne_of_plain plain special
  cases h with
  | any => exact absurd rfl (other (by decide))
  | one => exact absurd rfl (other (by decide))
  | escaped => exact absurd rfl (other (by decide))
  | char _ _ _ rest => exact ⟨_, rfl, rest⟩

theorem termMatches_of_likeMatches (h : LikeMatches p t) : TermMatches (wildcard p) t := by
  induction h with
  | nil => exact .nil
  | any w _ ih => exact .any w ih
  | one c _ ih => exact .one c ih
  | @char c p t run single _ ih =>
    cases special : isSpecial c with
    | true =>
      rw [wildcard_special run single special]
      exact .escaped c ih
    | false =>
      rw [wildcard_plain run single special]
      exact .char (ne_of_plain special (by decide)) (ne_of_plain special (by decide))
        (ne_of_plain special (by decide)) ih

/-- Each character of a pattern is written as one sign of a term, and what the sign stands for is
cut off the text with it. -/
theorem likeMatches_of_termMatches (h : TermMatches (wildcard p) t) : LikeMatches p t := by
  induction p generalizing t with
  | nil =>
    cases h with
    | nil => exact .nil
  | cons c p ih =>
    by_cases run : c = '%'
    · subst run
      rw [wildcard_any] at h
      cases h with
      | any w rest => exact .any w (ih rest)
      | char no => exact absurd rfl no
    by_cases single : c = '_'
    · subst single
      rw [wildcard_one] at h
      cases h with
      | one d rest => exact .one d (ih rest)
      | char _ no => exact absurd rfl no
    cases special : isSpecial c with
    | true =>
      rw [wildcard_special run single special] at h
      cases h with
      | escaped _ rest => exact .char run single (ih rest)
      | char _ _ no => exact absurd rfl no
    | false =>
      rw [wildcard_plain run single special] at h
      obtain ⟨u, rfl, rest⟩ := h.tail special
      exact .char run single (ih rest)

end Patterns

/-- A text matches the pattern of a LIKE exactly if it matches the term written for the pattern. -/
theorem likeMatches_iff_termMatches (pattern text : String) :
    LikeMatches pattern.toList text.toList ↔
      TermMatches (wildcard pattern.toList) text.toList :=
  ⟨termMatches_of_likeMatches, likeMatches_of_termMatches⟩

/-! ## Terms -/

/-- A character, and whether a backslash makes it stand for itself. -/
structure Glyph where
  char : Char
  literal : Bool
  deriving DecidableEq, Repr

def glyphs : List Char → List Glyph
  | '\x5c' :: c :: r => ⟨c, true⟩ :: glyphs r
  | c :: r => ⟨c, false⟩ :: glyphs r
  | [] => []

inductive Lexeme where
  | term (text : List Char)
  | operator (text : List Char)
  deriving DecidableEq, Repr

def Lexeme.text : Lexeme → List Char
  | term text => text
  | operator text => text

def operatorWords : List (List Char) :=
  ["AND".toList, "OR".toList, "NOT".toList]

def endsTerm (c : Char) : Bool :=
  " \t\r\n\u3000".toList.contains c

/-- A word that is an operator stands for itself only if some of it is escaped. -/
def Lexeme.ofWord (word : List Glyph) : Lexeme :=
  let text := word.map Glyph.char
  if text ∈ operatorWords ∧ word.all (!·.literal) then .operator text else .term text

/-- Between terms there is nothing to end. -/
def ended (word : List Glyph) : List Lexeme :=
  if word = [] then [] else [.ofWord word]

/-- The terms and operators of a text, behind a word that has been read up to here. -/
def lexemesFrom (word : List Glyph) : List Glyph → List Lexeme
  | [] => ended word
  | g :: gs =>
    if g.literal then lexemesFrom (word ++ [g]) gs
    else if endsTerm g.char then ended word ++ lexemesFrom [] gs
    else if isSpecial g.char then ended word ++ .operator [g.char] :: lexemesFrom [] gs
    else lexemesFrom (word ++ [g]) gs

def lexemes (text : List Char) : List Lexeme :=
  lexemesFrom [] (glyphs text)

section Terms

variable {s : List Char} {word gs : List Glyph}

/-- A character as it is read in an escaped text. -/
def Glyph.ofEscaped (c : Char) : Glyph :=
  ⟨c, isSpecial c⟩

theorem glyphs_escaped_append (s r : List Char) :
    glyphs (escaped s ++ r) = s.map Glyph.ofEscaped ++ glyphs r := by
  induction s with
  | nil => rfl
  | cons c s ih =>
    unfold escaped at ih
    rw [escaped, List.flatMap_cons, List.map_cons, List.cons_append, ← ih]
    cases special : isSpecial c with
    | true => simp [glyphs, Glyph.ofEscaped, special]
    | false =>
      have slash : c ≠ '\x5c' := ne_of_plain special (by decide)
      simp [glyphs, Glyph.ofEscaped, special, slash]

theorem glyphs_escaped (s : List Char) : glyphs (escaped s) = s.map Glyph.ofEscaped := by
  simpa [glyphs] using glyphs_escaped_append s []

/-- Reading loses the blanks that end a term, and nothing else. -/
theorem text_lexemesFrom (word : List Glyph) (s : List Char) :
    (lexemesFrom word (s.map Glyph.ofEscaped)).flatMap Lexeme.text =
      word.map Glyph.char ++ s.filter fun c => isSpecial c || !endsTerm c := by
  have text (word : List Glyph) : (ended word).flatMap Lexeme.text = word.map Glyph.char := by
    unfold ended Lexeme.ofWord
    split
    · next none => simp [none]
    · dsimp only
      split <;> simp [Lexeme.text]
  induction s generalizing word with
  | nil => simp [lexemesFrom, text]
  | cons c s ih =>
    have next := ih (word ++ [Glyph.ofEscaped c])
    cases special : isSpecial c with
    | true => simp_all [lexemesFrom, Glyph.ofEscaped]
    | false => cases blank : endsTerm c <;> simp_all [lexemesFrom, Glyph.ofEscaped]

/-- Without a blank that ends a term, all of an escaped text goes on with the word. -/
theorem lexemesFrom_solid (solid : ∀ c ∈ s, endsTerm c → isSpecial c) :
    lexemesFrom word (s.map Glyph.ofEscaped) = ended (word ++ s.map Glyph.ofEscaped) := by
  induction s generalizing word with
  | nil => simp [lexemesFrom]
  | cons c s ih =>
    obtain ⟨first, others⟩ := List.forall_mem_cons.mp solid
    have next : lexemesFrom (word ++ [Glyph.ofEscaped c]) (s.map Glyph.ofEscaped) =
        ended (word ++ Glyph.ofEscaped c :: s.map Glyph.ofEscaped) := by
      rw [ih others, List.append_assoc, List.singleton_append]
    rw [List.map_cons, lexemesFrom, next]
    cases special : isSpecial c with
    | true => simp [Glyph.ofEscaped, special]
    | false =>
      have blank : endsTerm c = false := by simpa [special] using first
      simp [Glyph.ofEscaped, special, blank]

theorem ofWord_escaped (s : List Char) :
    Lexeme.ofWord (s.map Glyph.ofEscaped) =
      if s ∈ operatorWords then .operator s else .term s := by
  have chars : (s.map Glyph.ofEscaped).map Glyph.char = s := by
    simp [Glyph.ofEscaped, Function.comp_def]
  have letters : ∀ w ∈ operatorWords, w.all (!isSpecial ·) := by decide
  have plain : s ∈ operatorWords → (s.map Glyph.ofEscaped).all (!·.literal) := fun word => by
    simpa [Glyph.ofEscaped, Function.comp_def] using letters s word
  unfold Lexeme.ofWord
  simp only [chars, and_iff_left_of_imp plain]

/-- The only blank that is escaped is the space. -/
theorem isSpecial_of_endsTerm {c : Char} (blank : endsTerm c) : isSpecial c ↔ c = ' ' := by
  have blanks : ∀ d ∈ " \t\r\n\u3000".toList, isSpecial d ↔ d = ' ' := by
    simp [isSpecial, specials]
  exact blanks c (by simpa [endsTerm] using blank)

/-- An escaped text is one term, and stands for itself there, exactly if it is no operator and has
no blank but the space. -/
theorem lexemes_escaped_iff (some : s ≠ []) :
    lexemes (escaped s) = [.term s] ↔ s ∉ operatorWords ∧ ∀ c ∈ s, endsTerm c → c = ' ' := by
  have solid_iff : (∀ c ∈ s, endsTerm c → c = ' ') ↔ ∀ c ∈ s, endsTerm c → isSpecial c :=
    forall₂_congr fun c _ => forall_congr' fun blank => (isSpecial_of_endsTerm blank).symm
  have whole (solid : ∀ c ∈ s, endsTerm c → isSpecial c) :
      lexemes (escaped s) = [if s ∈ operatorWords then .operator s else .term s] := by
    rw [lexemes, glyphs_escaped, lexemesFrom_solid solid, List.nil_append, ended,
      if_neg (by simpa using some), ofWord_escaped]
  rw [solid_iff]
  constructor
  · intro one
    have solid : ∀ c ∈ s, endsTerm c → isSpecial c := by
      have read := text_lexemesFrom [] s
      rw [← glyphs_escaped, ← lexemes, one] at read
      have kept : ∀ c ∈ s, isSpecial c ∨ endsTerm c = false := by
        simpa [Lexeme.text] using read.symm
      intro c hc blank
      simpa [blank] using kept c hc
    refine ⟨fun word => ?_, solid⟩
    rw [whole solid, if_pos word] at one
    cases one
  · rintro ⟨free, solid⟩
    rw [whole solid, if_neg free]

/-! ### Joined terms -/

/-- A blank that is not escaped ends what is before it. -/
theorem lexemesFrom_blank (word gs rest : List Glyph) :
    lexemesFrom word (gs ++ ⟨' ', false⟩ :: rest) =
      lexemesFrom word gs ++ lexemesFrom [] rest := by
  induction gs generalizing word with
  | nil => simp [lexemesFrom, endsTerm]
  | cons g gs ih =>
    rw [List.cons_append, lexemesFrom, lexemesFrom]
    split
    · exact ih _
    · split
      · rw [ih, List.append_assoc]
      · split
        · rw [ih, List.append_assoc, List.cons_append]
        · exact ih _

theorem lexemes_join (s r : List Char) :
    lexemes (escaped s ++ (" OR ".toList ++ r)) =
      lexemes (escaped s) ++ .operator "OR".toList :: lexemes r := by
  have joint : glyphs (" OR ".toList ++ r) =
      ⟨' ', false⟩ :: ([⟨'O', false⟩, ⟨'R', false⟩] ++ ⟨' ', false⟩ :: glyphs r) := rfl
  rw [lexemes, glyphs_escaped_append, joint, lexemesFrom_blank, lexemesFrom_blank, lexemes,
    glyphs_escaped]
  rfl

theorem lexemes_joined (ids : List (List Char)) :
    lexemes (" OR ".toList.intercalate (ids.map escaped)) =
      [Lexeme.operator "OR".toList].intercalate (ids.map fun id => lexemes (escaped id)) := by
  induction ids with
  | nil => rfl
  | cons id ids ih =>
    by_cases last : ids = []
    · subst last
      simp
    · rw [List.map_cons, List.intercalate_cons_of_ne_nil (by simpa using last), List.append_assoc,
        lexemes_join, ih, List.map_cons, List.intercalate_cons_of_ne_nil (by simpa using last),
        List.append_assoc]
      rfl

theorem toList_ofDocIds (ids : List String) :
    (ofDocIds ids).toList = "_docid_:(".toList ++
      " OR ".toList.intercalate ((ids.map String.toList).map escaped) ++ [')'] := by
  unfold ofDocIds
  simp [String.toList_intercalate, Function.comp_def]

end Terms

/-- In a filter of ids every id is read by itself, with OR between each two. It is read as one term
that stands for the id exactly if the id is no operator and has no blank but the space. -/
theorem lexemes_ofDocIds {ids : List String} (some : ∀ id ∈ ids, id ≠ "") :
    ∃ body, (ofDocIds ids).toList = "_docid_:(".toList ++ body ++ [')'] ∧
      lexemes body = [Lexeme.operator "OR".toList].intercalate
        (ids.map fun id => lexemes (escaped id.toList)) ∧
      ∀ id ∈ ids, lexemes (escaped id.toList) = [.term id.toList] ↔
        id.toList ∉ operatorWords ∧ ∀ c ∈ id.toList, endsTerm c → c = ' ' := by
  refine ⟨_, toList_ofDocIds ids, ?_, fun id mem => ?_⟩
  · rw [lexemes_joined, List.map_map]
    rfl
  · exact lexemes_escaped_iff (by simpa using some id mem)

/-- An operator with more behind it is no operator, and neither is one in small letters. -/
theorem lexemes_ofDocIds_signs :
    (∀ id ∈ ["a:\"b\"", "OR else", "not"], id ≠ "") ∧
      ∃ body, (ofDocIds ["a:\"b\"", "OR else", "not"]).toList =
          "_docid_:(".toList ++ body ++ [')'] ∧
        lexemes body = [.term "a:\"b\"".toList, .operator "OR".toList, .term "OR else".toList,
          .operator "OR".toList, .term "not".toList] := by
  have some : ∀ id ∈ ["a:\"b\"", "OR else", "not"], id ≠ "" := by decide
  obtain ⟨body, text, read, each⟩ := lexemes_ofDocIds some
  refine ⟨some, body, text, ?_⟩
  simp only [List.forall_mem_cons] at each
  obtain ⟨first, second, third, -⟩ := each
  rw [read, List.map_cons, List.map_cons, List.map_cons,
    first.mpr ⟨by decide, by simp [endsTerm]⟩, second.mpr ⟨by decide, by simp [endsTerm]⟩,
    third.mpr ⟨by decide, by simp [endsTerm]⟩]
  rfl

/-- A bare operator stays one, and a tab still ends a term. -/
theorem lexemes_escaped_splits :
    escaped "OR".toList = "OR".toList ∧
      lexemes (escaped "OR".toList) = [.operator "OR".toList] ∧
      escaped "a\tb".toList = "a\tb".toList ∧
      lexemes (escaped "a\tb".toList) = [.term ['a'], .term ['b']] := by
  decide

end SearchSelect.Filter
