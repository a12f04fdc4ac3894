import Mathlib.Data.List.TakeWhile
import SearchSelect.Proofs.WellFormed
import SearchSelect.Sql.Shorthand

/-! Statements as sequences of tokens, laid out in every way that reads the same: words in any
mixture of cases, any blanks between tokens, and possibly a semicolon at the end.
`Takes p a x y` says that the reader `p` reads `a` from every layout of the tokens `x` and stops
before the tokens `y`; `Fails p x` says that it refuses every layout of `x`. Both go through
sequencing, choice and repetition, so that a grammar is followed token by token and no proof
about it looks at characters. -/

namespace SearchSelect.Sql

open Text

/-- A name stands between backticks, a text between single quotes with its quotes doubled. -/
inductive Token where
  | word (w : String)
  | sign (s : String)
  | name (n : String)
  | text (s : String)
  | number (spelling : String)
  deriving DecidableEq, Repr

def signs : List String := ["(", ")", ",", "*", "=", "<>", "!=", "<", "<=", ">", ">="]

def isSignChar (c : Char) : Bool :=
  "(),*=<>!".toList.contains c

/-- What a character begins. A semicolon stops the statement. -/
inductive Kind where
  | word
  | sign
  | name
  | text
  | number
  | stop
  deriving DecidableEq, Repr

def Kind.ofChar (c : Char) : Kind :=
  if isNameStart c then word
  else if c.isDigit || c = '-' then number
  else if isSignChar c then sign
  else if c = backtick then name
  else if c = '\x27' then text
  else stop

namespace Token

def Fits : Token → Prop
  | word w => w ∈ keywords
  | sign s => s ∈ signs
  | name n => IsName n
  | text _ => True
  | number spelling => IsNumber spelling.toList

/-- The characters a token is written with. A word is written in any mixture of cases. -/
def Spells : Token → List Char → Prop
  | word w, t => t.map Char.toLower = w.toList
  | sign s, t => t = s.toList
  | name n, t => t = backtick :: (n.toList ++ [backtick])
  | text s, t => t = '\x27' :: (Shorthand.doubleQuotes s.toList ++ ['\x27'])
  | number spelling, t => t = spelling.toList

def kind : Token → Kind
  | word _ => .word
  | sign _ => .sign
  | name _ => .name
  | text _ => .text
  | number _ => .number

end Token

def headKind : List Token → Kind
  | [] => .stop
  | t :: _ => t.kind

def IsBlank (b : List Char) : Prop :=
  ∀ c ∈ b, isSpace c

/-- Where a token ends: at the end of the text, at a blank, or at a semicolon. -/
def Apart (s : List Char) : Prop :=
  ∀ c ∈ s.head?, isSpace c ∨ c = ';'

/-- Blanks, and a semicolon or none. -/
def IsEnding (s : List Char) : Prop :=
  IsBlank s ∨ ∃ b b', IsBlank b ∧ IsBlank b' ∧ s = b ++ ';' :: b'

/-- The text is the tokens in order, with blanks between them and possibly around them. -/
inductive Laid : List Token → List Char → Prop
  | ending {s : List Char} (h : IsEnding s) : Laid [] s
  | token {t : Token} {ts : List Token} {b w r : List Char} (fits : t.Fits) (blank : IsBlank b)
      (spelled : t.Spells w) (apart : Apart r) (rest : Laid ts r) : Laid (t :: ts) (b ++ (w ++ r))

variable {α β : Type} {a : α} {b : β} {x y z : List Token}

/-! ## Readers on layouts -/

/-- The last part lets repetitions see that something was read: at least one character for each
token. -/
def Takes (p : Reader α) (a : α) (x y : List Token) : Prop :=
  ∀ s, Laid x s → ∃ r, p s = some (a, r) ∧ Laid y r ∧ r.length + x.length ≤ s.length + y.length

def Fails (p : Reader α) (x : List Token) : Prop :=
  ∀ s, Laid x s → p s = none

theorem bind_apply (p : Reader α) (f : α → Reader β) (s : List Char) :
    (p >>= f) s = (p s).bind fun r => f r.1 r.2 := rfl

theorem orElse_apply (p q : Reader α) (s : List Char) : (p <|> q) s = (p s).or (q s) := by
  change (p s <|> q s) = _
  cases p s <;> rfl

theorem seqLeft_apply (p : Reader α) (q : Reader β) (s : List Char) :
    (p <* q) s = (p s).bind fun r => (q r.2).map fun u => (r.1, u.2) := by
  rw [seqLeft_eq_bind, bind_apply]
  congr
  funext r
  rw [bind_apply]
  cases q r.2 <;> rfl

namespace Takes

variable {p q : Reader α} {f : α → Reader β}

theorem pure (a : α) (x : List Token) : Takes (pure a) a x x :=
  fun s hs => ⟨s, rfl, hs, Nat.le_refl _⟩

theorem bind (hp : Takes p a x y) (hf : Takes (f a) b y z) : Takes (p >>= f) b x z := by
  intro s hs
  obtain ⟨r, hr, ly, short⟩ := hp s hs
  obtain ⟨t, ht, lz, shorter⟩ := hf r ly
  refine ⟨t, ?_, lz, by omega⟩
  rw [bind_apply, hr]
  exact ht

theorem map (g : α → β) (hp : Takes p a x y) : Takes (g <$> p) (g a) x y := by
  rw [map_eq_pure_bind]
  exact hp.bind (pure _ _)

theorem seqRight {q : Reader β} (hp : Takes p a x y) (hq : Takes q b y z) :
    Takes (p *> q) b x z :=
  hp.bind hq

theorem seqLeft {q : Reader β} (hp : Takes p a x y) (hq : Takes q b y z) :
    Takes (p <* q) a x z := by
  rw [seqLeft_eq_bind]
  exact hp.bind (hq.bind (pure _ _))

theorem orElse (hp : Takes p a x y) : Takes (p <|> q) a x y := by
  intro s hs
  obtain ⟨r, hr, rest⟩ := hp s hs
  exact ⟨r, by rw [orElse_apply, hr]; rfl, rest⟩

theorem otherwise (hp : Fails p x) (hq : Takes q a x y) : Takes (p <|> q) a x y := by
  intro s hs
  obtain ⟨r, hr, rest⟩ := hq s hs
  exact ⟨r, by rw [orElse_apply, hp s hs, hr]; rfl, rest⟩

theorem optional (hp : Takes p a x y) : Takes (optional p) (some a) x y :=
  (hp.map some).orElse

end Takes

namespace Fails

variable {p q : Reader α} {f : α → Reader β}

theorem bind (hp : Fails p x) : Fails (p >>= f) x := by
  intro s hs
  rw [bind_apply, hp s hs]
  rfl

theorem after (hp : Takes p a x y) (hf : Fails (f a) y) : Fails (p >>= f) x := by
  intro s hs
  obtain ⟨r, hr, ly, -⟩ := hp s hs
  rw [bind_apply, hr]
  exact hf r ly

theorem map (g : α → β) (hp : Fails p x) : Fails (g <$> p) x := by
  rw [map_eq_pure_bind]
  exact hp.bind

theorem seqRight {q : Reader β} (hp : Fails p x) : Fails (p *> q) x :=
  hp.bind

theorem seqLeft {q : Reader β} (hp : Fails p x) : Fails (p <* q) x := by
  rw [seqLeft_eq_bind]
  exact hp.bind

theorem orElse (hp : Fails p x) (hq : Fails q x) : Fails (p <|> q) x := by
  intro s hs
  rw [orElse_apply, hp s hs, hq s hs]
  rfl

theorem optional (hp : Fails p x) : Takes (optional p) none x x :=
  Takes.otherwise (hp.map some) (Takes.pure none x)

end Fails

/-! ## Repetition -/

section Repetition

variable {p : Reader α} {sep : Reader β} {as : List α}

theorem takes_many_nil (hp : Fails p x) : Takes (many p) [] x x := by
  intro s hs
  refine ⟨s, ?_, hs, Nat.le_refl _⟩
  rw [many, manyFrom, hp s hs]

theorem takes_many_cons (hp : Takes p a x y) (less : y.length < x.length)
    (rest : Takes (many p) as y z) : Takes (many p) (a :: as) x z := by
  intro s hs
  obtain ⟨r, hr, ly, short⟩ := hp s hs
  obtain ⟨t, ht, lz, shorter⟩ := rest r ly
  have fewer : r.length < s.length := by omega
  refine ⟨t, ?_, lz, by omega⟩
  have hm : manyFrom p r = (as, t) := by simpa [many] using ht
  rw [many, manyFrom, hr]
  simp only [if_pos fewer, hm]

theorem takes_sepBy1 (hp : Takes p a x y) (rest : Takes (many (sep *> p)) as y z) :
    Takes (sepBy1 sep p) (a :: as) x z :=
  hp.bind (rest.bind (Takes.pure _ _))

end Repetition

/-! ## Characters -/

variable {c : Char}

theorem isSpace_cases (h : isSpace c) : c = ' ' ∨ c = '\t' ∨ c = '\r' ∨ c = '\n' := by
  simpa [isSpace, or_assoc] using h

theorem not_isWordChar_of_isSpace (h : isSpace c) : isWordChar c = false := by
  obtain rfl | rfl | rfl | rfl := isSpace_cases h <;> decide

theorem not_isSpace_of_isWordChar (h : isWordChar c) : isSpace c = false := by
  cases blank : isSpace c with
  | false => rfl
  | true => rw [not_isWordChar_of_isSpace blank] at h; exact h.symm

theorem isAlpha_of_toLower (h : c.toLower.isLower) : c.isAlpha := by
  by_cases upper : c.val ≥ 'A'.val ∧ c.val ≤ 'Z'.val
  · have isUpper : c.isUpper := decide_eq_true upper
    exact (Bool.or_eq_true _ _).mpr (.inl isUpper)
  · have same : c.toLower = c := dif_neg upper
    rw [same] at h
    exact (Bool.or_eq_true _ _).mpr (.inr h)

theorem isWordChar_of_isAlpha (h : c.isAlpha) : isWordChar c := by
  simp [isWordChar, Char.isAlphanum, h]

theorem isWordChar_of_isDigit (h : c.isDigit) : isWordChar c := by
  simp [isWordChar, Char.isAlphanum, h]

/-- Where a token ends, no word goes on. -/
theorem not_isWordChar_of_apart {r : List Char} (apart : Apart r) :
    ∀ c ∈ r.head?, isWordChar c = false := by
  intro c hc
  obtain blank | rfl := apart c hc
  · exact not_isWordChar_of_isSpace blank
  · rfl

theorem takeWhile_append_stop {p : Char → Bool} {w r : List Char} (all : ∀ c ∈ w, p c)
    (stop : ∀ c ∈ r.head?, p c = false) : (w ++ r).takeWhile p = w := by
  rw [List.takeWhile_append_of_pos all]
  cases r with
  | nil => simp
  | cons c r => simp [stop c rfl]

theorem dropWhile_append_stop {p : Char → Bool} {w r : List Char} (all : ∀ c ∈ w, p c)
    (stop : ∀ c ∈ r.head?, p c = false) : (w ++ r).dropWhile p = r := by
  rw [List.dropWhile_append_of_pos all]
  cases r with
  | nil => rfl
  | cons c r => rw [List.dropWhile_cons_of_neg (by simp [stop c rfl])]

theorem bne_of_not_mem {c : Char} {s : List Char} (none : c ∉ s) : ∀ d ∈ s, (d != c) := by
  intro d hd
  rw [bne_iff_ne]
  rintro rfl
  exact none hd

/-! ## Lexemes -/

theorem keywords_all_lower : ∀ w ∈ keywords, w.toList ≠ [] ∧ w.toList.all Char.isLower := by
  decide

theorem keywords_lower {w : String} (known : w ∈ keywords) :
    w.toList ≠ [] ∧ ∀ c ∈ w.toList, c.isLower := by
  obtain ⟨some, lower⟩ := keywords_all_lower w known
  exact ⟨some, List.all_eq_true.mp lower⟩

theorem signs_all_signChar : ∀ s ∈ signs, s.toList ≠ [] ∧ s.toList.all isSignChar := by
  decide

theorem signs_solid {s : String} (known : s ∈ signs) :
    s.toList ≠ [] ∧ ∀ c ∈ s.toList, isSignChar c := by
  obtain ⟨some, solid⟩ := signs_all_signChar s known
  exact ⟨some, List.all_eq_true.mp solid⟩

theorem isSignChar_cases (h : isSignChar c) :
    c = '(' ∨ c = ')' ∨ c = ',' ∨ c = '*' ∨ c = '=' ∨ c = '<' ∨ c = '>' ∨ c = '!' := by
  simpa [isSignChar] using h

theorem not_isSpace_of_isSignChar (h : isSignChar c) : isSpace c = false := by
  obtain rfl | rfl | rfl | rfl | rfl | rfl | rfl | rfl := isSignChar_cases h <;> decide

theorem ofChar_sign (h : isSignChar c) : Kind.ofChar c = .sign := by
  obtain rfl | rfl | rfl | rfl | rfl | rfl | rfl | rfl := isSignChar_cases h <;> decide

theorem ofChar_alpha (h : c.isAlpha) : Kind.ofChar c = .word := by
  simp [Kind.ofChar, isNameStart, h]

theorem isAlpha_iff_toNat :
    c.isAlpha ↔ (65 ≤ c.toNat ∧ c.toNat ≤ 90) ∨ (97 ≤ c.toNat ∧ c.toNat ≤ 122) := by
  change (decide ('A'.val ≤ c.val ∧ c.val ≤ 'Z'.val) ||
    decide ('a'.val ≤ c.val) && decide (c.val ≤ 'z'.val)) = true ↔ _
  simp only [Bool.or_eq_true, Bool.and_eq_true, decide_eq_true_eq, UInt32.le_iff_toNat_le,
    Char.toNat_val, Char.reduceToNat]

theorem not_isNameStart_of_isDigit (h : c.isDigit) : isNameStart c = false := by
  have high : c.toNat ≤ 57 := (Char.isDigit_iff_toNat.mp h).2
  cases start : isNameStart c with
  | false => rfl
  | true =>
    have cases : c.isAlpha ∨ c = '_' := by simpa [isNameStart] using start
    obtain alpha | rfl := cases
    · have letter := isAlpha_iff_toNat.mp alpha
      omega
    · exact absurd h (by decide)

theorem ofChar_digit (h : c.isDigit) : Kind.ofChar c = .number := by
  simp [Kind.ofChar, not_isNameStart_of_isDigit h, h]

namespace Token

variable {t : Token} {w : List Char}

theorem Spells.isAlpha {k : String} (known : k ∈ keywords) (h : (word k).Spells w) :
    ∀ c ∈ w, c.isAlpha := by
  intro c hc
  have lower : c.toLower ∈ k.toList := h ▸ List.mem_map_of_mem hc
  exact isAlpha_of_toLower ((keywords_lower known).2 _ lower)

theorem Spells.begins (fits : t.Fits) (h : t.Spells w) :
    ∃ c r, w = c :: r ∧ Kind.ofChar c = t.kind ∧ isSpace c = false := by
  cases t with
  | word k =>
    have alpha := Spells.isAlpha fits h
    cases w with
    | nil => exact absurd h.symm (keywords_lower fits).1
    | cons c r =>
      have first := alpha c (by simp)
      exact ⟨c, r, rfl, ofChar_alpha first, not_isSpace_of_isWordChar (isWordChar_of_isAlpha first)⟩
  | sign s =>
    obtain ⟨some, solid⟩ := signs_solid fits
    obtain ⟨c, r, hs⟩ := List.exists_cons_of_ne_nil some
    have first : isSignChar c := solid c (by simp [hs])
    exact ⟨c, r, Eq.trans h hs, ofChar_sign first, not_isSpace_of_isSignChar first⟩
  | name n => exact ⟨_, _, h, rfl, rfl⟩
  | text s => exact ⟨_, _, h, rfl, rfl⟩
  | number spelling =>
    obtain ⟨sign, whole, places, power, hsign, ⟨some, digits⟩, -, -, hs⟩ := fits
    obtain ⟨d, ds, rfl⟩ := List.exists_cons_of_ne_nil some
    have h : w = spelling.toList := h
    rw [hs] at h
    obtain rfl | rfl := hsign
    · have digit := digits d (by simp)
      exact ⟨d, ds ++ places ++ power, by simpa using h, ofChar_digit digit,
        not_isSpace_of_isWordChar (isWordChar_of_isDigit digit)⟩
    · exact ⟨'-', d :: ds ++ places ++ power, by simpa using h, rfl, rfl⟩

end Token

theorem Laid.length_le {s : List Char} (h : Laid x s) : x.length ≤ s.length := by
  induction h with
  | ending => exact Nat.zero_le _
  | token fits blank spelled apart rest ih =>
    obtain ⟨c, w, rfl, -⟩ := spelled.begins fits
    simp
    omega

theorem dropWhile_isSpace {b s : List Char} (blank : IsBlank b)
    (solid : ∀ c ∈ s.head?, isSpace c = false) : (b ++ s).dropWhile isSpace = s :=
  dropWhile_append_stop blank solid

theorem isBlank_nil : IsBlank [] := by
  simp [IsBlank]

theorem IsEnding.dropWhile {s : List Char} (h : IsEnding s) :
    s.dropWhile isSpace = [] ∨ ∃ b, IsBlank b ∧ s.dropWhile isSpace = ';' :: b := by
  obtain blank | ⟨b, b', blank, blank', rfl⟩ := h
  · exact .inl (by simpa using dropWhile_isSpace (s := []) blank (by simp))
  · exact .inr ⟨b', blank', dropWhile_isSpace blank (by simp [isSpace])⟩

theorem takes_lexeme {p : Reader α} {t : Token}
    (h : ∀ w r, t.Fits → t.Spells w → Apart r → p (w ++ r) = some (a, r)) :
    Takes (lexeme p) a (t :: x) x := by
  intro s hs
  cases hs with
  | @token _ _ b w r fits blank spelled apart rest =>
    obtain ⟨c, w', rfl, -, solid⟩ := spelled.begins fits
    refine ⟨r, ?_, rest, by simp; omega⟩
    change p ((b ++ (c :: w' ++ r)).dropWhile isSpace) = _
    rw [dropWhile_isSpace blank (by simpa using solid)]
    exact h _ _ fits spelled apart

theorem fails_lexeme_token {p : Reader α} {t : Token}
    (h : ∀ w r, t.Fits → t.Spells w → Apart r → p (w ++ r) = none) :
    Fails (lexeme p) (t :: x) := by
  intro s hs
  cases hs with
  | @token _ _ b w r fits blank spelled apart rest =>
    obtain ⟨c, w', rfl, -, solid⟩ := spelled.begins fits
    change p ((b ++ (c :: w' ++ r)).dropWhile isSpace) = _
    rw [dropWhile_isSpace blank (by simpa using solid)]
    exact h _ _ fits spelled apart

theorem fails_lexeme {p : Reader α} (empty : p [] = none)
    (h : ∀ c r, Kind.ofChar c = headKind x → p (c :: r) = none) : Fails (lexeme p) x := by
  cases x with
  | nil =>
    intro s hs
    cases hs with
    | ending ends =>
      change p (s.dropWhile isSpace) = none
      obtain gone | ⟨b, -, stop⟩ := ends.dropWhile
      · rw [gone, empty]
      · rw [stop, h _ _ rfl]
  | cons t x =>
    refine fails_lexeme_token fun w r fits spelled _ => ?_
    obtain ⟨c, w', rfl, begins, -⟩ := spelled.begins fits
    exact h _ _ begins

theorem takes_skipSpace : Takes skipSpace () x x := by
  intro s hs
  refine ⟨s.dropWhile isSpace, rfl, ?_, Nat.add_le_add_right (List.dropWhile_sublist _).length_le _⟩
  cases hs with
  | ending ends =>
    obtain gone | ⟨b, blank, stop⟩ := ends.dropWhile
    · rw [gone]
      exact .ending (.inl isBlank_nil)
    · rw [stop]
      exact .ending (.inr ⟨[], b, isBlank_nil, blank, rfl⟩)
  | @token _ _ b w r fits blank spelled apart rest =>
    obtain ⟨c, w', rfl, -, solid⟩ := spelled.begins fits
    rw [dropWhile_isSpace blank (by simpa using solid)]
    exact .token fits isBlank_nil spelled apart rest

/-- What is made of the text may depend on it only as far as `f` lets it. -/
theorem takes_withText {p : Reader α} {f : α × List Char → Reader β} (hp : Takes p a x y)
    (hf : ∀ text, Takes (f (a, text)) b y z) : Takes (withText p >>= f) b x z := by
  intro s hs
  obtain ⟨r, hr, ly, short⟩ := hp s hs
  obtain ⟨t, ht, lz, shorter⟩ := hf (s.take (s.length - r.length)) r ly
  refine ⟨t, ?_, lz, by omega⟩
  rw [bind_apply, withText, hr]
  exact ht

end SearchSelect.Sql
