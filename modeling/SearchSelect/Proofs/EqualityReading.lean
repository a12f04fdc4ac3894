import Mathlib.Data.List.DropRight
import SearchSelect.Proofs.FilterSyntax
import SearchSelect.Proofs.PredicateClauses

/-! Equalities between bare names and texts, one blank between their words, and their conjunctions
and disjunctions. The tokens of a layout know names between backticks only, and the name of a
collection between quotes, so here the readers are followed on the characters. -/

namespace SearchSelect.Sql

open Text Shorthand
open SearchSelect.Filter (Joint)

variable {α β : Type} {a : α} {b : β} {s t r : List Char}

/-! ## Readers step by step -/

section Steps

variable {p q : Reader α} {f : α → Reader β}

theorem bind_reads (first : p s = some (a, t)) : (p >>= f) s = f a t := by
  rw [bind_apply, first]
  rfl

theorem bind_refuses (first : p s = none) : (p >>= f) s = none := by
  rw [bind_apply, first]
  rfl

theorem orElse_reads (first : p s = some (a, t)) : (p <|> q) s = some (a, t) := by
  rw [orElse_apply, first]
  rfl

theorem orElse_refuses (first : p s = none) : (p <|> q) s = q s := by
  rw [orElse_apply, first]
  rfl

theorem map_reads {g : α → β} (read : p s = some (a, t)) : (g <$> p) s = some (g a, t) := by
  rw [map_eq_pure_bind, bind_reads read]
  rfl

theorem map_refuses {g : α → β} (read : p s = none) : (g <$> p) s = none := by
  rw [map_eq_pure_bind, bind_refuses read]

theorem optional_reads (read : p s = some (a, t)) : optional p s = some (some a, t) :=
  orElse_reads (map_reads read)

theorem optional_refuses (read : p s = none) : optional p s = some (none, s) :=
  orElse_refuses (map_refuses read)

theorem lexeme_blank (p : Reader α) (s : List Char) : lexeme p (' ' :: s) = lexeme p s := rfl

theorem lexeme_dropWhile (p : Reader α) (s : List Char) :
    lexeme p (s.dropWhile isSpace) = lexeme p s :=
  congrArg p (List.dropWhile_idempotent isSpace s)

theorem keyword_of_no_word {k : String} (none : headWord (s.dropWhile isSpace) = "")
    (known : k ∈ keywords) : keyword k s = .none := by
  refine if_neg fun word : headWord (s.dropWhile isSpace) = k => ?_
  exact absurd (none ▸ word ▸ known) (by decide)

theorem many_refuses (stop : p s = none) : many p s = some ([], s) := by
  rw [many, manyFrom, stop]

section Repetition

variable {u : β → List Char} {q : List Char → Prop} {bs : List β}

theorem follow_flatMap (follow : ∀ b ∈ bs, ∀ t, q (u b ++ t)) (ends : q r) :
    q (bs.flatMap u ++ r) := by
  cases bs with
  | nil => exact ends
  | cons b bs =>
    rw [List.flatMap_cons, List.append_assoc]
    exact follow b (by simp) _

/-- Repetition over texts that are written one after another. `q` is what has to follow each. -/
theorem many_reads {g : β → α}
    (read : ∀ b ∈ bs, ∀ t, q t → p (u b ++ t) = some (g b, t)) (filled : ∀ b ∈ bs, u b ≠ [])
    (follow : ∀ b ∈ bs, ∀ t, q (u b ++ t)) (ends : q r) (stop : p r = none) :
    many p (bs.flatMap u ++ r) = some (bs.map g, r) := by
  induction bs with
  | nil => exact many_refuses stop
  | cons b bs ih =>
    have others : ∀ c ∈ bs, ∀ t, q (u c ++ t) := fun c hc => follow c (by simp [hc])
    have rest := ih (fun c hc => read c (by simp [hc])) (fun c hc => filled c (by simp [hc])) others
    have first := read b (by simp) _ (follow_flatMap others ends)
    have fewer : (bs.flatMap u ++ r).length < (u b ++ (bs.flatMap u ++ r)).length := by
      have := List.length_pos_iff.mpr (filled b (by simp))
      simp only [List.length_append]
      omega
    have rest : manyFrom p (bs.flatMap u ++ r) = (bs.map g, r) := by simpa [many] using rest
    rw [List.flatMap_cons, List.append_assoc, many, manyFrom, first]
    simp only [if_pos fewer, rest, List.map_cons]

end Repetition

end Steps

/-! ## Bare names -/

theorem takeWhile_append_of_stop {p : Char → Bool} (w : List Char)
    (stop : ∀ c ∈ r.head?, p c = false) : (w ++ r).takeWhile p = w.takeWhile p := by
  induction w with
  | nil => exact takeWhile_append_stop (w := []) (by simp) stop
  | cons c w ih => rw [List.cons_append, List.takeWhile_cons, List.takeWhile_cons, ih]

theorem isWordChar_of_isNameStart {c : Char} (start : isNameStart c) : isWordChar c := by
  obtain alpha | rfl : c.isAlpha ∨ c = '_' := by simpa [isNameStart] using start
  · exact isWordChar_of_isAlpha alpha
  · rfl

/-- Where a word begins, no sign is read. -/
theorem symbol_refuses {k : String} {c : Char} (word : isWordChar c)
    (sign : k.toList.head?.any fun d => !isWordChar d) : symbol k (c :: r) = none := by
  obtain ⟨d, hd, other⟩ := Option.any_eq_true _ _ |>.mp sign
  obtain ⟨ds, hk⟩ : ∃ ds, k.toList = d :: ds := List.head?_eq_some_iff.mp hd
  rw [symbol, lexeme_solid _ (by simpa using not_isSpace_of_isWordChar word)]
  refine literal_none ?_
  rintro ⟨u, hu⟩
  rw [hk] at hu
  obtain rfl : d = c := (List.cons.inj hu).1
  simp [word] at other

/-- Without a parenthesis in front only a predicate is left. -/
theorem primary_unopened {inner : Reader (Meaning Condition)} (unopened : symbol "(" s = none) :
    primary inner s = predicate s := by
  have enclosed : (symbol "(" *> inner) s = none := bind_refuses unopened
  refine orElse_refuses ?_
  rw [seqLeft_apply, enclosed]
  rfl

/-- The grammar reads the whole text as a name without backticks. -/
def IsBareName (f : String) : Prop :=
  bareName f.toList = some (f, [])

instance : DecidablePred IsBareName := fun f =>
  inferInstanceAs (Decidable ((bareName f.toList : Option (String × List Char)) = some (f, [])))

/-- What follows a bare name ends it. -/
def EndsName (r : List Char) : Prop :=
  ∀ c ∈ r.head?, isNameChar c = false

namespace IsBareName

variable {f : String}

theorem spelling (bare : IsBareName f) : ∃ c cs, f.toList = c :: cs ∧ isNameStart c ∧
    (∀ d ∈ cs, isNameChar d) ∧ startsWithKeyword (c :: cs) = false := by
  unfold IsBareName at bare
  cases hs : f.toList with
  | nil => rw [hs] at bare; cases bare
  | cons c cs =>
    rw [hs, bareName, bind_apply, notKeyword] at bare
    cases reserved : startsWithKeyword (c :: cs) with
    | true => simp [reserved] at bare
    | false =>
      rw [if_neg (by simp [reserved]), Option.bind_some] at bare
      cases start : isNameStart c with
      | false =>
        rw [bind_refuses (charIf_none start)] at bare
        cases bare
      | true =>
        rw [bind_reads (charIf_cons start)] at bare
        obtain ⟨-, gone⟩ := Prod.mk.inj (Option.some.inj bare)
        have whole := List.takeWhile_append_dropWhile (p := isNameChar) (l := cs)
        rw [gone, List.append_nil] at whole
        refine ⟨c, cs, rfl, start, fun d hd => ?_, reserved⟩
        exact List.mem_takeWhile_imp (whole ▸ hd)

theorem chars (bare : IsBareName f) : ∀ c ∈ f.toList, isNameChar c := by
  obtain ⟨c, cs, hf, start, chars, -⟩ := bare.spelling
  rw [hf, List.forall_mem_cons]
  refine ⟨?_, chars⟩
  rw [isNameChar, isWordChar_of_isNameStart start, Bool.true_or]

theorem not_mem (bare : IsBareName f) {c : Char} (other : isNameChar c = false) :
    c ∉ f.toList := by
  intro mem
  rw [bare.chars c mem] at other
  cases other

/-- The word at the head of a bare name is no keyword, whatever follows the name. -/
theorem headWord_append (bare : IsBareName f) (ends : EndsName r) :
    headWord (f.toList ++ r) ∉ keywords := by
  obtain ⟨c, cs, hf, -, -, unreserved⟩ := bare.spelling
  have stop : ∀ d ∈ r.head?, isWordChar d = false := fun d hd =>
    ((Bool.or_eq_false_iff).mp (ends d hd)).1
  rw [headWord, takeWhile_append_of_stop _ stop, hf]
  simpa [startsWithKeyword, headWord] using unreserved

theorem solid (bare : IsBareName f) (r : List Char) :
    ∀ c ∈ (f.toList ++ r).head?, isSpace c = false := by
  obtain ⟨c, cs, hf, start, -⟩ := bare.spelling
  simpa [hf] using not_isSpace_of_isWordChar (isWordChar_of_isNameStart start)

theorem keyword_refuses {k : String} (bare : IsBareName f) (ends : EndsName r)
    (known : k ∈ keywords) : keyword k (f.toList ++ r) = none := by
  rw [keyword, lexeme_solid _ (bare.solid r)]
  exact if_neg fun word : headWord (f.toList ++ r) = k => bare.headWord_append ends (word ▸ known)

theorem name_reads (bare : IsBareName f) (ends : EndsName r) :
    name (f.toList ++ r) = some (f, r) := by
  have solid := bare.solid r
  have word := bare.headWord_append ends
  obtain ⟨c, cs, hf, start, chars, -⟩ := bare.spelling
  rw [hf, List.cons_append] at solid word
  have unquoted : c ≠ backtick := by
    rintro rfl
    exact absurd start (by decide)
  have free : notKeyword (c :: (cs ++ r)) = some ((), c :: (cs ++ r)) :=
    if_neg (by simpa [startsWithKeyword] using word)
  rw [hf, List.cons_append, name, lexeme_solid _ solid, orElse_refuses (quotedName_none unquoted),
    bareName, bind_reads free, bind_reads (charIf_cons start), bind_reads (run_append chars ends),
    ← hf]
  exact congrArg (fun f => some (f, r)) String.ofList_toList

theorem factor_reads {m : Meaning Condition} (bare : IsBareName f) (ends : EndsName r)
    (inner : Reader (Meaning Condition)) (read : predicate (f.toList ++ r) = some (m, t)) :
    factor inner (' ' :: (f.toList ++ r)) = some (m, t) := by
  have positive : keyword "not" (' ' :: (f.toList ++ r)) = none :=
    bare.keyword_refuses ends (by decide)
  have unopened : symbol "(" (' ' :: (f.toList ++ r)) = none := by
    obtain ⟨c, cs, hf, start, -⟩ := bare.spelling
    rw [symbol, lexeme_blank, hf]
    exact symbol_refuses (isWordChar_of_isNameStart start) (by decide)
  have blank : predicate (' ' :: (f.toList ++ r)) = predicate (f.toList ++ r) := rfl
  rw [factor, bind_reads (many_refuses positive), bind_apply, primary_unopened unopened,
    blank, read]
  rfl

end IsBareName

/-! ## Literals -/

/-- Before anything else than a word character only the keyword itself is read. -/
theorem keyword_word {k : String} {w : List Char} (k' : String) (known : k ∈ keywords)
    (spelled : (Token.word k).Spells w) (stop : ∀ c ∈ r.head?, isWordChar c = false) :
    keyword k' (w ++ r) = if k = k' then some ((), r) else none := by
  have fits : (Token.word k).Fits := known
  have all : ∀ c ∈ w, isWordChar c := fun c hc =>
    isWordChar_of_isAlpha (Token.Spells.isAlpha known spelled c hc)
  obtain ⟨d, w', rfl, -, solid⟩ := spelled.begins fits
  rw [keyword, lexeme_solid _ (by simpa using solid), headWord_word known spelled stop,
    dropWhile_append_stop all stop]

/-- A literal as it is written in a statement. -/
def Literal.written : Literal → List Char
  | .text s => '\x27' :: (doubleQuotes s.toList ++ ['\x27'])
  | .number spelling => spelling.toList
  | .flag b => if b then "TRUE".toList else "FALSE".toList
  | .null => "NULL".toList

/-- What follows a literal ends it. -/
def EndsLiteral (r : List Char) : Prop :=
  ∀ c ∈ r.head?, isWordChar c = false ∧ c ≠ '.' ∧ c ≠ '\x27'

namespace EndsLiteral

theorem of_apart (apart : Apart r) : EndsLiteral r := by
  intro c hc
  refine ⟨not_isWordChar_of_apart apart c hc, ?_, ?_⟩ <;> rintro rfl <;>
    exact absurd (apart _ hc) (by decide)

theorem word (ends : EndsLiteral r) : ∀ c ∈ r.head?, isWordChar c = false :=
  fun c hc => (ends c hc).1

theorem foreign (ends : EndsLiteral r) : Foreign r := by
  intro c hc
  obtain ⟨word, dot, -⟩ := ends c hc
  refine ⟨Bool.eq_false_iff.mpr fun digit => ?_, dot, ?_, ?_⟩
  · rw [isWordChar_of_isDigit digit] at word
    cases word
  · rintro rfl
    exact absurd word (by decide)
  · rintro rfl
    exact absurd word (by decide)

end EndsLiteral

theorem string_reads (v : String) (stop : '\x27' ∉ r.head?) :
    string ('\x27' :: (doubleQuotes v.toList ++ '\x27' :: r)) = some (v, r) := by
  have first : char '\x27' ('\x27' :: (doubleQuotes v.toList ++ '\x27' :: r)) =
      some ('\x27', doubleQuotes v.toList ++ '\x27' :: r) := char_cons _ _
  rw [string, lexeme_solid _ (by simp [isSpace]), bind_reads first,
    bind_reads (stringRest_append _ stop)]
  exact congrArg (fun v => some (v, r)) String.ofList_toList

theorem string_refuses_number {n : List Char} (h : IsNumber n) (r : List Char) :
    string (n ++ r) = none := by
  have fits : (Token.number (String.ofList n)).Fits := by rwa [Token.Fits, String.toList_ofList]
  have spelled : (Token.number (String.ofList n)).Spells n := String.toList_ofList.symm
  obtain ⟨c, w, rfl, heads, solid⟩ := spelled.begins fits
  have unquoted : c ≠ '\x27' := by
    rintro rfl
    cases heads
  rw [string, lexeme_solid _ (by simpa using solid)]
  exact bind_refuses (charIf_none (by simpa using unquoted))

/-- A literal that is a word of its own, before the literals that are tried after it. -/
theorem word_or {k k' : String} {w : List Char} (l : Literal) (q : Reader Literal)
    (known : k ∈ keywords) (spelled : (Token.word k).Spells w)
    (stop : ∀ c ∈ r.head?, isWordChar c = false) :
    (keyword k' *> pure l <|> q) (w ++ r) = if k = k' then some (l, r) else q (w ++ r) := by
  have word := keyword_word k' known spelled stop
  split at word
  · next same => exact (orElse_reads (bind_reads word)).trans (if_pos same).symm
  · next other => exact (orElse_refuses (bind_refuses word)).trans (if_neg other).symm

theorem literalValue_reads {l : Literal} (ok : l.WellFormed) (ends : EndsLiteral r) :
    literalValue (l.written ++ r) = some (l, r) := by
  cases l with
  | text v =>
    have stop : '\x27' ∉ r.head? := fun quote => (ends _ quote).2.2 rfl
    rw [Literal.written, List.cons_append, List.append_assoc]
    exact orElse_reads (map_reads (string_reads v stop))
  | number spelling =>
    have read := number_append ok ends.foreign
    rw [String.ofList_toList] at read
    rw [literalValue, Literal.written, orElse_refuses (map_refuses (string_refuses_number ok r))]
    exact orElse_reads (map_reads read)
  | flag b =>
    cases b with
    | true =>
      have spelled : (Token.word "true").Spells "TRUE".toList := rfl
      rw [Literal.written, if_pos rfl, literalValue, orElse_refuses (map_refuses rfl),
        orElse_refuses (map_refuses rfl), word_or _ _ (by decide) spelled ends.word, if_pos rfl]
    | false =>
      have spelled : (Token.word "false").Spells "FALSE".toList := rfl
      rw [Literal.written, if_neg (by decide), literalValue, orElse_refuses (map_refuses rfl),
        orElse_refuses (map_refuses rfl), word_or _ _ (by decide) spelled ends.word,
        if_neg (by decide), word_or _ _ (by decide) spelled ends.word, if_pos rfl]
  | null =>
    have spelled : (Token.word "null").Spells "NULL".toList := rfl
    have read := (keyword_word "null" (by decide) spelled ends.word).trans (if_pos rfl)
    rw [Literal.written, literalValue, orElse_refuses (map_refuses rfl),
      orElse_refuses (map_refuses rfl), word_or _ _ (by decide) spelled ends.word,
      if_neg (by decide), word_or _ _ (by decide) spelled ends.word, if_neg (by decide)]
    exact bind_reads read

/-! ## Equalities -/

/-- An equality with a literal. With NULL it asks whether there is no value. -/
def equalTo (column : String) : Literal → Condition
  | .null => .isNull column false
  | l => .compare column .eq l

theorem comparisonMeaning_eq (column : String) (l : Literal) (text : String) :
    comparisonMeaning column .eq l text = .ok (equalTo column l) := by
  cases l <;> rfl

structure Equality where
  column : String
  value : String
  deriving DecidableEq, Repr

namespace Equality

def text (e : Equality) : List Char :=
  e.column.toList ++ ' ' :: '=' :: ' ' :: '\x27' :: (doubleQuotes e.value.toList ++ ['\x27'])

def condition (e : Equality) : Condition :=
  .equals e.column e.value

end Equality

/-- A test with a keyword of its own refuses a name that the keyword does not follow. -/
theorem test_refuses {k f : String} {g : String → Bool → Reader α} (named : name s = some (f, t))
    (positive : keyword "not" t = none) (other : keyword k t = none) :
    (do let c ← name; let n ← negation; keyword k; g c n : Reader α) s = none := by
  have plain : negation t = some (false, t) := (orElse_refuses (bind_refuses positive)).trans rfl
  rw [bind_reads named, bind_reads plain, bind_refuses other]

/-- Every predicate begins with a name. -/
theorem predicate_refuses (unnamed : name s = none) : predicate s = none := by
  have start : skipSpace s = some ((), s.dropWhile isSpace) := rfl
  have still : name (s.dropWhile isSpace) = none := (lexeme_dropWhile _ s).trans unnamed
  have sides : comparison s = none := by
    rw [comparison, bind_reads start]
    refine bind_refuses ?_
    rw [withText, bind_refuses still]
  rw [predicate, rangeTest, membership, nullTest, likeTest,
    orElse_refuses (map_refuses (bind_refuses unnamed)),
    orElse_refuses (map_refuses (bind_refuses unnamed)),
    orElse_refuses (map_refuses (bind_refuses unnamed)),
    orElse_refuses (map_refuses (bind_refuses unnamed)), sides]

section Equality

variable {f : String} {l : Literal} {v : List Char} (bare : IsBareName f)
include bare

theorem comparison_reads (value : literalValue v = some (l, r)) :
    comparison (f.toList ++ ' ' :: '=' :: v) = some (.ok (equalTo f l), r) := by
  have named : name (f.toList ++ ' ' :: '=' :: v) = some (f, ' ' :: '=' :: v) :=
    bare.name_reads (by simp [EndsName, isNameChar, isWordChar])
  have op : comparator (' ' :: '=' :: v) = some (.eq, v) := rfl
  have sides : (do let c ← name; let op ← comparator; let v ← literalValue; return (c, op, v) :
      Reader (String × Comparator × Literal)) (f.toList ++ ' ' :: '=' :: v) =
      some ((f, .eq, l), r) := by
    rw [bind_reads named, bind_reads op, bind_reads value]
    rfl
  have start : skipSpace (f.toList ++ ' ' :: '=' :: v) = some ((), f.toList ++ ' ' :: '=' :: v) :=
    congrArg (fun s => some ((), s)) (dropWhile_isSpace isBlank_nil (bare.solid _))
  rw [comparison, bind_reads start, bind_apply, withText, sides]
  exact congrArg (fun m => some (m, r)) (comparisonMeaning_eq f l _)

theorem predicate_reads (value : literalValue v = some (l, r)) :
    predicate (f.toList ++ ' ' :: '=' :: v) = some (.ok (equalTo f l), r) := by
  have named : name (f.toList ++ ' ' :: '=' :: v) = some (f, ' ' :: '=' :: v) :=
    bare.name_reads (by simp [EndsName, isNameChar, isWordChar])
  have free {k : String} (known : k ∈ keywords) : keyword k (' ' :: '=' :: v) = none :=
    keyword_of_no_word rfl known
  -- the other tests come first in the grammar, and each needs a keyword behind the name
  have test {k : String} {g : String → Bool → Reader Condition} (known : k ∈ keywords) :=
    test_refuses (g := g) named (free (by decide)) (free known)
  have range : rangeTest (f.toList ++ ' ' :: '=' :: v) = none := test (by decide)
  have membership : membership (f.toList ++ ' ' :: '=' :: v) = none := test (by decide)
  have null : nullTest (f.toList ++ ' ' :: '=' :: v) = none := by
    rw [nullTest, bind_reads named, bind_refuses (free (by decide))]
  have like : likeTest (f.toList ++ ' ' :: '=' :: v) = none := test (by decide)
  rw [predicate, orElse_refuses (map_refuses range), orElse_refuses (map_refuses membership),
    orElse_refuses (map_refuses null), orElse_refuses (map_refuses like),
    comparison_reads bare value]

theorem factor_equalTo (ok : l.WellFormed) (inner : Reader (Meaning Condition))
    (ends : EndsLiteral r) :
    factor inner (' ' :: (f.toList ++ ' ' :: '=' :: ' ' :: (l.written ++ r))) =
      some (.ok (equalTo f l), r) := by
  have value : literalValue (' ' :: (l.written ++ r)) = some (l, r) := literalValue_reads ok ends
  exact bare.factor_reads (by simp [EndsName, isNameChar, isWordChar]) inner
    (predicate_reads bare value)

end Equality

theorem factor_equality {e : Equality} (bare : IsBareName e.column)
    (inner : Reader (Meaning Condition)) (apart : Apart r) :
    factor inner (' ' :: (e.text ++ r)) = some (.ok e.condition, r) := by
  have read := factor_equalTo (l := .text e.value) bare trivial inner (.of_apart apart)
  have text : e.text ++ r = e.column.toList ++ ' ' :: '=' :: ' ' ::
      ((Literal.text e.value).written ++ r) := by simp [Equality.text, Literal.written]
  rw [text]
  exact read

/-! ## Conjunctions and disjunctions -/

/-- A part that stands alone is not wrapped. -/
def joinOf (join : List Condition → Condition) : List Condition → Condition
  | [c] => c
  | cs => join cs

theorem joined_ok (join : List Condition → Condition) (cs : List Condition) :
    joined join (cs.map .ok) = .ok (joinOf join cs) := by
  rw [joined, mapM_id_ok]
  cases cs with
  | nil => rfl
  | cons c cs => cases cs <;> rfl

theorem intercalate_eq_flatMap (w x : List Char) (xs : List (List Char)) :
    w.intercalate (x :: xs) = x ++ xs.flatMap fun y => w ++ y := by
  induction xs generalizing x with
  | nil => simp
  | cons y ys ih =>
    rw [List.intercalate_cons_of_ne_nil (by simp), ih, List.flatMap_cons, List.append_assoc,
      List.append_assoc]

/-- The blank behind a joining word is read in front of the next part. -/
theorem intercalate_blank (w x : List Char) (xs : List (List Char)) :
    ' ' :: (' ' :: (w ++ [' '])).intercalate (x :: xs) =
      ' ' :: (x ++ xs.flatMap fun x => ' ' :: (w ++ ' ' :: x)) := by
  simp [intercalate_eq_flatMap]

section Join

variable {item : Reader (Meaning Condition)} {k : String} {w : List Char}
  {u : β → List Char} {c : β → Condition} {q : List Char → Prop}

/-- Parts joined by a keyword, each behind a blank. `q` is what has to follow a part. -/
theorem join_reads (join : List Condition → Condition) {b : β} {bs : List β} (known : k ∈ keywords)
    (spelled : (Token.word k).Spells w)
    (read : ∀ a ∈ b :: bs, ∀ t, q t → item (' ' :: (u a ++ t)) = some (.ok (c a), t))
    (follow : ∀ t, q (' ' :: (w ++ ' ' :: t))) (ends : q r) (stop : keyword k r = none) :
    (joined join <$> sepBy1 (keyword k) item)
        (' ' :: ((' ' :: (w ++ [' '])).intercalate ((b :: bs).map u) ++ r)) =
      some (.ok (joinOf join ((b :: bs).map c)), r) := by
  have shape : ' ' :: ((' ' :: (w ++ [' '])).intercalate ((b :: bs).map u) ++ r) =
      ' ' :: (u b ++ (bs.flatMap (fun a => ' ' :: (w ++ ' ' :: u a)) ++ r)) := by
    rw [← List.cons_append, List.map_cons, intercalate_blank, List.flatMap_map, List.cons_append,
      List.append_assoc]
  have again : ∀ a ∈ bs, ∀ t, q (' ' :: (w ++ ' ' :: u a) ++ t) := fun a _ t => by
    simpa using follow (u a ++ t)
  have first := read b (by simp) _ (follow_flatMap again ends)
  have each : ∀ a ∈ bs, ∀ t, q t →
      (keyword k *> item) (' ' :: (w ++ ' ' :: u a) ++ t) = some (.ok (c a), t) := by
    intro a ha t next
    have word : keyword k (' ' :: (w ++ ' ' :: (u a ++ t))) = some ((), ' ' :: (u a ++ t)) :=
      (keyword_word k known spelled (by simp [isWordChar])).trans (if_pos rfl)
    rw [List.cons_append, List.append_assoc, List.cons_append]
    exact (bind_reads word).trans (read a (by simp [ha]) t next)
  have rest := many_reads each (by simp) again ends (bind_refuses stop)
  have whole : sepBy1 (keyword k) item (' ' :: (u b ++ (bs.flatMap (fun a =>
      ' ' :: (w ++ ' ' :: u a)) ++ r))) = some (((b :: bs).map c).map .ok, r) := by
    rw [sepBy1, bind_reads first, bind_reads rest, List.map_map]
    rfl
  rw [shape, map_reads whole, joined_ok]

end Join

section Chain

variable {inner : Reader (Meaning Condition)} {u : β → List Char} {c : β → Condition}

/-- Predicates joined by AND. -/
theorem conjunction_reads {bs : List β} (some : bs ≠ [])
    (read : ∀ b ∈ bs, ∀ t, Apart t → factor inner (' ' :: (u b ++ t)) = .some (.ok (c b), t))
    (apart : Apart r) (stop : keyword "and" r = none) :
    conjunction inner (' ' :: (Joint.and.text.intercalate (bs.map u) ++ r)) =
      .some (.ok (joinOf .all (bs.map c)), r) := by
  obtain ⟨b, bs, rfl⟩ := List.exists_cons_of_ne_nil some
  exact join_reads (w := "AND".toList) .all (by decide) rfl read
    (fun _ => by simp [Apart, isSpace]) apart stop

/-- Conjunctions joined by OR. -/
theorem disjunction_reads {gs : List (List β)} (some : gs ≠ []) (filled : ∀ g ∈ gs, g ≠ [])
    (read : ∀ g ∈ gs, ∀ b ∈ g, ∀ t, Apart t →
      factor inner (' ' :: (u b ++ t)) = .some (.ok (c b), t)) :
    disjunction inner
        (' ' :: Joint.or.text.intercalate (gs.map fun g => Joint.and.text.intercalate (g.map u))) =
      .some (.ok (joinOf .any (gs.map fun g => joinOf .all (g.map c))), []) := by
  obtain ⟨g, gs, rfl⟩ := List.exists_cons_of_ne_nil some
  have nothing : ∀ k ∈ keywords, keyword k [] = none := fun _ => keyword_of_no_word rfl
  have spelled : (Token.word "or").Spells "OR".toList := rfl
  have other : ∀ t, keyword "and" (' ' :: ("OR".toList ++ ' ' :: t)) = none := fun t =>
    (keyword_word "and" (by decide) spelled (by simp [isWordChar])).trans (if_neg (by decide))
  have whole := join_reads (r := [])
    (q := fun t => Apart t ∧ keyword "and" t = none) .any (by decide) spelled
    (fun g hg _ next => conjunction_reads (filled g hg) (read g hg) next.1 next.2)
    (fun t => ⟨by simp [Apart, isSpace], other t⟩) ⟨by simp [Apart], nothing "and" (by decide)⟩
    (nothing "or" (by decide))
  rw [List.append_nil] at whole
  exact whole

/-- Predicates joined by OR. -/
theorem alternatives_reads {bs : List β} (some : bs ≠ [])
    (read : ∀ b ∈ bs, ∀ t, Apart t → factor inner (' ' :: (u b ++ t)) = .some (.ok (c b), t)) :
    disjunction inner (' ' :: Joint.or.text.intercalate (bs.map u)) =
      .some (.ok (joinOf .any (bs.map c)), []) := by
  have whole : disjunction inner (' ' :: Joint.or.text.intercalate
      ((bs.map fun b => [b]).map fun g => Joint.and.text.intercalate (g.map u))) =
      .some (.ok (joinOf .any ((bs.map fun b => [b]).map fun g => joinOf .all (g.map c))), []) :=
    disjunction_reads (by simpa using some) (by simp) (by simpa using read)
  simpa [joinOf, Function.comp_def] using whole

end Chain

/-- Equalities joined by AND. -/
def conjunctionText (es : List Equality) : List Char :=
  Joint.and.text.intercalate (es.map Equality.text)

def conjunctionOf (es : List Equality) : Condition :=
  joinOf .all (es.map Equality.condition)

/-- Conjunctions joined by OR. -/
def disjunctionText (gs : List (List Equality)) : List Char :=
  Joint.or.text.intercalate (gs.map conjunctionText)

def disjunctionOf (gs : List (List Equality)) : Condition :=
  joinOf .any (gs.map conjunctionOf)

theorem anyCondition_reads {gs : List (List Equality)} (some : gs ≠ [])
    (each : ∀ g ∈ gs, g ≠ [] ∧ ∀ e ∈ g, IsBareName e.column) :
    anyCondition (' ' :: disjunctionText gs) = .some (.ok (disjunctionOf gs), []) :=
  disjunction_reads some (fun g hg => (each g hg).1) fun g hg e he _ apart =>
    factor_equality ((each g hg).2 e he) (condition _) apart

/-! ## Statements -/

/-- All columns under a condition. Up to the collection the text is fixed, so each reader computes on
it whatever follows. -/
theorem ofText?_everything {named rest : List Char} {collection : String} {c : Condition}
    (source : fromClause named = some (collection, rest))
    (filtered : whereClause rest = some (.ok c, [])) :
    Select.ofText? (String.ofList ("SELECT *".toList ++ named)) =
      .ok ⟨.everything, some collection, some c, [], none, none⟩ := by
  have start : keyword "select" ("SELECT *".toList ++ named) = some ((), " *".toList ++ named) := rfl
  have all : projection (" *".toList ++ named) = some (.everything, named) := rfl
  have selected : select ("SELECT *".toList ++ named) =
      some (.ok ⟨.everything, some collection, some c, [], none, none⟩, []) := by
    rw [select, bind_reads start, bind_reads all, bind_reads (optional_reads source),
      bind_reads (optional_reads filtered)]
    rfl
  refine ofText?_of_read ?_
  rw [String.toList_ofList]
  exact readAll?_of_select selected (.inl isBlank_nil)

theorem whereClause_reads {body : List Char} {c : Condition}
    (read : anyCondition (' ' :: body) = some (.ok c, [])) :
    whereClause (" WHERE".toList ++ ' ' :: body) = some (.ok c, []) := by
  have word : keyword "where" (" WHERE".toList ++ ' ' :: body) = some ((), ' ' :: body) := rfl
  exact (bind_reads word).trans read

def whereText (body : List Char) : String :=
  String.ofList ("SELECT * FROM docs WHERE".toList ++ ' ' :: body)

theorem toList_whereText (body : List Char) :
    (whereText body).toList = "SELECT * FROM docs WHERE".toList ++ ' ' :: body :=
  String.toList_ofList

/-- The statement over `docs` with the condition that a text is read as. -/
theorem ofText?_where {body : List Char} {c : Condition}
    (read : anyCondition (' ' :: body) = some (.ok c, [])) :
    Select.ofText? (whereText body) = .ok (Filter.filtered c) := by
  have source : fromClause (" FROM docs WHERE".toList ++ ' ' :: body) =
      some ("docs", " WHERE".toList ++ ' ' :: body) := rfl
  exact ofText?_everything source (whereClause_reads read)

end SearchSelect.Sql
