import SearchSelect.Proofs.WellFormed
import SearchSelect.Proofs.LexemeReading

/-! The canonical tokens of a condition, with parentheses only where the precedence of AND, OR and
NOT needs them, and the reading of these tokens. A condition is read in one of three places; in
each place the reader gives it back from every layout, if it may nest parentheses as deep as there
are opening ones and if what follows does not go on with the same join. -/

namespace SearchSelect.Sql

open Text

/-! ## Tokens -/

def Literal.token : Literal → Token
  | text s => .text s
  | number spelling => .number spelling
  | flag true => .word "true"
  | flag false => .word "false"
  | null => .word "null"

def Comparator.sign : Comparator → String
  | eq => "="
  | ne => "<>"
  | lt => "<"
  | le => "<="
  | gt => ">"
  | ge => ">="

def separated (t : Token) : List (List Token) → List Token
  | [] => []
  | x :: xs => x ++ xs.flatMap (t :: ·)

def nots : Bool → List Token
  | true => [.word "not"]
  | false => []

/-- Where a condition stands: by itself, as a part of an OR, or under an AND or a NOT. -/
inductive Place where
  | whole
  | disjunct
  | conjunct
  deriving DecidableEq, Repr

def enclosed (needed : Bool) (x : List Token) : List Token :=
  if needed then .sign "(" :: (x ++ [.sign ")"]) else x

namespace Condition

mutual

def tokens (place : Place) : Condition → List Token
  | all parts => enclosed (place = .conjunct) (separated (.word "and") (tokensEach .conjunct parts))
  | any parts => enclosed (place ≠ .whole) (separated (.word "or") (tokensEach .disjunct parts))
  | not part => .word "not" :: tokens .conjunct part
  | compare column op value => [.name column, .sign op.sign, value.token]
  | oneOf column values neg =>
    .name column :: (nots neg ++ .word "in" :: .sign "(" ::
      (separated (.sign ",") (values.map fun v => [v.token]) ++ [.sign ")"]))
  | isNull column neg => .name column :: .word "is" :: (nots neg ++ [.word "null"])
  | like column pattern neg =>
    .name column :: (nots neg ++ [.word "like", .text pattern])
  | between column low high neg =>
    .name column :: (nots neg ++ [.word "between", low.token, .word "and", high.token])

def tokensEach (place : Place) : List Condition → List (List Token)
  | [] => []
  | p :: ps => tokens place p :: tokensEach place ps

end

theorem tokensEach_eq_map (place : Place) (ps : List Condition) :
    tokensEach place ps = ps.map (tokens place) := by
  induction ps with
  | nil => rfl
  | cons p ps ih => rw [tokensEach, ih, List.map_cons]

end Condition

variable {α β γ : Type} {x y z : List Token}

/-! ## Literals and comparisons -/

theorem takes_literalValue (l : Literal) : Takes literalValue l (l.token :: x) x := by
  cases l with
  | text s => exact (takes_string.map _).orElse
  | number spelling =>
    exact .otherwise ((fails_string (by rintro ⟨⟩)).map _) (takes_number.map _).orElse
  | flag b =>
    refine .otherwise ((fails_string ?_).map _) (.otherwise ((fails_number ?_).map _) ?_)
    · cases b <;> rintro ⟨⟩
    · cases b <;> rintro ⟨⟩
    · cases b with
      | true => exact ((takes_keyword (by decide)).seqRight (.pure _ _)).orElse
      | false =>
        exact .otherwise (fails_keyword (by decide) (by simp [Literal.token])).seqRight
          ((takes_keyword (by decide)).seqRight (.pure _ _)).orElse
  | null =>
    exact .otherwise ((fails_string (by rintro ⟨⟩)).map _) <| .otherwise ((fails_number (by rintro ⟨⟩)).map _) <|
      .otherwise (fails_keyword (by decide) (by simp [Literal.token])).seqRight <|
      .otherwise (fails_keyword (by decide) (by simp [Literal.token])).seqRight <|
      (takes_keyword (by decide)).seqRight (.pure _ _)

/-- A sign that stands for a comparison, and one that is not the beginning of the next token. -/
theorem takes_sign {s : String} (op : Comparator) :
    Takes (symbol s *> pure op) op (.sign s :: x) x :=
  takes_symbol.seqRight (.pure _ _)

theorem fails_sign {s v : String} (op : Comparator) (known : s ∈ signs)
    (other : ¬ s.toList <+: v.toList) :
    Fails (symbol s *> (pure op : Reader Comparator)) (.sign v :: x) := by
  refine (fails_symbol known fun v' h => ?_).seqRight
  obtain rfl : v = v' := by simpa using h
  exact other

theorem takes_comparator (op : Comparator) : Takes comparator op (.sign op.sign :: x) x := by
  -- Every alternative in front of the one for this sign refuses it.
  cases op <;> repeat first
    | exact takes_sign _
    | exact (takes_sign _).orElse
    | refine .otherwise (fails_sign _ (by decide) (by decide)) ?_

/-! ## Lists -/

section Lists

variable {sep : Reader β} {item : Reader γ} {b : β} {t : Token} {f : α → List Token} {g : α → γ}
  {q : List Token → Prop}

theorem length_lt_cons_append (t : Token) (x y : List Token) : y.length < (t :: (x ++ y)).length := by
  rw [List.length_cons, List.length_append]
  omega

/-- `q` is what the reader of an item asks of the tokens behind it. -/
theorem takes_separated {as : List α} (some : as ≠ []) (hsep : ∀ y, Takes sep b (t :: y) y)
    (each : ∀ a ∈ as, ∀ y, q y → Takes item (g a) (f a ++ y) y) (next : ∀ y, q (t :: y))
    (last : q z) (stop : Fails sep z) :
    Takes (sepBy1 sep item) (as.map g) (separated t (as.map f) ++ z) z := by
  have tail : ∀ as : List α, (∀ a ∈ as, ∀ y, q y → Takes item (g a) (f a ++ y) y) →
      q ((as.map f).flatMap (t :: ·) ++ z) ∧
        Takes (many (sep *> item)) (as.map g) ((as.map f).flatMap (t :: ·) ++ z) z := by
    intro as each
    induction as with
    | nil => exact ⟨last, takes_many_nil stop.seqRight⟩
    | cons a as ih =>
      obtain ⟨follow, rest⟩ := ih fun a ha => each a (by simp [ha])
      have first := (hsep _).seqRight (each a (by simp) _ follow)
      rw [List.map_cons, List.flatMap_cons, List.append_assoc, List.cons_append]
      exact ⟨next _, takes_many_cons first (length_lt_cons_append t (f a) _) rest⟩
  obtain ⟨a, as, rfl⟩ := List.exists_cons_of_ne_nil some
  obtain ⟨follow, rest⟩ := tail as fun a ha => each a (by simp [ha])
  rw [List.map_cons, List.map_cons, separated, List.append_assoc]
  exact takes_sepBy1 (each a (by simp) _ follow) rest

end Lists

/-! ## Predicates -/

section Predicates

variable {column : String} {neg : Bool}

theorem takes_negation (other : x.head? ≠ some (.word "not")) :
    Takes negation neg (nots neg ++ x) x := by
  cases neg with
  | true => exact ((takes_keyword (by decide)).seqRight (.pure _ _)).orElse
  | false => exact .otherwise (fails_keyword (by decide) other).seqRight (.pure _ _)

/-- The tests that begin with a name, a NOT or none and a keyword of their own refuse everything
that goes on differently. -/
theorem fails_test {f : String → Bool → Reader α} {k : String} (column : String) (neg : Bool)
    (known : k ∈ keywords) (other : x.head? ≠ some (.word k))
    (plain : x.head? ≠ some (.word "not")) :
    Fails (do let c ← name; let n ← negation; keyword k; f c n)
      (.name column :: (nots neg ++ x)) :=
  .after takes_name <| .after (takes_negation plain) (fails_keyword known other).bind

theorem takes_test {f : String → Bool → Reader α} {k : String} {a : α} (known : k ∈ keywords)
    (plain : k ≠ "not") (rest : Takes (f column neg) a x y) :
    Takes (do let c ← name; let n ← negation; keyword k; f c n) a
      (.name column :: (nots neg ++ .word k :: x)) y :=
  takes_name.bind <| (takes_negation (by simpa using plain)).bind <| (takes_keyword known).bind rest

theorem takes_rangeTest (low high : Literal) :
    Takes rangeTest (.between column low high neg)
      (.name column :: (nots neg ++ .word "between" :: low.token :: .word "and" :: high.token :: x))
      x :=
  takes_test (by decide) (by decide) <| (takes_literalValue low).bind <|
    (takes_keyword (by decide)).bind <| (takes_literalValue high).bind (.pure _ _)

theorem takes_membership {values : List Literal} (some : values ≠ []) :
    Takes membership (.oneOf column values neg)
      (.name column :: (nots neg ++ .word "in" :: .sign "(" ::
        (separated (.sign ",") (values.map fun v => [v.token]) ++ .sign ")" :: x))) x := by
  have items := takes_separated (f := fun v => [Literal.token v]) (g := id) (q := fun _ => True)
    (z := .sign ")" :: x) some
    (fun y => takes_symbol (s := ",")) (fun v _ y _ => takes_literalValue v) (fun _ => trivial)
    trivial (fails_symbol (by decide) (by rintro v ⟨⟩; decide))
  rw [List.map_id] at items
  exact takes_test (by decide) (by decide) <| takes_symbol.bind <| items.bind <|
    takes_symbol.bind (.pure _ _)

theorem takes_nullTest :
    Takes nullTest (.isNull column neg)
      (.name column :: .word "is" :: (nots neg ++ .word "null" :: x)) x :=
  takes_name.bind <| (takes_keyword (by decide)).bind <| (takes_negation (by simp)).bind <|
    (takes_keyword (by decide)).bind (.pure _ _)

theorem takes_likeTest (pattern : String) :
    Takes likeTest (.like column pattern neg)
      (.name column :: (nots neg ++ .word "like" :: .text pattern :: x)) x :=
  takes_test (by decide) (by decide) <| takes_string.bind (.pure _ _)

theorem comparisonMeaning_ok {value : Literal} (column : String) (op : Comparator) (text : String)
    (some : value ≠ .null) :
    comparisonMeaning column op value text = .ok (.compare column op value) := by
  cases value with
  | null => exact absurd rfl some
  | _ => cases op <;> rfl

theorem takes_comparison {value : Literal} (op : Comparator) (some : value ≠ .null) :
    Takes comparison (.ok (.compare column op value))
      (.name column :: .sign op.sign :: value.token :: x) x := by
  refine takes_skipSpace.bind (takes_withText (a := (column, op, value)) (y := x) ?_ fun text => ?_)
  · exact takes_name.bind <| (takes_comparator op).bind <| (takes_literalValue value).bind
      (.pure _ _)
  · have meaning := comparisonMeaning_ok column op (String.ofList text) some
    rw [← meaning]
    exact .pure _ _

end Predicates

/-! ## Conditions -/

def parens (x : List Token) : Nat :=
  x.count (.sign "(")

namespace Place

/-- The reader of a condition in this place, with `inner` between parentheses. -/
def reader (inner : Reader (Meaning Condition)) : Place → Reader (Meaning Condition)
  | whole => disjunction inner
  | disjunct => conjunction inner
  | conjunct => factor inner

/-- What may follow a condition in this place. -/
def Ends : Place → List Token → Prop
  | whole, y => y.head? ≠ some (.word "and") ∧ y.head? ≠ some (.word "or")
  | disjunct, y => y.head? ≠ some (.word "and")
  | conjunct, _ => True

end Place

/-- In every place the reader gives the condition back, with room for its parentheses. -/
def Readable (c : Condition) : Prop :=
  ∀ (place : Place) (depth : Nat) (y : List Token), parens (c.tokens place) ≤ depth →
    place.Ends y → Takes (place.reader (condition depth)) (.ok c) (c.tokens place ++ y) y

section Conditions

variable {inner : Reader (Meaning Condition)} {m : Meaning Condition} {c : Condition}
  {ps : List Condition}

theorem mapM_id_ok (ps : List Condition) :
    (ps.map Except.ok : List (Meaning Condition)).mapM id = .ok ps := by
  induction ps with
  | nil => rfl
  | cons p ps ih =>
    rw [List.map_cons, List.mapM_cons, ih]
    rfl

theorem joined_single (join : List Condition → Condition) (m : Meaning Condition) :
    joined join [m] = m := by
  cases m <;> rfl

theorem joined_many (join : List Condition → Condition) (many : 2 ≤ ps.length) :
    joined join (ps.map .ok) = .ok (join ps) := by
  rw [joined, mapM_id_ok]
  match ps, many with
  | _ :: _ :: _, _ => rfl

theorem factor_apply (inner : Reader (Meaning Condition)) (s : List Char) :
    factor inner s = (primary inner (manyFrom (keyword "not") s).2).map fun r =>
      (negations (manyFrom (keyword "not") s).1.length r.1, r.2) := by
  rw [factor, bind_apply, many, Option.bind_some, bind_apply]
  cases primary inner (manyFrom (keyword "not") s).2 <;> rfl

theorem takes_factor_not (hc : Takes (factor inner) (.ok c) x y) :
    Takes (factor inner) (.ok (.not c)) (.word "not" :: x) y := by
  intro s hs
  obtain ⟨r, hr, lx, short⟩ := takes_keyword (k := "not") (by decide) s hs
  obtain ⟨t, ht, ly, shorter⟩ := hc r lx
  have fewer : r.length < s.length := by
    rw [List.length_cons] at short
    omega
  have nots : manyFrom (keyword "not") s =
      (() :: (manyFrom (keyword "not") r).1, (manyFrom (keyword "not") r).2) := by
    rw [manyFrom, hr]
    simp only [if_pos fewer]
  rw [factor_apply] at ht
  obtain ⟨⟨m, u⟩, hm, hu⟩ := Option.map_eq_some_iff.mp ht
  obtain ⟨meaning, rfl⟩ := Prod.mk.inj hu
  have less : u.length + (x.length + 1) ≤ s.length + y.length := by
    simp only [List.length_cons] at short shorter
    omega
  refine ⟨u, ?_, ly, less⟩
  rw [factor_apply, nots, hm, Option.map_some, List.length_cons, negations, meaning]
  rfl

theorem takes_factor (plain : x.head? ≠ some (.word "not")) (hm : Takes (primary inner) m x y) :
    Takes (factor inner) m x y :=
  (takes_many_nil (fails_keyword (by decide) plain)).bind (hm.bind (.pure _ _))

theorem takes_conjunction (hm : Takes (factor inner) m x y) (ends : Place.disjunct.Ends y) :
    Takes (conjunction inner) m x y := by
  have one := takes_sepBy1 hm (takes_many_nil (fails_keyword (by decide) ends).seqRight)
  rw [← joined_single .all m]
  exact one.map _

theorem takes_disjunction (hm : Takes (conjunction inner) m x y) (ends : Place.whole.Ends y) :
    Takes (disjunction inner) m x y := by
  have one := takes_sepBy1 hm (takes_many_nil (fails_keyword (by decide) ends.2).seqRight)
  rw [← joined_single .any m]
  exact one.map _

theorem takes_place {place : Place} (hm : Takes (factor inner) m x y) (ends : place.Ends y) :
    Takes (place.reader inner) m x y := by
  cases place with
  | conjunct => exact hm
  | disjunct => exact takes_conjunction hm ends
  | whole => exact takes_disjunction (takes_conjunction hm ends.1) ends

theorem takes_predicate (h : c.isPredicate) (ok : c.Spelled) (place : Place) :
    Takes predicate (.ok c) (c.tokens place ++ x) x := by
  cases c with
  | between column low high neg =>
    have shape : Condition.tokens place (.between column low high neg) ++ x =
        .name column :: (nots neg ++ .word "between" :: low.token :: .word "and" :: high.token :: x)
        := by simp [Condition.tokens]
    rw [shape]
    exact ((takes_rangeTest low high).map _).orElse
  | oneOf column values neg =>
    have shape : Condition.tokens place (.oneOf column values neg) ++ x =
        .name column :: (nots neg ++ .word "in" :: .sign "(" ::
          (separated (.sign ",") (values.map fun v => [v.token]) ++ .sign ")" :: x)) := by
      simp [Condition.tokens]
    rw [shape]
    exact .otherwise ((fails_test _ _ (by decide) (by simp) (by simp)).map _)
      ((takes_membership ok.2.1).map _).orElse
  | isNull column neg =>
    have shape : Condition.tokens place (.isNull column neg) ++ x =
        .name column :: .word "is" :: (nots neg ++ .word "null" :: x) := by
      simp [Condition.tokens]
    rw [shape]
    exact .otherwise ((fails_test _ false (by decide) (by simp) (by simp)).map _) <|
      .otherwise ((fails_test _ false (by decide) (by simp) (by simp)).map _) <|
      (takes_nullTest.map _).orElse
  | like column pattern neg =>
    have shape : Condition.tokens place (.like column pattern neg) ++ x =
        .name column :: (nots neg ++ .word "like" :: .text pattern :: x) := by
      simp [Condition.tokens]
    have noNullTest : Fails nullTest
        (.name column :: (nots neg ++ .word "like" :: .text pattern :: x)) := by
      refine .after takes_name (Fails.bind (fails_keyword (by decide) ?_))
      cases neg <;> simp [nots]
    rw [shape]
    exact .otherwise ((fails_test _ _ (by decide) (by simp) (by simp)).map _) <|
      .otherwise ((fails_test _ _ (by decide) (by simp) (by simp)).map _) <|
      .otherwise (noNullTest.map _) ((takes_likeTest pattern).map _).orElse
  | compare column op value =>
    have noTest {k : String} {f : String → Bool → Reader Condition} (known : k ∈ keywords) :=
      fails_test (f := f) (x := .sign op.sign :: value.token :: x) column false known (by simp)
        (by simp)
    have noNullTest : Fails nullTest (.name column :: .sign op.sign :: value.token :: x) :=
      .after takes_name (Fails.bind (fails_keyword (by decide) (by simp)))
    exact .otherwise ((noTest (by decide)).map _) <| .otherwise ((noTest (by decide)).map _) <|
      .otherwise (noNullTest.map _) <| .otherwise ((noTest (by decide)).map _) <|
      takes_comparison op ok.2.2
  | all | any | not => simp [Condition.isPredicate] at h

/-! ### Readable in every place -/

theorem predicate_head (h : c.isPredicate) (place : Place) :
    ∃ column x, c.tokens place = .name column :: x := by
  cases c with
  | all | any | not => simp [Condition.isPredicate] at h
  | _ => exact ⟨_, _, rfl⟩

theorem readable_predicate (h : c.isPredicate) (ok : c.Spelled) : Readable c := by
  intro place depth y _ ends
  obtain ⟨column, x, head⟩ := predicate_head h place
  have refuses : Fails (symbol "(" *> condition depth <* symbol ")") (c.tokens place ++ y) := by
    rw [head]
    exact (fails_symbol (by decide) (by simp)).seqRight.seqLeft
  exact takes_place (takes_factor (by simp [head]) (.otherwise refuses (takes_predicate h ok place)))
    ends

theorem readable_not (hc : Readable c) : Readable (.not c) := by
  intro place depth y room ends
  have inside : parens (c.tokens .conjunct) ≤ depth := by
    simpa [Condition.tokens, parens] using room
  exact takes_place (takes_factor_not (hc .conjunct depth y inside trivial)) ends

/-- What is read between parentheses has one level less to nest in. -/
theorem takes_enclosed {depth : Nat}
    (hx : ∀ depth y, parens x ≤ depth → Place.whole.Ends y →
      Takes (disjunction (condition depth)) (.ok c) (x ++ y) y)
    (room : parens (enclosed true x) ≤ depth) :
    Takes (factor (condition depth)) (.ok c) (enclosed true x ++ y) y := by
  have one : parens (enclosed true x) = parens x + 1 := by simp [parens, enclosed]
  obtain ⟨depth, rfl⟩ : ∃ d, depth = d + 1 := ⟨depth - 1, by omega⟩
  have inner := hx depth (.sign ")" :: y) (by omega) (by simp [Place.Ends])
  have shape : enclosed true x ++ y = .sign "(" :: (x ++ .sign ")" :: y) := by simp [enclosed]
  rw [shape]
  exact takes_factor (by simp) ((takes_symbol.seqRight inner).seqLeft takes_symbol).orElse

theorem parens_le_flatMap (t : Token) {xs : List (List Token)} (hx : x ∈ xs) :
    parens x ≤ parens (xs.flatMap (t :: ·)) := by
  obtain ⟨before, after, rfl⟩ := List.append_of_mem hx
  simp only [parens, List.flatMap_append, List.flatMap_cons, List.count_append, List.count_cons]
  omega

theorem parens_le_separated (t : Token) {xs : List (List Token)} (hx : x ∈ xs) :
    parens x ≤ parens (separated t xs) := by
  cases xs with
  | nil => cases hx
  | cons x' xs =>
    have split : parens (separated t (x' :: xs)) = parens x' + parens (xs.flatMap (t :: ·)) :=
      List.count_append
    obtain rfl | hx := List.mem_cons.mp hx
    · omega
    · have := parens_le_flatMap t hx
      omega

theorem takes_all {depth : Nat} (many : 2 ≤ ps.length) (hps : ∀ p ∈ ps, Readable p)
    (room : parens (separated (.word "and") (ps.map (Condition.tokens .conjunct))) ≤ depth)
    (ends : Place.disjunct.Ends y) :
    Takes (conjunction (condition depth)) (.ok (.all ps))
      (separated (.word "and") (ps.map (Condition.tokens .conjunct)) ++ y) y := by
  have each : ∀ p ∈ ps, ∀ y, Place.conjunct.Ends y →
      Takes (factor (condition depth)) (.ok p) (p.tokens .conjunct ++ y) y := fun p hp y ends =>
    hps p hp .conjunct depth y
      (Nat.le_trans (parens_le_separated _ (List.mem_map_of_mem hp)) room) ends
  have parts := takes_separated (by rintro rfl; simp at many)
    (fun y => takes_keyword (x := y) (by decide)) each (fun _ => trivial) trivial
    (fails_keyword (by decide) ends)
  rw [← joined_many .all many]
  exact parts.map _

theorem takes_any {depth : Nat} (many : 2 ≤ ps.length) (hps : ∀ p ∈ ps, Readable p)
    (room : parens (separated (.word "or") (ps.map (Condition.tokens .disjunct))) ≤ depth)
    (ends : Place.whole.Ends y) :
    Takes (disjunction (condition depth)) (.ok (.any ps))
      (separated (.word "or") (ps.map (Condition.tokens .disjunct)) ++ y) y := by
  have each : ∀ p ∈ ps, ∀ y, Place.disjunct.Ends y →
      Takes (conjunction (condition depth)) (.ok p) (p.tokens .disjunct ++ y) y := fun p hp y ends =>
    hps p hp .disjunct depth y
      (Nat.le_trans (parens_le_separated _ (List.mem_map_of_mem hp)) room) ends
  have parts := takes_separated (by rintro rfl; simp at many)
    (fun y => takes_keyword (x := y) (by decide)) each (fun _ => by simp [Place.Ends]) ends.1
    (fails_keyword (by decide) ends.2)
  rw [← joined_many .any many]
  exact parts.map _

theorem readable_all (many : 2 ≤ ps.length) (hps : ∀ p ∈ ps, Readable p) :
    Readable (.all ps) := by
  intro place depth y room ends
  rw [Condition.tokens, Condition.tokensEach_eq_map] at room ⊢
  cases place with
  | whole => exact takes_disjunction (takes_all many hps room ends.1) ends
  | disjunct => exact takes_all many hps room ends
  | conjunct =>
    exact takes_enclosed (fun depth y room ends =>
      takes_disjunction (takes_all many hps room ends.1) ends) room

theorem readable_any (many : 2 ≤ ps.length) (hps : ∀ p ∈ ps, Readable p) :
    Readable (.any ps) := by
  intro place depth y room ends
  rw [Condition.tokens, Condition.tokensEach_eq_map] at room ⊢
  cases place with
  | whole => exact takes_any many hps room ends
  | disjunct =>
    exact takes_conjunction (takes_enclosed (fun _ _ => takes_any many hps) room) ends
  | conjunct => exact takes_enclosed (fun _ _ => takes_any many hps) room

mutual

theorem readable : (c : Condition) → c.WellFormed → Readable c
  | .all ps, h => readable_all h.1 (readable_each ps h.2)
  | .any ps, h => readable_any h.1 (readable_each ps h.2)
  | .not c, h => readable_not (readable c h)
  | .compare _ _ _, h => readable_predicate rfl h
  | .oneOf _ _ _, h => readable_predicate rfl h
  | .isNull _ _, h => readable_predicate rfl h
  | .like _ _ _, h => readable_predicate rfl h
  | .between _ _ _ _, h => readable_predicate rfl h

theorem readable_each : (ps : List Condition) → Condition.FormedAll Condition.Spelled ps →
    ∀ p ∈ ps, Readable p
  | [], _ => by simp
  | p :: ps, h => List.forall_mem_cons.mpr ⟨readable p h.1, readable_each ps h.2⟩

end

/-- A text is long enough for the parentheses in it. -/
theorem takes_anyCondition (ok : c.WellFormed) (ends : Place.whole.Ends y) :
    Takes anyCondition (.ok c) (c.tokens .whole ++ y) y := by
  intro s hs
  have room : parens (c.tokens .whole) ≤ s.length := by
    have count : parens (c.tokens .whole) ≤ (c.tokens .whole).length := List.count_le_length
    have long := hs.length_le
    rw [List.length_append] at long
    omega
  exact readable c ok .whole s.length y room ends s hs

end Conditions

end SearchSelect.Sql
