import SearchSelect.Proofs.Segments
import SearchSelect.Sql.Query

/-! What an accepted text is made of, and what it means. The grammar is followed once from the
lexemes up: every reader passes over whole pieces of its text, and what it gives is well formed
or a fault of the query, so a statement read from any text is one that a text can be written for. -/

namespace SearchSelect.Sql

open Text

variable {α β : Type} {P : α → Prop}

/-- What the meaning satisfies, if there is one. -/
def Meaning.Holds (P : α → Prop) (m : Meaning α) : Prop :=
  ∀ a, m = .ok a → P a

/-- The meaning satisfies `P`, or there is none by a fault of the query. -/
structure Meaning.Proper (P : α → Prop) (m : Meaning α) : Prop where
  holds : m.Holds P
  faults : ∀ f, m = .error f → f.kind = .query

theorem Meaning.proper_ok {a : α} (h : P a) : Meaning.Proper P (.ok a) where
  holds := by
    rintro b ⟨⟩
    exact h
  faults := nofun

/-! ## Predicates -/

theorem gives_literalValue : Gives literalValue Literal.WellFormed := by
  refine .orElse (passes_string.map fun _ _ => trivial) ?_
  refine .orElse (gives_number.map fun _ h => h) ?_
  refine .orElse ((passes_keyword _).seqRight (.pure trivial)) ?_
  refine .orElse ((passes_keyword _).seqRight (.pure trivial)) ?_
  exact (passes_keyword _).seqRight (.pure trivial)

theorem passes_comparator : Passes comparator := by
  have sign {s : String} (plain : s.toList.all isOrdinary) (op : Comparator) :
      Passes (symbol s *> pure op) := (passes_symbol plain).seqRight (.pure trivial)
  exact (sign (by decide) _).orElse <| (sign (by decide) _).orElse <|
    (sign (by decide) _).orElse <| (sign (by decide) _).orElse <|
    (sign (by decide) _).orElse <| (sign (by decide) _).orElse (sign (by decide) _)

theorem comparisonMeaning_proper {column : String} {op : Comparator} {value : Literal}
    {text : String} (name : IsName column) (ok : value.WellFormed) :
    (comparisonMeaning column op value text).Proper Condition.WellFormed where
  holds := by
    intro c h
    cases value with
    | null => cases op <;> cases h <;> exact name
    | text | number | flag => cases op <;> cases h <;> exact ⟨name, ok, by rintro ⟨⟩⟩
  faults := by
    intro f h
    cases value <;> cases op <;> cases h <;> rfl

theorem gives_comparison : Gives comparison (Meaning.Proper Condition.WellFormed) := by
  refine passes_skipSpace.bind fun _ _ => ?_
  refine Gives.bind (Gives.withText (P := fun r => IsName r.1 ∧ r.2.2.WellFormed) ?_) ?_
  · exact gives_name.bind fun column name => passes_comparator.bind fun op _ =>
      gives_literalValue.bind fun value ok => .pure ⟨name, ok⟩
  · rintro ⟨⟨column, op, value⟩, text⟩ ⟨name, ok⟩
    exact .pure (comparisonMeaning_proper name ok)

theorem passes_negation : Passes negation :=
  ((passes_keyword _).seqRight (.pure trivial)).orElse (.pure trivial)

theorem gives_membership : Gives membership Condition.WellFormed :=
  gives_name.bind fun _ name => passes_negation.bind fun _ _ =>
    (passes_keyword _).bind fun _ _ => (passes_symbol (by decide)).bind fun _ _ =>
    ((passes_symbol (by decide)).sepBy1 gives_literalValue).bind fun _ values =>
    (passes_symbol (by decide)).bind fun _ _ => .pure ⟨name, values.1, values.2⟩

theorem gives_nullTest : Gives nullTest Condition.WellFormed :=
  gives_name.bind fun _ name => (passes_keyword _).bind fun _ _ => passes_negation.bind fun _ _ =>
    (passes_keyword _).bind fun _ _ => .pure name

theorem gives_likeTest : Gives likeTest Condition.WellFormed :=
  gives_name.bind fun _ name => passes_negation.bind fun _ _ => (passes_keyword _).bind fun _ _ =>
    passes_string.bind fun _ _ => .pure name

theorem gives_rangeTest : Gives rangeTest Condition.WellFormed :=
  gives_name.bind fun _ name => passes_negation.bind fun _ _ => (passes_keyword _).bind fun _ _ =>
    gives_literalValue.bind fun _ low => (passes_keyword _).bind fun _ _ =>
    gives_literalValue.bind fun _ high => .pure ⟨name, low, high⟩

theorem gives_predicate : Gives predicate (Meaning.Proper Condition.WellFormed) :=
  (gives_rangeTest.map fun _ => Meaning.proper_ok).orElse <|
    (gives_membership.map fun _ => Meaning.proper_ok).orElse <|
    (gives_nullTest.map fun _ => Meaning.proper_ok).orElse <|
    (gives_likeTest.map fun _ => Meaning.proper_ok).orElse gives_comparison

/-! ## Conditions -/

theorem mapM_id_eq_ok {parts : List (Meaning α)} {as : List α} (h : parts.mapM id = .ok as) :
    parts = as.map .ok := by
  induction parts generalizing as with
  | nil =>
    cases h
    rfl
  | cons m ms ih =>
    rw [List.mapM_cons] at h
    cases m with
    | error e => cases h
    | ok a =>
      cases hms : ms.mapM id with
      | error e =>
        rw [hms] at h
        cases h
      | ok bs =>
        rw [hms] at h
        cases h
        rw [ih hms]
        rfl

theorem mapM_id_eq_error {parts : List (Meaning α)} {f : Fault} (h : parts.mapM id = .error f) :
    .error f ∈ parts := by
  induction parts with
  | nil => cases h
  | cons m ms ih =>
    rw [List.mapM_cons] at h
    cases m with
    | error e =>
      cases h
      exact List.mem_cons_self
    | ok a =>
      cases hms : ms.mapM id with
      | error e =>
        rw [hms] at h
        cases h
        exact List.mem_cons_of_mem _ (ih hms)
      | ok as =>
        rw [hms] at h
        cases h

theorem formedAll_iff {ok : Condition → Prop} {ps : List Condition} :
    Condition.FormedAll ok ps ↔ ∀ p ∈ ps, p.Formed ok := by
  induction ps with
  | nil => simp [Condition.FormedAll]
  | cons p ps ih => simp [Condition.FormedAll, ih]

/-- A part that stands alone is not wrapped, so whatever is wrapped has at least two parts. -/
theorem joined_proper {join : List Condition → Condition} {parts : List (Meaning Condition)}
    (joins : ∀ ps : List Condition, 2 ≤ ps.length → (∀ p ∈ ps, p.WellFormed) →
      (join ps).WellFormed)
    (some : parts ≠ []) (ok : ∀ m ∈ parts, m.Proper Condition.WellFormed) :
    (joined join parts).Proper Condition.WellFormed := by
  unfold joined
  cases hps : parts.mapM id with
  | error e =>
    have faulty := ok _ (mapM_id_eq_error hps)
    exact ⟨nofun, fun f h => faulty.faults f (by cases h; rfl)⟩
  | ok ps =>
    have formed : ∀ p ∈ ps, p.WellFormed := by
      obtain rfl := mapM_id_eq_ok hps
      exact fun p hp => (ok _ (List.mem_map_of_mem hp)).holds p rfl
    match ps with
    | [] =>
      rw [mapM_id_eq_ok hps] at some
      exact absurd rfl some
    | [p] => exact Meaning.proper_ok (formed p (by simp))
    | p :: q :: ps => exact Meaning.proper_ok (joins _ (by simp) formed)

theorem negations_proper {m : Meaning Condition} (h : m.Proper Condition.WellFormed) (n : Nat) :
    (negations n m).Proper Condition.WellFormed := by
  induction n with
  | zero => exact h
  | succ n ih =>
    rw [negations]
    cases hm : negations n m with
    | error e => exact ⟨nofun, fun f h => (hm ▸ ih).faults f (by cases h; rfl)⟩
    | ok d => exact Meaning.proper_ok ((hm ▸ ih).holds d rfl)

section Conditions

variable {inner : Reader (Meaning Condition)}

theorem gives_primary (h : Gives inner (Meaning.Proper Condition.WellFormed)) :
    Gives (primary inner) (Meaning.Proper Condition.WellFormed) :=
  (((passes_symbol (by decide)).seqRight h).seqLeft (passes_symbol (by decide))).orElse
    gives_predicate

theorem gives_factor (h : Gives inner (Meaning.Proper Condition.WellFormed)) :
    Gives (factor inner) (Meaning.Proper Condition.WellFormed) :=
  (passes_keyword _).many.bind fun nots _ => (gives_primary h).bind fun _ hm =>
    .pure (negations_proper hm nots.length)

theorem gives_conjunction (h : Gives inner (Meaning.Proper Condition.WellFormed)) :
    Gives (conjunction inner) (Meaning.Proper Condition.WellFormed) :=
  ((passes_keyword _).sepBy1 (gives_factor h)).map fun _ parts =>
    joined_proper (fun _ several each => ⟨several, formedAll_iff.mpr each⟩) parts.1 parts.2

theorem gives_disjunction (h : Gives inner (Meaning.Proper Condition.WellFormed)) :
    Gives (disjunction inner) (Meaning.Proper Condition.WellFormed) :=
  ((passes_keyword _).sepBy1 (gives_conjunction h)).map fun _ parts =>
    joined_proper (fun _ several each => ⟨several, formedAll_iff.mpr each⟩) parts.1 parts.2

theorem gives_condition (depth : Nat) :
    Gives (condition depth) (Meaning.Proper Condition.WellFormed) := by
  induction depth with
  | zero => exact .failure
  | succ depth ih => exact gives_disjunction ih

theorem gives_anyCondition : Gives anyCondition (Meaning.Proper Condition.WellFormed) :=
  fun s => gives_condition (s.length + 1) s

end Conditions

/-! ## Statements -/

theorem bind_eq_ok {x : Meaning α} {f : α → Meaning β} {b : β} (h : x >>= f = .ok b) :
    ∃ a, x = .ok a ∧ f a = .ok b := by
  cases x with
  | error e => cases h
  | ok a => exact ⟨a, rfl, h⟩

theorem bind_eq_error {x : Meaning α} {f : α → Meaning β} {e : Fault} (h : x >>= f = .error e) :
    x = .error e ∨ ∃ a, x = .ok a ∧ f a = .error e := by
  cases x with
  | error e' =>
    cases h
    exact .inl rfl
  | ok a => exact .inr ⟨a, rfl, h⟩

theorem optionalMeaning_eq_error {o : Option (Meaning α)} {f : Fault}
    (h : optionalMeaning o = .error f) : o = some (.error f) := by
  cases o with
  | none => cases h
  | some m =>
    cases m with
    | error e =>
      cases h
      rfl
    | ok a => cases h

theorem optionalMeaning_eq_ok {o : Option (Meaning α)} {a : Option α}
    (h : optionalMeaning o = .ok a) : o = a.map .ok := by
  cases o with
  | none =>
    cases h
    rfl
  | some m =>
    cases m with
    | error e => cases h
    | ok b =>
      cases h
      rfl

theorem gives_column : Gives column Column.WellFormed :=
  gives_name.bind fun _ source =>
    ((passes_keyword _).optional.seqRight gives_name).optional.bind fun _ label =>
    .pure ⟨source, label⟩

theorem gives_projection : Gives projection Projection.WellFormed :=
  ((passes_symbol (by decide)).seqRight (.pure trivial)).orElse <|
    ((passes_symbol (by decide)).sepBy1 gives_column).map fun _ h => h

theorem gives_sortKey : Gives sortKey fun k => IsName k.column := by
  refine gives_name.bind fun _ name => ?_
  have direction (w : String) (d : Direction) : Passes (keyword w *> pure d) :=
    (passes_keyword w).seqRight (.pure trivial)
  exact ((direction _ _).orElse (direction _ _)).optional.bind fun _ _ => .pure name

theorem passes_fromClause : Passes fromClause :=
  (passes_keyword _).bind fun _ _ => passes_tableName.orElse (.pure trivial)

theorem gives_orderClause : Gives orderClause fun keys => ∀ k ∈ keys, IsName k.column :=
  (passes_keyword _).bind fun _ _ => (passes_keyword _).bind fun _ _ =>
    ((passes_symbol (by decide)).sepBy1 gives_sortKey).imp fun _ h => h.2

theorem countMeaning_proper (clause : String) (digits : List Char) :
    (countMeaning clause digits).Proper fun _ => True := by
  unfold countMeaning
  dsimp only
  split
  · exact Meaning.proper_ok trivial
  · exact ⟨nofun, by rintro f ⟨⟩; rfl⟩

theorem gives_countClause (word clause : String) :
    Gives (countClause word clause) (Meaning.Proper fun _ => True) :=
  (passes_keyword _).bind fun _ _ => gives_integer.map fun ds _ => countMeaning_proper clause ds

theorem gives_select : Gives select (Meaning.Proper Select.WellFormed) := by
  refine (passes_keyword _).bind fun _ _ => ?_
  refine gives_projection.bind fun projection hp => ?_
  refine passes_fromClause.optional.bind fun collection _ => ?_
  refine Gives.bind (Gives.optional ((passes_keyword _).bind fun _ _ => gives_anyCondition))
    fun condition hc => ?_
  refine gives_orderClause.optional.bind fun order ho => ?_
  refine (gives_countClause _ _).optional.bind fun limit hl => ?_
  refine (gives_countClause _ _).optional.bind fun offset hf => .pure ⟨?_, ?_⟩
  · intro s h
    obtain ⟨c, meant, h⟩ := bind_eq_ok h
    obtain ⟨n, -, h⟩ := bind_eq_ok h
    obtain ⟨m, -, h⟩ := bind_eq_ok h
    cases h
    have condition_ok : ∀ d ∈ c, d.WellFormed := by
      rintro d rfl
      exact (hc (.ok d) (optionalMeaning_eq_ok meant)).holds d rfl
    have order_ok : ∀ k ∈ order.getD [], IsName k.column := by
      cases order with
      | none => simp
      | some keys => exact ho keys rfl
    exact ⟨hp, condition_ok, order_ok⟩
  · intro f h
    obtain first | ⟨c, -, h⟩ := bind_eq_error h
    · exact (hc _ (optionalMeaning_eq_error first)).faults f rfl
    obtain second | ⟨n, -, h⟩ := bind_eq_error h
    · exact (hl _ (optionalMeaning_eq_error second)).faults f rfl
    obtain third | ⟨m, -, h⟩ := bind_eq_error h
    · exact (hf _ (optionalMeaning_eq_error third)).faults f rfl
    cases h

theorem gives_statement : Gives statement (Meaning.Proper Select.WellFormed) :=
  (gives_select.seqLeft (passes_symbol (by decide)).optional).seqLeft passes_skipSpace

theorem readAll?_eq_some {p : Reader α} {s : List Char} {a : α} (h : readAll? p s = some a) :
    p s = some (a, []) := by
  obtain ⟨⟨b, r⟩, hr, rfl⟩ := Option.map_eq_some_iff.mp h
  rw [seqLeft_apply] at hr
  obtain ⟨⟨b', t⟩, hs, ht⟩ := Option.bind_eq_some_iff.mp hr
  cases t with
  | nil =>
    cases ht
    exact hs
  | cons c t => cases ht

section Texts

variable {text : String} {s : Select}

theorem statement_of_ofText? (h : Select.ofText? text = .ok s) :
    statement text.toList = some (.ok s, []) := by
  delta Select.ofText? at h
  split at h
  · cases h
  · next m read => exact readAll?_eq_some (h ▸ read)

/-- An accepted text is made of whole pieces from its beginning to its end. -/
theorem passed_of_ofText? (h : Select.ofText? text = .ok s) : Passed text.toList [] :=
  (gives_statement _ _ _ (statement_of_ofText? h)).1

theorem wellFormed_of_ofText? (h : Select.ofText? text = .ok s) : s.WellFormed :=
  (gives_statement _ _ _ (statement_of_ofText? h)).2.holds s rfl

/-- Whatever is wrong with a text is a fault of the query. -/
theorem kind_of_ofText? {f : Fault} (h : Select.ofText? text = .error f) : f.kind = .query := by
  delta Select.ofText? at h
  split at h
  · cases h
    rfl
  · next m read =>
    obtain ⟨-, proper⟩ := gives_statement _ _ _ (readAll?_eq_some read)
    exact proper.faults f h

/-- A query is an accepted statement, read from the text with its shorthand written out, and the
name of its collection without the blanks around it. -/
theorem ofText?_of_query {q : Query} (h : Query.ofText text = .ok q) :
    Select.ofText? (expandShorthand text) = .ok q.statement ∧
      q.statement.collection.map trimmed = some q.collection ∧ q.collection ≠ "" := by
  unfold Query.ofText at h
  simp only at h
  split at h
  · obtain ⟨s, read, h⟩ := bind_eq_ok h
    unfold Query.ofStatement at h
    split at h
    · cases h
    · next c named =>
      split at h
      · cases h
      · next some =>
        cases h
        exact ⟨read, named, some⟩
  · cases h

theorem kind_of_ofText {f : Fault} (h : Query.ofText text = .error f) : f.kind = .query := by
  unfold Query.ofText at h
  dsimp only at h
  split at h
  · obtain unread | ⟨s, -, h⟩ := bind_eq_error h
    · exact kind_of_ofText? unread
    · unfold Query.ofStatement at h
      split at h
      · cases h
        rfl
      · split at h
        · cases h
          rfl
        · cases h
  · cases h
    rfl

end Texts

end SearchSelect.Sql
