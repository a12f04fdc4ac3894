import SearchSelect.Proofs.StatementReading
import SearchSelect.Sql.Query

/-! Every well-formed statement has a canonical text, and is read back from every layout of it. -/

namespace SearchSelect.Sql

open Text

variable {t : Token} {x : List Token} {xs : List (List Token)}

/-! ## Texts -/

def Token.plain : Token → List Char
  | word w => w.toList
  | sign s => s.toList
  | name n => backtick :: (n.toList ++ [backtick])
  | text s => '\x27' :: (Shorthand.doubleQuotes s.toList ++ ['\x27'])
  | number spelling => spelling.toList

theorem keywords_toLower : ∀ w ∈ keywords, w.toList.map Char.toLower = w.toList := by
  decide

theorem spells_plain (fits : t.Fits) : t.Spells t.plain := by
  cases t with
  | word w => exact keywords_toLower w fits
  | _ => rfl

def AllFit (x : List Token) : Prop :=
  ∀ t ∈ x, t.Fits

/-- Every token behind a single blank. -/
def plainText (x : List Token) : List Char :=
  x.flatMap fun t => ' ' :: t.plain

theorem laid_plainText (fits : AllFit x) : Laid x (plainText x) := by
  induction x with
  | nil => exact .ending (.inl isBlank_nil)
  | cons t x ih =>
    have apart : Apart (plainText x) := by
      cases x with
      | nil => simp [plainText, Apart]
      | cons u x => simp [plainText, Apart, isSpace]
    have first := fits t (by simp)
    exact .token (b := [' ']) first (by simp [IsBlank, isSpace]) (spells_plain first) apart
      (ih fun u hu => fits u (by simp [hu]))

/-! ## Tokens of a well-formed statement -/

@[simp] theorem allFit_nil : AllFit [] := by
  simp [AllFit]

@[simp] theorem allFit_cons : AllFit (t :: x) ↔ t.Fits ∧ AllFit x := by
  simp [AllFit]

@[simp] theorem allFit_append {y : List Token} : AllFit (x ++ y) ↔ AllFit x ∧ AllFit y := by
  simp [AllFit, or_imp, forall_and]

theorem allFit_separated (sep : t.Fits) (each : ∀ x ∈ xs, AllFit x) : AllFit (separated t xs) := by
  have tail : ∀ xs : List (List Token), (∀ x ∈ xs, AllFit x) → AllFit (xs.flatMap (t :: ·)) := by
    intro xs each
    induction xs with
    | nil => simp
    | cons x xs ih =>
      obtain ⟨hx, hxs⟩ := List.forall_mem_cons.mp each
      simpa [List.flatMap_cons, sep, hx] using ih hxs
  cases xs with
  | nil => simp [separated]
  | cons x xs =>
    obtain ⟨hx, hxs⟩ := List.forall_mem_cons.mp each
    simpa [separated, hx] using tail xs hxs

theorem fits_literal {l : Literal} (ok : l.WellFormed) : l.token.Fits := by
  match l with
  | .text s => trivial
  | .number spelling => exact ok
  | .flag true => exact (by decide : "true" ∈ keywords)
  | .flag false => exact (by decide : "false" ∈ keywords)
  | .null => exact (by decide : "null" ∈ keywords)

@[simp] theorem fits_word {w : String} : (Token.word w).Fits ↔ w ∈ keywords :=
  Iff.rfl

@[simp] theorem fits_sign {s : String} : (Token.sign s).Fits ↔ s ∈ signs :=
  Iff.rfl

@[simp] theorem fits_name {n : String} : (Token.name n).Fits ↔ IsName n :=
  Iff.rfl

@[simp] theorem fits_text {s : String} : (Token.text s).Fits :=
  trivial

theorem allFit_nots (neg : Bool) : AllFit (nots neg) := by
  cases neg <;> simp [nots, keywords]

theorem allFit_predicate {c : Condition} (h : c.isPredicate) (ok : c.Spelled) (place : Place) :
    AllFit (c.tokens place) := by
  cases c with
  | compare column op value =>
    have sign : op.sign ∈ signs := by cases op <;> decide
    simp [Condition.tokens, sign, ok.1, fits_literal ok.2.1]
  | oneOf column values neg =>
    have items : AllFit (separated (.sign ",") (values.map fun v => [v.token])) := by
      refine allFit_separated (by simp [signs]) fun x hx => ?_
      obtain ⟨v, hv, rfl⟩ := List.mem_map.mp hx
      simp [fits_literal (ok.2.2 v hv)]
    simp [Condition.tokens, ok.1, allFit_nots, items, keywords, signs]
  | isNull column neg =>
    have name : IsName column := ok
    simp [Condition.tokens, name, allFit_nots, keywords]
  | like column pattern neg =>
    have name : IsName column := ok
    simp [Condition.tokens, name, allFit_nots, keywords]
  | between column low high neg =>
    simp [Condition.tokens, ok.1, allFit_nots, fits_literal ok.2.1, fits_literal ok.2.2, keywords]
  | all | any | not => simp [Condition.isPredicate] at h

theorem allFit_enclosed (needed : Bool) (fits : AllFit x) : AllFit (enclosed needed x) := by
  cases needed <;> simp [enclosed, fits, signs]

mutual

theorem allFit_condition : (c : Condition) → c.WellFormed → (place : Place) →
    AllFit (c.tokens place)
  | .all ps, h, _ => allFit_enclosed _ (allFit_separated (by simp [keywords]) (allFit_each ps h.2 _))
  | .any ps, h, _ => allFit_enclosed _ (allFit_separated (by simp [keywords]) (allFit_each ps h.2 _))
  | .not c, h, _ => allFit_cons.mpr ⟨by simp [keywords], allFit_condition c h _⟩
  | .compare _ _ _, h, place => allFit_predicate rfl h place
  | .oneOf _ _ _, h, place => allFit_predicate rfl h place
  | .isNull _ _, h, place => allFit_predicate rfl h place
  | .like _ _ _, h, place => allFit_predicate rfl h place
  | .between _ _ _ _, h, place => allFit_predicate rfl h place

theorem allFit_each : (ps : List Condition) → Condition.FormedAll Condition.Spelled ps →
    (place : Place) → ∀ x ∈ Condition.tokensEach place ps, AllFit x
  | [], _, _ => by simp [Condition.tokensEach]
  | p :: ps, h, place =>
    List.forall_mem_cons.mpr ⟨allFit_condition p h.1 place, allFit_each ps h.2 place⟩

end

theorem allFit_clause {β : Type} {k : String} {f : β → List Token} (known : k ∈ keywords)
    (o : Option β) (fits : ∀ b ∈ o, AllFit (f b)) : AllFit (clause k (o.map f)) := by
  cases o with
  | none => simp [clause]
  | some b => simp [clause, known, fits b rfl]

theorem allFit_column {c : Column} (ok : c.WellFormed) : AllFit c.tokens := by
  obtain ⟨source, label⟩ := c
  cases label with
  | none => simpa [Column.tokens] using ok.1
  | some label => simpa [Column.tokens, keywords] using ⟨ok.1, ok.2 label rfl⟩

theorem allFit_projection {p : Projection} (ok : p.WellFormed) : AllFit p.tokens := by
  cases p with
  | everything => simp [Projection.tokens, signs]
  | columns items =>
    refine allFit_separated (by simp [signs]) fun x hx => ?_
    obtain ⟨c, hc, rfl⟩ := List.mem_map.mp hx
    exact allFit_column (ok.2 c hc)

theorem allFit_sortKey {k : SortKey} (ok : IsName k.column) : AllFit k.tokens := by
  obtain ⟨column, direction⟩ := k
  match direction with
  | none => simpa [SortKey.tokens] using ok
  | some .asc => simpa [SortKey.tokens, keywords] using ok
  | some .desc => simpa [SortKey.tokens, keywords] using ok

theorem allFit_count (n : UInt64) : AllFit [countToken n] := by
  have fits : IsNumber n.toNat.repr.toList := by
    rw [Nat.toList_repr]
    exact ⟨[], _, [], [], .inl rfl, isDigits_toDigits n.toNat, .inl rfl, .inl rfl, by simp⟩
  exact allFit_cons.mpr ⟨fits, allFit_nil⟩

theorem allFit_sorting {s : Select} (ok : s.WellFormed) {keys : List SortKey}
    (h : keys ∈ s.sorting) : AllFit (Select.sortTokens keys) := by
  obtain rfl := Select.eq_order_of_sorting h
  have items : AllFit (separated (.sign ",") (s.order.map SortKey.tokens)) := by
    refine allFit_separated (by simp [signs]) fun x hx => ?_
    obtain ⟨k, hk, rfl⟩ := List.mem_map.mp hx
    exact allFit_sortKey (ok.order k hk)
  simp [Select.sortTokens, items, keywords]

theorem allFit_select {s : Select} (ok : s.WellFormed) : AllFit s.tokens := by
  have collection : AllFit (clause "from" (s.collection.map fun c => [.text c])) :=
    allFit_clause (by decide) _ (by simp)
  have condition : AllFit (clause "where" (s.condition.map (Condition.tokens .whole))) :=
    allFit_clause (by decide) _ fun c hc => allFit_condition c (ok.condition c hc) _
  have order : AllFit (clause "order" (s.sorting.map Select.sortTokens)) :=
    allFit_clause (by decide) _ fun _ hk => allFit_sorting ok hk
  have count (k : String) (known : k ∈ keywords) (o : Option UInt64) :
      AllFit (clause k (o.map fun n => [countToken n])) :=
    allFit_clause known o fun n _ => allFit_count n
  have limit := count "limit" (by decide) s.limit
  have offset := count "offset" (by decide) s.offset
  have word : "select" ∈ keywords := by decide
  simp only [Select.tokens, allFit_cons, allFit_append, fits_word]
  exact ⟨word, allFit_projection ok.projection, collection, condition, order, limit, offset⟩

/-- A well-formed statement has a text, and every text its tokens are laid out in is read as the
statement. -/
theorem ofText?_laid {s : Select} (ok : s.WellFormed) :
    (∃ text : String, Laid s.tokens text.toList) ∧
      ∀ text : String, Laid s.tokens text.toList → Select.ofText? text = .ok s := by
  refine ⟨⟨String.ofList (plainText s.tokens), ?_⟩, fun text laid => ?_⟩
  · rw [String.toList_ofList]
    exact laid_plainText (allFit_select ok)
  · exact ofText?_of_read (readAll?_statement ok laid)

/-- The canonical text of a statement. -/
theorem ofText?_plainText {s : Select} {text : String} (ok : s.WellFormed)
    (plain : text = String.ofList (plainText s.tokens)) : Select.ofText? text = .ok s := by
  refine ofText?_of_read (readAll?_statement ok ?_)
  rw [plain, String.toList_ofList]
  exact laid_plainText (allFit_select ok)

def nestedStatement : Select where
  projection := .columns [⟨"a b", none⟩]
  collection := some "it's"
  condition := some <| .any
    [.not (.all [.compare "c" .ne (.text "or"), .isNull "d" false]),
      .between "e" (.number "-1.5") .null true]
  order := []
  limit := none
  offset := none

def nestedText : String :=
  " select `a b` from 'it''s' where not ( `c` <> 'or' and `d` is null ) or `e` not between " ++
    "-1.5 and null"

theorem nestedStatement_wellFormed : nestedStatement.WellFormed where
  projection := by simp [nestedStatement, Projection.WellFormed, Column.WellFormed, IsName, backtick]
  condition := by
    have low : IsNumber ['-', '1', '.', '5'] :=
      ⟨['-'], ['1'], ['.', '5'], [], .inr rfl, by simp [IsDigits],
        .inr ⟨['5'], by simp [IsDigits]⟩, .inl rfl, rfl⟩
    simp [nestedStatement, Condition.WellFormed, Condition.Formed, Condition.FormedAll,
      Condition.Spelled, Literal.WellFormed, IsName, backtick, low]
  order := by simp [nestedStatement]

theorem laid_nestedText : Laid nestedStatement.tokens nestedText.toList := by
  have text : nestedText = String.ofList (plainText nestedStatement.tokens) := by decide +kernel
  rw [text, String.toList_ofList]
  exact laid_plainText (allFit_select nestedStatement_wellFormed)

theorem ofText?_nestedText :
    nestedStatement.WellFormed ∧ Select.ofText? nestedText = .ok nestedStatement :=
  ⟨nestedStatement_wellFormed, (ofText?_laid nestedStatement_wellFormed).2 _ laid_nestedText⟩

/-! ## Queries -/

theorem Query.ofStatement_named {s : Select} {c : String}
    (named : s.collection.map trimmed = some c) (some : c ≠ "") :
    ofStatement s = .ok ⟨s, c⟩ := by
  unfold ofStatement
  rw [named]
  exact if_neg some

/-- A text without shorthand in it, laid out for a statement over a named collection. -/
theorem Query.ofText_laid {q : Query} {text : String} (ok : q.statement.WellFormed)
    (laid : Laid q.statement.tokens text.toList) (plain : expandShorthand text = text)
    (starts : startsWithSelect text.toList)
    (named : q.statement.collection.map trimmed = some q.collection) (some : q.collection ≠ "") :
    Query.ofText text = .ok q := by
  have statement : Select.ofText? text = .ok q.statement :=
    ofText?_of_read (readAll?_statement ok laid)
  unfold ofText
  rw [plain]
  simp only [if_pos starts, statement]
  exact ofStatement_named named some

end SearchSelect.Sql
