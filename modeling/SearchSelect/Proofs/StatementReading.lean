import SearchSelect.Proofs.ConditionReading

/-! The canonical tokens of a statement, and the reading of every text they are laid out in. Each
optional clause begins with its own keyword, so the reader of a clause that is not there refuses
the next one. -/

namespace SearchSelect.Sql

open Text

/-! ## Tokens -/

def Column.tokens (c : Column) : List Token :=
  .name c.source :: c.label.elim [] fun label => [.word "as", .name label]

def Projection.tokens : Projection → List Token
  | everything => [.sign "*"]
  | columns items => separated (.sign ",") (items.map Column.tokens)

def SortKey.tokens (k : SortKey) : List Token :=
  .name k.column :: k.direction.elim [] fun
    | .asc => [.word "asc"]
    | .desc => [.word "desc"]

def countToken (n : UInt64) : Token :=
  .number n.toNat.repr

/-- A clause with its keyword, or nothing. -/
def clause (k : String) : Option (List Token) → List Token
  | none => []
  | some x => .word k :: x

namespace Select

/-- The keys, if there is anything to sort by. -/
def sorting (s : Select) : Option (List SortKey) :=
  if s.order = [] then none else some s.order

theorem sorting_getD (s : Select) : s.sorting.getD [] = s.order := by
  by_cases h : s.order = [] <;> simp [sorting, h]

theorem eq_order_of_sorting {s : Select} {keys : List SortKey} (h : keys ∈ s.sorting) :
    keys = s.order := by
  by_cases empty : s.order = []
  · simp [sorting, empty] at h
  · simpa [sorting, empty, eq_comm] using h

theorem sorting_ne_nil {s : Select} {keys : List SortKey} (h : keys ∈ s.sorting) : keys ≠ [] := by
  obtain rfl := eq_order_of_sorting h
  intro empty
  simp [sorting, empty] at h

def sortTokens (keys : List SortKey) : List Token :=
  .word "by" :: separated (.sign ",") (keys.map SortKey.tokens)

def tokens (s : Select) : List Token :=
  .word "select" :: (s.projection.tokens ++
    (clause "from" (s.collection.map fun c => [.text c]) ++
    (clause "where" (s.condition.map (Condition.tokens .whole)) ++
    (clause "order" (s.sorting.map sortTokens) ++
    (clause "limit" (s.limit.map fun n => [countToken n]) ++
      clause "offset" (s.offset.map fun n => [countToken n]))))))

end Select

variable {α β : Type} {k : String} {ks : List String} {x y : List Token}

/-! ## Clauses -/

/-- If there is a next token at all, it is one of these keywords. -/
def Opens (ks : List String) (x : List Token) : Prop :=
  ∀ t ∈ x.head?, ∃ k ∈ ks, t = .word k

theorem opens_nil : Opens [] [] := by
  simp [Opens]

theorem Opens.clause (k : String) (o : Option (List Token)) (h : Opens ks y) :
    Opens (k :: ks) (clause k o ++ y) := by
  cases o with
  | none =>
    intro t ht
    obtain ⟨k', known, rfl⟩ := h t ht
    exact ⟨k', List.mem_cons_of_mem _ known, rfl⟩
  | some x =>
    intro t ht
    obtain rfl : Token.word k = t := by simpa [Sql.clause] using ht
    exact ⟨k, List.mem_cons_self, rfl⟩

theorem Opens.word (h : Opens ks y) (other : k ∉ ks) : y.head? ≠ some (.word k) := by
  intro head
  obtain ⟨k', known, eq⟩ := h _ head
  cases eq
  exact other known

theorem Opens.headKind (h : Opens ks y) : headKind y = .word ∨ headKind y = .stop := by
  cases y with
  | nil => exact .inr rfl
  | cons t y =>
    obtain ⟨k, -, rfl⟩ := h t rfl
    exact .inl rfl

theorem Opens.sign {s : String} (h : Opens ks y) : y.head? ≠ some (.sign s) := by
  intro head
  obtain ⟨k, -, eq⟩ := h _ head
  cases eq

theorem Opens.kind {kind : Kind} (h : Opens ks y) (word : kind ≠ .word) (stop : kind ≠ .stop) :
    Sql.headKind y ≠ kind := by
  obtain h | h := h.headKind
  · exact h ▸ word.symm
  · exact h ▸ stop.symm

theorem takes_clause {p : Reader α} {f : β → List Token} {g : β → α} (known : k ∈ keywords)
    (opens : Opens ks y) (last : k ∉ ks) (o : Option β)
    (present : ∀ b ∈ o, Takes p (g b) (f b ++ y) y) :
    Takes (optional (keyword k >>= fun _ => p)) (o.map g) (clause k (o.map f) ++ y) y := by
  cases o with
  | none => exact (fails_keyword known (opens.word last)).bind.optional
  | some b => exact ((takes_keyword known).bind (present b rfl)).optional

/-! ## Columns and keys -/

theorem takes_column (c : Column) (plain : y.head? ≠ some (.word "as"))
    (unnamed : headKind y ≠ .name) : Takes column c (c.tokens ++ y) y := by
  obtain ⟨source, label⟩ := c
  refine takes_name.bind (.bind (a := label) ?_ (.pure _ _))
  cases label with
  | none => exact (Fails.after (fails_keyword (by decide) plain).optional (fails_name unnamed)).optional
  | some label => exact ((takes_keyword (by decide)).optional.seqRight takes_name).optional

theorem takes_sortKey (k : SortKey) (up : y.head? ≠ some (.word "asc"))
    (down : y.head? ≠ some (.word "desc")) : Takes sortKey k (k.tokens ++ y) y := by
  obtain ⟨column, direction⟩ := k
  refine takes_name.bind (.bind (a := direction) ?_ (.pure _ _))
  match direction with
  | none =>
    exact (Fails.orElse (fails_keyword (by decide) up).seqRight
      (fails_keyword (by decide) down).seqRight).optional
  | some .asc => exact ((takes_keyword (by decide)).seqRight (.pure _ _)).orElse.optional
  | some .desc =>
    exact (Takes.otherwise (fails_keyword (by decide) (by simp)).seqRight
      ((takes_keyword (by decide)).seqRight (.pure _ _))).optional

theorem takes_projection {p : Projection} (ok : p.WellFormed) (opens : Opens ks y)
    (plain : "as" ∉ ks) : Takes projection p (p.tokens ++ y) y := by
  cases p with
  | everything => exact (takes_symbol.seqRight (.pure _ _)).orElse
  | columns items =>
    have refuses : Fails (symbol "*") (Projection.tokens (.columns items) ++ y) := by
      obtain ⟨c, cs, rfl⟩ := List.exists_cons_of_ne_nil ok.1
      exact fails_symbol (by decide) (by simp [Projection.tokens, separated, Column.tokens])
    have list := takes_separated (g := id)
      (q := fun y => y.head? ≠ some (.word "as") ∧ headKind y ≠ .name) ok.1
      (fun y => takes_symbol (s := ",") (x := y)) (fun c _ y q => takes_column c q.1 q.2)
      (fun y => ⟨by simp, by rintro ⟨⟩⟩) ⟨opens.word plain, opens.kind (by decide) (by decide)⟩
      (fails_symbol (by decide) fun v h => absurd h opens.sign)
    rw [List.map_id] at list
    exact .otherwise refuses.seqRight (list.map _)

/-! ## Counts -/

theorem isDigits_toDigits (n : Nat) : IsDigits (Nat.toDigits 10 n) :=
  ⟨Nat.toDigits_ne_nil, fun _ hd => Nat.isDigit_of_mem_toDigits (by decide) (by decide) hd⟩

theorem countMeaning_toDigits (name : String) (n : UInt64) :
    countMeaning name (Nat.toDigits 10 n.toNat) = .ok n := by
  have step : (fun (n : Nat) (d : Char) => n * 10 + (d.toNat - 48)) =
      fun n d => 10 * n + (d.toNat - '0'.toNat) := by
    funext n d
    rw [Nat.mul_comm]
    rfl
  have value : (Nat.toDigits 10 n.toNat).foldl (fun n d => n * 10 + (d.toNat - 48)) 0 = n.toNat := by
    rw [step, ← Nat.ofDigitChars_eq_foldl, Nat.ofDigitChars_ten_toDigits]
  rw [countMeaning, value]
  simp only [if_pos n.toNat_lt_size, UInt64.ofNat_toNat]

theorem takes_count (name : String) (n : UInt64) :
    Takes (countMeaning name <$> integer) (.ok n) (countToken n :: y) y := by
  rw [countToken, Nat.repr_eq_ofList_toDigits, ← countMeaning_toDigits name n]
  exact (takes_integer (isDigits_toDigits _)).map _

/-! ## Statements -/

theorem takes_sorting {keys : List SortKey} (some : keys ≠ []) (opens : Opens ks y)
    (up : "asc" ∉ ks) (down : "desc" ∉ ks) :
    Takes (do keyword "by"; sepBy1 (symbol ",") sortKey) keys (Select.sortTokens keys ++ y) y := by
  have list := takes_separated (g := id)
    (q := fun y => y.head? ≠ .some (.word "asc") ∧ y.head? ≠ .some (.word "desc")) some
    (fun y => takes_symbol (s := ",") (x := y)) (fun k _ y q => takes_sortKey k q.1 q.2)
    (fun y => ⟨by simp, by simp⟩) ⟨opens.word up, opens.word down⟩
    (fails_symbol (by decide) fun v h => absurd h opens.sign)
  rw [List.map_id] at list
  exact (takes_keyword (by decide)).bind list

theorem optionalMeaning_ok (o : Option α) : optionalMeaning (o.map Except.ok) = .ok o := by
  cases o <;> rfl

theorem takes_select {s : Select} (ok : s.WellFormed) : Takes select (.ok s) s.tokens [] := by
  have opens₅ := opens_nil.clause "offset" (s.offset.map fun n => [countToken n])
  rw [List.append_nil] at opens₅
  have opens₄ := opens₅.clause "limit" (s.limit.map fun n => [countToken n])
  have opens₃ := opens₄.clause "order" (s.sorting.map Select.sortTokens)
  have opens₂ := opens₃.clause "where" (s.condition.map (Condition.tokens .whole))
  have opens₁ := opens₂.clause "from" (s.collection.map fun c => [.text c])
  refine (takes_keyword (by decide)).bind ?_
  refine (takes_projection ok.projection opens₁ (by decide)).bind ?_
  refine .bind (a := s.collection.map id) (takes_clause (by decide) opens₂ (by decide) _ fun c _ =>
    takes_tableName.orElse) ?_
  refine .bind (a := s.condition.map .ok) (takes_clause (by decide) opens₃ (by decide) _ fun c hc =>
    takes_anyCondition (ok.condition c hc) ⟨opens₃.word (by decide), opens₃.word (by decide)⟩) ?_
  refine .bind (a := s.sorting.map id) (takes_clause (by decide) opens₄ (by decide) _ fun keys hk =>
    takes_sorting (Select.sorting_ne_nil hk) opens₄ (by decide) (by decide)) ?_
  refine .bind (a := s.limit.map .ok) (takes_clause (by decide) opens₅ (by decide) _ fun n _ =>
    takes_count "LIMIT" n) ?_
  have last := takes_clause (k := "offset") (f := fun n => [countToken n]) (g := Except.ok) (by decide)
    opens_nil (by decide) s.offset fun n _ => takes_count "OFFSET" n
  rw [List.append_nil] at last
  refine last.bind ?_
  simp only [optionalMeaning_ok, Option.map_id, id, Select.sorting_getD]
  exact .pure _ _

/-- Of the end of a statement nothing but blanks is left behind the semicolon. -/
theorem optional_semicolon {s : List Char} (h : IsEnding s) :
    ∃ u r, optional (symbol ";") s = some (u, r) ∧ r.dropWhile isSpace = [] := by
  have first : symbol ";" s = literal [';'] (s.dropWhile isSpace) := rfl
  obtain gone | ⟨b, blank, stop⟩ := h.dropWhile
  · rw [gone] at first
    refine ⟨none, s, ?_, gone⟩
    rw [optional, orElse_apply, map_eq_pure_bind, bind_apply, first]
    rfl
  · rw [stop] at first
    refine ⟨some (), b, ?_, by simpa using dropWhile_isSpace (s := []) blank (by simp)⟩
    rw [optional, orElse_apply, map_eq_pure_bind, bind_apply, first]
    rfl

theorem ofText?_of_read {text : String} {m : Meaning Select}
    (h : readAll? statement text.toList = some m) : Select.ofText? text = m := by
  delta Select.ofText?
  rw [h]

theorem ofText?_of_unread {text : String} (h : readAll? statement text.toList = none) :
    Select.ofText? text = .error .badStatement := by
  delta Select.ofText?
  rw [h]

/-- Behind a statement only its ending may follow. -/
theorem readAll?_of_select {m : Meaning Select} {s r : List Char} (read : select s = some (m, r))
    (ends : IsEnding r) : readAll? statement s = some m := by
  obtain ⟨u, t, ht, gone⟩ := optional_semicolon ends
  have blanks : skipSpace t = some ((), []) := by rw [skipSpace, gone]
  rw [readAll?, seqLeft_apply, statement, seqLeft_apply, seqLeft_apply, read, Option.bind_some, ht,
    Option.map_some, Option.bind_some, blanks]
  rfl

theorem readAll?_statement {s : Select} {text : List Char} (ok : s.WellFormed)
    (laid : Laid s.tokens text) : readAll? statement text = some (.ok s) := by
  obtain ⟨r, hr, ending, -⟩ := takes_select ok text laid
  cases ending with
  | ending ends => exact readAll?_of_select hr ends

end SearchSelect.Sql
