import SearchSelect.Proofs.EqualityReading

/-! Semicolons as the grammar reads them. A semicolon behind a text is never seen before the text
has been read, so it is left where it is; and every semicolon that is read stands in a name or in a
text of the result. `Spares p P` says both of the reader `p`, with `P` between its result and the
number of semicolons it has read; it goes through sequencing, choice and repetition. -/

namespace SearchSelect.Sql

open Text

variable {α β : Type} {P : α → Nat → Prop} {Q : β → Nat → Prop}

def Spares (p : Reader α) (P : α → Nat → Prop) : Prop :=
  ∀ s, (p s = none ∧ p (s ++ [';']) = none) ∨
    ∃ w a r, s = w ++ r ∧ p s = some (a, r) ∧ p (s ++ [';']) = some (a, r ++ [';']) ∧
      P a (w.count ';')

/-- The reader reads no semicolon at all. -/
abbrev Skips (p : Reader α) : Prop :=
  Spares p fun _ n => n = 0

/-- The semicolons of the items together. -/
def Together (P : α → Nat → Prop) : List α → Nat → Prop
  | [], n => n = 0
  | a :: as, n => ∃ k m, P a k ∧ Together P as m ∧ n = k + m

def IfAny (P : α → Nat → Prop) : Option α → Nat → Prop
  | none, n => n = 0
  | some a, n => P a n

/-- What is meant has the semicolons that were read. -/
def Meant (w : α → Nat) (m : Meaning α) (n : Nat) : Prop :=
  ∀ a, m = .ok a → w a = n

namespace Spares

variable {p q : Reader α} {f : α → Reader β}

theorem imp {P' : α → Nat → Prop} (hp : Spares p P) (weaker : ∀ a n, P a n → P' a n) :
    Spares p P' := by
  intro s
  obtain none | ⟨w, a, r, rfl, read, again, ha⟩ := hp s
  · exact .inl none
  · exact .inr ⟨w, a, r, rfl, read, again, weaker a _ ha⟩

theorem pure {a : α} (ha : P a 0) : Spares (pure a) P :=
  fun s => .inr ⟨[], a, s, rfl, rfl, rfl, ha⟩

theorem failure : Spares (failure : Reader α) P :=
  fun _ => .inl ⟨rfl, rfl⟩

theorem bind (hp : Spares p P) (hf : ∀ a n, P a n → Spares (f a) fun b m => Q b (n + m)) :
    Spares (p >>= f) Q := by
  intro s
  obtain ⟨none, none'⟩ | ⟨w, a, r, rfl, read, read', ha⟩ := hp s
  · exact .inl ⟨bind_refuses none, bind_refuses none'⟩
  obtain ⟨none, none'⟩ | ⟨v, b, t, rfl, next, next', hb⟩ := hf a _ ha r
  · exact .inl ⟨(bind_reads read).trans none, (bind_reads read').trans none'⟩
  · refine .inr ⟨w ++ v, b, t, (List.append_assoc ..).symm, (bind_reads read).trans next,
      (bind_reads read').trans next', ?_⟩
    rwa [List.count_append]

theorem map {g : α → β} (hp : Spares p P) (hg : ∀ a n, P a n → Q (g a) n) :
    Spares (g <$> p) Q := by
  rw [map_eq_pure_bind]
  exact hp.bind fun a n ha => pure (hg a n ha)

theorem seqRight {q : Reader β} (hp : Skips p) (hq : Spares q Q) : Spares (p *> q) Q :=
  hp.bind fun _ n (none : n = 0) => hq.imp fun _ m hb => by rwa [none, Nat.zero_add]

theorem seqLeft {q : Reader β} (hp : Spares p P) (hq : Skips q) : Spares (p <* q) P := by
  rw [seqLeft_eq_bind]
  exact hp.bind fun a n ha => hq.bind fun _ m (none : m = 0) => pure (by rwa [none])

theorem orElse (hp : Spares p P) (hq : Spares q P) : Spares (p <|> q) P := by
  intro s
  obtain ⟨none, none'⟩ | ⟨w, a, r, rfl, read, read', ha⟩ := hp s
  · obtain ⟨no, no'⟩ | ⟨w, a, r, rfl, read, read', ha⟩ := hq s
    · exact .inl ⟨(orElse_refuses none).trans no, (orElse_refuses none').trans no'⟩
    · exact .inr ⟨w, a, r, rfl, (orElse_refuses none).trans read,
        (orElse_refuses none').trans read', ha⟩
  · exact .inr ⟨w, a, r, rfl, orElse_reads read, orElse_reads read', ha⟩

theorem optional (hp : Spares p P) : Spares (optional p) (IfAny P) :=
  (hp.map (Q := IfAny P) (g := some) fun _ _ ha => ha).orElse (pure (P := IfAny P) (a := none) rfl)

theorem manyFrom (hp : Spares p P) (s : List Char) :
    ∃ w as r, s = w ++ r ∧ manyFrom p s = (as, r) ∧ manyFrom p (s ++ [';']) = (as, r ++ [';']) ∧
      Together P as (w.count ';') := by
  fun_induction Text.manyFrom p s with
  | case1 s none =>
    obtain ⟨-, none'⟩ | ⟨_, _, _, -, read, -⟩ := hp s
    · exact ⟨[], [], s, rfl, rfl, by rw [Text.manyFrom, none'], rfl⟩
    · cases none.symm.trans read
  | case2 s a r read less as t rest ih =>
    obtain ⟨none, -⟩ | ⟨w, a', r', rfl, same, read', ha⟩ := hp s
    · cases none.symm.trans read
    obtain ⟨rfl, rfl⟩ := Prod.mk.inj (Option.some.inj (read.symm.trans same))
    obtain ⟨v, as', t', rfl, rest', again, has⟩ := ih
    obtain ⟨rfl, rfl⟩ := Prod.mk.inj (rest.symm.trans rest')
    have less' : (v ++ t ++ [';']).length < (w ++ (v ++ t) ++ [';']).length := by
      simpa using less
    refine ⟨w ++ v, a :: as, t, (List.append_assoc ..).symm, rfl, ?_, _, _, ha, has,
      List.count_append⟩
    rw [Text.manyFrom, read']
    simp only [if_pos less', again]
  | case3 s a r read more =>
    obtain ⟨none, -⟩ | ⟨w, a', r', rfl, same, read', ha⟩ := hp s
    · cases none.symm.trans read
    obtain ⟨rfl, rfl⟩ := Prod.mk.inj (Option.some.inj (read.symm.trans same))
    have more' : ¬ (r ++ [';']).length < (w ++ r ++ [';']).length := by simpa using more
    refine ⟨[], [], w ++ r, rfl, rfl, ?_, rfl⟩
    rw [Text.manyFrom, read']
    simp only [if_neg more']

theorem many (hp : Spares p P) : Spares (many p) (Together P) := by
  intro s
  obtain ⟨w, as, r, split, read, read', has⟩ := manyFrom hp s
  exact .inr ⟨w, as, r, split, congrArg some read, congrArg some read', has⟩

theorem sepBy1 {sep : Reader β} (hs : Skips sep) (hp : Spares p P) :
    Spares (sepBy1 sep p) (Together P) :=
  hp.bind fun _ n ha => (hs.seqRight hp).many.bind fun _ m has =>
    pure ⟨n, m, ha, has, rfl⟩

theorem withText (hp : Spares p P) : Spares (withText p) fun r => P r.1 := by
  intro s
  obtain ⟨none, none'⟩ | ⟨w, a, r, rfl, read, read', ha⟩ := hp s
  · exact .inl ⟨by rw [Text.withText, none], by rw [Text.withText, none']⟩
  · refine .inr ⟨w, (a, w), r, rfl, ?_, ?_, ha⟩
    · rw [Text.withText, read]
      simp
    · rw [Text.withText, read']
      simp

end Spares

theorem Together.eq_zero {as : List α} {n : Nat} (h : Together (fun _ n => n = 0) as n) :
    n = 0 := by
  induction as generalizing n with
  | nil => exact h
  | cons a as ih =>
    obtain ⟨k, m, hk, hm, rfl⟩ := h
    rw [hk, ih hm]

theorem Skips.many {p : Reader α} (hp : Skips p) : Skips (many p) :=
  Spares.imp (Spares.many hp) fun _ _ h => h.eq_zero

theorem Skips.optional {p : Reader α} (hp : Skips p) : Skips (optional p) :=
  Spares.imp (Spares.optional hp) fun o _ h => by cases o <;> exact h

/-! ## Characters -/

section Characters

variable {p : Char → Bool}

theorem takeWhile_semicolon (no : p ';' = false) (s : List Char) :
    (s ++ [';']).takeWhile p = s.takeWhile p :=
  takeWhile_append_of_stop s (by simpa using no)

theorem dropWhile_semicolon (no : p ';' = false) (s : List Char) :
    (s ++ [';']).dropWhile p = s.dropWhile p ++ [';'] := by
  rw [List.dropWhile_append]
  split
  · next gone => simp [List.isEmpty_iff.mp gone, no]
  · rfl

theorem not_mem_takeWhile (no : p ';' = false) (s : List Char) : ';' ∉ s.takeWhile p := fun mem =>
  absurd (no.symm.trans (List.mem_takeWhile_imp mem)) (by decide)

theorem spares_charIf (no : p ';' = false) : Spares (charIf p) fun c n => c ≠ ';' ∧ n = 0 := by
  intro s
  cases s with
  | nil => exact .inl ⟨rfl, charIf_none no⟩
  | cons c s =>
    cases first : p c with
    | false => exact .inl ⟨charIf_none first, charIf_none first⟩
    | true =>
      have other : c ≠ ';' := by
        rintro rfl
        cases no.symm.trans first
      exact .inr ⟨[c], c, s, rfl, charIf_cons first, charIf_cons first, other,
        List.count_eq_zero.mpr (by simpa using other.symm)⟩

theorem spares_run (no : p ';' = false) : Spares (run p) fun cs n => ';' ∉ cs ∧ n = 0 := by
  intro s
  have none := not_mem_takeWhile no s
  refine .inr ⟨s.takeWhile p, s.takeWhile p, s.dropWhile p,
    List.takeWhile_append_dropWhile.symm, rfl, ?_, none, List.count_eq_zero.mpr none⟩
  rw [run, takeWhile_semicolon no, dropWhile_semicolon no]

theorem spares_run1 (no : p ';' = false) : Spares (run1 p) fun cs n => ';' ∉ cs ∧ n = 0 :=
  (spares_charIf no).bind fun _ _ hc => (spares_run no).bind fun _ _ hcs =>
    .pure ⟨by simp [hc.1.symm, hcs.1], by simp [hc.2, hcs.2]⟩

theorem spares_signIf (no : p ';' = false) : Spares (signIf p) fun cs n => ';' ∉ cs ∧ n = 0 := by
  intro s
  cases s with
  | nil =>
    refine .inr ⟨[], [], [], rfl, rfl, ?_, by simp, rfl⟩
    exact if_neg (by simp [no])
  | cons c s =>
    cases first : p c with
    | false =>
      exact .inr ⟨[], [], c :: s, rfl, if_neg (by simp [first]), if_neg (by simp [first]), by simp,
        rfl⟩
    | true =>
      have other : ';' ∉ [c] := by
        intro mem
        obtain rfl := List.mem_singleton.mp mem
        cases no.symm.trans first
      exact .inr ⟨[c], [c], s, rfl, if_pos first, if_pos first, other, List.count_eq_zero.mpr other⟩

theorem skips_literal {w : List Char} (no : ';' ∉ w) : Skips (literal w) := by
  intro s
  by_cases front : w <+: s
  · obtain ⟨r, rfl⟩ := front
    refine .inr ⟨w, (), r, rfl, ?_, ?_, List.count_eq_zero.mpr no⟩
    · exact (if_pos (List.isPrefixOf_iff_prefix.mpr ⟨r, rfl⟩)).trans (by rw [List.drop_left])
    · rw [List.append_assoc]
      exact (if_pos (List.isPrefixOf_iff_prefix.mpr ⟨_, rfl⟩)).trans (by rw [List.drop_left])
  · refine .inl ⟨literal_none front, literal_none fun longer => ?_⟩
    obtain rfl | front' := List.prefix_concat_iff.mp longer
    · exact no (by simp)
    · exact front front'

end Characters

/-! ## Lexemes -/

theorem skips_skipSpace : Skips skipSpace :=
  (spares_run (p := isSpace) (by decide)).map (g := fun _ => ()) fun _ _ h => h.2

theorem Spares.lexeme {p : Reader α} (hp : Spares p P) : Spares (lexeme p) P :=
  skips_skipSpace.seqRight hp

theorem headWord_semicolon (s : List Char) : headWord (s ++ [';']) = headWord s := by
  rw [headWord, takeWhile_semicolon (by decide), headWord]

theorem skips_keyword (w : String) : Skips (keyword w) := by
  refine Spares.lexeme fun s => ?_
  rw [headWord_semicolon, dropWhile_semicolon (by decide)]
  split
  · exact .inr ⟨s.takeWhile isWordChar, (), s.dropWhile isWordChar,
      List.takeWhile_append_dropWhile.symm, rfl, rfl,
      List.count_eq_zero.mpr (not_mem_takeWhile (by decide) s)⟩
  · exact .inl ⟨rfl, rfl⟩

theorem skips_symbol {w : String} (no : ';' ∉ w.toList) : Skips (symbol w) :=
  (skips_literal no).lexeme

theorem skips_notKeyword : Skips notKeyword := by
  intro s
  unfold notKeyword startsWithKeyword
  rw [headWord_semicolon]
  split
  · exact .inl ⟨rfl, rfl⟩
  · exact .inr ⟨[], (), s, rfl, rfl, rfl, rfl⟩

def semicolons (s : String) : Nat :=
  s.toList.count ';'

theorem semicolons_ofList (cs : List Char) : semicolons (String.ofList cs) = cs.count ';' := by
  rw [semicolons, String.toList_ofList]

theorem semicolons_eq_zero {cs : List Char} (none : ';' ∉ cs) :
    semicolons (String.ofList cs) = 0 :=
  (semicolons_ofList cs).trans (List.count_eq_zero.mpr none)

theorem spares_bareName : Spares bareName (semicolons · = ·) := by
  refine skips_notKeyword.bind fun _ n (hn : n = 0) => ?_
  refine (spares_charIf (by decide)).bind fun c m hc => ?_
  refine (spares_run (by decide)).bind fun cs k hcs => .pure ?_
  rw [semicolons_eq_zero (by simp [hc.1.symm, hcs.1]), hn, hc.2, hcs.2]

theorem quotedName_unclosed {s : List Char} (open_ : backtick ∉ s) :
    quotedName (backtick :: s) = none := by
  rw [quotedName, bind_reads (char_cons _ _)]
  by_cases nothing : s = []
  · rw [nothing]
    rfl
  · have all : ∀ c ∈ s, (c != backtick) := fun c hc => by
      simpa using fun tick : c = backtick => open_ (tick ▸ hc)
    have inside := run1_append (r := []) nothing all (by simp)
    rw [List.append_nil] at inside
    rw [bind_reads inside]
    rfl

theorem spares_quotedName : Spares quotedName (semicolons · = ·) := by
  intro s
  cases s with
  | nil => exact .inl ⟨rfl, rfl⟩
  | cons c s =>
    by_cases tick : c = backtick
    · subst tick
      by_cases closed : backtick ∈ s
      · obtain ⟨n, r, rfl, first⟩ := List.eq_append_cons_of_mem closed
        by_cases nothing : n = []
        · rw [nothing]
          exact .inl ⟨rfl, rfl⟩
        · have reads (t : List Char) : quotedName (backtick :: (n ++ backtick :: t)) =
              some (String.ofList n, t) := by
            have read := quotedName_append (isName_ofList nothing first) t
            rwa [String.toList_ofList, List.cons_append, List.append_assoc] at read
          refine .inr ⟨backtick :: (n ++ [backtick]), _, r, by simp, reads r, ?_, ?_⟩
          · rw [List.cons_append, List.append_assoc]
            exact reads _
          · simp [semicolons_ofList, backtick]
      · have closed' : backtick ∉ s ++ [';'] := by simpa [backtick] using closed
        exact .inl ⟨quotedName_unclosed closed, quotedName_unclosed closed'⟩
    · exact .inl ⟨quotedName_none tick, quotedName_none tick⟩

theorem spares_name : Spares name (semicolons · = ·) :=
  (spares_quotedName.orElse spares_bareName).lexeme

theorem stringRest_plain {c : Char} (plain : c ≠ '\x27') (s : List Char) :
    stringRest (c :: s) = (stringRest s).map fun p => (c :: p.1, p.2) := by
  rw [stringRest]
  · cases stringRest s <;> rfl
  · exact fun _ quote _ => plain quote
  · exact plain

theorem spares_stringRest : Spares stringRest fun cs n => cs.count ';' = n := by
  intro s
  fun_induction stringRest s with
  | case1 s ih =>
    obtain ⟨none, none'⟩ | ⟨w, cs, r, rfl, read, read', count⟩ := ih
    · refine .inl ⟨by rw [none]; rfl, ?_⟩
      rw [List.cons_append, List.cons_append, stringRest, none']
      rfl
    · refine .inr ⟨'\x27' :: '\x27' :: w, '\x27' :: cs, r, rfl, by rw [read]; rfl, ?_, ?_⟩
      · rw [List.cons_append, List.cons_append, stringRest, read']
        rfl
      · simpa using count
  | case2 s single =>
    refine .inr ⟨['\x27'], [], s, rfl, rfl, ?_, rfl⟩
    rw [List.cons_append, stringRest]
    rintro r double
    cases s with
    | nil => cases double
    | cons c s => exact single s (congrArg (· :: s) (List.cons.inj double).1)
  | case3 c s _ single ih =>
    have again := stringRest_plain single (s ++ [';'])
    obtain ⟨none, none'⟩ | ⟨w, cs, r, rfl, read, read', count⟩ := ih
    · exact .inl ⟨by rw [none]; rfl, by rw [List.cons_append, again, none']; rfl⟩
    · refine .inr ⟨c :: w, c :: cs, r, rfl, by rw [read]; rfl, ?_, ?_⟩
      · rw [List.cons_append, again, read']
        rfl
      · simpa [List.count_cons] using count
  | case4 => exact .inl ⟨rfl, rfl⟩

theorem spares_string : Spares string (semicolons · = ·) := by
  refine Spares.lexeme ((spares_charIf (by decide)).bind fun _ n quote => ?_)
  refine spares_stringRest.bind fun cs m hcs => .pure ?_
  rw [semicolons_ofList, hcs, quote.2, Nat.zero_add, Nat.add_zero]

theorem spares_tableName : Spares tableName (semicolons · = ·) := by
  refine spares_quotedName.lexeme.orElse (spares_string.orElse (Spares.lexeme ?_))
  refine skips_notKeyword.bind fun _ n (hn : n = 0) => ?_
  refine (spares_run1 (by decide)).bind fun cs m hcs => .pure ?_
  rw [semicolons_eq_zero hcs.1, hn, hcs.2]

theorem spares_digits : Spares digits fun ds n => ';' ∉ ds ∧ n = 0 :=
  spares_run1 (by decide)

theorem spares_fraction : Spares fraction fun ds n => ';' ∉ ds ∧ n = 0 := by
  refine Spares.orElse ?_ (.pure ⟨by simp, rfl⟩)
  refine (spares_charIf (by decide)).bind fun _ n point => ?_
  exact spares_digits.bind fun ds m hds => .pure ⟨by simpa using hds.1, by rw [point.2, hds.2]⟩

theorem spares_exponent : Spares exponent fun ds n => ';' ∉ ds ∧ n = 0 := by
  refine Spares.orElse ?_ (.pure ⟨by simp, rfl⟩)
  refine (spares_charIf (by decide)).bind fun e n he => ?_
  refine (spares_signIf (by decide)).bind fun sign m hsign => ?_
  refine spares_digits.bind fun ds k hds => .pure ⟨?_, by rw [he.2, hsign.2, hds.2]⟩
  simp [he.1.symm, hsign.1, hds.1]

theorem spares_number : Spares number (semicolons · = ·) := by
  refine Spares.lexeme ((spares_signIf (by decide)).bind fun sign n hsign => ?_)
  refine spares_digits.bind fun whole m hwhole => ?_
  refine spares_fraction.bind fun places k hplaces => ?_
  refine spares_exponent.bind fun power l hpower => .pure ?_
  rw [semicolons_eq_zero (by simp [hsign.1, hwhole.1, hplaces.1, hpower.1]), hsign.2, hwhole.2,
    hplaces.2, hpower.2]

/-! ## What a statement keeps -/

def Literal.semicolons : Literal → Nat
  | .text s => Sql.semicolons s
  | .number spelling => Sql.semicolons spelling
  | _ => 0

mutual

/-- The semicolons in the names and texts of a condition. -/
def Condition.semicolons : Condition → Nat
  | .all parts => semicolonsAll parts
  | .any parts => semicolonsAll parts
  | .not part => part.semicolons
  | .compare column _ value => Sql.semicolons column + value.semicolons
  | .oneOf column values _ => values.foldr (·.semicolons + ·) (Sql.semicolons column)
  | .isNull column _ => Sql.semicolons column
  | .like column pattern _ => Sql.semicolons column + Sql.semicolons pattern
  | .between column low high _ => Sql.semicolons column + (low.semicolons + high.semicolons)

def Condition.semicolonsAll : List Condition → Nat
  | [] => 0
  | p :: ps => p.semicolons + semicolonsAll ps

end

def Column.semicolons (c : Column) : Nat :=
  Sql.semicolons c.source + c.label.elim 0 Sql.semicolons

def Projection.semicolons : Projection → Nat
  | .everything => 0
  | .columns items => items.foldr (·.semicolons + ·) 0

def Select.semicolons (s : Select) : Nat :=
  s.projection.semicolons + (s.collection.elim 0 Sql.semicolons +
    (s.condition.elim 0 Condition.semicolons +
      s.order.foldr (Sql.semicolons ·.column + ·) 0))

theorem Together.foldr_eq {w : α → Nat} {as : List α} {n : Nat} (h : Together (w · = ·) as n)
    (k : Nat) : as.foldr (w · + ·) k = n + k := by
  induction as generalizing n with
  | nil =>
    have none : n = 0 := h
    rw [none, Nat.zero_add]
    rfl
  | cons a as ih =>
    obtain ⟨first, others, ha, has, rfl⟩ := h
    rw [List.foldr_cons, ha, ih has, Nat.add_assoc]

theorem IfAny.elim_eq {w : α → Nat} {o : Option α} {n : Nat} (h : IfAny (w · = ·) o n) :
    o.elim 0 w = n := by
  cases o with
  | none => exact Eq.symm h
  | some a => exact h

theorem meant_ok {w : α → Nat} {a : α} {n : Nat} (h : w a = n) : Meant w (.ok a) n := by
  rintro b ⟨⟩
  exact h

theorem Together.meant {cs : List Condition} {n : Nat}
    (h : Together (Meant Condition.semicolons) (cs.map .ok) n) :
    Condition.semicolonsAll cs = n := by
  induction cs generalizing n with
  | nil => exact Eq.symm h
  | cons c cs ih =>
    obtain ⟨k, m, hc, hcs, rfl⟩ := h
    rw [Condition.semicolonsAll, hc c rfl, ih hcs]

/-! ## Predicates -/

theorem spares_literalValue : Spares literalValue (Literal.semicolons · = ·) := by
  have word (k : String) (l : Literal) (none : l.semicolons = 0) :
      Spares (keyword k *> pure l) (Literal.semicolons · = ·) :=
    (skips_keyword k).seqRight (.pure none)
  refine .orElse (spares_string.map fun _ _ h => h) ?_
  refine .orElse (spares_number.map fun _ _ h => h) ?_
  exact (word _ _ rfl).orElse ((word _ _ rfl).orElse (word _ _ rfl))

theorem skips_comparator : Skips comparator := by
  have sign {s : String} (no : ';' ∉ s.toList) (op : Comparator) : Skips (symbol s *> pure op) :=
    (skips_symbol no).seqRight (.pure rfl)
  exact (sign (by decide) _).orElse <| (sign (by decide) _).orElse <|
    (sign (by decide) _).orElse <| (sign (by decide) _).orElse <|
    (sign (by decide) _).orElse <| (sign (by decide) _).orElse (sign (by decide) _)

theorem comparisonMeaning_meant {column : String} {op : Comparator} {value : Literal}
    {text : String} : Meant Condition.semicolons (comparisonMeaning column op value text)
      (semicolons column + value.semicolons) := by
  intro c h
  cases value <;> cases op <;> cases h <;> rfl

theorem spares_comparison : Spares comparison (Meant Condition.semicolons) := by
  refine skips_skipSpace.bind fun _ n (hn : n = 0) => ?_
  refine Spares.bind (Spares.withText
    (P := fun r n => semicolons r.1 + r.2.2.semicolons = n) ?_) ?_
  · refine spares_name.bind fun column n name => skips_comparator.bind fun op m (hm : m = 0) =>
      spares_literalValue.bind fun value k ok => .pure ?_
    dsimp only at name ok ⊢
    omega
  · rintro ⟨⟨column, op, value⟩, text⟩ m count
    refine .pure ?_
    rw [hn, ← count, Nat.zero_add]
    exact comparisonMeaning_meant

theorem skips_negation : Skips negation :=
  .orElse ((skips_keyword _).seqRight (.pure rfl)) (.pure rfl)

theorem spares_membership : Spares membership (Condition.semicolons · = ·) := by
  refine spares_name.bind fun column n name => skips_negation.bind fun _ m (hm : m = 0) => ?_
  refine (skips_keyword _).bind fun _ k (hk : k = 0) => ?_
  refine (skips_symbol (by decide)).bind fun _ i (hi : i = 0) => ?_
  refine ((skips_symbol (by decide)).sepBy1 spares_literalValue).bind fun values j total => ?_
  refine (skips_symbol (by decide)).bind fun _ l (hl : l = 0) => .pure ?_
  have sum := total.foldr_eq (Sql.semicolons column)
  simp only [Condition.semicolons]
  omega

theorem spares_nullTest : Spares nullTest (Condition.semicolons · = ·) := by
  refine spares_name.bind fun column n name => (skips_keyword _).bind fun _ m (hm : m = 0) => ?_
  refine skips_negation.bind fun _ k (hk : k = 0) => ?_
  refine (skips_keyword _).bind fun _ i (hi : i = 0) => .pure ?_
  simp only [Condition.semicolons]
  omega

theorem spares_likeTest : Spares likeTest (Condition.semicolons · = ·) := by
  refine spares_name.bind fun column n name => skips_negation.bind fun _ m (hm : m = 0) => ?_
  refine (skips_keyword _).bind fun _ k (hk : k = 0) => ?_
  refine spares_string.bind fun pattern i text => .pure ?_
  simp only [Condition.semicolons]
  omega

theorem spares_rangeTest : Spares rangeTest (Condition.semicolons · = ·) := by
  refine spares_name.bind fun column n name => skips_negation.bind fun _ m (hm : m = 0) => ?_
  refine (skips_keyword _).bind fun _ k (hk : k = 0) => ?_
  refine spares_literalValue.bind fun low i hlow => ?_
  refine (skips_keyword _).bind fun _ j (hj : j = 0) => ?_
  refine spares_literalValue.bind fun high l hhigh => .pure ?_
  simp only [Condition.semicolons]
  omega

theorem spares_predicate : Spares predicate (Meant Condition.semicolons) :=
  (spares_rangeTest.map fun _ _ => meant_ok).orElse <|
    (spares_membership.map fun _ _ => meant_ok).orElse <|
    (spares_nullTest.map fun _ _ => meant_ok).orElse <|
    (spares_likeTest.map fun _ _ => meant_ok).orElse spares_comparison

/-! ## Conditions -/

theorem joined_meant {join : List Condition → Condition} {parts : List (Meaning Condition)}
    {n : Nat} (joins : ∀ cs, (join cs).semicolons = Condition.semicolonsAll cs)
    (h : Together (Meant Condition.semicolons) parts n) :
    Meant Condition.semicolons (joined join parts) n := by
  intro c ok
  obtain ⟨cs, each, -⟩ := bind_eq_ok ok
  obtain rfl := mapM_id_eq_ok each
  rw [joined_ok] at ok
  cases ok
  rw [← h.meant]
  match cs with
  | [] => exact joins []
  | [d] => rfl
  | d :: e :: cs => exact joins (d :: e :: cs)

theorem negations_meant {m : Meaning Condition} {n : Nat} (h : Meant Condition.semicolons m n)
    (k : Nat) : Meant Condition.semicolons (negations k m) n := by
  induction k with
  | zero => exact h
  | succ k ih =>
    intro c ok
    rw [negations] at ok
    cases inner : negations k m with
    | error e =>
      rw [inner] at ok
      cases ok
    | ok d =>
      rw [inner] at ok
      cases ok
      exact ih d inner

section Conditions

variable {inner : Reader (Meaning Condition)}

theorem spares_primary (h : Spares inner (Meant Condition.semicolons)) :
    Spares (primary inner) (Meant Condition.semicolons) :=
  (((skips_symbol (by decide)).seqRight h).seqLeft (skips_symbol (by decide))).orElse
    spares_predicate

theorem spares_factor (h : Spares inner (Meant Condition.semicolons)) :
    Spares (factor inner) (Meant Condition.semicolons) := by
  refine (skips_keyword _).many.bind fun nots n (hn : n = 0) => ?_
  refine (spares_primary h).bind fun m k hm => .pure ?_
  rw [hn, Nat.zero_add]
  exact negations_meant hm nots.length

theorem spares_conjunction (h : Spares inner (Meant Condition.semicolons)) :
    Spares (conjunction inner) (Meant Condition.semicolons) :=
  ((skips_keyword _).sepBy1 (spares_factor h)).map fun _ _ => joined_meant fun _ => rfl

theorem spares_disjunction (h : Spares inner (Meant Condition.semicolons)) :
    Spares (disjunction inner) (Meant Condition.semicolons) :=
  ((skips_keyword _).sepBy1 (spares_conjunction h)).map fun _ _ => joined_meant fun _ => rfl

theorem spares_condition (depth : Nat) :
    Spares (condition depth) (Meant Condition.semicolons) := by
  induction depth with
  | zero => exact .failure
  | succ depth ih => exact spares_disjunction ih

end Conditions

/-! ## Depth -/

theorem Spares.length_le {p : Reader α} (hp : Spares p P) {s r : List Char} {a : α}
    (read : p s = some (a, r)) : r.length ≤ s.length := by
  obtain ⟨none, -⟩ | ⟨w, a', r', rfl, same, -, -⟩ := hp s
  · cases none.symm.trans read
  · obtain ⟨rfl, rfl⟩ := Prod.mk.inj (Option.some.inj (read.symm.trans same))
    simp

/-- The readers do the same to texts shorter than `n`. -/
def Alike (n : Nat) (p q : Reader α) : Prop :=
  ∀ s, s.length < n → p s = q s

namespace Alike

variable {n : Nat} {p p' q q' : Reader α}

theorem refl (p : Reader α) : Alike n p p :=
  fun _ _ => rfl

theorem bind {f f' : α → Reader β} (spares : Spares p P) (hp : Alike n p p')
    (hf : ∀ a, Alike n (f a) (f' a)) : Alike n (p >>= f) (p' >>= f') := by
  intro s short
  cases read : p s with
  | none => rw [bind_refuses read, bind_refuses ((hp s short).symm.trans read)]
  | some both =>
    obtain ⟨a, r⟩ := both
    have less := spares.length_le read
    rw [bind_reads read, bind_reads ((hp s short).symm.trans read)]
    exact hf a r (by omega)

theorem map (g : α → β) (hp : Alike n p p') : Alike n (g <$> p) (g <$> p') := by
  intro s short
  rw [map_eq_pure_bind, map_eq_pure_bind, bind_apply, bind_apply, hp s short]

theorem seqLeft (hp : Alike n p p') (q : Reader β) : Alike n (p <* q) (p' <* q) := by
  intro s short
  rw [seqLeft_apply, seqLeft_apply, hp s short]

theorem orElse (hp : Alike n p p') (q : Reader α) : Alike n (p <|> q) (p' <|> q) := by
  intro s short
  rw [orElse_apply, orElse_apply, hp s short]

theorem many (hp : Alike n p p') : Alike n (many p) (many p') := by
  intro s short
  refine congrArg some ?_
  fun_induction manyFrom p s with
  | case1 s none => rw [manyFrom, ← hp s short, none]
  | case2 s a r read less as t rest ih =>
    rw [manyFrom, ← hp s short, read]
    simp only [if_pos less, ← ih (by omega), rest]
  | case3 s a r read more =>
    rw [manyFrom, ← hp s short, read]
    simp only [if_neg more]

theorem sepBy1 {sep : Reader β} (separates : Skips sep) (spares : Spares p P) (hp : Alike n p p') :
    Alike n (sepBy1 sep p) (sepBy1 sep p') := by
  have again : Alike n (sep *> p) (sep *> p') := (refl sep).bind separates fun _ => hp
  exact hp.bind spares fun a =>
    again.many.bind (separates.seqRight spares).many fun as => refl (pure (a :: as))

end Alike

/-- Behind an opening parenthesis the text is shorter. -/
theorem length_lt_of_symbol {s r : List Char} (opened : symbol "(" s = some ((), r)) :
    r.length < s.length := by
  have kept := (List.dropWhile_suffix (l := s) isSpace).length_le
  rw [symbol_eq_some opened] at kept
  exact kept

section Depth

variable {n : Nat} {inner inner' : Reader (Meaning Condition)}

theorem primary_alike (h : Alike n inner inner') :
    Alike (n + 1) (primary inner) (primary inner') := by
  have opened : Alike (n + 1) (symbol "(" *> inner) (symbol "(" *> inner') := by
    intro s short
    cases read : symbol "(" s with
    | none => exact (bind_refuses read).trans (bind_refuses read).symm
    | some both =>
      obtain ⟨⟨⟩, r⟩ := both
      have less := length_lt_of_symbol read
      have rest (q : Reader (Meaning Condition)) : (symbol "(" *> q) s = q r := bind_reads read
      rw [rest, rest, h r (by omega)]
  exact (opened.seqLeft _).orElse _

theorem disjunction_alike (spares : Spares inner (Meant Condition.semicolons))
    (h : Alike n inner inner') : Alike (n + 1) (disjunction inner) (disjunction inner') := by
  have factors : Alike (n + 1) (factor inner) (factor inner') :=
    (Alike.refl _).bind (skips_keyword _).many fun nots =>
      (primary_alike h).bind (spares_primary spares) fun m => .refl _
  have conjunctions : Alike (n + 1) (conjunction inner) (conjunction inner') :=
    (factors.sepBy1 (skips_keyword _) (spares_factor spares)).map _
  exact (conjunctions.sepBy1 (skips_keyword _) (spares_conjunction spares)).map _

/-- Deeper than a text is long no parenthesis is found, so the depth does not matter there. -/
theorem condition_alike {k m : Nat} (hk : n ≤ k) (hm : n ≤ m) :
    Alike n (condition k) (condition m) := by
  induction n generalizing k m with
  | zero => exact fun s short => absurd short (by simp)
  | succ n ih =>
    obtain ⟨k, rfl⟩ := Nat.exists_eq_succ_of_ne_zero (n := k) (by omega)
    obtain ⟨m, rfl⟩ := Nat.exists_eq_succ_of_ne_zero (n := m) (by omega)
    exact disjunction_alike (spares_condition k) (ih (by omega) (by omega))

end Depth

theorem spares_anyCondition : Spares anyCondition (Meant Condition.semicolons) := by
  intro s
  have same : anyCondition s = condition (s.length + 2) s :=
    condition_alike (n := s.length + 1) (by omega) (by omega) s (by omega)
  have longer : anyCondition (s ++ [';']) = condition (s.length + 2) (s ++ [';']) := by
    rw [anyCondition, List.length_append, List.length_singleton]
  rw [same, longer]
  exact spares_condition (s.length + 2) s

/-! ## Statements -/

theorem spares_column : Spares column (Column.semicolons · = ·) := by
  refine spares_name.bind fun source n hs => ?_
  refine ((skips_keyword _).optional.seqRight spares_name).optional.bind fun label m hl => .pure ?_
  rw [Column.semicolons, hs, hl.elim_eq, Nat.add_zero]

theorem spares_projection : Spares projection (Projection.semicolons · = ·) :=
  .orElse ((skips_symbol (by decide)).seqRight (.pure rfl))
    (((skips_symbol (by decide)).sepBy1 spares_column).map fun _ _ items => items.foldr_eq 0)

theorem spares_sortKey : Spares sortKey fun k n => semicolons k.column = n := by
  have direction (w : String) (d : Direction) : Skips (keyword w *> pure d) :=
    (skips_keyword w).seqRight (.pure rfl)
  have either : Skips (keyword "asc" *> pure Direction.asc <|> keyword "desc" *> pure .desc) :=
    .orElse (direction _ _) (direction _ _)
  refine spares_name.bind fun column n hc => either.optional.bind fun d m (hm : m = 0) => .pure ?_
  rw [hm]
  exact hc

theorem spares_fromClause : Spares fromClause (semicolons · = ·) :=
  (skips_keyword _).seqRight (spares_tableName.orElse (.pure rfl))

theorem spares_orderClause :
    Spares orderClause fun keys n => keys.foldr (semicolons ·.column + ·) 0 = n :=
  (skips_keyword _).seqRight <| (skips_keyword _).seqRight <|
    ((skips_symbol (by decide)).sepBy1 spares_sortKey).imp fun _ _ keys => keys.foldr_eq 0

theorem skips_countClause (word clause : String) : Skips (countClause word clause) :=
  (skips_keyword _).seqRight (spares_digits.lexeme.map fun _ _ h => h.2)

theorem spares_select : Spares select (Meant Select.semicolons) := by
  refine (skips_keyword _).bind fun _ n₀ (h₀ : n₀ = 0) => ?_
  refine spares_projection.bind fun projection n₁ h₁ => ?_
  refine spares_fromClause.optional.bind fun collection n₂ h₂ => ?_
  refine ((skips_keyword _).seqRight spares_anyCondition).optional.bind fun condition n₃ h₃ => ?_
  refine spares_orderClause.optional.bind fun order n₄ h₄ => ?_
  refine (skips_countClause _ _).optional.bind fun limit n₅ (h₅ : n₅ = 0) => ?_
  refine (skips_countClause _ _).optional.bind fun offset n₆ (h₆ : n₆ = 0) => .pure ?_
  intro s h
  obtain ⟨c, meant, h⟩ := bind_eq_ok h
  obtain ⟨l, -, h⟩ := bind_eq_ok h
  obtain ⟨o, -, h⟩ := bind_eq_ok h
  cases h
  obtain rfl := optionalMeaning_eq_ok meant
  have kept : c.elim 0 Condition.semicolons = n₃ := by
    cases c with
    | none => exact Eq.symm h₃
    | some c => exact h₃ c rfl
  have sorted : (order.getD []).foldr (semicolons ·.column + ·) 0 = n₄ := by
    cases order with
    | none => exact Eq.symm h₄
    | some keys => exact h₄
  have named := h₂.elim_eq
  rw [Select.semicolons, h₁, named, kept, sorted, h₀, h₅, h₆]
  omega

/-- What the end of a statement accepts is blanks, and a semicolon or none. -/
theorem isEnding_of_optional {s r : List Char} {o : Option Unit}
    (read : optional (symbol ";") s = some (o, r)) (gone : r.dropWhile isSpace = []) :
    IsEnding s := by
  cases stop : symbol ";" s with
  | none =>
    obtain ⟨-, rfl⟩ := Prod.mk.inj (Option.some.inj ((optional_refuses stop).symm.trans read))
    exact .inl (List.dropWhile_eq_nil_iff.mp gone)
  | some both =>
    obtain ⟨⟨⟩, t⟩ := both
    obtain ⟨-, rfl⟩ := Prod.mk.inj (Option.some.inj ((optional_reads stop).symm.trans read))
    have split := symbol_eq_some stop
    have whole := List.takeWhile_append_dropWhile (p := isSpace) (l := s)
    rw [split] at whole
    exact .inr ⟨s.takeWhile isSpace, t, fun _ => List.mem_takeWhile_imp,
      List.dropWhile_eq_nil_iff.mp gone, whole.symm⟩

section Texts

variable {text : String} {s : Select}

theorem select_of_ofText? (accepted : Select.ofText? text = .ok s) :
    ∃ r, select text.toList = some (.ok s, r) ∧ IsEnding r := by
  have whole := statement_of_ofText? accepted
  rw [statement, seqLeft_apply] at whole
  obtain ⟨⟨m, t⟩, read, blanks⟩ := Option.bind_eq_some_iff.mp whole
  rw [seqLeft_apply] at read
  obtain ⟨⟨m', r⟩, selected, stop⟩ := Option.bind_eq_some_iff.mp read
  obtain ⟨⟨o, t'⟩, ended, same⟩ := Option.map_eq_some_iff.mp stop
  obtain ⟨rfl, rfl⟩ := Prod.mk.inj same
  obtain ⟨⟨_, u⟩, skipped, same⟩ := Option.map_eq_some_iff.mp blanks
  obtain ⟨rfl, rfl⟩ := Prod.mk.inj same
  exact ⟨r, selected, isEnding_of_optional ended (Prod.mk.inj (Option.some.inj skipped)).2⟩

/-- A semicolon behind an accepted text that has none ends it and changes nothing. -/
theorem ofText?_semicolon (plain : ';' ∉ text.toList) (accepted : Select.ofText? text = .ok s) :
    Select.ofText? (text ++ ";") = .ok s := by
  obtain ⟨r, read, ends⟩ := select_of_ofText? accepted
  obtain ⟨none, -⟩ | ⟨w, m, r', split, same, read', -⟩ := spares_select text.toList
  · cases none.symm.trans read
  obtain ⟨rfl, rfl⟩ := Prod.mk.inj (Option.some.inj (read.symm.trans same))
  have blank : IsBlank r := by
    obtain blank | ⟨b, b', -, -, rfl⟩ := ends
    · exact blank
    · exact absurd (by simp [split]) plain
  refine ofText?_of_read (readAll?_of_select ?_ (.inr ⟨r, [], blank, isBlank_nil, rfl⟩))
  rwa [String.toList_append]

theorem IsEnding.quote_not_mem {r : List Char} (ends : IsEnding r) : '\x27' ∉ r := by
  have solid {b : List Char} (blank : IsBlank b) : '\x27' ∉ b := fun mem =>
    absurd (blank _ mem) (by decide)
  obtain blank | ⟨b, b', blank, blank', rfl⟩ := ends
  · exact solid blank
  · simp [solid blank, solid blank']

/-- If the text ends in a string, every semicolon in it is one of a name or of a text. -/
theorem semicolons_of_ofText? (quoted : ['\x27'] <:+ text.toList)
    (accepted : Select.ofText? text = .ok s) : s.semicolons = semicolons text := by
  obtain ⟨r, read, ends⟩ := select_of_ofText? accepted
  obtain ⟨none, -⟩ | ⟨w, m, r', split, same, -, kept⟩ := spares_select text.toList
  · cases none.symm.trans read
  obtain ⟨rfl, rfl⟩ := Prod.mk.inj (Option.some.inj (read.symm.trans same))
  by_cases last : r = []
  · rw [last, List.append_nil] at split
    rw [kept s rfl, semicolons, split]
  · have some : ['\x27'].length ≤ r.length := List.length_pos_iff.mpr last
    have suffix := List.suffix_of_suffix_length_le quoted ⟨w, split.symm⟩ some
    exact absurd (suffix.subset (by simp)) ends.quote_not_mem

end Texts

end SearchSelect.Sql
