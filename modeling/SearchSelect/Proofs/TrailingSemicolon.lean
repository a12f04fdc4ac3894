import SearchSelect.Proofs.MixedShorthand
import SearchSelect.Proofs.SemicolonReading

/-! A semicolon at the end of a query. The scan for shorthand meets it before the grammar does, and
to the scan it is one more character of a bare token. Behind a query that ends in such a token the
semicolon becomes part of the value; behind every other query without semicolons it changes
nothing. -/

namespace SearchSelect.Sql

open Text
open Shorthand (stringRest? phraseRest? value? pair? expand isBare isFieldChar isFieldStart
  doubleQuotes plainQuotes Pair)

variable {s t v f inside body : List Char} {c : Char} {p : Pair}

/-! ## The scan in front of a semicolon -/

theorem stringRest?_semicolon (s : List Char) :
    stringRest? (s ++ [';']) = (stringRest? s).map fun r => (r.1, r.2 ++ [';']) := by
  fun_induction stringRest? s with
  | case1 s _ _ closed ih =>
    rw [List.cons_append, List.cons_append, stringRest?, ih, closed]
    rfl
  | case2 s open_ ih =>
    rw [List.cons_append, List.cons_append, stringRest?, ih, open_]
    rfl
  | case3 s single =>
    rw [List.cons_append, stringRest?]
    · rfl
    · rintro r double
      cases s with
      | nil => cases double
      | cons c s => exact single s (congrArg (· :: s) (List.cons.inj double).1)
  | case4 c s double single ih =>
    rw [List.cons_append, stringRest?, ih]
    · cases stringRest? s <;> rfl
    · exact fun _ quote _ => single quote
    · exact single
  | case5 => rfl

theorem phraseRest?_semicolon (s : List Char) :
    phraseRest? (s ++ [';']) = (phraseRest? s).map fun r => (r.1, r.2 ++ [';']) := by
  fun_induction phraseRest? s with
  | case1 s =>
    rw [List.cons_append, List.cons_append, phraseRest?, if_pos rfl]
    rfl
  | case2 c s line ih =>
    rw [List.cons_append, List.cons_append, phraseRest?, if_neg line, ih]
    cases phraseRest? s <;> rfl
  | case3 s =>
    rw [List.cons_append, phraseRest?]
    rfl
  | case4 s none _ =>
    -- a backslash stands alone at the end, and takes the semicolon with it
    cases s with
    | nil => rfl
    | cons c s => exact absurd rfl (none c s rfl)
  | case5 c s _ quote slash ih =>
    rw [List.cons_append, phraseRest?, if_neg slash, ih]
    · cases phraseRest? s <;> rfl
    · exact fun _ _ same _ => slash same
    · exact quote
  | case6 => rfl

/-- A run that ends within a text ends there whatever follows the text. -/
theorem takeWhile_append_of_ends {q : Char → Bool} (ends : s.dropWhile q ≠ []) (r : List Char) :
    (s ++ r).takeWhile q = s.takeWhile q ∧ (s ++ r).dropWhile q = s.dropWhile q ++ r := by
  induction s with
  | nil => exact absurd rfl ends
  | cons c s ih =>
    cases hc : q c with
    | true =>
      rw [List.dropWhile_cons_of_pos hc] at ends
      simp [hc, ih ends]
    | false => simp [hc]

theorem value?_unquoted (double : c ≠ '\x22') (single : c ≠ '\x27') (s : List Char) :
    value? (c :: s) = if ((c :: s).takeWhile isBare).isEmpty then none
      else some ((c :: s).takeWhile isBare, (c :: s).dropWhile isBare) := by
  rw [value?]
  · exact fun _ quote => double (List.cons.inj quote).1
  · exact fun _ quote => single (List.cons.inj quote).1

theorem value?_bare (some : v ≠ []) (bare : ∀ c ∈ v, isBare c) : value? v = .some (v, []) := by
  have single : '\x27' ∉ v := fun mem => absurd (bare _ mem) (by decide)
  have read := value?_token (r := []) some bare (by simp [Spaced])
  rwa [List.append_nil, doubleQuotes_eq_self single] at read

/-- At the end of a text the semicolon goes on with a bare token, or is one. -/
theorem value?_semicolon (s : List Char) :
    value? (s ++ [';']) = (value? s).map (fun r => (r.1, r.2 ++ [';'])) ∨ ∀ c ∈ s, isBare c := by
  cases s with
  | nil => exact .inr (by simp)
  | cons c s =>
    by_cases double : c = '\x22'
    · subst double
      left
      rw [List.cons_append, value?, value?, phraseRest?_semicolon]
      cases phraseRest? s <;> rfl
    by_cases single : c = '\x27'
    · subst single
      exact .inl (stringRest?_semicolon s)
    by_cases ends : (c :: s).dropWhile isBare = []
    · exact .inr (List.dropWhile_eq_nil_iff.mp ends)
    · obtain ⟨taken, dropped⟩ := takeWhile_append_of_ends ends [';']
      left
      rw [List.cons_append, value?_unquoted double single, value?_unquoted double single,
        ← List.cons_append, taken, dropped]
      split <;> rfl

/-- Either a field with its colon stands at the head, or no shorthand does. -/
theorem pair?_cases (s : List Char) :
    (∃ c f t, s = c :: (f ++ ':' :: t) ∧ isFieldStart c ∧ ∀ d ∈ f, isFieldChar d) ∨
      pair? s = none ∧ pair? (s ++ [';']) = none := by
  cases s with
  | nil => exact .inr ⟨rfl, rfl⟩
  | cons c s =>
    by_cases start : isFieldStart c
    · by_cases colon : ∃ t, s.dropWhile isFieldChar = ':' :: t
      · obtain ⟨t, colon⟩ := colon
        have split := List.takeWhile_append_dropWhile (p := isFieldChar) (l := s)
        rw [colon] at split
        exact .inl ⟨c, s.takeWhile isFieldChar, t, by rw [split], start, fun _ =>
          List.mem_takeWhile_imp⟩
      · have none : ∀ t, s.dropWhile isFieldChar ≠ ':' :: t := fun t h => colon ⟨t, h⟩
        have none' : ∀ t, (s ++ [';']).dropWhile isFieldChar ≠ ':' :: t := by
          intro t h
          rw [dropWhile_semicolon (by decide)] at h
          cases rest : s.dropWhile isFieldChar with
          | nil =>
            rw [rest] at h
            cases h
          | cons d u =>
            rw [rest] at h
            obtain rfl := (List.cons.inj h).1
            exact none u rest
        exact .inr ⟨pair?_of_no_colon none, pair?_of_no_colon none'⟩
    · exact .inr ⟨by rw [pair?, if_neg start], by rw [List.cons_append, pair?, if_neg start]⟩

theorem pair?_semicolon (s : List Char) :
    pair? (s ++ [';']) = (pair? s).map (fun p => { p with rest := p.rest ++ [';'] }) ∨
      ∃ c f v, s = c :: (f ++ ':' :: v) ∧ isFieldStart c ∧ (∀ d ∈ f, isFieldChar d) ∧
        ∀ d ∈ v, isBare d := by
  obtain ⟨c, f, t, rfl, start, field⟩ | ⟨none, none'⟩ := pair?_cases s
  · obtain same | bare := value?_semicolon t
    · left
      rw [List.cons_append, List.append_assoc, List.cons_append, pair?_field start field,
        pair?_field start field, same]
      cases value? t <;> rfl
    · exact .inr ⟨c, f, t, rfl, start, field, bare⟩
  · left
    rw [none, none']
    rfl

/-! ## The scan keeps every semicolon -/

theorem eq_append_of_phraseRest? (closed : phraseRest? s = some (inside, t)) :
    s = inside ++ '\x22' :: t := by
  fun_induction phraseRest? s generalizing inside t with
  | case1 => cases closed
  | case2 c s _ ih =>
    obtain ⟨⟨_, _⟩, hs, hu⟩ := Option.map_eq_some_iff.mp closed
    obtain ⟨rfl, rfl⟩ := Prod.mk.inj hu
    rw [List.cons_append, List.cons_append, ← ih hs]
  | case3 s =>
    obtain ⟨rfl, rfl⟩ := Prod.mk.inj (Option.some.inj closed)
    rfl
  | case4 => cases closed
  | case5 c s _ _ _ ih =>
    obtain ⟨⟨_, _⟩, hs, hu⟩ := Option.map_eq_some_iff.mp closed
    obtain ⟨rfl, rfl⟩ := Prod.mk.inj hu
    rw [List.cons_append, ← ih hs]
  | case6 => cases closed

theorem count_plainQuotes (s : List Char) : (plainQuotes s).count ';' = s.count ';' := by
  fun_induction plainQuotes s with
  | case1 s ih => simp [ih]
  | case2 c s _ ih => rw [List.count_cons, List.count_cons, ih]
  | case3 => rfl

theorem count_doubleQuotes (s : List Char) : (doubleQuotes s).count ';' = s.count ';' := by
  induction s with
  | nil => rfl
  | cons c s ih =>
    have step : doubleQuotes (c :: s) =
        (if c = '\x27' then ['\x27', '\x27'] else [c]) ++ doubleQuotes s := rfl
    rw [step, List.count_append, ih, List.count_cons]
    by_cases quote : c = '\x27'
    · simp [quote]
    · rw [if_neg quote, List.count_singleton, Nat.add_comm]

theorem value?_split (read : value? s = some (body, t)) :
    ∃ w, s = w ++ t ∧ body.count ';' = w.count ';' := by
  cases s with
  | nil => cases read
  | cons c s =>
    by_cases double : c = '\x22'
    · subst double
      obtain ⟨⟨inside, u⟩, closed, same⟩ := Option.map_eq_some_iff.mp read
      obtain ⟨rfl, rfl⟩ := Prod.mk.inj same
      refine ⟨'\x22' :: (inside ++ ['\x22']), by simp [eq_append_of_phraseRest? closed], ?_⟩
      rw [count_doubleQuotes, count_plainQuotes]
      simp
    by_cases single : c = '\x27'
    · subst single
      have closed : stringRest? s = some (body, t) := read
      exact ⟨'\x27' :: (body ++ ['\x27']), by simp [eq_append_of_stringRest? closed], by simp⟩
    rw [value?_unquoted double single] at read
    split at read
    · cases read
    · obtain ⟨rfl, rfl⟩ := Prod.mk.inj (Option.some.inj read)
      exact ⟨_, List.takeWhile_append_dropWhile.symm, rfl⟩

theorem pair?_split (found : pair? s = some p) :
    ∃ w, s = w ++ p.rest ∧ p.text.count ';' = w.count ';' := by
  obtain ⟨c, f, t, rfl, start, field⟩ | ⟨none, -⟩ := pair?_cases s
  · rw [pair?_field start field] at found
    obtain ⟨⟨body, u⟩, read, rfl⟩ := Option.map_eq_some_iff.mp found
    obtain ⟨w, rfl, count⟩ := value?_split read
    refine ⟨c :: (f ++ ':' :: w), by simp, ?_⟩
    simp [Pair.text, List.count_cons, List.count_append, count]
  · cases none.symm.trans found

theorem count_expand (s : List Char) : (expand s).count ';' = s.count ';' := by
  fun_induction expand s with
  | case1 => rfl
  | case2 s inside t closed ih =>
    rw [eq_append_of_stringRest? closed]
    simp [ih]
  | case3 s _ ih => simp [ih]
  | case4 c s _ p found ih =>
    obtain ⟨w, split, count⟩ := pair?_split found
    rw [List.count_append, ih, count, ← List.count_append, ← split]
  | case5 c s _ _ ih => rw [List.count_cons, List.count_cons, ih]

/-! ## Texts that end in a bare token -/

/-- The scan comes to a shorthand whose value is a bare token and goes on to the end. -/
inductive EndsInToken : List Char → Prop
  | token {c : Char} {f v : List Char} (start : isFieldStart c) (field : ∀ d ∈ f, isFieldChar d)
      (some : v ≠ []) (bare : ∀ d ∈ v, isBare d) : EndsInToken (c :: (f ++ ':' :: v))
  | pair {s : List Char} {p : Pair} (found : pair? s = some p) (rest : EndsInToken p.rest) :
      EndsInToken s
  | text {s inside t : List Char} (closed : stringRest? s = some (inside, t))
      (rest : EndsInToken t) : EndsInToken ('\x27' :: s)
  | quote {s : List Char} (unclosed : stringRest? s = none) (rest : EndsInToken s) :
      EndsInToken ('\x27' :: s)
  | char {c : Char} {s : List Char} (plain : c ≠ '\x27') (none : pair? (c :: s) = none)
      (rest : EndsInToken s) : EndsInToken (c :: s)

theorem suffix_of_string (inside t : List Char) : t <:+ '\x27' :: (inside ++ '\x27' :: t) :=
  ⟨'\x27' :: (inside ++ ['\x27']), by simp⟩

theorem EndsInToken.bare_suffix (h : EndsInToken s) : ∃ c, isBare c ∧ [c] <:+ s := by
  induction h with
  | @token c f v start field some bare =>
    have last : [v.getLast some] <:+ v := ⟨v.dropLast, List.dropLast_concat_getLast some⟩
    exact ⟨_, bare _ (List.getLast_mem some), last.trans ⟨c :: (f ++ [':']), by simp⟩⟩
  | pair found _ ih =>
    obtain ⟨c, bare, last⟩ := ih
    obtain ⟨w, split, -⟩ := pair?_split found
    exact ⟨c, bare, last.trans ⟨w, split.symm⟩⟩
  | text closed _ ih =>
    obtain ⟨c, bare, last⟩ := ih
    rw [eq_append_of_stringRest? closed]
    exact ⟨c, bare, last.trans (suffix_of_string ..)⟩
  | quote _ _ ih | char _ _ _ ih =>
    obtain ⟨c, bare, last⟩ := ih
    exact ⟨c, bare, last.trans (List.suffix_cons ..)⟩

theorem pair?_token (start : isFieldStart c) (field : ∀ d ∈ f, isFieldChar d) (some : v ≠ [])
    (bare : ∀ d ∈ v, isBare d) : pair? (c :: (f ++ ':' :: v)) = .some ⟨c :: f, v, []⟩ := by
  rw [pair?_field start field, value?_bare some bare]
  rfl

theorem quote_suffix_text (p : Pair) : ['\x27'] <:+ p.text :=
  ⟨p.field ++ ' ' :: '=' :: ' ' :: '\x27' :: p.body, by simp [Pair.text]⟩

/-- What is written out for the token is a string. -/
theorem EndsInToken.quoted (h : EndsInToken s) : ['\x27'] <:+ expand s := by
  induction h with
  | token start field some bare =>
    rw [expand_pair (pair?_token start field some bare), expand, List.append_nil]
    exact quote_suffix_text _
  | pair found _ ih =>
    rw [expand_pair found]
    exact ih.trans (List.suffix_append ..)
  | text closed _ ih =>
    rw [expand_string closed]
    exact ih.trans (suffix_of_string ..)
  | quote unclosed _ ih =>
    rw [expand_quote unclosed]
    exact ih.trans (List.suffix_cons ..)
  | char plain none _ ih =>
    rw [expand_skip plain none]
    exact ih.trans (List.suffix_cons ..)

/-- A field without a value is no shorthand. -/
theorem expand_colon (field : ∀ d ∈ f, isFieldChar d) : expand (f ++ [':']) = f ++ [':'] := by
  induction f with
  | nil => rw [List.nil_append, expand_skip (by decide) rfl, expand]
  | cons c f ih =>
    obtain ⟨first, others⟩ := List.forall_mem_cons.mp field
    have plain : c ≠ '\x27' := by
      rintro rfl
      exact absurd first (by decide)
    have none : pair? (c :: (f ++ [':'])) = none := by
      by_cases start : isFieldStart c
      · exact pair?_field start others []
      · rw [pair?, if_neg start]
    rw [List.cons_append, expand_skip plain none, ih others]

theorem expand_token_semicolon (start : isFieldStart c) (field : ∀ d ∈ f, isFieldChar d)
    (bare : ∀ d ∈ v, isBare d) : ['\x27'] <:+ expand (c :: (f ++ ':' :: v) ++ [';']) := by
  have longer : ∀ d ∈ v ++ [';'], isBare d :=
    List.forall_mem_append.mpr ⟨bare, by simp [show isBare ';' from by decide]⟩
  have found := pair?_token start field (by simp) longer
  have shape : c :: (f ++ ':' :: v) ++ [';'] = c :: (f ++ ':' :: (v ++ [';'])) := by simp
  rw [shape, expand_pair found, expand, List.append_nil]
  exact quote_suffix_text _

/-- The semicolon becomes part of that string. -/
theorem EndsInToken.quoted_semicolon (h : EndsInToken s) : ['\x27'] <:+ expand (s ++ [';']) := by
  induction h with
  | token start field some bare => exact expand_token_semicolon start field bare
  | @pair s p found rest ih =>
    obtain same | ⟨c, f, v, rfl, start, field, bare⟩ := pair?_semicolon s
    · rw [expand_pair (same.trans (congrArg _ found))]
      exact ih.trans (List.suffix_append ..)
    · exact expand_token_semicolon start field bare
  | text closed _ ih =>
    have closed' := (stringRest?_semicolon _).trans (congrArg _ closed)
    rw [List.cons_append, expand_string closed']
    exact ih.trans (suffix_of_string ..)
  | quote unclosed _ ih =>
    have unclosed' := (stringRest?_semicolon _).trans (congrArg _ unclosed)
    rw [List.cons_append, expand_quote unclosed']
    exact ih.trans (List.suffix_cons ..)
  | @char c s plain none rest ih =>
    obtain same | ⟨c', f, v, shape, start, field, bare⟩ := pair?_semicolon (c :: s)
    · have none' : pair? (c :: (s ++ [';'])) = Option.none := same.trans (congrArg _ none)
      rw [List.cons_append, expand_skip plain none']
      exact ih.trans (List.suffix_cons ..)
    · rw [shape]
      exact expand_token_semicolon start field bare

theorem expand_singleton : expand [';'] = [';'] := by
  rw [expand_skip (by decide) rfl, expand]

/-- Behind every other text the semicolon stays what it is, unless a value is missing there. -/
theorem expand_semicolon (other : ¬ EndsInToken s) :
    expand (s ++ [';']) = expand s ++ [';'] ∨ [':'] <:+ expand s := by
  fun_induction expand s with
  | case1 => exact .inl expand_singleton
  | case2 s inside t closed ih =>
    have closed' := (stringRest?_semicolon s).trans (congrArg _ closed)
    obtain same | colon := ih fun token => other (.text closed token)
    · left
      rw [List.cons_append, expand_string closed', same]
      simp
    · exact .inr (colon.trans (suffix_of_string ..))
  | case3 s unclosed ih =>
    have unclosed' := (stringRest?_semicolon s).trans (congrArg _ unclosed)
    obtain same | colon := ih fun token => other (.quote unclosed token)
    · left
      rw [List.cons_append, expand_quote unclosed', same]
      rfl
    · exact .inr (colon.trans (List.suffix_cons ..))
  | case4 c s plain p found ih =>
    obtain same | ⟨c', f, v, shape, start, field, bare⟩ := pair?_semicolon (c :: s)
    · have found' := same.trans (congrArg _ found)
      obtain same | colon := ih fun token => other (.pair found token)
      · left
        rw [expand_pair found', List.append_assoc, ← same]
        rfl
      · exact .inr (colon.trans (List.suffix_append ..))
    · rw [shape] at other found
      by_cases missing : v = []
      · rw [missing, pair?_field start field] at found
        cases found
      · exact absurd (.token start field missing bare) other
  | case5 c s plain none ih =>
    obtain same | ⟨c', f, v, shape, start, field, bare⟩ := pair?_semicolon (c :: s)
    · have none' : pair? (c :: (s ++ [';'])) = Option.none := same.trans (congrArg _ none)
      obtain same | colon := ih fun token => other (.char plain none token)
      · left
        rw [List.cons_append, expand_skip plain none', same]
        rfl
      · exact .inr (colon.trans (List.suffix_cons ..))
    · by_cases missing : v = []
      · obtain rfl := (List.cons.inj shape).2
        rw [missing, expand_colon field]
        exact .inr ((List.suffix_append ..).trans (List.suffix_cons ..))
      · exact absurd (shape ▸ .token start field missing bare) other

/-! ## Main statement -/

theorem suffix_of_other {d : Char} (other : c ≠ d) (h : [d] <:+ s ++ c :: t) : [d] <:+ t := by
  have shorter : [d] <:+ c :: t :=
    List.suffix_of_suffix_length_le h (List.suffix_append ..) (by simp)
  obtain same | rest := List.suffix_cons_iff.mp shorter
  · exact absurd (List.cons.inj same).1.symm other
  · exact rest

/-- No passage ends in a colon. -/
theorem Passed.colon_suffix {r : List Char} (passed : Passed s r) (h : [':'] <:+ s) :
    [':'] <:+ r := by
  induction passed with
  | refl => exact h
  | @ordinary c s r plain _ ih =>
    have other : c ≠ ':' := by
      rintro rfl
      exact absurd plain (by decide)
    exact ih (suffix_of_other (s := []) other h)
  | text closed _ ih =>
    rw [eq_append_of_stringRest? closed] at h
    exact ih (suffix_of_other (s := '\x27' :: _) (by decide) h)
  | @name n s r _ _ ih =>
    exact ih (suffix_of_other (s := backtick :: n) (by decide) h)

theorem toList_semicolon (s : String) : (s ++ ";").toList = s.toList ++ [';'] :=
  String.toList_append

/-- A semicolon behind a query without semicolons changes nothing, unless the query ends in a
shorthand whose value is a bare token. There it becomes part of the value. -/
theorem ofText_semicolon {s : String} {q : Query} (plain : ';' ∉ s.toList)
    (accepted : Query.ofText s = .ok q) :
    Query.ofText (s ++ ";") = .ok q ↔ ¬ EndsInToken s.toList := by
  obtain ⟨read, named, some⟩ := ofText?_of_query accepted
  have written : (expandShorthand s).toList = expand s.toList := String.toList_ofList
  have written' : (expandShorthand (s ++ ";")).toList = expand (s.toList ++ [';']) := by
    rw [expandShorthand, String.toList_ofList, toList_semicolon]
  constructor
  · intro again token
    obtain ⟨read', -, -⟩ := ofText?_of_query again
    have kept := semicolons_of_ofText? (written ▸ token.quoted) read
    have kept' := semicolons_of_ofText? (written' ▸ token.quoted_semicolon) read'
    rw [semicolons, written, count_expand] at kept
    rw [semicolons, written', count_expand, List.count_append, ← kept] at kept'
    simp at kept'
  · intro other
    have still : expand (s.toList ++ [';']) = expand s.toList ++ [';'] := by
      refine (expand_semicolon other).resolve_right fun colon => ?_
      have none := (written ▸ passed_of_ofText? read).colon_suffix colon
      simp at none
    have longer : expandShorthand (s ++ ";") = expandShorthand s ++ ";" := by
      rw [← String.toList_inj, written', still, toList_semicolon, written]
    have none : ';' ∉ (expandShorthand s).toList := by
      rw [written, ← List.count_eq_zero, count_expand, List.count_eq_zero]
      exact plain
    have read' := ofText?_semicolon none read
    unfold Query.ofText
    rw [longer]
    simp only [if_pos (startsWithSelect_of_ofText? read'), read']
    exact Query.ofStatement_named named some

/-- A bare token, but not at the end. -/
def tokenBefore : String :=
  "SELECT * FROM docs WHERE a:b AND c:\"d e\""

theorem ofText_tokenBefore :
    ∃ q, ';' ∉ tokenBefore.toList ∧ Query.ofText tokenBefore = .ok q ∧
      Query.ofText (tokenBefore ++ ";") = .ok q := by
  have plain : ';' ∉ tokenBefore.toList := by decide
  have read : anyCondition (' ' :: disjunctionText [[⟨"a", "b"⟩, ⟨"c", "d e"⟩]]) =
      some (.ok (disjunctionOf [[⟨"a", "b"⟩, ⟨"c", "d e"⟩]]), []) :=
    anyCondition_reads (by simp) (by simp; decide)
  have expands : expand "a:b AND c:\"d e\"".toList =
      disjunctionText [[⟨"a", "b"⟩, ⟨"c", "d e"⟩]] := by decide +kernel
  have text : whereText "a:b AND c:\"d e\"".toList = tokenBefore := by decide +kernel
  have accepted := text ▸ (ofText_where expands read).2
  have other : ¬ EndsInToken tokenBefore.toList := by
    intro token
    obtain ⟨c, bare, w, last⟩ := token.bare_suffix
    have quote : c = '\x22' := by
      simpa [tokenBefore] using congrArg List.getLast? last
    rw [quote] at bare
    exact absurd bare (by decide)
  exact ⟨_, plain, accepted, (ofText_semicolon plain accepted).mpr other⟩

/-- At the end the semicolon is taken into the token. -/
theorem ofText_token :
    Query.ofText "SELECT * FROM docs WHERE a:b" =
        .ok ⟨Filter.filtered (.equals "a" "b"), "docs"⟩ ∧
      Query.ofText "SELECT * FROM docs WHERE a:b;" =
        .ok ⟨Filter.filtered (.equals "a" "b;"), "docs"⟩ ∧
      Query.ofText "SELECT * FROM docs WHERE a:b;" ≠
        .ok ⟨Filter.filtered (.equals "a" "b"), "docs"⟩ := by
  have bare : IsBareName "a" := by decide
  have expands : expand "a:b".toList = (⟨"a", "b"⟩ : Equality).text := by decide +kernel
  have expands' : expand "a:b;".toList = (⟨"a", "b;"⟩ : Equality).text := by decide +kernel
  have text : whereText "a:b".toList = "SELECT * FROM docs WHERE a:b" := by decide +kernel
  have text' : whereText "a:b;".toList = "SELECT * FROM docs WHERE a:b;" := by decide +kernel
  have read := (ofText_where expands (anyCondition_equality bare)).2
  have read' := (ofText_where expands' (anyCondition_equality bare)).2
  rw [text] at read
  rw [text'] at read'
  refine ⟨read, read', ?_⟩
  rw [read']
  simp [Filter.filtered, Equality.condition, Condition.equals]

end SearchSelect.Sql
