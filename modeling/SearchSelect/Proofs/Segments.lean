import SearchSelect.Proofs.Layout
import SearchSelect.Sql.Statement

/-! What readers leave behind. A reader that succeeds has passed over ordinary characters, whole
strings and whole quoted names, and over nothing else. `Gives p P` says this of the reader `p`,
together with what is known of its result; it goes through sequencing, choice and repetition. -/

namespace SearchSelect.Sql

open Text

variable {α β : Type} {P : α → Prop} {Q : β → Prop}

/-! ## Passages -/

/-- Outside strings and quoted names there is no quote of any kind, and no colon. -/
def isOrdinary (c : Char) : Bool :=
  c != '\x27' && c != backtick && c != ':'

/-- The text leads to its suffix over ordinary characters, strings and quoted names. A string
ends at its first quote that is not doubled. -/
inductive Passed : List Char → List Char → Prop
  | refl (s : List Char) : Passed s s
  | ordinary {c : Char} {s r : List Char} (plain : isOrdinary c) (rest : Passed s r) :
      Passed (c :: s) r
  | text {s inside t r : List Char} (closed : Shorthand.stringRest? s = some (inside, t))
      (rest : Passed t r) : Passed ('\x27' :: s) r
  | name {n s r : List Char} (quoted : backtick ∉ n) (rest : Passed s r) :
      Passed (backtick :: (n ++ backtick :: s)) r

namespace Passed

variable {s t r : List Char}

theorem trans (first : Passed s t) (second : Passed t r) : Passed s r := by
  induction first with
  | refl => exact second
  | ordinary plain _ ih => exact .ordinary plain (ih second)
  | text closed _ ih => exact .text closed (ih second)
  | name quoted _ ih => exact .name quoted (ih second)

theorem append {w : List Char} (plain : ∀ c ∈ w, isOrdinary c) (r : List Char) :
    Passed (w ++ r) r := by
  induction w with
  | nil => exact .refl r
  | cons c w ih => exact .ordinary (plain c (by simp)) (ih fun d hd => plain d (by simp [hd]))

theorem dropWhile {p : Char → Bool} (plain : ∀ c, p c → isOrdinary c) (s : List Char) :
    Passed s (s.dropWhile p) := by
  have taken : ∀ c ∈ s.takeWhile p, isOrdinary c := fun c hc =>
    plain c (List.mem_takeWhile_imp hc)
  have split := append taken (s.dropWhile p)
  rwa [List.takeWhile_append_dropWhile] at split

end Passed

/-- A class of characters is ordinary if it has none of the three that are not. -/
theorem ordinary_of_refuses {p : Char → Bool}
    (refuses : p '\x27' = false ∧ p backtick = false ∧ p ':' = false) :
    ∀ c, p c → isOrdinary c := by
  intro c hc
  obtain ⟨quote, tick, colon⟩ := refuses
  simp only [isOrdinary, Bool.and_eq_true, bne_iff_ne]
  refine ⟨⟨?_, ?_⟩, ?_⟩
  · rintro rfl
    simp [quote] at hc
  · rintro rfl
    simp [tick] at hc
  · rintro rfl
    simp [colon] at hc

/-- Where the grammar ends a string, the shorthand scan ends it too: the first quote that is not
doubled closes it for both. -/
theorem stringRest?_of_stringRest {s cs r : List Char} (h : stringRest s = some (cs, r)) :
    ∃ inside, Shorthand.stringRest? s = some (inside, r) := by
  fun_induction stringRest s generalizing cs r with
  | case1 s ih =>
    obtain ⟨⟨ds, t⟩, hs, ht⟩ := Option.bind_eq_some_iff.mp h
    obtain ⟨-, rfl⟩ := Prod.mk.inj (Option.some.inj ht)
    obtain ⟨inside, closed⟩ := ih hs
    exact ⟨_, by rw [Shorthand.stringRest?, closed]⟩
  | case2 s single =>
    obtain ⟨-, rfl⟩ := Prod.mk.inj (Option.some.inj h)
    exact ⟨[], by rw [Shorthand.stringRest?]; exact single⟩
  | case3 c s double single ih =>
    obtain ⟨⟨ds, t⟩, hs, ht⟩ := Option.bind_eq_some_iff.mp h
    obtain ⟨-, rfl⟩ := Prod.mk.inj (Option.some.inj ht)
    obtain ⟨inside, closed⟩ := ih hs
    refine ⟨c :: inside, ?_⟩
    rw [Shorthand.stringRest?, closed]
    · rfl
    · exact double
    · exact single
  | case4 => cases h

/-! ## Readers -/

/-- Whenever the reader succeeds, it has passed over whole pieces of the text and its result
satisfies `P`. -/
def Gives (p : Reader α) (P : α → Prop) : Prop :=
  ∀ s a r, p s = some (a, r) → Passed s r ∧ P a

/-- The reader passes over whole pieces; nothing is said of its result. -/
abbrev Passes (p : Reader α) : Prop :=
  Gives p fun _ => True

namespace Gives

variable {p q : Reader α} {f : α → Reader β}

theorem imp {P' : α → Prop} (hp : Gives p P) (weaker : ∀ a, P a → P' a) : Gives p P' := by
  intro s a r h
  obtain ⟨passed, ha⟩ := hp s a r h
  exact ⟨passed, weaker a ha⟩

theorem pure {a : α} (ha : P a) : Gives (pure a) P := by
  intro s b r h
  obtain ⟨rfl, rfl⟩ := Prod.mk.inj (Option.some.inj h)
  exact ⟨.refl _, ha⟩

theorem failure : Gives (failure : Reader α) P := by
  intro s a r h
  cases h

theorem bind (hp : Gives p P) (hf : ∀ a, P a → Gives (f a) Q) : Gives (p >>= f) Q := by
  intro s b r h
  rw [bind_apply] at h
  obtain ⟨⟨a, t⟩, hs, ht⟩ := Option.bind_eq_some_iff.mp h
  obtain ⟨first, ha⟩ := hp s a t hs
  obtain ⟨second, hb⟩ := hf a ha t b r ht
  exact ⟨first.trans second, hb⟩

theorem map {g : α → β} (hp : Gives p P) (hg : ∀ a, P a → Q (g a)) : Gives (g <$> p) Q := by
  rw [map_eq_pure_bind]
  exact hp.bind fun a ha => pure (hg a ha)

theorem seqRight {q : Reader β} (hp : Gives p P) (hq : Gives q Q) : Gives (p *> q) Q :=
  hp.bind fun _ _ => hq

theorem seqLeft {q : Reader β} (hp : Gives p P) (hq : Gives q Q) : Gives (p <* q) P := by
  rw [seqLeft_eq_bind]
  exact hp.bind fun a ha => hq.bind fun _ _ => pure ha

theorem orElse (hp : Gives p P) (hq : Gives q P) : Gives (p <|> q) P := by
  intro s a r h
  rw [orElse_apply] at h
  obtain first | ⟨-, second⟩ := Option.or_eq_some_iff.mp h
  · exact hp s a r first
  · exact hq s a r second

theorem optional (hp : Gives p P) : Gives (optional p) fun o => ∀ a ∈ o, P a :=
  (hp.map fun a ha => by simpa using ha).orElse (pure (by simp))

theorem manyFrom (hp : Gives p P) (s : List Char) :
    Passed s (manyFrom p s).2 ∧ ∀ a ∈ (manyFrom p s).1, P a := by
  fun_induction Text.manyFrom p s with
  | case1 s _ => exact ⟨.refl s, by simp⟩
  | case2 s a r h less as t rest ih =>
    obtain ⟨first, ha⟩ := hp s a r h
    rw [rest] at ih
    exact ⟨first.trans ih.1, by simpa [ha] using ih.2⟩
  | case3 s a r _ _ => exact ⟨.refl s, by simp⟩

theorem many (hp : Gives p P) : Gives (many p) fun as => ∀ a ∈ as, P a := by
  intro s as r h
  have both := manyFrom hp s
  rw [Option.some.inj h] at both
  exact both

theorem sepBy1 {sep : Reader β} (hs : Gives sep Q) (hp : Gives p P) :
    Gives (sepBy1 sep p) fun as => as ≠ [] ∧ ∀ a ∈ as, P a :=
  hp.bind fun a ha => (hs.seqRight hp).many.bind fun as has =>
    pure ⟨by simp, List.forall_mem_cons.mpr ⟨ha, has⟩⟩

theorem withText (hp : Gives p P) : Gives (withText p) fun r => P r.1 := by
  intro s a r h
  unfold Text.withText at h
  split at h
  · cases h
  · next b t hs =>
    obtain ⟨rfl, rfl⟩ := Prod.mk.inj (Option.some.inj h)
    exact hp s b _ hs

end Gives

/-! ## Characters -/

section Characters

variable {p : Char → Bool}

theorem charIf_eq_some {s r : List Char} {c : Char} (h : charIf p s = some (c, r)) :
    s = c :: r ∧ p c := by
  cases s with
  | nil => cases h
  | cons d s =>
    change (if p d then some (d, s) else none) = some (c, r) at h
    split at h
    · next ok =>
      obtain ⟨rfl, rfl⟩ := Prod.mk.inj (Option.some.inj h)
      exact ⟨rfl, ok⟩
    · cases h

theorem run1_eq_some {s cs r : List Char} (h : run1 p s = some (cs, r)) :
    s = cs ++ r ∧ cs ≠ [] ∧ ∀ c ∈ cs, p c := by
  obtain ⟨⟨c, t⟩, first, more⟩ := Option.bind_eq_some_iff.mp h
  obtain ⟨rfl, hc⟩ := charIf_eq_some first
  obtain ⟨rfl, rfl⟩ := Prod.mk.inj (Option.some.inj more)
  have taken : ∀ d ∈ t.takeWhile p, p d := fun _ => List.mem_takeWhile_imp
  refine ⟨?_, by simp, List.forall_mem_cons.mpr ⟨hc, taken⟩⟩
  rw [List.cons_append, List.takeWhile_append_dropWhile]

theorem gives_charIf (plain : ∀ c, p c → isOrdinary c) : Gives (charIf p) fun c => p c := by
  intro s c r h
  obtain ⟨rfl, hc⟩ := charIf_eq_some h
  exact ⟨.ordinary (plain c hc) (.refl r), hc⟩

theorem gives_run (plain : ∀ c, p c → isOrdinary c) :
    Gives (run p) fun cs => ∀ c ∈ cs, p c := by
  intro s cs r h
  obtain ⟨rfl, rfl⟩ := Prod.mk.inj (Option.some.inj h)
  exact ⟨.dropWhile plain s, fun _ => List.mem_takeWhile_imp⟩

theorem gives_run1 (plain : ∀ c, p c → isOrdinary c) :
    Gives (run1 p) fun cs => cs ≠ [] ∧ ∀ c ∈ cs, p c := by
  intro s cs r h
  obtain ⟨rfl, some, all⟩ := run1_eq_some h
  exact ⟨.append (fun c hc => plain c (all c hc)) r, some, all⟩

theorem gives_signIf (plain : ∀ c, p c → isOrdinary c) :
    Gives (signIf p) fun cs => cs = [] ∨ ∃ c, p c ∧ cs = [c] := by
  intro s cs r h
  unfold signIf at h
  split at h
  · obtain ⟨rfl, rfl⟩ := Prod.mk.inj (Option.some.inj h)
    exact ⟨.refl _, .inl rfl⟩
  · next c t =>
    split at h
    · next ok =>
      obtain ⟨rfl, rfl⟩ := Prod.mk.inj (Option.some.inj h)
      exact ⟨.ordinary (plain c ok) (.refl t), .inr ⟨c, ok, rfl⟩⟩
    · obtain ⟨rfl, rfl⟩ := Prod.mk.inj (Option.some.inj h)
      exact ⟨.refl _, .inl rfl⟩

theorem passes_literal {w : List Char} (plain : ∀ c ∈ w, isOrdinary c) : Passes (literal w) := by
  intro s a r h
  unfold literal at h
  split at h
  · next front =>
    obtain ⟨-, rfl⟩ := Prod.mk.inj (Option.some.inj h)
    obtain ⟨t, rfl⟩ := List.isPrefixOf_iff_prefix.mp front
    rw [List.drop_left]
    exact ⟨.append plain t, trivial⟩
  · cases h

end Characters

/-! ## Lexemes -/

theorem passes_skipSpace : Passes skipSpace := by
  intro s a r h
  obtain ⟨-, rfl⟩ := Prod.mk.inj (Option.some.inj h)
  exact ⟨.dropWhile (ordinary_of_refuses (by decide)) s, trivial⟩

theorem Gives.lexeme {p : Reader α} (hp : Gives p P) : Gives (lexeme p) P :=
  passes_skipSpace.seqRight hp

theorem passes_keyword (w : String) : Passes (keyword w) := by
  refine Gives.lexeme fun s a r h => ?_
  split at h
  · obtain ⟨-, rfl⟩ := Prod.mk.inj (Option.some.inj h)
    exact ⟨.dropWhile (ordinary_of_refuses (by decide)) s, trivial⟩
  · cases h

theorem passes_symbol {w : String} (plain : w.toList.all isOrdinary) : Passes (symbol w) :=
  (passes_literal (List.all_eq_true.mp plain)).lexeme

theorem symbol_eq_some {w : String} {s r : List Char} (read : symbol w s = some ((), r)) :
    s.dropWhile isSpace = w.toList ++ r := by
  have front : literal w.toList (s.dropWhile isSpace) = some ((), r) := read
  unfold literal at front
  split at front
  · next first =>
    obtain ⟨-, rfl⟩ := Prod.mk.inj (Option.some.inj front)
    obtain ⟨t, split⟩ := List.isPrefixOf_iff_prefix.mp first
    rw [← split, List.drop_left]
  · cases front

theorem passes_notKeyword : Passes notKeyword := by
  intro s a r h
  unfold notKeyword at h
  split at h
  · cases h
  · obtain ⟨-, rfl⟩ := Prod.mk.inj (Option.some.inj h)
    exact ⟨.refl _, trivial⟩

theorem isName_ofList {cs : List Char} (some : cs ≠ []) (unquoted : backtick ∉ cs) :
    IsName (String.ofList cs) := by
  refine ⟨fun empty => some ?_, by rwa [String.toList_ofList]⟩
  rw [← String.toList_ofList (l := cs), empty]
  rfl

theorem gives_quotedName : Gives quotedName IsName := by
  intro s n r h
  obtain ⟨⟨c, s₁⟩, opens, h⟩ := Option.bind_eq_some_iff.mp h
  obtain ⟨⟨cs, s₂⟩, inside, h⟩ := Option.bind_eq_some_iff.mp h
  obtain ⟨⟨d, s₃⟩, closes, h⟩ := Option.bind_eq_some_iff.mp h
  obtain ⟨rfl, rfl⟩ := Prod.mk.inj (Option.some.inj h)
  obtain ⟨rfl, hc⟩ := charIf_eq_some opens
  obtain ⟨rfl, some, all⟩ := run1_eq_some inside
  obtain ⟨rfl, hd⟩ := charIf_eq_some closes
  obtain rfl : c = backtick := by simpa using hc
  obtain rfl : d = backtick := by simpa using hd
  have quoted : backtick ∉ cs := fun mem => by simpa using all _ mem
  exact ⟨.name quoted (.refl _), isName_ofList some quoted⟩

theorem gives_bareName : Gives bareName IsName := by
  refine passes_notKeyword.bind fun _ _ => ?_
  refine (gives_charIf (ordinary_of_refuses (by decide))).bind fun c hc => ?_
  refine (gives_run (ordinary_of_refuses (by decide))).bind fun cs hcs => .pure ?_
  refine isName_ofList (by simp) fun mem => ?_
  obtain rfl | mem := List.mem_cons.mp mem
  · exact absurd hc (by decide)
  · exact absurd (hcs _ mem) (by decide)

theorem gives_name : Gives name IsName :=
  (gives_quotedName.orElse gives_bareName).lexeme

theorem passes_string : Passes string := by
  refine Gives.lexeme fun s a r h => ?_
  obtain ⟨⟨c, s₁⟩, opens, h⟩ := Option.bind_eq_some_iff.mp h
  obtain ⟨⟨cs, s₂⟩, inside, h⟩ := Option.bind_eq_some_iff.mp h
  obtain ⟨-, rfl⟩ := Prod.mk.inj (Option.some.inj h)
  obtain ⟨rfl, hc⟩ := charIf_eq_some opens
  obtain rfl : c = '\x27' := by simpa using hc
  obtain ⟨_, closed⟩ := stringRest?_of_stringRest inside
  exact ⟨.text closed (.refl _), trivial⟩

theorem passes_tableName : Passes tableName := by
  refine Gives.orElse (gives_quotedName.lexeme.imp fun _ _ => trivial) ?_
  refine passes_string.orElse (Gives.lexeme ?_)
  refine passes_notKeyword.bind fun _ _ => ?_
  exact (gives_run1 (ordinary_of_refuses (by decide))).bind fun _ _ => .pure trivial

theorem gives_digits : Gives digits IsDigits :=
  gives_run1 (ordinary_of_refuses (by decide))

theorem gives_integer : Gives integer IsDigits :=
  gives_digits.lexeme

theorem gives_fraction : Gives fraction IsFraction := by
  refine Gives.orElse ?_ (.pure (.inl rfl))
  refine (gives_charIf (ordinary_of_refuses (by decide))).bind fun _ _ => ?_
  exact gives_digits.bind fun ds hds => .pure (.inr ⟨ds, hds, rfl⟩)

theorem gives_exponent : Gives exponent IsExponent := by
  refine Gives.orElse ?_ (.pure (.inl rfl))
  refine (gives_charIf (ordinary_of_refuses (by decide))).bind fun e he => ?_
  refine (gives_signIf (ordinary_of_refuses (by decide))).bind fun sign hsign => ?_
  refine gives_digits.bind fun ds hds => .pure (.inr ⟨e, sign, ds, by simpa using he, ?_, hds, rfl⟩)
  obtain rfl | ⟨c, hc, rfl⟩ := hsign
  · exact .inl rfl
  · exact .inr (by simpa using hc)

theorem gives_number : Gives number fun spelling => IsNumber spelling.toList := by
  refine Gives.lexeme ?_
  refine (gives_signIf (ordinary_of_refuses (by decide))).bind fun sign hsign => ?_
  refine gives_digits.bind fun whole hwhole => ?_
  refine gives_fraction.bind fun places hplaces => ?_
  refine gives_exponent.bind fun power hpower => .pure ?_
  refine ⟨sign, whole, places, power, ?_, hwhole, hplaces, hpower, String.toList_ofList⟩
  obtain rfl | ⟨c, hc, rfl⟩ := hsign
  · exact .inl rfl
  · exact .inr (by simpa using hc)

end SearchSelect.Sql
