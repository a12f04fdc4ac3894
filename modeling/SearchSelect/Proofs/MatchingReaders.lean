import Mathlib.Data.List.Forall2
import SearchSelect.Proofs.EqualityReading

/-! Readers side by side. `Matches p q R` says that two readers refuse the same texts, leave the
same rest of all others, and that their results are related by `R`; it goes through sequencing,
choice and repetition. What a reader makes of blanks in front, and which text it takes, is said of
one reader alone. -/

namespace SearchSelect.Sql

open Text

variable {α β γ δ : Type} {s r : List Char}

def Matches (p : Reader α) (q : Reader β) (R : α → β → Prop) : Prop :=
  ∀ s, (p s = none ∧ q s = none) ∨ ∃ a b r, p s = some (a, r) ∧ q s = some (b, r) ∧ R a b

namespace Matches

variable {R : α → β → Prop} {S : γ → δ → Prop} {p : Reader α} {q : Reader β}

theorem imp {R' : α → β → Prop} (h : Matches p q R) (weaker : ∀ a b, R a b → R' a b) :
    Matches p q R' := by
  intro s
  obtain none | ⟨a, b, r, read, read', hab⟩ := h s
  · exact .inl none
  · exact .inr ⟨a, b, r, read, read', weaker a b hab⟩

theorem refl (p : Reader α) : Matches p p Eq := by
  intro s
  cases h : p s with
  | none => exact .inl ⟨rfl, rfl⟩
  | some both => exact .inr ⟨both.1, both.1, both.2, rfl, rfl, rfl⟩

theorem pure {a : α} {b : β} (hab : R a b) : Matches (pure a) (pure b) R :=
  fun s => .inr ⟨a, b, s, rfl, rfl, hab⟩

theorem failure : Matches (failure : Reader α) (failure : Reader β) R :=
  fun _ => .inl ⟨rfl, rfl⟩

theorem bind {f : α → Reader γ} {g : β → Reader δ} (h : Matches p q R)
    (rest : ∀ a b, R a b → Matches (f a) (g b) S) : Matches (p >>= f) (q >>= g) S := by
  intro s
  obtain ⟨none, none'⟩ | ⟨a, b, r, read, read', hab⟩ := h s
  · exact .inl ⟨bind_refuses none, bind_refuses none'⟩
  · rw [bind_reads read, bind_reads read']
    exact rest a b hab r

theorem map {f : α → γ} {g : β → δ} (h : Matches p q R) (hfg : ∀ a b, R a b → S (f a) (g b)) :
    Matches (f <$> p) (g <$> q) S := by
  rw [map_eq_pure_bind, map_eq_pure_bind]
  exact h.bind fun a b hab => pure (hfg a b hab)

/-- The second reader alone goes on. -/
theorem bindRight {S : α → δ → Prop} {g : β → Reader δ} (h : Matches p q R)
    (rest : ∀ a b, R a b → Matches (Pure.pure a) (g b) S) : Matches p (q >>= g) S := by
  rw [← bind_pure p]
  exact h.bind rest

theorem mapRight {S : α → δ → Prop} {g : β → δ} (h : Matches p q R)
    (hg : ∀ a b, R a b → S a (g b)) : Matches p (g <$> q) S := by
  rw [map_eq_pure_bind]
  exact h.bindRight fun a b hab => pure (hg a b hab)

theorem orElse {p' : Reader α} {q' : Reader β} (h : Matches p q R) (h' : Matches p' q' R) :
    Matches (p <|> p') (q <|> q') R := by
  intro s
  obtain ⟨none, none'⟩ | ⟨a, b, r, read, read', hab⟩ := h s
  · rw [orElse_refuses none, orElse_refuses none']
    exact h' s
  · exact .inr ⟨a, b, r, orElse_reads read, orElse_reads read', hab⟩

theorem optional (h : Matches p q R) : Matches (optional p) (optional q) (Option.Rel R) :=
  (h.map fun _ _ hab => .some hab).orElse (pure .none)

theorem manyFrom (h : Matches p q R) (s : List Char) :
    (manyFrom p s).2 = (manyFrom q s).2 ∧ List.Forall₂ R (manyFrom p s).1 (manyFrom q s).1 := by
  fun_induction Text.manyFrom p s with
  | case1 s none =>
    obtain ⟨-, none'⟩ | ⟨_, _, _, read, -⟩ := h s
    · rw [Text.manyFrom, none']
      exact ⟨rfl, .nil⟩
    · cases none.symm.trans read
  | case2 s a r read less as t rest ih =>
    obtain ⟨none, -⟩ | ⟨a', b, r', same, read', hab⟩ := h s
    · cases none.symm.trans read
    obtain ⟨rfl, rfl⟩ := Prod.mk.inj (Option.some.inj (read.symm.trans same))
    rw [rest] at ih
    rw [Text.manyFrom, read']
    simp only [if_pos less]
    exact ⟨ih.1, .cons hab ih.2⟩
  | case3 s a r read more =>
    obtain ⟨none, -⟩ | ⟨a', b, r', same, read', -⟩ := h s
    · cases none.symm.trans read
    obtain ⟨rfl, rfl⟩ := Prod.mk.inj (Option.some.inj (read.symm.trans same))
    rw [Text.manyFrom, read']
    simp only [if_neg more]
    exact ⟨trivial, .nil⟩

theorem many (h : Matches p q R) : Matches (many p) (many q) (List.Forall₂ R) := by
  intro s
  obtain ⟨same, related⟩ := manyFrom h s
  exact .inr ⟨_, _, _, rfl, congrArg some (Prod.ext rfl same.symm), related⟩

theorem sepBy1 (separator : Reader γ) (h : Matches p q R) :
    Matches (sepBy1 separator p) (sepBy1 separator q) fun as bs => bs ≠ [] ∧ List.Forall₂ R as bs :=
  h.bind fun _ _ hab => (((refl separator).bind fun _ _ _ => h).many).bind fun _ _ related =>
    pure ⟨by simp, .cons hab related⟩

theorem withText (h : Matches p q R) :
    Matches (withText p) (withText q) fun x y => R x.1 y.1 ∧ x.2 = y.2 := by
  intro s
  unfold Text.withText
  obtain ⟨none, none'⟩ | ⟨a, b, r, read, read', hab⟩ := h s
  · rw [none, none']
    exact .inl ⟨rfl, rfl⟩
  · rw [read, read']
    exact .inr ⟨_, _, _, rfl, rfl, hab, rfl⟩

theorem lexeme (h : Matches p q R) : Matches (lexeme p) (lexeme q) R :=
  fun s => h (s.dropWhile isSpace)

theorem seqLeft (h : Matches p q R) (u : Reader γ) : Matches (p <* u) (q <* u) R := by
  rw [seqLeft_eq_bind, seqLeft_eq_bind]
  exact h.bind fun _ _ hab => (refl u).bind fun _ _ _ => pure hab

theorem readAll? (h : Matches p q R) (s : List Char) :
    (readAll? p s = none ∧ readAll? q s = none) ∨
      ∃ a b, readAll? p s = some a ∧ readAll? q s = some b ∧ R a b := by
  unfold Text.readAll?
  obtain ⟨none, none'⟩ | ⟨a, b, r, read, read', hab⟩ := (h.seqLeft atEnd) s
  · rw [none, none']
    exact .inl ⟨rfl, rfl⟩
  · rw [read, read']
    exact .inr ⟨a, b, rfl, rfl, hab⟩

end Matches

/-! ## Blanks -/

/-- Blanks in front of what is read make no difference. -/
def IgnoresBlanks (q : Reader α) : Prop :=
  ∀ s, q (s.dropWhile isSpace) = q s

namespace IgnoresBlanks

variable {p q : Reader α} {f : α → Reader β}

theorem lexeme (p : Reader α) : IgnoresBlanks (lexeme p) :=
  lexeme_dropWhile p

theorem skipSpace : IgnoresBlanks skipSpace :=
  lexeme (pure ())

theorem bind (h : IgnoresBlanks p) (f : α → Reader β) : IgnoresBlanks (p >>= f) := by
  intro s
  rw [bind_apply, bind_apply, h s]

theorem map (h : IgnoresBlanks p) (g : α → β) : IgnoresBlanks (g <$> p) := by
  rw [map_eq_pure_bind]
  exact h.bind _

theorem seqLeft (h : IgnoresBlanks p) (q : Reader β) : IgnoresBlanks (p <* q) := by
  rw [seqLeft_eq_bind]
  exact h.bind _

theorem sepBy1 (separator : Reader β) (h : IgnoresBlanks p) : IgnoresBlanks (sepBy1 separator p) :=
  h.bind _

theorem orElse (hp : IgnoresBlanks p) (hq : IgnoresBlanks q) : IgnoresBlanks (p <|> q) := by
  intro s
  rw [orElse_apply, orElse_apply, hp s, hq s]

/-- What is left out leaves its blanks to what follows. -/
theorem optional_bind {f : Option α → Reader β} (hp : IgnoresBlanks p)
    (hf : ∀ o, IgnoresBlanks (f o)) : IgnoresBlanks (optional p >>= f) := by
  intro s
  have same := hp s
  cases h : p s with
  | none =>
    rw [h] at same
    rw [bind_reads (optional_refuses h), bind_reads (optional_refuses same), hf]
  | some both =>
    rw [h] at same
    rw [bind_reads (optional_reads h), bind_reads (optional_reads same)]

end IgnoresBlanks

/-! ## Texts that are taken -/

section Spans

variable {p : Reader α} {T U : List Char → α → Prop} {v : List Char}

/-- The text in front and what the reader takes make a text that is related to the result. -/
def Spans (v : List Char) (p : Reader α) (T : List Char → α → Prop) : Prop :=
  ∀ s a r, p s = some (a, r) → ∃ w, v ++ s = w ++ r ∧ T w a

namespace Spans

theorem pure {a : α} (h : T v a) : Spans v (pure a) T := by
  intro s b r read
  obtain ⟨rfl, rfl⟩ := Prod.mk.inj (Option.some.inj read)
  exact ⟨v, rfl, h⟩

theorem bind {S : List Char → β → Prop} {f : α → Reader β} (h : Spans [] p U)
    (rest : ∀ a w, U w a → Spans (v ++ w) (f a) S) : Spans v (p >>= f) S := by
  intro s b r read
  obtain ⟨⟨a, t⟩, first, second⟩ := Option.bind_eq_some_iff.mp read
  obtain ⟨w, rfl, hw⟩ := h s a t first
  obtain ⟨u, split, hu⟩ := rest a w hw t b r second
  exact ⟨u, by rw [← split, List.append_assoc], hu⟩

theorem orElse {q : Reader α} (hp : Spans v p T) (hq : Spans v q T) : Spans v (p <|> q) T := by
  intro s a r read
  rw [orElse_apply] at read
  obtain first | ⟨-, second⟩ := Option.or_eq_some_iff.mp read
  · exact hp s a r first
  · exact hq s a r second

end Spans

theorem spans_charIf (f : Char → Bool) : Spans [] (charIf f) fun w c => w = [c] := by
  intro s c r read
  obtain ⟨rfl, -⟩ := charIf_eq_some read
  exact ⟨[c], rfl, rfl⟩

theorem spans_run (f : Char → Bool) : Spans [] (run f) Eq := by
  intro s cs r read
  obtain ⟨rfl, rfl⟩ := Prod.mk.inj (Option.some.inj read)
  exact ⟨_, List.takeWhile_append_dropWhile.symm, rfl⟩

theorem spans_run1 (f : Char → Bool) : Spans [] (run1 f) Eq :=
  fun _ cs _ read => ⟨cs, (run1_eq_some read).1, rfl⟩

theorem spans_signIf (f : Char → Bool) : Spans [] (signIf f) Eq := by
  intro s cs r read
  unfold signIf at read
  split at read
  · obtain ⟨rfl, rfl⟩ := Prod.mk.inj (Option.some.inj read)
    exact ⟨[], rfl, rfl⟩
  · split at read <;>
      obtain ⟨rfl, rfl⟩ := Prod.mk.inj (Option.some.inj read) <;> exact ⟨_, rfl, rfl⟩

theorem spans_notKeyword : Spans [] notKeyword fun w _ => w = [] := by
  intro s u r read
  unfold notKeyword at read
  split at read
  · cases read
  · obtain ⟨-, rfl⟩ := Prod.mk.inj (Option.some.inj read)
    exact ⟨[], rfl, rfl⟩

theorem spans_bareName : Spans [] bareName fun w n => n = String.ofList w := by
  refine spans_notKeyword.bind fun _ _ none => (spans_charIf _).bind fun c _ first => ?_
  refine (spans_run _).bind fun cs _ more => .pure ?_
  rw [none, first, ← more]
  rfl

theorem spans_char (c : Char) : Spans [] (char c) fun w _ => w = [c] := by
  intro s d r read
  obtain ⟨rfl, same⟩ := charIf_eq_some read
  exact ⟨[d], rfl, by simpa using same⟩

theorem spans_fraction : Spans [] fraction Eq := by
  refine .orElse ?_ (.pure rfl)
  refine (spans_char '.').bind fun _ _ dot => (spans_run1 _).bind fun ds _ more => .pure ?_
  rw [dot, more]
  rfl

theorem spans_exponent : Spans [] exponent Eq := by
  refine .orElse ?_ (.pure rfl)
  refine (spans_charIf _).bind fun e _ first => (spans_signIf _).bind fun sign _ second => ?_
  refine (spans_run1 _).bind fun ds _ more => .pure ?_
  rw [first, second, more]
  simp

/-- The reader takes the text behind the blanks in front. -/
def SpansToken (p : Reader α) (T : List Char → α → Prop) : Prop :=
  ∀ s a r, p s = some (a, r) → ∃ w, s.dropWhile isSpace = w ++ r ∧ T w a

namespace SpansToken

theorem lexeme (h : Spans [] p T) : SpansToken (lexeme p) T :=
  fun s a r read => h (s.dropWhile isSpace) a r read

theorem orElse {q : Reader α} (hp : SpansToken p T) (hq : SpansToken q T) :
    SpansToken (p <|> q) T := by
  intro s a r read
  rw [orElse_apply] at read
  obtain first | ⟨-, second⟩ := Option.or_eq_some_iff.mp read
  · exact hp s a r first
  · exact hq s a r second

theorem symbol {k : String} {a : α} (h : T k.toList a) : SpansToken (symbol k *> pure a) T := by
  intro s b r read
  obtain ⟨⟨u, t⟩, first, second⟩ := Option.bind_eq_some_iff.mp read
  obtain ⟨rfl, rfl⟩ := Prod.mk.inj (Option.some.inj second)
  exact ⟨k.toList, symbol_eq_some first, h⟩

end SpansToken

theorem spans_number : SpansToken number fun w n => n = String.ofList w := by
  refine .lexeme ((spans_signIf _).bind fun sign _ first => ?_)
  refine (spans_run1 _).bind fun whole _ second => ?_
  refine spans_fraction.bind fun places _ third => ?_
  refine spans_exponent.bind fun power _ fourth => .pure ?_
  rw [first, second, third, fourth]
  rfl

theorem spans_integer : SpansToken integer Eq :=
  .lexeme (spans_run1 _)

theorem spans_comparator :
    SpansToken comparator fun w op => Comparator.ofSymbol? (String.ofList w) = some op :=
  .orElse (.symbol rfl) <| .orElse (.symbol rfl) <| .orElse (.symbol rfl) <|
    .orElse (.symbol rfl) <| .orElse (.symbol rfl) <| .orElse (.symbol rfl) (.symbol rfl)

end Spans

end SearchSelect.Sql
