import SearchSelect.Proofs.Accepted
import SearchSelect.Proofs.MatchingReaders
import SearchSelect.Proofs.ReservedWords
import SearchSelect.Proofs.RoundTrip
import SearchSelect.Proofs.TreeBuilding

/-! Reading a tree and building from it is reading at once. The two readings match in every rule of
the grammar: the builder finds in the node of the one what the other has read, and falls back on
nothing. -/

namespace SearchSelect.Sql

open Text

variable {α β γ : Type} {s r : List Char}

/-! ## Nodes -/

section Nodes

open Grammar

variable {rule : Rule} {p : Reader (List Tree)} {t : Reader Tree} {q : Reader β}
  {R : Tree → β → Prop}

theorem here_reads {ts : List Tree} (read : p s = some (ts, r)) :
    here rule p s = some (.node rule (String.ofList (s.take (s.length - r.length))) ts, r) := by
  have whole : withText p s = some ((ts, s.take (s.length - r.length)), r) := by
    rw [withText, read]
  exact bind_reads whole

theorem here_refuses (read : p s = none) : here rule p s = none := by
  refine bind_refuses ?_
  rw [withText, read]

theorem Matches.here (h : Matches p q fun ts b => ∀ text, R (.node rule text ts) b) :
    Matches (here rule p) q R := by
  intro s
  obtain ⟨none, none'⟩ | ⟨ts, b, r, read, read', built⟩ := h s
  · exact .inl ⟨here_refuses none, none'⟩
  · exact .inr ⟨_, b, r, here_reads read, read', built _⟩

theorem Matches.skipping {p : Reader α} {S : α → β → Prop} (h : Matches p q S)
    (blanks : IgnoresBlanks q) : Matches (Sql.lexeme p) q S := by
  intro s
  rw [← blanks s]
  exact h _

theorem Matches.node (h : Matches p q fun ts b => ∀ text, R (.node rule text ts) b)
    (blanks : IgnoresBlanks q) : Matches (node rule p) q R :=
  h.here.skipping blanks

theorem Matches.single (h : Matches t q fun t b => ∀ text, R (.node rule text [t]) b) :
    Matches (Grammar.here rule do let t ← t; return [t]) q R := by
  refine Matches.here ?_
  rw [← bind_pure q]
  exact h.bind fun _ _ built => .pure built

theorem Matches.around (h : Matches t q fun t b => ∀ text, R (.node rule text [t]) b)
    (blanks : IgnoresBlanks q) : Matches (around rule t) q R :=
  h.single.skipping blanks

theorem leaf_reads {w : List Char} {b : β} (read : q (w ++ r) = some (b, r)) :
    leaf rule q (w ++ r) = some (.node rule (String.ofList w) [], r) := by
  have whole : leaf rule q (w ++ r) = some
      (.node rule (String.ofList ((w ++ r).take ((w ++ r).length - r.length))) [], r) :=
    here_reads (bind_reads read)
  have length : (w ++ r).length - r.length = w.length := by simp
  rwa [length, List.take_left] at whole

/-- A node without parts has the text that its reader takes. -/
theorem matches_leaf {T : List Char → β → Prop} (taken : Spans [] q T) :
    Matches (leaf rule q) q fun t b => ∃ w, t = .node rule (String.ofList w) [] ∧ T w b := by
  intro s
  cases read : q s with
  | none => exact .inl ⟨here_refuses (bind_refuses read), rfl⟩
  | some both =>
    obtain ⟨w, rfl, hw⟩ := taken s _ _ read
    exact .inr ⟨_, _, _, leaf_reads read, rfl, w, rfl, hw⟩

/-- Blanks that the reader passes over by itself are no part of the text. -/
theorem matches_token {T : List Char → β → Prop} (taken : SpansToken q T)
    (blanks : IgnoresBlanks q) : Matches (Sql.lexeme (leaf rule q)) q
      fun t b => ∃ w, t = .node rule (String.ofList w) [] ∧ T w b := by
  intro s
  have same := blanks s
  cases read : q s with
  | none => exact .inl ⟨here_refuses (bind_refuses (same.trans read)), rfl⟩
  | some both =>
    obtain ⟨w, split, hw⟩ := taken s _ _ read
    rw [read, split] at same
    have whole : Sql.lexeme (leaf rule q) s = leaf rule q (w ++ both.2) :=
      congrArg (leaf rule q) split
    exact .inr ⟨_, _, _, whole.trans (leaf_reads same), rfl, w, rfl, hw⟩

end Nodes

/-- The node is of this kind, and its builder finds what is meant and falls back on nothing. -/
structure Builds (rule : Rule) (build : Tree → Building α) (t : Tree) (m : Meaning α) : Prop where
  rule : t.rule = rule
  built : build t = Action.of m

/-- The same for a part that always means something. -/
abbrev Finds (rule : Rule) (build : Tree → Building α) (t : Tree) (a : α) : Prop :=
  Builds rule build t (.ok a)

/-! ## Lexemes -/

section Lexemes

open Grammar (leaf)

/-- Of a word or a sign it matters only that it is there. -/
theorem matches_mark (rule : Rule) {q : Reader β} (blanks : IgnoresBlanks q) :
    Matches (lexeme (leaf rule q)) q fun t _ => t.rule = rule := by
  refine Matches.skipping (Matches.here fun s => ?_) blanks
  cases read : q s with
  | none => exact .inl ⟨bind_refuses read, rfl⟩
  | some both => exact .inr ⟨_, _, _, bind_reads read, rfl, fun _ => rfl⟩

theorem matches_word (w : String) :
    Matches (Grammar.word w) (keyword w) fun t _ => t.rule = .word w :=
  matches_mark _ (.lexeme _)

/-- What stands between backticks is the text of the only part. -/
theorem matches_quotedName :
    Matches Grammar.quotedName quotedName (Finds .quotedName Tree.enclosed) := by
  have inside : Matches (leaf .inside (run1 fun c => c != backtick)) (run1 fun c => c != backtick)
      fun t cs => ∃ w, t = .node .inside (String.ofList w) [] ∧ w = cs :=
    matches_leaf (spans_run1 _)
  refine ((Matches.refl (char backtick)).bind fun _ _ _ => inside.bind ?_).here
  rintro _ cs ⟨w, rfl, rfl⟩
  exact (Matches.refl (char backtick)).bind fun _ _ _ => .pure fun _ => ⟨rfl, rfl⟩

theorem matches_name : Matches Grammar.name name (Finds .name Tree.asName) := by
  refine ((matches_quotedName.imp ?_).orElse ((matches_leaf spans_bareName).imp ?_)).single.lexeme
  · rintro t n quoted text
    refine ⟨rfl, ?_⟩
    change (if t.rule = .quotedName then t.enclosed else pure t.text) = _
    rw [if_pos quoted.rule, quoted.built]
  · rintro _ _ ⟨w, rfl, rfl⟩ text
    exact ⟨rfl, rfl⟩

/-! Texts are read to the same quote, and lose their doubled quotes only when they are built. -/

theorem singleQuotes_plain {c : Char} (plain : c ≠ '\x27') (w : List Char) :
    Tree.singleQuotes (c :: w) = c :: Tree.singleQuotes w := by
  rw [Tree.singleQuotes]
  intro w' first
  exact absurd first plain

theorem insideText_plain {c : Char} (plain : c ≠ '\x27') (s : List Char) :
    Grammar.insideText (c :: s) = Grammar.insideText s := by
  rw [Grammar.insideText]
  · exact fun _ quote _ => plain quote
  · exact plain

theorem insideText_cases (s : List Char) :
    (stringRest s = none ∧ Grammar.insideText s = some ((), [])) ∨
      ∃ w r, s = w ++ '\x27' :: r ∧ Grammar.insideText s = some ((), '\x27' :: r) ∧
        stringRest s = some (Tree.singleQuotes w, r) := by
  fun_induction stringRest s with
  | case1 s ih =>
    obtain ⟨none, open_⟩ | ⟨w, r, rfl, stops, read⟩ := ih
    · exact .inl ⟨by rw [none]; rfl, by rw [Grammar.insideText, open_]⟩
    · refine .inr ⟨'\x27' :: '\x27' :: w, r, rfl, by rw [Grammar.insideText, stops], ?_⟩
      rw [read, Tree.singleQuotes]
      rfl
  | case2 s single =>
    exact .inr ⟨[], s, rfl, by rw [Grammar.insideText]; exact single, rfl⟩
  | case3 c s _ plain ih =>
    obtain ⟨none, open_⟩ | ⟨w, r, rfl, stops, read⟩ := ih
    · exact .inl ⟨by rw [none]; rfl, (insideText_plain plain s).trans open_⟩
    · refine .inr ⟨c :: w, r, rfl, (insideText_plain plain _).trans stops, ?_⟩
      rw [read, singleQuotes_plain plain]
      rfl
  | case4 => exact .inl ⟨rfl, rfl⟩

theorem matches_insideText : Matches (do
      let inside ← leaf .inside Grammar.insideText
      let _ ← char '\x27'
      return [inside] : Reader (List Tree)) stringRest
    fun ts cs => ∃ w, ts = [.node .inside (String.ofList w) []] ∧ cs = Tree.singleQuotes w := by
  intro s
  obtain ⟨none, open_⟩ | ⟨w, r, rfl, stops, read⟩ := insideText_cases s
  · refine .inl ⟨?_, none⟩
    have all : leaf .inside Grammar.insideText (s ++ []) =
        some (.node .inside (String.ofList s) [], []) := leaf_reads (by rwa [List.append_nil])
    rw [List.append_nil] at all
    rw [bind_reads all]
    rfl
  · refine .inr ⟨_, _, r, ?_, read, w, rfl, rfl⟩
    rw [bind_reads (leaf_reads stops), bind_reads (char_cons _ _)]
    rfl

theorem matches_text : Matches Grammar.text string (Finds .text Tree.asText) := by
  refine Matches.lexeme <| Matches.here <| (Matches.refl (char '\x27')).bind fun _ _ _ =>
    matches_insideText.bindRight ?_
  rintro _ _ ⟨w, rfl, rfl⟩
  refine .pure fun text => ⟨rfl, ?_⟩
  have built : Tree.asText (.node .text text [.node .inside (String.ofList w) []]) =
      pure (String.ofList (Tree.singleQuotes (String.ofList w).toList)) := rfl
  rw [built, String.toList_ofList]
  rfl

theorem spans_tableWord : Spans [] (notKeyword *> run1 isTableChar) Eq := by
  refine spans_notKeyword.bind fun _ _ none => ?_
  rw [none]
  exact spans_run1 _

theorem ignoresBlanks_tableName : IgnoresBlanks tableName :=
  .orElse (.lexeme _) (.orElse (.lexeme _) (.lexeme _))

theorem matches_table : Matches Grammar.table tableName (Finds .table Tree.asTable) := by
  have word : Matches (leaf .tableWord (notKeyword *> run1 isTableChar))
      (do notKeyword; let cs ← run1 isTableChar; return String.ofList cs : Reader String)
      fun t n => t = .node .tableWord n [] := by
    rw [← bind_assoc]
    refine (matches_leaf spans_tableWord).bindRight ?_
    rintro _ _ ⟨w, rfl, rfl⟩
    exact .pure rfl
  refine Matches.around (.orElse (matches_quotedName.lexeme.imp ?_)
    (.orElse (matches_text.imp ?_) (word.lexeme.imp ?_))) ignoresBlanks_tableName
  · rintro t n quoted text
    refine ⟨rfl, ?_⟩
    simp only [Tree.asTable, Tree.parts, quoted.rule, quoted.built]
  · rintro t n read text
    refine ⟨rfl, ?_⟩
    simp only [Tree.asTable, Tree.parts, read.rule, read.built]
  · rintro _ n rfl text
    exact ⟨rfl, rfl⟩

theorem ignoresBlanks_literalValue : IgnoresBlanks literalValue :=
  .orElse (.map (.lexeme _) _) <| .orElse (.map (.lexeme _) _) <|
    .orElse (.bind (.lexeme _) _) <| .orElse (.bind (.lexeme _) _) (.bind (.lexeme _) _)

theorem matches_literal : Matches Grammar.literal literalValue (Finds .literal Tree.asLiteral) := by
  refine Matches.around (.orElse (matches_text.mapRight ?_) <| .orElse ?_ <| .orElse ?_ <|
    .orElse ?_ ?_) ignoresBlanks_literalValue
  · rintro t n read text
    refine ⟨rfl, ?_⟩
    simp only [Tree.asLiteral, Tree.parts, read.rule, read.built]
    rfl
  · refine (matches_token spans_number (.lexeme _)).mapRight ?_
    rintro _ _ ⟨w, rfl, rfl⟩ text
    exact ⟨rfl, rfl⟩
  · refine (matches_word "true").bindRight fun t _ word => .pure fun text => ⟨rfl, ?_⟩
    simp only [Tree.asLiteral, Tree.parts, word]
    rfl
  · refine (matches_word "false").bindRight fun t _ word => .pure fun text => ⟨rfl, ?_⟩
    simp only [Tree.asLiteral, Tree.parts, word]
    rfl
  · refine (matches_word "null").bindRight fun t _ word => .pure fun text => ⟨rfl, ?_⟩
    simp only [Tree.asLiteral, Tree.parts, word]
    rfl

end Lexemes

/-! ## Predicates -/

section Predicates

open Sql.Tree (Pieces)

/-- What is found in the parts of a predicate, from what was found before. -/
def Collects (ts : List Tree) (p p' : Pieces) : Prop :=
  ts.foldlM Pieces.add p = pure p'

namespace Collects

variable {t : Tree} {ts us : List Tree} {p p' p'' : Pieces}

theorem nil (p : Pieces) : Collects [] p p := rfl

theorem cons (first : p.add t = pure p') (rest : Collects ts p' p'') :
    Collects (t :: ts) p p'' := by
  rw [Collects, List.foldlM_cons, first, pure_bind]
  exact rest

theorem append (first : Collects ts p p') (rest : Collects us p' p'') :
    Collects (ts ++ us) p p'' := by
  rw [Collects, List.foldlM_append, first, pure_bind]
  exact rest

theorem name {n : String} (found : Finds .name Tree.asName t n)
    (rest : Collects ts { p with column := some n } p') : Collects (t :: ts) p p' := by
  refine cons ?_ rest
  simp only [Pieces.add, found.rule, found.built]
  rfl

theorem word {w : String} (found : t.rule = .word w) (other : w ≠ "not") (rest : Collects ts p p') :
    Collects (t :: ts) p p' := by
  refine cons ?_ rest
  unfold Pieces.add
  split <;> simp_all

theorem literal {l : Literal} (found : Finds .literal Tree.asLiteral t l)
    (rest : Collects ts { p with values := p.values ++ [l] } p') : Collects (t :: ts) p p' := by
  refine cons ?_ rest
  simp only [Pieces.add, found.rule, found.built]
  rfl

theorem text {v : String} (found : Finds .text Tree.asText t v)
    (rest : Collects ts { p with pattern := some v } p') : Collects (t :: ts) p p' := by
  refine cons ?_ rest
  simp only [Pieces.add, found.rule, found.built]
  rfl

theorem literals {ls : List Literal} (found : List.Forall₂ (Finds .literal Tree.asLiteral) ts ls) :
    Collects ts p { p with values := p.values ++ ls } := by
  induction found generalizing p with
  | nil =>
    rw [List.append_nil]
    exact nil p
  | cons first _ ih =>
    rw [List.append_cons]
    exact literal first ih

end Collects

theorem Collects.built {rule : Rule} {text : String} {ts : List Tree} {p : Pieces}
    (found : Collects ts .none p) :
    (Tree.node rule text ts).asPredicate = p.condition rule text := by
  change ts.foldlM Pieces.add .none >>= _ = _
  rw [found, pure_bind]
  rfl

theorem matches_negation : Matches (optional (Grammar.word "not")) negation
    fun o b => ∀ p : Pieces, Collects o.toList p { p with negated := p.negated || b } := by
  refine .orElse ?_ (.pure fun p => ?_)
  · rw [map_eq_pure_bind]
    refine (matches_word "not").bind fun t _ word => .pure fun p => .cons ?_ (.nil _)
    simp only [Pieces.add, word, Bool.or_true]
  · rw [Bool.or_false]
    exact .nil p

theorem matches_rangeTest :
    Matches Grammar.rangeTest rangeTest fun t c => t.asPredicate = pure c := by
  refine Matches.node ?_ (.bind (.lexeme _) _)
  refine matches_name.bind fun _ column named => matches_negation.bind fun _ negated negates => ?_
  refine (matches_word "between").bind fun _ _ between => ?_
  refine matches_literal.bind fun _ low first => (matches_word "and").bind fun _ _ joint => ?_
  refine matches_literal.bind fun _ high second => .pure fun text => ?_
  have found : Collects _ .none ⟨some column, negated, none, [low, high], none⟩ :=
    .name named <| (negates _).append <| .word between (by decide) <| .literal first <|
      .word joint (by decide) <| .literal second <| .nil _
  exact found.built.trans rfl

theorem matches_membership :
    Matches Grammar.membership membership fun t c => t.asPredicate = pure c := by
  refine Matches.node ?_ (.bind (.lexeme _) _)
  refine matches_name.bind fun _ column named => matches_negation.bind fun _ negated negates => ?_
  refine (matches_word "in").bind fun _ _ within => (Matches.refl (symbol "(")).bind fun _ _ _ => ?_
  refine (Matches.sepBy1 _ matches_literal).bind fun ts values listed => ?_
  refine (Matches.refl (symbol ")")).bind fun _ _ _ => .pure fun text => ?_
  have found : Collects _ .none ⟨some column, negated, none, values, none⟩ :=
    .name named <| (negates _).append <| .word within (by decide) <| .literals listed.2
  obtain ⟨l, ls, rfl⟩ := List.exists_cons_of_ne_nil listed.1
  exact found.built.trans rfl

theorem matches_nullTest :
    Matches Grammar.nullTest nullTest fun t c => t.asPredicate = pure c := by
  refine Matches.node ?_ (.bind (.lexeme _) _)
  refine matches_name.bind fun _ column named => (matches_word "is").bind fun _ _ test => ?_
  refine matches_negation.bind fun _ negated negates => ?_
  refine (matches_word "null").bind fun _ _ null => .pure fun text => ?_
  have found : Collects _ .none ⟨some column, negated, none, [], none⟩ :=
    .name named <| .word test (by decide) <| (negates _).append <| .word null (by decide) <| .nil _
  exact found.built.trans rfl

theorem matches_likeTest :
    Matches Grammar.likeTest likeTest fun t c => t.asPredicate = pure c := by
  refine Matches.node ?_ (.bind (.lexeme _) _)
  refine matches_name.bind fun _ column named => matches_negation.bind fun _ negated negates => ?_
  refine (matches_word "like").bind fun _ _ like => ?_
  refine matches_text.bind fun _ pattern quoted => .pure fun text => ?_
  have found : Collects _ .none ⟨some column, negated, none, [], some pattern⟩ :=
    .name named <| (negates _).append <| .word like (by decide) <| .text quoted <| .nil _
  exact found.built.trans rfl

theorem ignoresBlanks_comparator : IgnoresBlanks comparator :=
  .orElse (.bind (.lexeme _) _) <| .orElse (.bind (.lexeme _) _) <| .orElse (.bind (.lexeme _) _) <|
    .orElse (.bind (.lexeme _) _) <| .orElse (.bind (.lexeme _) _) <|
      .orElse (.bind (.lexeme _) _) (.bind (.lexeme _) _)

theorem Collects.sign {t : Tree} {ts : List Tree} {p p' : Pieces} {w : List Char} {op : Comparator}
    (found : t = .node .sign (String.ofList w) [])
    (known : Comparator.ofSymbol? (String.ofList w) = some op)
    (rest : Collects ts { p with op := some op } p') : Collects (t :: ts) p p' := by
  refine cons ?_ rest
  rw [found, ← known]
  rfl

/-- The text of the whole comparison goes into the fault of one that means nothing. -/
theorem matches_comparison :
    Matches Grammar.comparison comparison fun t m => t.asPredicate = Action.of m := by
  refine (Matches.refl skipSpace).bind fun _ _ _ => (Matches.withText (R := fun ts c =>
    Collects ts .none ⟨some c.1, false, some c.2.1, [c.2.2], none⟩) ?_).bind ?_
  · refine matches_name.bind fun _ column named => ?_
    have signs : Matches (lexeme (Grammar.leaf .sign comparator)) comparator _ :=
      matches_token spans_comparator ignoresBlanks_comparator
    refine signs.bind fun _ op ⟨w, sign, known⟩ => ?_
    refine matches_literal.bind fun _ value found => .pure ?_
    exact .name named <| .sign sign known <| .literal found <| .nil _
  · rintro ⟨ts, text⟩ ⟨⟨column, op, value⟩, _⟩ ⟨found, rfl⟩
    exact .pure (found.built.trans rfl)

theorem ignoresBlanks_comparison : IgnoresBlanks comparison :=
  .bind .skipSpace _

theorem ignoresBlanks_predicate : IgnoresBlanks predicate :=
  .orElse (.map (.bind (.lexeme _) _) _) <| .orElse (.map (.bind (.lexeme _) _) _) <|
    .orElse (.map (.bind (.lexeme _) _) _) <| .orElse (.map (.bind (.lexeme _) _) _)
      ignoresBlanks_comparison

/-- A predicate is the only part of its node. -/
theorem matches_predicate : Matches Grammar.predicate predicate fun t m =>
    t.rule = .predicate ∧ ∃ p ps, t.parts = p :: ps ∧ p.asPredicate = Action.of m := by
  have tests : Matches (Grammar.rangeTest <|> Grammar.membership <|> Grammar.nullTest <|>
      Grammar.likeTest <|> Grammar.comparison) predicate
      fun t m => t.asPredicate = Action.of m := by
    have certain {t : Tree} {c : Condition} (h : t.asPredicate = pure c) :
        t.asPredicate = Action.of (.ok c) := h
    exact .orElse (matches_rangeTest.mapRight fun _ _ => certain) <|
      .orElse (matches_membership.mapRight fun _ _ => certain) <|
      .orElse (matches_nullTest.mapRight fun _ _ => certain) <|
      .orElse (matches_likeTest.mapRight fun _ _ => certain) matches_comparison
  exact (tests.imp fun t m built text => ⟨rfl, t, [], rfl, built⟩).around ignoresBlanks_predicate

end Predicates

/-! ## Joins -/

section Joins

open Sql.Tree (Joint)

/-- What the grammar joins with, and what builds a part. -/
def Tree.Joint.of : Joint → List Condition → Condition
  | .all => .all
  | .any => .any

def Tree.Joint.part : Joint → Tree → Building Condition
  | .all => Tree.asFactor
  | .any => Tree.asJoin .all

variable {j : Joint} {t : Tree} {ts : List Tree} {m : Meaning Condition}

theorem asItems_part {ms : Meaning (List Condition)} (found : Builds j.item j.part t m)
    (rest : Tree.asItems j ts = Action.of ms) :
    Tree.asItems j (t :: ts) = Action.of (do let c ← m; let cs ← ms; return c :: cs) := by
  have step : Tree.asItems j (t :: ts) =
      (do let c ← j.part t; let cs ← Tree.asItems j ts; return c :: cs) := by
    cases j with
    | all => exact if_pos found.rule
    | any => exact if_pos found.rule
  rw [step, found.built, rest]
  cases m with
  | error e => rfl
  | ok c => cases ms <;> rfl

theorem asItems_word {w : String} (word : t.rule = .word w) :
    Tree.asItems j (t :: ts) = Tree.asItems j ts := by
  cases j with
  | all => exact if_neg (by simp [word])
  | any => exact if_neg (by simp [word])

/-- What is built of a join: its parts, with the words between them. -/
theorem matches_joinedBy {item : Reader Tree} {item' : Reader (Meaning Condition)} (w : String)
    (h : Matches item item' (Builds j.item j.part)) :
    Matches (Grammar.joinedBy w item) (sepBy1 (keyword w) item') fun ts ms =>
      ms ≠ [] ∧ Tree.asItems j ts = Action.of (ms.mapM id) := by
  have more : Matches (do let k ← Grammar.word w; let t ← item; return [k, t])
      (keyword w *> item') fun ts m => ∃ k t, ts = [k, t] ∧ k.rule = .word w ∧
        Builds j.item j.part t m :=
    (matches_word w).bind fun k _ word => by
      rw [← bind_pure item']
      exact h.bind fun t _ found => .pure ⟨k, t, rfl, word, found⟩
  refine h.bind fun t m first => more.many.bind fun tss ms rest => .pure ⟨by simp, ?_⟩
  have others : Tree.asItems j tss.flatten = Action.of (ms.mapM id) := by
    induction rest with
    | nil => rfl
    | cons pair _ ih =>
      obtain ⟨k, t, rfl, word, found⟩ := pair
      rw [List.flatten_cons, List.cons_append, asItems_word word, List.cons_append,
        List.nil_append, asItems_part found ih, List.mapM_cons]
      rfl
  rw [asItems_part first others, List.mapM_cons]
  rfl

theorem asJoin_built {rule : Rule} {text : String} {ms : List (Meaning Condition)} (some : ms ≠ [])
    (items : Tree.asItems j ts = Action.of (ms.mapM id)) :
    Tree.asJoin j (.node rule text ts) = Action.of (joined j.of ms) := by
  have step : Tree.asJoin j (.node rule text ts) =
      (do let items ← Tree.asItems j ts; j.join rule items) := rfl
  rw [step, items, joined]
  cases read : ms.mapM id with
  | error e => rfl
  | ok cs =>
    have filled : cs ≠ [] := by
      rintro rfl
      exact some (mapM_id_eq_ok read)
    obtain ⟨c, cs, rfl⟩ := List.exists_cons_of_ne_nil filled
    cases cs <;> cases j <;> rfl

end Joins

/-! ## Conditions -/

section Conditions

variable {inner : Reader Tree} {inner' : Reader (Meaning Condition)}

theorem ignoresBlanks_primary (inner' : Reader (Meaning Condition)) :
    IgnoresBlanks (primary inner') :=
  .orElse (.seqLeft (.bind (.lexeme _) _) _) ignoresBlanks_predicate

theorem matches_primary (h : Matches inner inner' (Builds .condition Tree.asCondition)) :
    Matches (Grammar.primary inner) (primary inner') (Builds .primary Tree.asPrimary) := by
  have enclosed : Matches (symbol "(" *> inner) (symbol "(" *> inner')
      (Builds .condition Tree.asCondition) := (Matches.refl (symbol "(")).bind fun _ _ _ => h
  refine ((enclosed.seqLeft (symbol ")")).imp ?_).orElse (matches_predicate.imp ?_) |>.around
    (ignoresBlanks_primary inner')
  · exact fun t m found text => ⟨rfl, (if_pos found.rule).trans found.built⟩
  · rintro t m ⟨rule, p, ps, parts, built⟩ text
    refine ⟨rfl, ?_⟩
    rw [Tree.asPrimary, if_neg (by simp [rule]), if_pos rule, parts]
    exact built

/-! A factor reads its NOTs one by one, and what is read without trees has read them all at once. -/

theorem keyword_eq_some {k : String} {u : Unit} (read : keyword k s = some (u, r)) :
    headWord (s.dropWhile isSpace) = k ∧ r = (s.dropWhile isSpace).dropWhile isWordChar := by
  change (if headWord (s.dropWhile isSpace) = k then _ else _) = _ at read
  split at read
  · next word => exact ⟨word, (Prod.mk.inj (Option.some.inj read)).2.symm⟩
  · cases read

/-- Behind a keyword the text is shorter. -/
theorem length_lt_of_keyword {k : String} {u : Unit} (known : k ∈ keywords)
    (read : keyword k s = some (u, r)) : r.length < s.length := by
  obtain ⟨word, rfl⟩ := keyword_eq_some read
  obtain ⟨some, -⟩ := keywords_lower known
  have split := List.takeWhile_append_dropWhile (p := isWordChar) (l := s.dropWhile isSpace)
  have filled : (s.dropWhile isSpace).takeWhile isWordChar ≠ [] := by
    intro empty
    rw [headWord, empty] at word
    exact some (word ▸ rfl)
  have kept := (List.dropWhile_suffix (l := s) isSpace).length_le
  have longer := congrArg List.length split
  rw [List.length_append] at longer
  have := List.length_pos_iff.mpr filled
  omega

/-- Where a keyword stands, there is neither a parenthesis nor a name. -/
theorem primary_refuses (inner' : Reader (Meaning Condition)) {k : String} {u : Unit}
    (known : k ∈ keywords) (read : keyword k s = some (u, r)) : primary inner' s = none := by
  have word : headWord (s.dropWhile isSpace) ∈ keywords := (keyword_eq_some read).1 ▸ known
  have reserved := beginsReserved_iff.mpr word
  have unnamed : name s = none := by
    rw [name, ← lexeme_dropWhile, ← name, ← List.append_nil (s.dropWhile isSpace)]
    exact reserved.name_refuses (by simp)
  have unopened : symbol "(" s = none := by
    obtain ⟨c, cs, hs, alpha⟩ := reserved.begins
    rw [symbol, ← lexeme_dropWhile, hs]
    exact symbol_refuses (isWordChar_of_isAlpha alpha) (by decide)
  rw [primary_unopened unopened, predicate_refuses unnamed]

theorem factor_not {u : Unit} (read : keyword "not" s = some (u, r)) :
    factor inner' s = (factor inner' r).map fun p => (Condition.not <$> p.1, p.2) := by
  have nots : manyFrom (keyword "not") s =
      (() :: (manyFrom (keyword "not") r).1, (manyFrom (keyword "not") r).2) := by
    rw [manyFrom, read]
    simp only [if_pos (length_lt_of_keyword (by decide) read)]
  rw [factor_apply, factor_apply, nots, Option.map_map]
  rfl

theorem factor_plain (none : keyword "not" s = none) : factor inner' s = primary inner' s := by
  have nots : manyFrom (keyword "not") s = ([], s) := by
    rw [manyFrom, none]
  rw [factor_apply, nots]
  exact Option.map_id'

theorem ignoresBlanks_factor (inner' : Reader (Meaning Condition)) :
    IgnoresBlanks (factor inner') := by
  intro s
  have same : keyword "not" (s.dropWhile isSpace) = keyword "not" s := lexeme_dropWhile _ s
  cases read : keyword "not" s with
  | none =>
    rw [factor_plain read, factor_plain (same.trans read), ignoresBlanks_primary]
  | some both => rw [factor_not read, factor_not (same.trans read)]

theorem asFactor_not {rule : Rule} {text : String} {k t : Tree} {m : Meaning Condition}
    (negation : k.rule = .word "not") (found : Builds .factor Tree.asFactor t m) :
    Tree.asFactor (.node rule text [k, t]) = Action.of (Condition.not <$> m) := by
  rw [Tree.asFactor, Tree.asNegated, if_pos negation, Tree.asNegated, if_neg (by simp [found.rule]),
    if_pos found.rule, found.built]
  cases m <;> rfl

theorem asFactor_primary {rule : Rule} {text : String} {t : Tree} {m : Meaning Condition}
    (found : Builds .primary Tree.asPrimary t m) :
    Tree.asFactor (.node rule text [t]) = Action.of m := by
  rw [Tree.asFactor, Tree.asNegated, if_neg (by simp [found.rule]), if_neg (by simp [found.rule]),
    if_pos found.rule, found.built]
  cases m <;> rfl

/-- With enough fuel for the NOTs in front. -/
theorem factorFrom_agrees (h : Matches inner inner' (Builds .condition Tree.asCondition)) {n : Nat}
    (enough : s.length < n) :
    (Grammar.factorFrom inner n s = none ∧ factor inner' s = none) ∨
      ∃ t m r, Grammar.factorFrom inner n s = some (t, r) ∧ factor inner' s = some (m, r) ∧
        Builds .factor Tree.asFactor t m := by
  induction n generalizing s with
  | zero => omega
  | succ n ih =>
    have same : keyword "not" (s.dropWhile isSpace) = keyword "not" s := lexeme_dropWhile _ s
    have alone := matches_primary h (s.dropWhile isSpace)
    rw [ignoresBlanks_primary inner' s] at alone
    obtain ⟨none, none'⟩ | ⟨k, _, r, word, read, negation⟩ :=
      matches_word "not" (s.dropWhile isSpace)
    · rw [factor_plain (same.symm.trans none')]
      obtain ⟨none₁, none₁'⟩ | ⟨t, m, r, read, read', found⟩ := alone
      · refine .inl ⟨here_refuses ?_, none₁'⟩
        rw [orElse_refuses (bind_refuses none), bind_refuses none₁]
      · refine .inr ⟨_, m, r, here_reads ?_, read', rfl, asFactor_primary found⟩
        rw [orElse_refuses (bind_refuses none), bind_reads read]
        rfl
    · have negated : keyword "not" s = some (_, r) := same.symm.trans read
      rw [factor_not negated]
      have fewer := length_lt_of_keyword (by decide) negated
      obtain ⟨none, none'⟩ | ⟨t, m, u, inside, inside', found⟩ := ih (s := r) (by omega)
      · have refuses := primary_refuses inner' (by decide) negated
        obtain ⟨none₁, -⟩ | ⟨t, m, u, -, read', -⟩ := alone
        · refine .inl ⟨here_refuses ?_, by rw [none']; rfl⟩
          rw [orElse_refuses, bind_refuses none₁]
          rw [bind_reads word, bind_refuses none]
        · cases refuses.symm.trans read'
      · refine .inr ⟨_, _, u, here_reads ?_, by rw [inside']; rfl, rfl, asFactor_not negation found⟩
        refine orElse_reads ?_
        rw [bind_reads word, bind_reads inside]
        rfl

theorem matches_factor (h : Matches inner inner' (Builds .condition Tree.asCondition)) :
    Matches (Grammar.factor inner) (factor inner') (Builds .factor Tree.asFactor) :=
  fun _ => factorFrom_agrees h (Nat.lt_succ_self _)

theorem ignoresBlanks_conjunction (inner' : Reader (Meaning Condition)) :
    IgnoresBlanks (conjunction inner') :=
  ((ignoresBlanks_factor inner').sepBy1 _).map _

theorem matches_conjunction (h : Matches inner inner' (Builds .condition Tree.asCondition)) :
    Matches (Grammar.conjunction inner) (conjunction inner')
      (Builds .conjunction (Tree.asJoin .all)) := by
  refine Matches.node ?_ (ignoresBlanks_conjunction inner')
  refine (matches_joinedBy (j := .all) "and" (matches_factor h)).mapRight ?_
  exact fun ts ms joined text => ⟨rfl, asJoin_built joined.1 joined.2⟩

theorem ignoresBlanks_disjunction (inner' : Reader (Meaning Condition)) :
    IgnoresBlanks (disjunction inner') :=
  ((ignoresBlanks_conjunction inner').sepBy1 _).map _

theorem matches_disjunction (h : Matches inner inner' (Builds .condition Tree.asCondition)) :
    Matches (Grammar.disjunction inner) (disjunction inner')
      (Builds .disjunction (Tree.asJoin .any)) := by
  refine Matches.node ?_ (ignoresBlanks_disjunction inner')
  refine (matches_joinedBy (j := .any) "or" (matches_conjunction h)).mapRight ?_
  exact fun ts ms joined text => ⟨rfl, asJoin_built joined.1 joined.2⟩

theorem matches_condition (depth : Nat) :
    Matches (Grammar.condition depth) (condition depth) (Builds .condition Tree.asCondition) := by
  induction depth with
  | zero => exact .failure
  | succ depth ih =>
    refine Matches.around ?_ (ignoresBlanks_disjunction _)
    exact (matches_disjunction ih).imp fun t m found text => ⟨rfl, found.built⟩

theorem matches_anyCondition :
    Matches Grammar.anyCondition anyCondition (Builds .condition Tree.asCondition) :=
  fun s => matches_condition (s.length + 1) s

end Conditions

/-! ## Statements -/

section Statements

open Sql.Tree (addToColumn addToSortKey addClause)

/-- The label of a column, and the name in it. -/
theorem matches_label : Matches Grammar.label (optional (keyword "as") *> name)
    fun t n => t.rule = .label ∧ ∃ l, t.part? .name = some l ∧ l.asName = pure n := by
  refine Matches.node ?_ (.optional_bind (.lexeme _) fun _ => .lexeme _)
  refine (matches_word "as").optional.bind fun o _ word => ?_
  rw [← bind_pure name]
  refine matches_name.bind fun t n named => .pure fun text => ⟨rfl, t, ?_, named.built⟩
  cases word with
  | none => exact Tree.part?_cons_of_eq named.rule
  | some word =>
    rw [Option.toList_some, List.singleton_append, Tree.part?_cons_of_ne (by simp [word]),
      Tree.part?_cons_of_eq named.rule]

theorem matches_column : Matches Grammar.column column (Finds .column Tree.asColumn) := by
  refine Matches.node ?_ (.bind (.lexeme _) _)
  refine matches_name.bind fun t source named => ?_
  refine matches_label.optional.bind fun o label labelled => ?_
  refine .pure fun text => ⟨rfl, ?_⟩
  have first : addToColumn (none, none) t = pure (some source, none) := by
    simp only [addToColumn, named.rule, named.built]
    rfl
  have both : (t :: o.toList).foldlM addToColumn (none, none) = pure (some source, label) := by
    rw [List.foldlM_cons, first, pure_bind]
    cases labelled with
    | none => rfl
    | some labelled =>
      obtain ⟨rule, l, part, built⟩ := labelled
      simp only [Option.toList_some, List.foldlM_cons, addToColumn, rule, part, built]
      rfl
  change (t :: o.toList).foldlM addToColumn (none, none) >>= _ = _
  rw [both, pure_bind]
  rfl

theorem projectionOf_columns {rule : Rule} {ts : List Tree} {cs before : List Column}
    (found : List.Forall₂ (Finds .column Tree.asColumn) ts cs) (some : before ++ cs ≠ []) :
    Tree.projectionOf rule before ts = pure (.columns (before ++ cs)) := by
  induction found generalizing before with
  | nil =>
    rw [List.append_nil] at some ⊢
    obtain ⟨c, cs, rfl⟩ := List.exists_cons_of_ne_nil some
    rfl
  | cons first _ ih =>
    rw [List.append_cons] at some ⊢
    rw [Tree.projectionOf]
    simp only [first.rule, first.built]
    exact ih some

theorem matches_projection :
    Matches Grammar.projection projection (Finds .projection Tree.asProjection) := by
  have listed : IgnoresBlanks (sepBy1 (symbol ",") column) := .sepBy1 _ (.bind (.lexeme _) _)
  refine Matches.node (.orElse ?_ ?_) (.orElse (.bind (.lexeme _) _) (listed.map _))
  · refine (matches_mark .star (.lexeme _)).bind fun t _ star => .pure fun text => ⟨rfl, ?_⟩
    change Tree.projectionOf .projection [] [t] = _
    rw [Tree.projectionOf]
    simp only [star]
    rfl
  · refine ((matches_column.sepBy1 _).mapRight ?_)
    exact fun ts cs found text => ⟨rfl, projectionOf_columns found.2 (by simpa using found.1)⟩

theorem matches_sortKey : Matches Grammar.sortKey sortKey (Finds .sortKey Tree.asSortKey) := by
  have directed : Matches (Grammar.word "asc" <|> Grammar.word "desc")
      (keyword "asc" *> pure Direction.asc <|> keyword "desc" *> pure Direction.desc)
      fun t d => ∀ column, addToSortKey (column, none) t = pure (column, some d) := by
    refine .orElse ?_ ?_
    · refine (matches_word "asc").bindRight fun t _ word => .pure fun column => ?_
      simp only [addToSortKey, word]
    · refine (matches_word "desc").bindRight fun t _ word => .pure fun column => ?_
      simp only [addToSortKey, word]
  refine Matches.node ?_ (.bind (.lexeme _) _)
  refine matches_name.bind fun t column named => directed.optional.bind fun o direction found => ?_
  refine .pure fun text => ⟨rfl, ?_⟩
  have first : addToSortKey (none, none) t = pure (some column, none) := by
    simp only [addToSortKey, named.rule, named.built]
    rfl
  have both : (t :: o.toList).foldlM addToSortKey (none, none) = pure (some column, direction) := by
    rw [List.foldlM_cons, first, pure_bind]
    cases found with
    | none => rfl
    | some found =>
      rw [Option.toList_some, List.foldlM_cons, found]
      rfl
  change (t :: o.toList).foldlM addToSortKey (none, none) >>= _ = _
  rw [both, pure_bind]
  rfl

theorem mapM_asSortKey {ts : List Tree} {keys : List SortKey}
    (found : List.Forall₂ (Finds .sortKey Tree.asSortKey) ts keys) :
    (ts.filter fun t => t.rule = .sortKey).mapM Tree.asSortKey = pure keys := by
  induction found with
  | nil => rfl
  | cons first _ ih =>
    rw [List.filter_cons_of_pos (by simp [first.rule]), List.mapM_cons, first.built, ih]
    rfl

theorem matches_orderClause :
    Matches Grammar.orderClause orderClause (Finds .orderClause Tree.asOrder) := by
  refine Matches.node ?_ (.bind (.lexeme _) _)
  refine (matches_word "order").bind fun k _ order => (matches_word "by").bind fun k' _ by_ => ?_
  rw [← bind_pure (sepBy1 _ sortKey)]
  refine (matches_sortKey.sepBy1 _).bind fun ts keys found => .pure fun text => ⟨rfl, ?_⟩
  have items : ((k :: k' :: ts).filter fun t => t.rule = .sortKey).mapM Tree.asSortKey =
      pure keys := by
    rw [List.filter_cons_of_neg (by simp [order]), List.filter_cons_of_neg (by simp [by_])]
    exact mapM_asSortKey found.2
  change ((k :: k' :: ts).filter fun t => t.rule = .sortKey).mapM Tree.asSortKey >>= _ = _
  rw [items, pure_bind]
  obtain ⟨key, keys, rfl⟩ := List.exists_cons_of_ne_nil found.1
  rfl

theorem matches_countClause (rule : Rule) (w clause : String) :
    Matches (Grammar.countClause rule w) (countClause w clause)
      (Builds rule (Tree.asCount clause)) := by
  refine Matches.node ?_ (.bind (.lexeme _) _)
  refine (matches_word w).bind fun k _ word => ?_
  rw [map_eq_pure_bind]
  refine (matches_token spans_integer (.lexeme _)).bind fun t ds ⟨ds', leaf, same⟩ => ?_
  refine .pure fun text => ⟨rfl, ?_⟩
  have digits : (Tree.node rule text [k, t]).part? .integer = some t := by
    rw [Tree.part?_cons_of_ne (by simp [word]), Tree.part?_cons_of_eq (by rw [leaf]; rfl)]
  have spelled : t.text.toList = ds := by
    rw [leaf, ← same]
    exact String.toList_ofList
  simp only [Tree.asCount, digits, spelled]

/-- A FROM clause that names nothing has no table in it. -/
theorem matches_fromClause :
    Matches Grammar.fromClause fromClause (Finds .fromClause Tree.asCollection) := by
  refine Matches.node ?_ (.bind (.lexeme _) _)
  refine (matches_word "from").bind fun k _ word => ?_
  have other : k.rule ≠ .table := by simp [word]
  have named : Matches (optional Grammar.table) (tableName <|> pure "") fun o n => ∀ text,
      Tree.asCollection (.node .fromClause text (k :: o.toList)) = pure n := by
    refine .orElse ?_ (.pure fun text => ?_)
    · rw [map_eq_pure_bind, ← bind_pure tableName]
      refine matches_table.bind fun t n found => .pure fun text => ?_
      simp only [Tree.asCollection, Option.toList_some, Tree.part?_cons_of_ne other,
        Tree.part?_cons_of_eq found.rule]
      exact found.built
    · simp only [Tree.asCollection, Option.toList_none, Tree.part?_cons_of_ne other,
        Tree.part?_nil]
  rw [← bind_pure (tableName <|> pure "")]
  exact named.bind fun o n found => .pure fun text => ⟨rfl, found text⟩

theorem matches_whereClause : Matches Grammar.whereClause whereClause fun t m =>
    t.rule = .whereClause ∧ ∃ c, t.part? .condition = some c ∧ c.asCondition = Action.of m := by
  refine Matches.node ?_ (.bind (.lexeme _) _)
  refine (matches_word "where").bind fun k _ word => ?_
  rw [← bind_pure anyCondition]
  refine matches_anyCondition.bind fun c m found => .pure fun text => ⟨rfl, c, ?_, found.built⟩
  rw [Tree.part?_cons_of_ne (by simp [word]), Tree.part?_cons_of_eq found.rule]

/-- One more clause of a statement, which may be absent. What the clauses behind it add is known for
every value it may have. -/
theorem addClause_optional {R : Tree → Meaning β → Prop} {o : Option Tree} {o' : Option (Meaning β)}
    {u : List Tree} {f : Option β → Select} {g : Option β → Meaning Select}
    (related : Option.Rel R o o')
    (adds : ∀ t m, R t m → addClause (f none) t = Action.of ((fun b => f (some b)) <$> m))
    (rest : ∀ b, u.foldlM addClause (f b) = Action.of (g b)) :
    (o.toList ++ u).foldlM addClause (f none) = Action.of (optionalMeaning o' >>= g) := by
  cases related with
  | none => exact rest none
  | @some t m found =>
    rw [Option.toList_some, List.singleton_append, List.foldlM_cons, adds t m found]
    cases m with
    | error e => rfl
    | ok b => exact rest (some b)

theorem rel_ok {R : Tree → Meaning α → Prop} {o : Option Tree} {o' : Option α}
    (related : Option.Rel (fun t a => R t (.ok a)) o o') : Option.Rel R o (o'.map .ok) := by
  cases related with
  | none => exact .none
  | some h => exact .some h

/-- The clauses behind a projection. They are followed from the last one back. -/
theorem clauses_built {f w o l n : Option Tree} {collection : Option String}
    {condition : Option (Meaning Condition)} {order : Option (List SortKey)}
    {limit offset : Option (Meaning UInt64)} (p : Projection)
    (drawn : Option.Rel (Finds .fromClause Tree.asCollection) f collection)
    (filtered : Option.Rel (fun t m => t.rule = .whereClause ∧
      ∃ c, t.part? .condition = some c ∧ c.asCondition = Action.of m) w condition)
    (sorted : Option.Rel (Finds .orderClause Tree.asOrder) o order)
    (limited : Option.Rel (Builds .limitClause (Tree.asCount "LIMIT")) l limit)
    (moved : Option.Rel (Builds .offsetClause (Tree.asCount "OFFSET")) n offset) :
    ([f, w, o, l, n].flatMap Option.toList).foldlM addClause ⟨p, none, none, [], none, none⟩ =
      Action.of (do
        let condition ← optionalMeaning condition
        let limit ← optionalMeaning limit
        let offset ← optionalMeaning offset
        return ⟨p, collection, condition, order.getD [], limit, offset⟩) := by
  have fifth (c w keys l) := addClause_optional (u := []) (f := fun n => ⟨p, c, w, keys, l, n⟩)
    (g := fun n => .ok ⟨p, c, w, keys, l, n⟩) moved
    (fun t m found => by simp only [addClause, found.rule, found.built, Action.of_map]) fun _ => rfl
  have fourth (c w keys) := addClause_optional (f := fun l => ⟨p, c, w, keys, l, none⟩) limited
    (fun t m found => by simp only [addClause, found.rule, found.built, Action.of_map])
    (fifth c w keys)
  have third (c w) := addClause_optional (f := fun keys => ⟨p, c, w, keys.getD [], none, none⟩)
    (rel_ok sorted)
    (fun t m found => by
      simp only [addClause, found.rule, found.built, Action.of_map]
      rfl)
    fun keys => fourth c w (keys.getD [])
  have second (c) := addClause_optional (f := fun w => ⟨p, c, w, [], none, none⟩) filtered
    (fun t m ⟨rule, c, part, built⟩ => by simp only [addClause, rule, part, built, Action.of_map])
    (third c)
  have first := addClause_optional (f := fun c => ⟨p, c, none, [], none, none⟩) (rel_ok drawn)
    (fun t m found => by simp only [addClause, found.rule, found.built, Action.of_map]) second
  rw [optionalMeaning_ok, optionalMeaning_ok] at first
  exact first

theorem matches_select : Matches Grammar.select select (Builds .select Tree.asSelect) := by
  refine Matches.node ?_ (.bind (.lexeme _) _)
  refine (matches_word "select").bind fun k _ word => ?_
  refine matches_projection.bind fun t p projected => ?_
  refine matches_fromClause.optional.bind fun f collection drawn => ?_
  refine matches_whereClause.optional.bind fun w condition filtered => ?_
  refine matches_orderClause.optional.bind fun o order sorted => ?_
  refine (matches_countClause .limitClause "limit" "LIMIT").optional.bind
    fun l limit limited => ?_
  refine (matches_countClause .offsetClause "offset" "OFFSET").optional.bind
    fun n offset moved => ?_
  refine .pure fun text => ⟨rfl, ?_⟩
  have part : (Tree.node .select text (k :: t :: [f, w, o, l, n].flatMap Option.toList)).part?
      .projection = some t := by
    rw [Tree.part?_cons_of_ne (by simp [word]), Tree.part?_cons_of_eq projected.rule]
  have lead (s : Select) : addClause s k = pure s := by
    simp only [addClause, word]
  have listed : addClause ⟨.everything, none, none, [], none, none⟩ t =
      pure ⟨p, none, none, [], none, none⟩ := by
    simp only [addClause, projected.rule, projected.built, Action.of_map]
    rfl
  rw [Tree.asSelect, part]
  change (k :: t :: [f, w, o, l, n].flatMap Option.toList).foldlM addClause _ = _
  rw [List.foldlM_cons, lead, pure_bind, List.foldlM_cons, listed, pure_bind]
  exact clauses_built p drawn filtered sorted limited moved

theorem matches_statement :
    Matches Grammar.statement statement (Builds .statement Tree.asStatement) := by
  have blanks : IgnoresBlanks statement := .seqLeft (.seqLeft (.bind (.lexeme _) _) _) _
  refine Matches.around ?_ blanks
  refine ((matches_select.seqLeft _).seqLeft _).imp fun t m found text => ⟨rfl, ?_⟩
  simp only [Tree.asStatement, Tree.part?_cons_of_eq found.rule, found.built]

/-- A text without a tree is no statement. From a tree everything is built without a default or a
fault of a builder's own, and what is built is what is read from the text; a statement that is read
is well formed. -/
theorem ofText?_built (text : String) :
    (Tree.ofText? text = none → Select.ofText? text = .error .badStatement) ∧
      (∀ t, Tree.ofText? text = some t → t.asStatement.run [] = (Select.ofText? text, [])) ∧
      ∀ s, Select.ofText? text = .ok s → s.WellFormed := by
  rw [Tree.ofText?]
  obtain ⟨none, none'⟩ | ⟨t, m, read, read', found⟩ := matches_statement.readAll? text.toList
  · refine ⟨fun _ => ofText?_of_unread none', fun t read => ?_, fun s => wellFormed_of_ofText?⟩
    cases none.symm.trans read
  · refine ⟨fun none => ?_, fun t' same => ?_, fun s => wellFormed_of_ofText?⟩
    · cases none.symm.trans read
    · obtain rfl : t = t' := Option.some.inj (read.symm.trans same)
      rw [found.built, Action.run_of, ofText?_of_read read']

theorem ofText?_built_nestedText : nestedStatement.WellFormed ∧
    ∃ t, Tree.ofText? nestedText = some t ∧ t.asStatement.run [] = (.ok nestedStatement, []) := by
  have read := ofText?_of_read (readAll?_statement nestedStatement_wellFormed laid_nestedText)
  obtain ⟨unread, built, formed⟩ := ofText?_built nestedText
  cases tree : Tree.ofText? nestedText with
  | none => cases read.symm.trans (unread tree)
  | some t => exact ⟨formed _ read, t, rfl, (built t tree).trans (by rw [read])⟩

/-- A tree that no text has: the missing projection is noted. -/
example : (Tree.node .statement "select" [.node .select "select" []]).asStatement.run [] =
    (.ok ⟨.everything, none, none, [], none, none⟩, [.select]) := rfl

end Statements

end SearchSelect.Sql
