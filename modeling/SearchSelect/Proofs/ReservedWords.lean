import SearchSelect.Proofs.EqualityReading

/-! Which words are refused as the name of a column or of a collection. A keyword ends where a run of
letters, digits and underscores ends, but a name goes on over dots, and the name of a collection over
minus signs too. So a name is refused not only when it is a keyword, but also when it begins with a
keyword and a dot or a sign. -/

namespace SearchSelect.Sql

open Text

variable {w t r : List Char}

/-! ## Words -/

/-- Letters, digits, underscores and dots, with a letter or an underscore in front. -/
def IsNameWord (w : List Char) : Prop :=
  (∃ c cs, w = c :: cs ∧ isNameStart c) ∧ ∀ c ∈ w, isNameChar c

/-- Letters, digits, underscores, dots and minus signs. -/
def IsTableWord (t : List Char) : Prop :=
  t ≠ [] ∧ ∀ c ∈ t, isTableChar c

/-- The whole word is a keyword, in any mixture of cases. -/
def IsKeyword (w : List Char) : Prop :=
  String.ofList (w.map Char.toLower) ∈ keywords

/-- A keyword stands in front, and no letter, digit or underscore follows it. -/
def BeginsReserved (w : List Char) : Prop :=
  ∃ u r, w = u ++ r ∧ IsKeyword u ∧ ∀ c ∈ r.head?, isWordChar c = false

instance : DecidablePred IsNameWord := fun w =>
  decidable_of_iff (w.head?.any isNameStart ∧ w.all isNameChar) (by
    cases w <;> simp [IsNameWord])

instance : DecidablePred IsTableWord := fun t =>
  decidable_of_iff (t ≠ [] ∧ t.all isTableChar) (by simp [IsTableWord])

instance : DecidablePred IsKeyword := fun w =>
  inferInstanceAs (Decidable (String.ofList (w.map Char.toLower) ∈ keywords))

namespace IsKeyword

theorem spells (w : List Char) : (Token.word (String.ofList (w.map Char.toLower))).Spells w :=
  String.toList_ofList.symm

theorem isAlpha (key : IsKeyword w) : ∀ c ∈ w, c.isAlpha :=
  Token.Spells.isAlpha key (spells w)

theorem ne_nil (key : IsKeyword w) : w ≠ [] := by
  rintro rfl
  exact absurd key (by decide)

end IsKeyword

theorem beginsReserved_iff : BeginsReserved w ↔ headWord w ∈ keywords := by
  constructor
  · rintro ⟨u, r, rfl, key, stop⟩
    rw [headWord_word key (IsKeyword.spells u) stop]
    exact key
  · intro known
    refine ⟨w.takeWhile isWordChar, w.dropWhile isWordChar, ?_, known, fun c hc => ?_⟩
    · rw [List.takeWhile_append_dropWhile]
    · have stops := List.head?_dropWhile_not isWordChar w
      rw [show (w.dropWhile isWordChar).head? = some c from hc] at stops
      simpa using stops

instance : DecidablePred BeginsReserved := fun _ =>
  decidable_of_iff _ beginsReserved_iff.symm

namespace BeginsReserved

/-- In front of a text that ends it, such a word is a keyword for the grammar. -/
theorem headWord_append (reserved : BeginsReserved w) (stop : ∀ c ∈ r.head?, isWordChar c = false) :
    headWord (w ++ r) ∈ keywords := by
  rw [headWord, takeWhile_append_of_stop w stop]
  exact beginsReserved_iff.mp reserved

theorem begins (reserved : BeginsReserved w) : ∃ c cs, w = c :: cs ∧ c.isAlpha := by
  obtain ⟨u, r, rfl, key, -⟩ := reserved
  obtain ⟨c, cs, rfl⟩ := List.exists_cons_of_ne_nil key.ne_nil
  exact ⟨c, cs ++ r, rfl, key.isAlpha c (by simp)⟩

end BeginsReserved

/-! ## Columns -/

section Columns

theorem IsNameWord.isBareName (word : IsNameWord w) (free : ¬ BeginsReserved w) :
    IsBareName (String.ofList w) := by
  obtain ⟨⟨c, cs, rfl, start⟩, chars⟩ := word
  have unreserved : notKeyword (c :: cs) = some ((), c :: cs) :=
    if_neg (by simpa [startsWithKeyword] using mt beginsReserved_iff.mpr free)
  have read : run isNameChar (cs ++ []) = some (cs, []) :=
    run_append (fun d hd => chars d (by simp [hd])) (by simp)
  rw [List.append_nil] at read
  rw [IsBareName, String.toList_ofList, bareName, bind_reads unreserved,
    bind_reads (charIf_cons start), bind_reads read]
  rfl

theorem BeginsReserved.name_refuses (reserved : BeginsReserved w)
    (stop : ∀ c ∈ r.head?, isWordChar c = false) : name (w ++ r) = none := by
  have known := reserved.headWord_append stop
  obtain ⟨c, cs, rfl, alpha⟩ := reserved.begins
  have solid := not_isSpace_of_isWordChar (isWordChar_of_isAlpha alpha)
  have unquoted : c ≠ backtick := by
    rintro rfl
    exact absurd alpha (by decide)
  have key : notKeyword (c :: (cs ++ r)) = none :=
    if_pos (by simpa [startsWithKeyword] using known)
  rw [List.cons_append, name, lexeme_solid _ (by simpa using solid),
    orElse_refuses (quotedName_none unquoted), bareName, bind_refuses key]

theorem unstarred {c : Char} (word : isWordChar c) : symbol "*" (' ' :: c :: r) = none :=
  symbol_refuses (r := r) word (by decide)

/-- What follows a column in the statements below: no name, no comma, and no word goes on. -/
theorem from_stops (s : List Char) :
    (∀ c ∈ (" FROM".toList ++ s).head?, isNameChar c = false) ∧
      optional (optional (keyword "as") *> name) (" FROM".toList ++ ' ' :: s) =
        some (none, " FROM".toList ++ ' ' :: s) ∧
      symbol "," (" FROM".toList ++ s) = none :=
  ⟨by simp; decide, rfl, rfl⟩

theorem projection_reads (word : IsNameWord w) (free : ¬ BeginsReserved w) (s : List Char) :
    projection (' ' :: (w ++ (" FROM".toList ++ ' ' :: s))) =
      some (.columns [⟨String.ofList w, none⟩], " FROM".toList ++ ' ' :: s) := by
  obtain ⟨ends, unlabelled, last⟩ := from_stops s
  have named : name (' ' :: (w ++ (" FROM".toList ++ ' ' :: s))) =
      some (String.ofList w, " FROM".toList ++ ' ' :: s) := by
    have read := (word.isBareName free).name_reads (r := " FROM".toList ++ ' ' :: s) ends
    rwa [String.toList_ofList] at read
  have item : column (' ' :: (w ++ (" FROM".toList ++ ' ' :: s))) =
      some (⟨String.ofList w, none⟩, " FROM".toList ++ ' ' :: s) := by
    rw [column, bind_reads named, bind_reads unlabelled]
    rfl
  have single : many (symbol "," *> column) (" FROM".toList ++ ' ' :: s) =
      some ([], " FROM".toList ++ ' ' :: s) := many_refuses (bind_refuses last)
  have items : sepBy1 (symbol ",") column (' ' :: (w ++ (" FROM".toList ++ ' ' :: s))) =
      some ([⟨String.ofList w, none⟩], " FROM".toList ++ ' ' :: s) := by
    rw [sepBy1, bind_reads item, bind_reads single]
    rfl
  obtain ⟨⟨c, cs, rfl, start⟩, -⟩ := word
  have word := isWordChar_of_isNameStart start
  have plain := unstarred (r := cs ++ (" FROM".toList ++ ' ' :: s)) word
  exact (orElse_refuses (bind_refuses plain)).trans (map_reads items)

theorem projection_refuses (reserved : BeginsReserved w)
    (stop : ∀ c ∈ r.head?, isWordChar c = false) : projection (' ' :: (w ++ r)) = none := by
  have unnamed : name (' ' :: (w ++ r)) = none := reserved.name_refuses stop
  obtain ⟨c, cs, rfl, alpha⟩ := reserved.begins
  have plain := unstarred (r := cs ++ r) (isWordChar_of_isAlpha alpha)
  exact (orElse_refuses (bind_refuses plain)).trans
    (map_refuses (bind_refuses (bind_refuses unnamed)))

end Columns

/-! ## Collections -/

section Collections

/-- A character of a table word begins neither a quoted name nor a text. -/
theorem tableName_word {c : Char} (head : isTableChar c) (cs : List Char) :
    tableName (' ' :: c :: cs) =
      (do notKeyword; let ds ← run1 isTableChar; return String.ofList ds : Reader String)
        (c :: cs) := by
  have plain : isSpace c = false ∧ c ≠ backtick ∧ c ≠ '\x27' := by
    have cases : isWordChar c ∨ c = '-' ∨ c = '.' := by simpa [isTableChar, or_assoc] using head
    obtain word | rfl | rfl := cases
    · refine ⟨not_isSpace_of_isWordChar word, ?_, ?_⟩ <;> rintro rfl <;>
        exact absurd word (by decide)
    · decide
    · decide
  obtain ⟨solid, unticked, unquoted⟩ := plain
  have skips (p : Reader String) : lexeme p (' ' :: c :: cs) = p (c :: cs) := by
    rw [lexeme_blank, lexeme_solid _ (by simpa using solid)]
  have name : lexeme quotedName (' ' :: c :: cs) = none := by
    rw [skips, quotedName_none unticked]
  have text : string (' ' :: c :: cs) = none := by
    rw [string, skips]
    exact bind_refuses (charIf_none (by simpa using unquoted))
  rw [tableName, orElse_refuses name, orElse_refuses text, skips]

theorem tableName_reads (word : IsTableWord t) (free : ¬ BeginsReserved t) :
    tableName (' ' :: t) = some (String.ofList t, []) := by
  obtain ⟨filled, chars⟩ := word
  have unreserved : notKeyword t = some ((), t) :=
    if_neg (by simpa [startsWithKeyword] using mt beginsReserved_iff.mpr free)
  have read : run1 isTableChar (t ++ []) = some (t, []) := run1_append filled chars (by simp)
  rw [List.append_nil] at read
  obtain ⟨c, cs, rfl⟩ := List.exists_cons_of_ne_nil filled
  rw [tableName_word (chars c (by simp)), bind_reads unreserved, bind_reads read]
  rfl

theorem tableName_refuses (word : IsTableWord t) (reserved : BeginsReserved t) :
    tableName (' ' :: t) = none := by
  obtain ⟨filled, chars⟩ := word
  have key : notKeyword t = none :=
    if_pos (by simpa [startsWithKeyword] using beginsReserved_iff.mp reserved)
  obtain ⟨c, cs, rfl⟩ := List.exists_cons_of_ne_nil filled
  rw [tableName_word (chars c (by simp)), bind_refuses key]

end Collections

/-! ## Clauses behind a refused collection

A refused name is left to the clauses behind FROM. They may take the keyword it begins with, but
nothing of what follows the keyword. -/

section Tails

/-- What stands behind the keyword that a table word begins with. -/
def IsTail (r : List Char) : Prop :=
  ∀ c ∈ r.head?, c = '.' ∨ c = '-'

theorem IsTail.stops (tail : IsTail r) :
    name r = none ∧ symbol "(" r = none ∧ integer r = none ∧
      headWord (r.dropWhile isSpace) = "" := by
  cases r with
  | nil => exact ⟨rfl, rfl, rfl, rfl⟩
  | cons c r =>
    obtain rfl | rfl := tail c rfl
    · exact ⟨rfl, rfl, rfl, rfl⟩
    · exact ⟨rfl, rfl, rfl, rfl⟩

theorem IsTail.anyCondition_refuses (tail : IsTail r) : anyCondition r = none := by
  obtain ⟨unnamed, unopened, -, wordless⟩ := tail.stops
  have positive : keyword "not" r = none := keyword_of_no_word wordless (by decide)
  have alone : factor (condition r.length) r = none := by
    rw [factor, bind_reads (many_refuses positive), bind_refuses]
    rw [primary_unopened unopened, predicate_refuses unnamed]
  exact map_refuses (bind_refuses (map_refuses (bind_refuses alone)))

/-- A clause whose keyword it is takes the keyword, and refuses what follows. -/
theorem clause_refuses {u : List Char} {α : Type} {p : Reader α} (k : String) (key : IsKeyword u)
    (stop : ∀ c ∈ r.head?, isWordChar c = false) (refuses : p r = none) :
    (keyword k >>= fun _ => p) (' ' :: (u ++ r)) = none := by
  have word : keyword k (' ' :: (u ++ r)) = _ := keyword_word k key (IsKeyword.spells u) stop
  split at word
  · rw [bind_reads word, refuses]
  · rw [bind_refuses word]

end Tails

/-! ## Statements -/

section Statements

/-- The statement that asks for one column of one collection. -/
def columnText (w t : List Char) : List Char :=
  "SELECT".toList ++ ' ' :: (w ++ (" FROM".toList ++ ' ' :: t))

theorem fromClause_reads {collection : String} (read : tableName (' ' :: t) = some (collection, r)) :
    fromClause (" FROM".toList ++ ' ' :: t) = some (collection, r) := by
  have word : keyword "from" (" FROM".toList ++ ' ' :: t) = some ((), ' ' :: t) := rfl
  exact (bind_reads word).trans (orElse_reads read)

theorem fromClause_empty (refuses : tableName (' ' :: t) = none) :
    fromClause (" FROM".toList ++ ' ' :: t) = some ("", ' ' :: t) := by
  have word : keyword "from" (" FROM".toList ++ ' ' :: t) = some ((), ' ' :: t) := rfl
  exact (bind_reads word).trans (orElse_refuses refuses)

/-- If no clause takes what stands behind the collection, the statement ends in front of it. -/
theorem select_reads {named : List Char} {p : Projection} {collection : String} {s : List Char}
    (listed : projection (' ' :: s) = some (p, named))
    (source : fromClause named = some (collection, r)) (unfiltered : whereClause r = none)
    (unsorted : orderClause r = none) (unlimited : countClause "limit" "LIMIT" r = none)
    (unmoved : countClause "offset" "OFFSET" r = none) :
    select ("SELECT".toList ++ ' ' :: s) =
      some (.ok ⟨p, some collection, none, [], none, none⟩, r) := by
  have start : keyword "select" ("SELECT".toList ++ ' ' :: s) = some ((), ' ' :: s) := rfl
  rw [select, bind_reads start, bind_reads listed, bind_reads (optional_reads source),
    bind_reads (optional_refuses unfiltered), bind_reads (optional_refuses unsorted),
    bind_reads (optional_refuses unlimited), bind_reads (optional_refuses unmoved)]
  rfl

theorem select_columnText (word : IsNameWord w) (free : ¬ BeginsReserved w) (table : IsTableWord t)
    (unreserved : ¬ BeginsReserved t) : select (columnText w t) =
      some (.ok ⟨.columns [⟨String.ofList w, none⟩], some (String.ofList t), none, [], none, none⟩,
        []) :=
  select_reads (projection_reads word free t)
    (fromClause_reads (tableName_reads table unreserved)) rfl rfl rfl rfl

/-- A refused collection leaves the FROM clause empty, and the statement ends in front of the name. -/
theorem select_columnText_stops (word : IsNameWord w) (free : ¬ BeginsReserved w)
    (table : IsTableWord t) (reserved : BeginsReserved t) : select (columnText w t) =
      some (.ok ⟨.columns [⟨String.ofList w, none⟩], some "", none, [], none, none⟩, ' ' :: t) := by
  have source := fromClause_empty (tableName_refuses table reserved)
  obtain ⟨u, r, rfl, key, stop⟩ := reserved
  have tail : IsTail r := by
    intro c hc
    have head := table.2 c (List.mem_append_right u (List.mem_of_mem_head? hc))
    simpa [isTableChar, stop c hc, or_comm] using head
  obtain ⟨-, -, uncounted, wordless⟩ := tail.stops
  have unsorted : (do keyword "by"; sepBy1 (symbol ",") sortKey : Reader (List SortKey)) r = none :=
    bind_refuses (keyword_of_no_word wordless (by decide))
  exact select_reads (projection_reads word free _) source
    (clause_refuses "where" key stop tail.anyCondition_refuses)
    (clause_refuses "order" key stop unsorted)
    (clause_refuses "limit" key stop (map_refuses uncounted))
    (clause_refuses "offset" key stop (map_refuses uncounted))

theorem select_columnText_refuses (reserved : BeginsReserved w) :
    select (columnText w t) = none := by
  have unlisted : projection (' ' :: (w ++ (" FROM".toList ++ ' ' :: t))) = none :=
    projection_refuses reserved (by simp; decide)
  have start : keyword "select" (columnText w t) =
      some ((), ' ' :: (w ++ (" FROM".toList ++ ' ' :: t))) := rfl
  rw [select, bind_reads start, bind_refuses unlisted]

/-- A statement that ends in front of a word is none. -/
theorem readAll?_of_word {s : List Char} {m : Meaning Select} {c : Char} (word : isWordChar c)
    (read : select s = some (m, ' ' :: c :: r)) : readAll? statement s = none := by
  have unended : optional (symbol ";") (' ' :: c :: r) = some (none, ' ' :: c :: r) :=
    optional_refuses (symbol_refuses (r := r) word (by decide))
  have stays : (c :: r).dropWhile isSpace = c :: r :=
    List.dropWhile_cons_of_neg (by simp [not_isSpace_of_isWordChar word])
  have skipped : skipSpace (' ' :: c :: r) = some ((), c :: r) :=
    congrArg (fun s => some ((), s)) stays
  rw [readAll?, seqLeft_apply, statement, seqLeft_apply, seqLeft_apply, read, Option.bind_some,
    unended, Option.map_some, Option.bind_some, skipped]
  rfl

theorem readAll?_of_refuses {s : List Char} (refuses : select s = none) :
    readAll? statement s = none := by
  rw [readAll?, seqLeft_apply, statement, seqLeft_apply, seqLeft_apply, refuses]
  rfl

/-- The statement is refused if and only if one of its names begins with a keyword for the grammar,
and otherwise it asks for that column of that collection. -/
theorem ofText?_columnText (word : IsNameWord w) (table : IsTableWord t) :
    Select.ofText? (String.ofList (columnText w t)) =
      if BeginsReserved w ∨ BeginsReserved t then .error .badStatement
      else .ok ⟨.columns [⟨String.ofList w, none⟩], some (String.ofList t), none, [], none, none⟩ := by
  split
  · next reserved =>
    refine ofText?_of_unread ?_
    rw [String.toList_ofList]
    by_cases first : BeginsReserved w
    · exact readAll?_of_refuses (select_columnText_refuses first)
    · have second := reserved.resolve_left first
      have stops := select_columnText_stops word first table second
      obtain ⟨c, cs, rfl, alpha⟩ := second.begins
      exact readAll?_of_word (isWordChar_of_isAlpha alpha) stops
  · next free =>
    obtain ⟨first, second⟩ := not_or.mp free
    refine ofText?_of_read ?_
    rw [String.toList_ofList]
    exact readAll?_of_select (select_columnText word first table second) (.inl isBlank_nil)

/-- Words that only begin like a keyword are names, also with a dot or a sign further on. -/
theorem ofText?_columnText_longer :
    (IsNameWord "selection.from".toList ∧ IsTableWord "in_stock-2".toList) ∧
      Select.ofText? "SELECT selection.from FROM in_stock-2" =
        .ok ⟨.columns [⟨"selection.from", none⟩], some "in_stock-2", none, [], none, none⟩ ∧
      Select.ofText? "SELECT id FROM order-items" = .error .badStatement := by
  have word : IsNameWord "selection.from".toList := by decide
  have table : IsTableWord "in_stock-2".toList := by decide
  refine ⟨⟨word, table⟩, ?_, ?_⟩
  · have read := ofText?_columnText word table
    rw [if_neg (by decide)] at read
    exact read
  · have read := ofText?_columnText (w := "id".toList) (t := "order-items".toList)
      (by decide) (by decide)
    rw [if_pos (by decide)] at read
    exact read

/-- None of these is a keyword, and each is refused for the keyword in front. -/
theorem ofText?_dotted :
    (IsNameWord "order.id".toList ∧ ¬ IsKeyword "order.id".toList) ∧
      (IsTableWord "in-stock".toList ∧ ¬ IsKeyword "in-stock".toList) ∧
      Select.ofText? "SELECT order.id FROM docs" = .error .badStatement ∧
      Select.ofText? "SELECT id FROM in-stock" = .error .badStatement := by
  have reserved : BeginsReserved "order.id".toList ∧ BeginsReserved "in-stock".toList := by decide
  have stops := select_columnText_stops (w := "id".toList) (t := "in-stock".toList) (by decide)
    (by decide) (by decide) reserved.2
  refine ⟨by decide, by decide, ofText?_of_unread ?_, ofText?_of_unread ?_⟩
  · exact readAll?_of_refuses (select_columnText_refuses (t := "docs".toList) reserved.1)
  · exact readAll?_of_word (by decide) stops

end Statements

end SearchSelect.Sql
