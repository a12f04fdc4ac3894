import SearchSelect.Action
import SearchSelect.Proofs.SyntaxTree

/-! Statements built from their syntax trees. A builder takes from a node the parts it knows. For a
part that is missing it has a default or a fault of its own, and each time it falls back on one it
notes the kind of the node. -/

namespace SearchSelect.Sql

/-- The state is the list of the nodes in which something was missing, the last one first. -/
abbrev Building (α : Type) := Action (List Rule) α

namespace Building

variable {α β : Type}

/-- Falls back on a default. -/
def instead (rule : Rule) (a : α) : Building α := do
  modify (rule :: ·)
  return a

/-- Falls back on a fault. -/
def refuse (rule : Rule) (message : String) : Building α := do
  modify (rule :: ·)
  throw (.reported .query message)

def orElse (o : Option α) (rule : Rule) (a : α) : Building α :=
  match o with
  | some a => return a
  | none => instead rule a

/-- A list that must not be empty, though nothing stands in for it when it is. -/
def filled (rule : Rule) (as : List α) : Building (List α) :=
  if as.isEmpty then instead rule as else return as

end Building

namespace Tree

open Building

/-! ## Names and literals -/

/-- The text of the first part, which stands between the quotes of the node. -/
def enclosed (t : Tree) : Building String :=
  orElse (t.parts.head?.map text) t.rule ""

/-- Of two quotes that stand together one is left. -/
def singleQuotes : List Char → List Char
  | '\x27' :: '\x27' :: r => '\x27' :: singleQuotes r
  | c :: r => c :: singleQuotes r
  | [] => []

def asText (t : Tree) : Building String := do
  let inside ← t.enclosed
  return String.ofList (singleQuotes inside.toList)

def asName (t : Tree) : Building String :=
  match t.parts with
  | [] => instead t.rule ""
  | inner :: _ => if inner.rule = .quotedName then inner.enclosed else return inner.text

def asTable (t : Tree) : Building String :=
  match t.parts with
  | [] => instead t.rule ""
  | inner :: _ =>
    match inner.rule with
    | .quotedName => inner.enclosed
    | .text => inner.asText
    | _ => return inner.text

def asLiteral (t : Tree) : Building Literal :=
  match t.parts with
  | [] => refuse t.rule "Invalid SQL syntax: empty literal"
  | inner :: _ =>
    match inner.rule with
    | .text => Literal.text <$> inner.asText
    | .number => return .number inner.text
    | .word "true" => return .flag true
    | .word "false" => return .flag false
    | .word "null" => return .null
    | _ => instead t.rule .null

/-! ## Predicates -/

/-- What the parts of a predicate say, one after the other. Of a part that comes twice the last one
counts, and literals are kept in order. -/
structure Pieces where
  column : Option String
  negated : Bool
  op : Option Comparator
  values : List Literal
  pattern : Option String
  deriving DecidableEq, Repr

def Pieces.none : Pieces :=
  ⟨.none, false, .none, [], .none⟩

def Pieces.add (p : Pieces) (t : Tree) : Building Pieces :=
  match t.rule with
  | .name => do
    let column ← t.asName
    return { p with column := some column }
  | .word "not" => return { p with negated := true }
  | .sign => return { p with op := Comparator.ofSymbol? t.text }
  | .literal => do
    let value ← t.asLiteral
    return { p with values := p.values ++ [value] }
  | .text => do
    let pattern ← t.asText
    return { p with pattern := some pattern }
  | _ => return p

/-- The predicate of this kind from what its parts say. The text is that of the whole predicate. -/
def Pieces.condition (p : Pieces) (rule : Rule) (text : String) : Building Condition := do
  let column ← orElse p.column rule ""
  match rule with
  | .comparison =>
    match p.op with
    | .none => refuse rule ("Unsupported comparison operator in '" ++ text ++ "'")
    | some op => do
      let value ← orElse p.values.getLast? rule .null
      Action.of (comparisonMeaning column op value text)
  | .membership => do
    let values ← filled rule p.values
    return .oneOf column values p.negated
  | .nullTest => return .isNull column p.negated
  | .likeTest => do
    let pattern ← orElse p.pattern rule ""
    return .like column pattern p.negated
  | .rangeTest =>
    match p.values with
    | low :: high :: _ => return .between column low high p.negated
    | _ => refuse rule ("Invalid BETWEEN in '" ++ text ++ "'")
  | _ => refuse rule ("Unsupported predicate '" ++ text ++ "'")

def asPredicate (t : Tree) : Building Condition := do
  let p ← t.parts.foldlM Pieces.add Pieces.none
  p.condition t.rule t.text

/-! ## Conditions -/

inductive Joint where
  | all
  | any
  deriving DecidableEq, Repr

namespace Joint

/-- What the parts of a join are. -/
def item : Joint → Rule
  | all => .factor
  | any => .conjunction

/-- A part that stands alone is not wrapped. There is no join of nothing, but one would be built. -/
def join (j : Joint) (rule : Rule) (parts : List Condition) : Building Condition :=
  match j, parts with
  | all, [] => instead rule (.all [])
  | any, [] => instead rule (.any [])
  | _, [part] => return part
  | all, parts => return .all parts
  | any, parts => return .any parts

end Joint

mutual

def asCondition : Tree → Building Condition
  | node rule _ [] => refuse rule "Invalid SQL syntax: empty WHERE clause"
  | node _ _ (inner :: _) => asJoin .any inner

def asJoin (j : Joint) : Tree → Building Condition
  | node rule _ parts => do
    let items ← asItems j parts
    j.join rule items

/-- The items of a join; its words are passed over. -/
def asItems : Joint → List Tree → Building (List Condition)
  | _, [] => return []
  | .all, t :: ts =>
    if t.rule = .factor then do
      let item ← asFactor t
      let items ← asItems .all ts
      return item :: items
    else asItems .all ts
  | .any, t :: ts =>
    if t.rule = .conjunction then do
      let item ← asJoin .all t
      let items ← asItems .any ts
      return item :: items
    else asItems .any ts

def asFactor : Tree → Building Condition
  | node rule _ parts => asNegated rule false parts

/-- The first part that is no word decides. -/
def asNegated (rule : Rule) : Bool → List Tree → Building Condition
  | _, [] => refuse rule "Invalid SQL syntax: dangling NOT"
  | negated, t :: ts =>
    if t.rule = .word "not" then asNegated rule true ts
    else if t.rule = .factor then Condition.not <$> asFactor t
    else if t.rule = .primary then do
      let c ← asPrimary t
      return if negated then .not c else c
    else asNegated rule negated ts

def asPrimary : Tree → Building Condition
  | node rule _ [] => refuse rule "Invalid SQL syntax: empty expression"
  | node rule _ (inner :: _) =>
    if inner.rule = .condition then asCondition inner
    else if inner.rule = .predicate then
      match inner.parts with
      | [] => refuse inner.rule "Invalid SQL syntax: empty predicate"
      | p :: _ => p.asPredicate
    else refuse rule ("Unsupported expression: " ++ inner.text)

end

/-! ## Statements -/

/-- The name and the label found so far, and what one more part adds. -/
def addToColumn (c : Option String × Option String) (t : Tree) :
    Building (Option String × Option String) :=
  match t.rule with
  | .name => do
    let source ← t.asName
    return (some source, c.2)
  | .label =>
    match t.part? .name with
    | none => instead t.rule (c.1, none)
    | some name => do
      let label ← name.asName
      return (c.1, some label)
  | _ => return c

def asColumn (t : Tree) : Building Column := do
  let c ← t.parts.foldlM addToColumn (none, none)
  let source ← orElse c.1 t.rule ""
  return ⟨source, c.2⟩

/-- A star ends the list, whatever stands in front of it. -/
def projectionOf (rule : Rule) (columns : List Column) : List Tree → Building Projection
  | [] => Projection.columns <$> filled rule columns
  | t :: ts =>
    match t.rule with
    | .star => return .everything
    | .column => do
      let column ← t.asColumn
      projectionOf rule (columns ++ [column]) ts
    | _ => projectionOf rule columns ts

def asProjection (t : Tree) : Building Projection :=
  projectionOf t.rule [] t.parts

def addToSortKey (k : Option String × Option Direction) (t : Tree) :
    Building (Option String × Option Direction) :=
  match t.rule with
  | .name => do
    let column ← t.asName
    return (some column, k.2)
  | .word "asc" => return (k.1, some .asc)
  | .word "desc" => return (k.1, some .desc)
  | _ => return k

def asSortKey (t : Tree) : Building SortKey := do
  let k ← t.parts.foldlM addToSortKey (none, none)
  let column ← orElse k.1 t.rule ""
  return ⟨column, k.2⟩

def asOrder (t : Tree) : Building (List SortKey) := do
  let keys ← (t.parts.filter fun p => p.rule = .sortKey).mapM asSortKey
  filled t.rule keys

/-- No digits are no count. -/
def asCount (clause : String) (t : Tree) : Building UInt64 :=
  match t.part? .integer with
  | none => refuse t.rule ("Invalid " ++ clause ++ " value ''")
  | some digits => Action.of (countMeaning clause digits.text.toList)

/-- A FROM clause may name nothing, which is no fallback. -/
def asCollection (t : Tree) : Building String :=
  match t.part? .table with
  | none => return ""
  | some table => table.asTable

def addClause (s : Select) (t : Tree) : Building Select :=
  match t.rule with
  | .projection => do
    let projection ← t.asProjection
    return { s with projection := projection }
  | .fromClause => do
    let collection ← t.asCollection
    return { s with collection := some collection }
  | .whereClause =>
    match t.part? .condition with
    | none => instead t.rule s
    | some c => do
      let c ← c.asCondition
      return { s with condition := some c }
  | .orderClause => do
    let keys ← t.asOrder
    return { s with order := keys }
  | .limitClause => do
    let n ← t.asCount "LIMIT"
    return { s with limit := some n }
  | .offsetClause => do
    let n ← t.asCount "OFFSET"
    return { s with offset := some n }
  | _ => return s

/-- Without a projection everything is asked for. -/
def asSelect (t : Tree) : Building Select := do
  let bare : Select := ⟨.everything, none, none, [], none, none⟩
  let s ← orElse ((t.part? .projection).map fun _ => bare) t.rule bare
  t.parts.foldlM addClause s

def asStatement (t : Tree) : Building Select :=
  match t.part? .select with
  | none => refuse t.rule "Invalid SQL syntax: missing SELECT statement"
  | some s => s.asSelect

end Tree

end SearchSelect.Sql
