import SearchSelect.Sql.Lexeme
import SearchSelect.Fault

/-! Reading a statement. A text of the wrong form is no statement at all; a text of the right form
may still hold a comparison or a count that has no meaning, and then the first of those, from the
left, is the fault. Conditions are read up to a given depth of parentheses, and no text nests
deeper than it is long. -/

namespace SearchSelect.Sql

open Text

variable {α : Type}

/-- What a well-formed part of a statement means, if it means anything. -/
abbrev Meaning (α : Type) := Except Fault α

def literalValue : Reader Literal :=
  Literal.text <$> string <|> Literal.number <$> number <|>
    keyword "true" *> pure (.flag true) <|> keyword "false" *> pure (.flag false) <|>
    keyword "null" *> pure .null

def comparator : Reader Comparator :=
  symbol "<>" *> pure .ne <|> symbol "!=" *> pure .ne <|> symbol "<=" *> pure .le <|>
    symbol ">=" *> pure .ge <|> symbol "=" *> pure .eq <|> symbol "<" *> pure .lt <|>
    symbol ">" *> pure .gt

/-- Comparing with NULL for equality asks whether there is a value; no other comparison with NULL
means anything. -/
def comparisonMeaning (column : String) (op : Comparator) (value : Literal) (text : String) :
    Meaning Condition :=
  match op, value with
  | .eq, .null => .ok (.isNull column false)
  | .ne, .null => .ok (.isNull column true)
  | _, .null => .error (.nullComparison text)
  | _, _ => .ok (.compare column op value)

def comparison : Reader (Meaning Condition) := do
  skipSpace
  let ((column, op, value), text) ← withText do
    let column ← name
    let op ← comparator
    let value ← literalValue
    return (column, op, value)
  return comparisonMeaning column op value (String.ofList text)

def negation : Reader Bool :=
  keyword "not" *> pure true <|> pure false

def membership : Reader Condition := do
  let column ← name
  let negated ← negation
  keyword "in"
  symbol "("
  let values ← sepBy1 (symbol ",") literalValue
  symbol ")"
  return .oneOf column values negated

def nullTest : Reader Condition := do
  let column ← name
  keyword "is"
  let negated ← negation
  keyword "null"
  return .isNull column negated

def likeTest : Reader Condition := do
  let column ← name
  let negated ← negation
  keyword "like"
  let pattern ← string
  return .like column pattern negated

def rangeTest : Reader Condition := do
  let column ← name
  let negated ← negation
  keyword "between"
  let low ← literalValue
  keyword "and"
  let high ← literalValue
  return .between column low high negated

def predicate : Reader (Meaning Condition) :=
  Except.ok <$> rangeTest <|> Except.ok <$> membership <|> Except.ok <$> nullTest <|>
    Except.ok <$> likeTest <|> comparison

/-- Parts joined by a keyword; a part that stands alone is not wrapped. -/
def joined (join : List Condition → Condition) (parts : List (Meaning Condition)) :
    Meaning Condition := do
  match ← parts.mapM id with
  | [part] => return part
  | parts => return join parts

def negations : Nat → Meaning Condition → Meaning Condition
  | 0, c => c
  | n + 1, c => Condition.not <$> negations n c

/-- A predicate, or a condition in parentheses as `inner` reads it. -/
def primary (inner : Reader (Meaning Condition)) : Reader (Meaning Condition) :=
  symbol "(" *> inner <* symbol ")" <|> predicate

def factor (inner : Reader (Meaning Condition)) : Reader (Meaning Condition) := do
  let nots ← many (keyword "not")
  let c ← primary inner
  return negations nots.length c

def conjunction (inner : Reader (Meaning Condition)) : Reader (Meaning Condition) :=
  joined .all <$> sepBy1 (keyword "and") (factor inner)

def disjunction (inner : Reader (Meaning Condition)) : Reader (Meaning Condition) :=
  joined .any <$> sepBy1 (keyword "or") (conjunction inner)

/-- A condition with parentheses nested less than `depth` deep. -/
def condition : Nat → Reader (Meaning Condition)
  | 0 => failure
  | depth + 1 => disjunction (condition depth)

def anyCondition : Reader (Meaning Condition) := fun s =>
  condition (s.length + 1) s

def column : Reader Column := do
  let source ← name
  let label ← optional (optional (keyword "as") *> name)
  return ⟨source, label⟩

def projection : Reader Projection :=
  symbol "*" *> pure .everything <|> Projection.columns <$> sepBy1 (symbol ",") column

def sortKey : Reader SortKey := do
  let column ← name
  let direction ← optional
    (keyword "asc" *> pure Direction.asc <|> keyword "desc" *> pure Direction.desc)
  return ⟨column, direction⟩

def fromClause : Reader String := do
  keyword "from"
  tableName <|> pure ""

def whereClause : Reader (Meaning Condition) :=
  keyword "where" *> anyCondition

def orderClause : Reader (List SortKey) := do
  keyword "order"
  keyword "by"
  sepBy1 (symbol ",") sortKey

/-- A count must fit 64 bits. -/
def countMeaning (clause : String) (digits : List Char) : Meaning UInt64 :=
  let n := digits.foldl (fun n d => n * 10 + (d.toNat - 48)) 0
  if n < UInt64.size then .ok (.ofNat n)
  else .error (.countTooLarge clause (String.ofList digits))

def countClause (word clause : String) : Reader (Meaning UInt64) := do
  keyword word
  countMeaning clause <$> integer

def optionalMeaning : Option (Meaning α) → Meaning (Option α)
  | none => .ok none
  | some m => some <$> m

def select : Reader (Meaning Select) := do
  keyword "select"
  let projection ← projection
  let collection ← optional fromClause
  let condition ← optional whereClause
  let order ← optional orderClause
  let limit ← optional (countClause "limit" "LIMIT")
  let offset ← optional (countClause "offset" "OFFSET")
  return do
    let condition ← optionalMeaning condition
    let limit ← optionalMeaning limit
    let offset ← optionalMeaning offset
    return ⟨projection, collection, condition, order.getD [], limit, offset⟩

def statement : Reader (Meaning Select) :=
  select <* optional (symbol ";") <* skipSpace

def Select.ofText? (sql : String) : Except Fault Select :=
  match readAll? statement sql.toList with
  | none => .error .badStatement
  | some m => m

end SearchSelect.Sql
