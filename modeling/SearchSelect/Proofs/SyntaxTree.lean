import SearchSelect.Sql.Statement

/-! Syntax trees of statements. Each rule of the grammar leaves a node with the text it has read and
the nodes of its parts in the order of the text. Blanks, punctuation and the checks for keywords in
front of names leave none. -/

namespace SearchSelect.Sql

open Text

/-- What a node stands for. `inside` is what stands between quotes of either kind, as written. -/
inductive Rule where
  | word (w : String)
  | inside
  | quotedName
  | bareName
  | name
  | text
  | tableWord
  | table
  | number
  | integer
  | literal
  | sign
  | comparison
  | membership
  | nullTest
  | likeTest
  | rangeTest
  | predicate
  | primary
  | factor
  | conjunction
  | disjunction
  | condition
  | star
  | label
  | column
  | projection
  | sortKey
  | fromClause
  | whereClause
  | orderClause
  | limitClause
  | offsetClause
  | select
  | statement
  deriving DecidableEq, Repr

inductive Tree where
  | node (rule : Rule) (text : String) (parts : List Tree)
  deriving Repr

namespace Tree

def rule : Tree → Rule
  | node rule _ _ => rule

def text : Tree → String
  | node _ text _ => text

def parts : Tree → List Tree
  | node _ _ parts => parts

/-- The first part of a kind. -/
def part? (t : Tree) (kind : Rule) : Option Tree :=
  t.parts.find? fun p => p.rule = kind

section Parts

variable {rule kind : Rule} {text : String} {t : Tree} {ts : List Tree}

theorem part?_nil : (node rule text []).part? kind = none := rfl

theorem part?_cons_of_eq (h : t.rule = kind) : (node rule text (t :: ts)).part? kind = some t :=
  List.find?_cons_of_pos (by simp [h])

theorem part?_cons_of_ne (h : t.rule ≠ kind) :
    (node rule text (t :: ts)).part? kind = (node rule text ts).part? kind :=
  List.find?_cons_of_neg (by simp [h])

end Parts

end Tree

namespace Grammar

variable {α : Type}

/-- A node that begins right here, as the parts of a lexeme do. -/
def here (rule : Rule) (p : Reader (List Tree)) : Reader Tree := do
  let (parts, text) ← withText p
  return .node rule (String.ofList text) parts

/-- A node without parts. -/
def leaf (rule : Rule) (p : Reader α) : Reader Tree :=
  here rule (p *> pure [])

/-- A node that may have blanks in front. -/
def node (rule : Rule) (p : Reader (List Tree)) : Reader Tree :=
  lexeme (here rule p)

/-- A node with one part. -/
def around (rule : Rule) (p : Reader Tree) : Reader Tree :=
  node rule do
    let t ← p
    return [t]

/-! ## Lexemes -/

def word (w : String) : Reader Tree :=
  lexeme (leaf (.word w) (keyword w))

def quotedName : Reader Tree :=
  here .quotedName do
    let _ ← char backtick
    let inside ← leaf .inside (run1 fun c => c != backtick)
    let _ ← char backtick
    return [inside]

def name : Reader Tree :=
  around .name (quotedName <|> leaf .bareName bareName)

/-- Runs to the quote that closes a text. Two quotes that stand together are part of the text. -/
def insideText : Reader Unit
  | '\x27' :: '\x27' :: r => insideText r
  | '\x27' :: r => some ((), '\x27' :: r)
  | _ :: r => insideText r
  | [] => some ((), [])

def text : Reader Tree :=
  node .text do
    let _ ← char '\x27'
    let inside ← leaf .inside insideText
    let _ ← char '\x27'
    return [inside]

def table : Reader Tree :=
  around .table (lexeme quotedName <|> text <|>
    lexeme (leaf .tableWord (notKeyword *> run1 isTableChar)))

def literal : Reader Tree :=
  around .literal (text <|> lexeme (leaf .number number) <|> word "true" <|> word "false" <|>
    word "null")

/-! ## Conditions -/

def comparison : Reader Tree :=
  node .comparison do
    let column ← name
    let sign ← lexeme (leaf .sign comparator)
    let value ← literal
    return [column, sign, value]

def membership : Reader Tree :=
  node .membership do
    let column ← name
    let negation ← optional (word "not")
    let within ← word "in"
    symbol "("
    let values ← sepBy1 (symbol ",") literal
    symbol ")"
    return column :: (negation.toList ++ within :: values)

def nullTest : Reader Tree :=
  node .nullTest do
    let column ← name
    let test ← word "is"
    let negation ← optional (word "not")
    let null ← word "null"
    return column :: test :: (negation.toList ++ [null])

def likeTest : Reader Tree :=
  node .likeTest do
    let column ← name
    let negation ← optional (word "not")
    let like ← word "like"
    let pattern ← text
    return column :: (negation.toList ++ [like, pattern])

def rangeTest : Reader Tree :=
  node .rangeTest do
    let column ← name
    let negation ← optional (word "not")
    let between ← word "between"
    let low ← literal
    let joint ← word "and"
    let high ← literal
    return column :: (negation.toList ++ [between, low, joint, high])

def predicate : Reader Tree :=
  around .predicate (rangeTest <|> membership <|> nullTest <|> likeTest <|> comparison)

/-- One or more items with a word between them. The words are parts as well. -/
def joinedBy (w : String) (item : Reader Tree) : Reader (List Tree) := do
  let t ← item
  let ts ← many do
    let joint ← word w
    let t ← item
    return [joint, t]
  return t :: ts.flatten

def primary (inner : Reader Tree) : Reader Tree :=
  around .primary (symbol "(" *> inner <* symbol ")" <|> predicate)

/-- NOT in front of a factor, or a primary. -/
def factorFrom (inner : Reader Tree) : Nat → Reader Tree
  | 0 => failure
  | n + 1 =>
    node .factor ((do
      let negation ← word "not"
      let t ← factorFrom inner n
      return [negation, t]) <|> do
      let t ← primary inner
      return [t])

/-- There are fewer words in front of a factor than the text is long. -/
def factor (inner : Reader Tree) : Reader Tree := fun s =>
  factorFrom inner (s.length + 1) s

def conjunction (inner : Reader Tree) : Reader Tree :=
  node .conjunction (joinedBy "and" (factor inner))

def disjunction (inner : Reader Tree) : Reader Tree :=
  node .disjunction (joinedBy "or" (conjunction inner))

/-- As for conditions, `depth` bounds the parentheses. -/
def condition : Nat → Reader Tree
  | 0 => failure
  | depth + 1 => around .condition (disjunction (condition depth))

def anyCondition : Reader Tree := fun s =>
  condition (s.length + 1) s

/-! ## Statements -/

def label : Reader Tree :=
  node .label do
    let as? ← optional (word "as")
    let name ← name
    return as?.toList ++ [name]

def column : Reader Tree :=
  node .column do
    let source ← name
    let label ← optional label
    return source :: label.toList

def projection : Reader Tree :=
  node .projection ((do
    let star ← lexeme (leaf .star (symbol "*"))
    return [star]) <|> sepBy1 (symbol ",") column)

def sortKey : Reader Tree :=
  node .sortKey do
    let column ← name
    let direction ← optional (word "asc" <|> word "desc")
    return column :: direction.toList

def fromClause : Reader Tree :=
  node .fromClause do
    let lead ← word "from"
    let table ← optional table
    return lead :: table.toList

def whereClause : Reader Tree :=
  node .whereClause do
    let lead ← word "where"
    let condition ← anyCondition
    return [lead, condition]

def orderClause : Reader Tree :=
  node .orderClause do
    let lead ← word "order"
    let by_ ← word "by"
    let keys ← sepBy1 (symbol ",") sortKey
    return lead :: by_ :: keys

def countClause (rule : Rule) (w : String) : Reader Tree :=
  node rule do
    let lead ← word w
    let digits ← lexeme (leaf .integer integer)
    return [lead, digits]

def select : Reader Tree :=
  node .select do
    let lead ← word "select"
    let projection ← projection
    let from? ← optional fromClause
    let where? ← optional whereClause
    let order? ← optional orderClause
    let limit? ← optional (countClause .limitClause "limit")
    let offset? ← optional (countClause .offsetClause "offset")
    return lead :: projection :: [from?, where?, order?, limit?, offset?].flatMap Option.toList

def statement : Reader Tree :=
  around .statement (select <* optional (symbol ";") <* skipSpace)

end Grammar

def Tree.ofText? (sql : String) : Option Tree :=
  readAll? Grammar.statement sql.toList

end SearchSelect.Sql
