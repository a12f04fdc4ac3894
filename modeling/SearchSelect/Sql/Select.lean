import SearchSelect.Direction

/-! SELECT statements: what is projected, from which collection, under which condition, in which
order, and which window of the hits. Numbers keep the spelling they were written in. -/

namespace SearchSelect.Sql

inductive Comparator where
  | eq
  | ne
  | lt
  | le
  | gt
  | ge
  deriving DecidableEq, Repr

def Comparator.ofSymbol? (symbol : String) : Option Comparator :=
  match symbol with
  | "=" => some eq
  | "<>" | "!=" => some ne
  | "<" => some lt
  | "<=" => some le
  | ">" => some gt
  | ">=" => some ge
  | _ => none

inductive Literal where
  | text (s : String)
  | number (spelling : String)
  | flag (b : Bool)
  | null
  deriving DecidableEq, Repr

inductive Condition where
  | all (parts : List Condition)
  | any (parts : List Condition)
  | not (part : Condition)
  | compare (column : String) (op : Comparator) (value : Literal)
  | oneOf (column : String) (values : List Literal) (negated : Bool)
  | isNull (column : String) (negated : Bool)
  | like (column pattern : String) (negated : Bool)
  | between (column : String) (low high : Literal) (negated : Bool)
  deriving Repr

namespace Condition

/-- The condition that `column` holds the text `value`. -/
def equals (column value : String) : Condition :=
  compare column .eq (.text value)

mutual

/-- The column of every predicate, left to right. -/
def mentioned : Condition → List String
  | all parts => mentionedAll parts
  | any parts => mentionedAll parts
  | not part => mentioned part
  | compare column _ _ => [column]
  | oneOf column _ _ => [column]
  | isNull column _ => [column]
  | like column _ _ => [column]
  | between column _ _ _ => [column]

def mentionedAll : List Condition → List String
  | [] => []
  | p :: ps => mentioned p ++ mentionedAll ps

end

/-- The columns in the order of their first mention. -/
def columns (c : Condition) : List String :=
  c.mentioned.eraseDups

end Condition

structure Column where
  source : String
  label : Option String
  deriving DecidableEq, Repr

/-- The name a caller sees. -/
def Column.shown (c : Column) : String :=
  c.label.getD c.source

inductive Projection where
  | everything
  | columns (items : List Column)
  deriving DecidableEq, Repr

def Projection.shown : Projection → List String
  | everything => ["*"]
  | columns items => items.map Column.shown

def Projection.sources : Projection → List String
  | everything => ["*"]
  | columns items => items.map Column.source

structure SortKey where
  column : String
  direction : Option Direction
  deriving DecidableEq, Repr

/-- Ascending unless a direction is written. -/
def SortKey.effective (k : SortKey) : Direction :=
  k.direction.getD .asc

/-- `collection` is absent without a FROM clause and empty when the clause names nothing. -/
structure Select where
  projection : Projection
  collection : Option String
  condition : Option Condition
  order : List SortKey
  limit : Option UInt64
  offset : Option UInt64
  deriving Repr

def Select.sortFields (s : Select) : List (String × Direction) :=
  s.order.map fun k => (k.column, k.effective)

end SearchSelect.Sql
