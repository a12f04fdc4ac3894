import SearchSelect.Json.Record
import SearchSelect.Sql.Query

/-! Statements as JSON values, and conditions read back from them. -/

namespace SearchSelect

open Sql

namespace Json

def ofOption (j : Option Json) : Json := j.getD null

def ofTextOption (s : Option String) : Json := ofOption (s.map str)

def ofWord (n : UInt64) : Json := ofNat n.toNat

end Json

namespace Sql

def Literal.toJson : Literal → Json
  | text s => .obj [("String", .str s)]
  | number s => .obj [("Number", .str s)]
  | flag b => .obj [("Boolean", .bool b)]
  | null => .str "Null"

def Literal.ofDraft? : Draft → Option Literal
  | .obj [(some "String", d)] => text <$> d.text?
  | .obj [(some "Number", d)] => number <$> d.text?
  | .obj [(some "Boolean", d)] => flag <$> d.flag?
  | d => d.tag? fun name => if name = "Null" then some null else none

def Comparator.name : Comparator → String
  | eq => "Eq"
  | ne => "NotEq"
  | lt => "Lt"
  | le => "LtEq"
  | gt => "Gt"
  | ge => "GtEq"

def Comparator.ofName? (s : String) : Option Comparator :=
  [eq, ne, lt, le, gt, ge].find? fun c => c.name = s

def Comparator.ofDraft? (d : Draft) : Option Comparator :=
  d.tag? ofName?

namespace Condition

mutual

def toJson : Condition → Json
  | all parts => .obj [("And", .arr (toJsons parts))]
  | any parts => .obj [("Or", .arr (toJsons parts))]
  | not part => .obj [("Not", toJson part)]
  | compare column op value =>
    .obj [("Compare", .obj
      [("column", .str column), ("op", .str op.name), ("value", value.toJson)])]
  | oneOf column values negated =>
    .obj [("InList", .obj
      [("column", .str column), ("values", .arr (values.map Literal.toJson)),
        ("negated", .bool negated)])]
  | isNull column negated =>
    .obj [("IsNull", .obj [("column", .str column), ("negated", .bool negated)])]
  | like column pattern negated =>
    .obj [("Like", .obj
      [("column", .str column), ("pattern", .str pattern), ("negated", .bool negated)])]
  | between column low high negated =>
    .obj [("Between", .obj
      [("column", .str column), ("low", low.toJson), ("high", high.toJson),
        ("negated", .bool negated)])]

def toJsons : List Condition → List Json
  | [] => []
  | c :: cs => toJson c :: toJsons cs

end

open Draft in
/-- A condition without parts, from the name of its case and its fields. -/
def predicateOf? (kind : String) (body : Draft) : Option Condition := do
  match kind with
  | "Compare" =>
    match ← body.slots? ["column", "op", "value"] with
    | [column, op, value] =>
      return compare (← required text? column) (← required Comparator.ofDraft? op)
        (← required Literal.ofDraft? value)
    | _ => none
  | "InList" =>
    match ← body.slots? ["column", "values", "negated"] with
    | [column, values, negated] =>
      return oneOf (← required text? column) (← required (list? Literal.ofDraft?) values)
        (← required flag? negated)
    | _ => none
  | "IsNull" =>
    match ← body.slots? ["column", "negated"] with
    | [column, negated] => return isNull (← required text? column) (← required flag? negated)
    | _ => none
  | "Like" =>
    match ← body.slots? ["column", "pattern", "negated"] with
    | [column, pattern, negated] =>
      return like (← required text? column) (← required text? pattern) (← required flag? negated)
    | _ => none
  | "Between" =>
    match ← body.slots? ["column", "low", "high", "negated"] with
    | [column, low, high, negated] =>
      return between (← required text? column) (← required Literal.ofDraft? low)
        (← required Literal.ofDraft? high) (← required flag? negated)
    | _ => none
  | _ => none

mutual

def ofDraft? : Draft → Option Condition
  | .obj [(some kind, .arr parts)] =>
    if kind = "And" then all <$> ofDrafts? parts
    else if kind = "Or" then any <$> ofDrafts? parts
    else predicateOf? kind (.arr parts)
  | .obj [(some kind, body)] =>
    if kind = "Not" then not <$> ofDraft? body else predicateOf? kind body
  | _ => none

def ofDrafts? : List Draft → Option (List Condition)
  | [] => some []
  | d :: ds => do
    let c ← ofDraft? d
    let cs ← ofDrafts? ds
    return c :: cs

end

end Condition

def Column.toJson (c : Column) : Json :=
  .obj [("column", .str c.source), ("alias", .ofTextOption c.label)]

def Projection.toJson : Projection → Json
  | everything => .str "Wildcard"
  | columns items => .obj [("Columns", .arr (items.map Column.toJson))]

def SortKey.toJson (k : SortKey) : Json :=
  .obj [("column", .str k.column), ("direction", .ofTextOption (k.direction.map Direction.name))]

def Select.toJson (s : Select) : Json :=
  .obj [("projection", s.projection.toJson), ("from", .ofTextOption s.collection),
    ("selection", .ofOption (s.condition.map Condition.toJson)),
    ("order_by", .arr (s.order.map SortKey.toJson)),
    ("limit", .ofOption (s.limit.map Json.ofWord)),
    ("offset", .ofOption (s.offset.map Json.ofWord))]

/-- The members of a query's JSON form. -/
def Query.members (q : Query) : Doc :=
  [("ast", q.statement.toJson), ("collection", .str q.collection), ("fields", .ofTexts q.fields),
    ("sort_fields", .arr (q.sortFields.map fun f => .ofTexts [f.1, f.2.name]))]

end Sql

end SearchSelect
