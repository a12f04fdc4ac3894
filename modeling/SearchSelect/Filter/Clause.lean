import SearchSelect.Filter.Term
import SearchSelect.Sql.Select
import SearchSelect.Text.Blank

/-! Conditions as filter queries. A clause that only excludes documents is negative: alone in a
group it would match nothing, so there it is put on the base `*:*` of all documents. -/

namespace SearchSelect.Filter

open Sql Text

structure Clause where
  text : List Char
  negative : Bool

def Clause.positive (text : List Char) : Clause := ⟨text, false⟩

def Clause.negativeIf (negated : Bool) (text : List Char) : Clause :=
  if negated then ⟨'-' :: text, true⟩ else ⟨text, false⟩

def grouped (text : List Char) : List Char :=
  '(' :: (text ++ [')'])

/-- The form that can stand among alternatives or under a negation. -/
def Clause.standalone (c : Clause) : List Char :=
  if c.negative then grouped ("*:* ".toList ++ c.text) else c.text

def valueText : Literal → List Char
  | .text s => phrase s.toList
  | .number spelling => spelling.toList
  | .flag b => if b then "true".toList else "false".toList
  | .null => ['*']

def rangeText (column : String) (opening : Char) (low high : List Char) (closing : Char) :
    List Char :=
  column.toList ++ ':' :: opening :: (low ++ " TO ".toList ++ high ++ [closing])

def comparisonClause (column : String) (op : Comparator) (value : Literal) : Clause :=
  let v := valueText value
  match op with
  | .eq => .positive (column.toList ++ ':' :: v)
  | .ne => .negativeIf true (column.toList ++ ':' :: v)
  | .gt => .positive (rangeText column '\x7b' v ['*'] ']')
  | .ge => .positive (rangeText column '[' v ['*'] ']')
  | .lt => .positive (rangeText column '[' ['*'] v '\x7d')
  | .le => .positive (rangeText column '[' ['*'] v ']')

def membershipText (column : String) (values : List Literal) : List Char :=
  column.toList ++ ':' :: grouped ((" OR ".toList).intercalate (values.map valueText))

def conjunct (c : Clause) : List Char :=
  if occursIn " OR ".toList c.text && !c.negative then grouped c.text else c.text

def allOf (cs : List Clause) : Clause :=
  ⟨(" AND ".toList).intercalate (cs.map conjunct), cs.all Clause.negative⟩

/-- A bare conjunction would bind its parts to the whole disjunction. -/
def alternative (isConjunction : Bool) (c : Clause) : List Char :=
  if !c.negative && isConjunction then grouped c.text else c.standalone

def isConjunction : Condition → Bool
  | .all _ => true
  | _ => false

def excluding (c : Clause) : Clause :=
  .negativeIf true <|
    if c.negative then c.standalone
    else if c.text.contains ' ' then grouped c.text
    else c.text

mutual

def clause : Condition → Clause
  | .all parts => allOf (clauses parts)
  | .any parts => .positive ((" OR ".toList).intercalate (alternatives parts))
  | .not part => excluding (clause part)
  | .compare column op value => comparisonClause column op value
  | .oneOf column values negated => .negativeIf negated (membershipText column values)
  | .isNull column negated => .negativeIf (!negated) (rangeText column '[' ['*'] ['*'] ']')
  | .like column pattern negated =>
    .negativeIf negated (column.toList ++ ':' :: wildcard pattern.toList)
  | .between column low high negated =>
    .negativeIf negated (rangeText column '[' (valueText low) (valueText high) ']')

def clauses : List Condition → List Clause
  | [] => []
  | p :: ps => clause p :: clauses ps

def alternatives : List Condition → List (List Char)
  | [] => []
  | p :: ps => alternative (isConjunction p) (clause p) :: alternatives ps

end

def ofCondition (c : Condition) : String :=
  String.ofList (clause c).text

/-- The documents with one of the given internal ids, in the given order. -/
def ofDocIds (ids : List String) : String :=
  "_docid_:(" ++
    String.intercalate " OR " (ids.map fun id => String.ofList (escaped id.toList)) ++ ")"

end SearchSelect.Filter
