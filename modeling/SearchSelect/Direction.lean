/-! Sort directions and their two spellings: lower case in sort specifications, upper case in
statements. Reading ignores ASCII case. -/

namespace SearchSelect

inductive Direction where
  | asc
  | desc
  deriving DecidableEq, Repr, Inhabited

namespace Direction

def name : Direction → String
  | asc => "asc"
  | desc => "desc"

def keyword : Direction → String
  | asc => "ASC"
  | desc => "DESC"

def ofText? (s : String) : Option Direction :=
  let low := s.toList.map Char.toLower
  if low = "asc".toList then some asc
  else if low = "desc".toList then some desc
  else none

theorem ofText?_eq_some {s : String} {d : Direction} :
    ofText? s = some d ↔ s.toList.map Char.toLower = d.name.toList := by
  simp only [ofText?]
  generalize s.toList.map Char.toLower = low
  split
  · next isAsc => cases d <;> simp [isAsc, name]
  · split
    · next isDesc => cases d <;> simp [isDesc, name]
    · next notAsc notDesc => cases d <;> simpa [name]

theorem ofText?_name (d : Direction) : ofText? d.name = some d := by
  cases d <;> decide

end Direction

end SearchSelect
