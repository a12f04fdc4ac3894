import SearchSelect.Text.Blank
import SearchSelect.Text.Word

/-! The shorthand `field:value` inside a statement and the equality `field = 'value'` it stands
for. The value is a phrase in double quotes, a string in single quotes, or a bare token. Strings
of the statement itself are passed over. -/

namespace SearchSelect.Sql.Shorthand

open Text

/-- The rest of a string after its opening quote, cut at the closing one. A doubled quote belongs
to the string if the string can still be closed behind it; otherwise its first half closes. -/
def stringRest? : List Char → Option (List Char × List Char)
  | '\x27' :: '\x27' :: r =>
    match stringRest? r with
    | some (inside, t) => some ('\x27' :: '\x27' :: inside, t)
    | none => some ([], '\x27' :: r)
  | '\x27' :: r => some ([], r)
  | c :: r => (stringRest? r).map fun p => (c :: p.1, p.2)
  | [] => none

/-- The rest of a phrase after its opening quote. A backslash takes the next character with it,
but not a line feed. -/
def phraseRest? : List Char → Option (List Char × List Char)
  | '\x5c' :: c :: r =>
    if c = '\n' then none else (phraseRest? r).map fun p => ('\x5c' :: c :: p.1, p.2)
  | '\x22' :: r => some ([], r)
  | c :: r => if c = '\x5c' then none else (phraseRest? r).map fun p => (c :: p.1, p.2)
  | [] => none

def isBare (c : Char) : Bool :=
  !isBlank c && !("'\x22(),:[]\x7b\x7d".toList.contains c)

def doubleQuotes (s : List Char) : List Char :=
  s.flatMap fun c => if c = '\x27' then ['\x27', '\x27'] else [c]

/-- An escaped double quote loses its backslash; other backslashes stay. -/
def plainQuotes : List Char → List Char
  | '\x5c' :: '\x22' :: r => '\x22' :: plainQuotes r
  | c :: r => c :: plainQuotes r
  | [] => []

/-- The value at the head of a text as the body of a string, and what follows it. -/
def value? : List Char → Option (List Char × List Char)
  | '\x22' :: r => (phraseRest? r).map fun p => (doubleQuotes (plainQuotes p.1), p.2)
  | '\x27' :: r => stringRest? r
  | s =>
    if (s.takeWhile isBare).isEmpty then none
    else some (s.takeWhile isBare, s.dropWhile isBare)

def isFieldStart (c : Char) : Bool :=
  c.isAlpha || c = '_'

def isFieldChar (c : Char) : Bool :=
  isWord c || c = '.'

structure Pair where
  field : List Char
  body : List Char
  rest : List Char

def pair? : List Char → Option Pair
  | [] => none
  | c :: r =>
    if isFieldStart c then
      match r.dropWhile isFieldChar with
      | ':' :: t => (value? t).map fun p => ⟨c :: r.takeWhile isFieldChar, p.1, p.2⟩
      | _ => none
    else
      none

def Pair.text (p : Pair) : List Char :=
  p.field ++ ' ' :: '=' :: ' ' :: '\x27' :: (p.body ++ ['\x27'])

theorem stringRest?_length {s inside t : List Char} (h : stringRest? s = some (inside, t)) :
    t.length < s.length := by
  fun_induction stringRest? s generalizing inside t with
  | case1 r _ _ h' ih =>
    obtain ⟨rfl, rfl⟩ := by simpa using h
    have := ih h'
    simp only [List.length_cons]
    omega
  | case2 r =>
    obtain ⟨rfl, rfl⟩ := by simpa using h
    simp
  | case3 r =>
    obtain ⟨rfl, rfl⟩ := by simpa using h
    simp
  | case4 c r _ _ ih =>
    obtain ⟨p, hp, he⟩ := Option.map_eq_some_iff.1 h
    obtain ⟨rfl, rfl⟩ := by simpa using he
    have := ih hp
    simp only [List.length_cons]
    omega
  | case5 => simp at h

theorem phraseRest?_length {s inside t : List Char} (h : phraseRest? s = some (inside, t)) :
    t.length < s.length := by
  fun_induction phraseRest? s generalizing inside t with
  | case1 => simp at h
  | case2 c r _ ih =>
    obtain ⟨p, hp, he⟩ := Option.map_eq_some_iff.1 h
    obtain ⟨rfl, rfl⟩ := by simpa using he
    have := ih hp
    simp only [List.length_cons]
    omega
  | case3 r =>
    obtain ⟨rfl, rfl⟩ := by simpa using h
    simp
  | case4 => simp at h
  | case5 c r _ _ _ ih =>
    obtain ⟨p, hp, he⟩ := Option.map_eq_some_iff.1 h
    obtain ⟨rfl, rfl⟩ := by simpa using he
    have := ih hp
    simp only [List.length_cons]
    omega
  | case6 => simp at h

theorem length_dropWhile_le (p : Char → Bool) (s : List Char) :
    (s.dropWhile p).length ≤ s.length :=
  (List.dropWhile_sublist p).length_le

theorem value?_length {s body t : List Char} (h : value? s = some (body, t)) :
    t.length ≤ s.length := by
  unfold value? at h
  split at h
  · obtain ⟨p, hp, he⟩ := Option.map_eq_some_iff.1 h
    obtain ⟨rfl, rfl⟩ := by simpa using he
    have := phraseRest?_length hp
    simp only [List.length_cons]
    omega
  · have := stringRest?_length h
    simp only [List.length_cons]
    omega
  · split at h
    · simp at h
    · obtain ⟨rfl, rfl⟩ := by simpa using h
      exact length_dropWhile_le isBare _

theorem pair?_length {s : List Char} {p : Pair} (h : pair? s = some p) :
    p.rest.length < s.length := by
  unfold pair? at h
  split at h
  · simp at h
  · rename_i c r
    split at h
    · split at h
      · rename_i t ht
        obtain ⟨q, hq, rfl⟩ := Option.map_eq_some_iff.1 h
        have h1 := value?_length hq
        have h2 := length_dropWhile_le isFieldChar r
        rw [ht] at h2
        simp only [List.length_cons] at h2 ⊢
        omega
      · simp at h
    · simp at h

/-- Every shorthand outside the strings of a statement is written out. -/
def expand : List Char → List Char
  | [] => []
  | c :: r =>
    if c = '\x27' then
      match _closed : stringRest? r with
      | some (inside, t) => '\x27' :: (inside ++ '\x27' :: expand t)
      | none => c :: expand r
    else
      match _found : pair? (c :: r) with
      | some p => p.text ++ expand p.rest
      | none => c :: expand r
termination_by s => s.length
decreasing_by
  · exact Nat.lt_succ_of_lt (stringRest?_length _closed)
  · exact Nat.lt_succ_self _
  · exact pair?_length _found
  · exact Nat.lt_succ_self _

end SearchSelect.Sql.Shorthand
