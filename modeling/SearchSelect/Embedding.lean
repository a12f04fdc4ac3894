import SearchSelect.Config
import SearchSelect.Number.Decimal

/-! Vectors, the providers that turn text into them, and bounded retry. -/

namespace SearchSelect

open Number

/-- Components in single precision. -/
abbrev QueryVector := List Binary

/-- A component may be given as an integer or a double, or by name if it is not finite. -/
def component? : Json → Option Binary
  | .num (.int n) => some ((binary64.ofInt n).convert binary32)
  | .num (.double x) => some (x.convert binary32)
  | .str "NaN" => some .nan
  | .str "inf" => some (.infinite false)
  | .str "-inf" => some (.infinite true)
  | _ => none

def queryVector? (j : Json) : Option QueryVector := do
  let items ← j.items?
  items.mapM component?

def vectorText (v : QueryVector) : String :=
  "[" ++ String.intercalate "," (v.map fun x => String.ofList (componentText x)) ++ "]"

/-- The main query for the nearest neighbours of a vector. -/
def knnQuery (field : String) (topK : Option UInt64) (v : QueryVector) : String :=
  let bound :=
    match topK with
    | some k => " topK=" ++ String.ofList (Nat.toDigits 10 k.toNat)
    | none => ""
  "\x7b!knn f=" ++ field ++ bound ++ "\x7d" ++ vectorText v

structure Provider where
  model : String
  embed : String → Except EmbeddingFault QueryVector
  dimension : Except EmbeddingFault Nat

/-- The vectors of several texts, in order, up to the first text that fails. -/
def Provider.embedAll (p : Provider) (texts : List String) :
    Except EmbeddingFault (List QueryVector) :=
  texts.mapM p.embed

abbrev ProviderFactory := EmbeddingConfig → Except EmbeddingFault Provider

namespace Retry

variable {σ ε α : Type}

/-- What a program runs on: whether warnings are written, and whether the overflow of a sum is
trapped, which ends the program, or wraps around. -/
structure Platform where
  warns : Bool
  traps : Bool
  deriving DecidableEq, Repr

namespace Platform

/-- No warning is ever written. -/
def silent : Platform := ⟨false, true⟩

/-- The sum of two words, unless its overflow is trapped. -/
def sum? (p : Platform) (m n : UInt32) : Option UInt32 :=
  if p.traps && UInt32.size ≤ m.toNat + n.toNat then none else some (m + n)

/-- The numbers in the warning about a failed attempt, its own and that of all attempts, both
counted from one. They are only worked out if the warning is written. -/
def warning? (p : Platform) (n retries : UInt32) : Option (Option (UInt32 × UInt32)) :=
  if p.warns then do
    let own ← p.sum? n 1
    let attempts ← p.sum? retries 1
    return some (own, attempts)
  else
    some none

theorem sum?_of_fits {m n : UInt32} (p : Platform) (fits : m.toNat + n.toNat < UInt32.size) :
    p.sum? m n = some (m + n) :=
  if_neg (by simp [Nat.not_le.mpr fits])

theorem toNat_of_sum? {p : Platform} {m n sum : UInt32} (fits : m.toNat + n.toNat < UInt32.size)
    (h : p.sum? m n = some sum) : sum.toNat = m.toNat + n.toNat := by
  rw [sum?_of_fits p fits] at h
  rw [← Option.some.inj h, UInt32.toNat_add, Nat.mod_eq_of_lt fits]

end Platform

/-- How attempts end: with the outcome of the last of them, or with the program, in an overflow. -/
inductive Ending (ε α : Type) where
  | outcome (last : Except ε α)
  | overflow

/-- Tries an operation, which may change a state whenever it is tried, from attempt number `n` on
until it succeeds or the number of retries is reached. Before an operation is tried again a warning
is written about the failure. -/
def attemptFrom (p : Platform) (operation : UInt32 → StateM σ (Except ε α))
    (retries n : UInt32) : StateM σ (Ending ε α) := do
  match ← operation n with
  | .ok a => return .outcome (.ok a)
  | .error e =>
    if n < retries then
      match p.warning? n retries with
      | none => return .overflow
      | some _ =>
        match _ : p.sum? n 1 with
        | none => return .overflow
        | some m => attemptFrom p operation retries m
    else
      return .outcome (.error e)
termination_by retries.toNat - n.toNat
decreasing_by
  rename_i more counted
  have bound := retries.toNat_lt
  have below : n.toNat < retries.toNat := UInt32.lt_iff_toNat_lt.mp more
  have fits : n.toNat + (1 : UInt32).toNat < UInt32.size := by
    rw [UInt32.toNat_one]
    simp only [UInt32.size]
    omega
  have next := Platform.toNat_of_sum? fits counted
  rw [UInt32.toNat_one] at next
  omega

def attempt (p : Platform) (operation : UInt32 → StateM σ (Except ε α)) (retries : UInt32) :
    StateM σ (Ending ε α) :=
  attemptFrom p operation retries 0

/-- Notes the number of every attempt, next to the operation's own state. -/
def noted (operation : UInt32 → StateM σ (Except ε α)) (n : UInt32) :
    StateM (List UInt32 × σ) (Except ε α) := do
  let (numbers, s) ← get
  let (outcome, s) := (operation n).run s
  set (numbers ++ [n], s)
  return outcome

/-- Tries an operation without a state until it succeeds, at most `retries + 1` times: the numbers
of the attempts, and how they end. -/
def run (p : Platform) (operation : UInt32 → Except ε α) (retries : UInt32) :
    List UInt32 × Ending ε α :=
  let (ending, numbers, _) :=
    (attempt p (noted fun n => return operation n) retries).run ([], ())
  (numbers, ending)

end Retry

end SearchSelect
