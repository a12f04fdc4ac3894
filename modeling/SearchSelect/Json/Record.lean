import SearchSelect.Json.Draft

/-! Reading typed values out of drafts. A record is given by its field names in order, either as
an object (other names are passed over, none of the field names may be repeated) or as a list of
the field values from the first on. A case of several is an object with the name of the case as its
only member, and a case without content may also be its bare name. -/

namespace SearchSelect.Draft

open Number

def text? : Draft → Option String
  | str s => s
  | _ => none

def flag? : Draft → Option Bool
  | bool b => some b
  | _ => none

/-- A non-negative integer below `bound`; doubles are not taken for integers. -/
def below? (bound : Nat) : Draft → Option Nat
  | num (some (.int n)) => if 0 ≤ n ∧ n < bound then some n.toNat else none
  | _ => none

def word64? (d : Draft) : Option UInt64 :=
  (d.below? UInt64.size).map UInt64.ofNat

def word32? (d : Draft) : Option UInt32 :=
  (d.below? UInt32.size).map UInt32.ofNat

variable {α : Type}

def nullable? (f : Draft → Option α) : Draft → Option (Option α)
  | null => some none
  | d => some <$> f d

/-- A case without content: its name, or its name with `null` for the content. -/
def tag? (f : String → Option α) : Draft → Option α
  | str s => s.bind f
  | obj [(some name, null)] => f name
  | _ => none

def list? (f : Draft → Option α) : Draft → Option (List α)
  | arr items => items.mapM f
  | _ => none

/-- The value under a name that occurs at most once. -/
def slot? (members : List (String × Draft)) (name : String) : Option (Option Draft) :=
  match members.filter fun m => m.1 = name with
  | [] => some none
  | [m] => some (some m.2)
  | _ => none

def slots? (names : List String) : Draft → Option (List (Option Draft))
  | obj members => do
    let members ← members.mapM fun m => m.1.map fun k => (k, m.2)
    names.mapM (slot? members)
  | arr items =>
    if items.length ≤ names.length then
      some (items.map some ++ List.replicate (names.length - items.length) none)
    else
      none
  | _ => none

def required (f : Draft → Option α) (d : Option Draft) : Option α :=
  d.bind f

def orElse (default : α) (f : Draft → Option α) : Option Draft → Option α
  | none => some default
  | some d => f d

end SearchSelect.Draft
