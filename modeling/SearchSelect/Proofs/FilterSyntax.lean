import SearchSelect.Filter.Clause

/-! Filter queries as the search engine reads them, with the terms left opaque. A text is cut into
tokens, tokens are read into groups of clauses, and a group matches a document or does not, given
which of the atoms the document matches.
Reading is one pass over the tokens with a stack of the groups that are still open. -/

namespace SearchSelect.Filter

inductive Joint where
  | and
  | or
  deriving DecidableEq, Repr

def Joint.text : Joint → List Char
  | and => " AND ".toList
  | or => " OR ".toList

inductive Token where
  | atom (text : List Char)
  | minus
  | opening
  | closing
  | base
  | joint (j : Joint)
  deriving DecidableEq, Repr

def Token.text : Token → List Char
  | atom text => text
  | minus => ['-']
  | opening => ['(']
  | closing => [')']
  | base => "*:* ".toList
  | joint j => j.text

def Token.atom? : Token → Option (List Char)
  | atom text => some text
  | _ => none

def spelled (ts : List Token) : List Char :=
  ts.flatMap Token.text

def atomsIn (ts : List Token) : List (List Char) :=
  ts.filterMap Token.atom?

/-- A clause is an operand and whether a minus stands before it. A group on the base starts from
all documents. -/
inductive Operand where
  | atom (text : List Char)
  | group (based : Bool) (joint : Joint) (clauses : List (Bool × Operand))

/-- Clauses with one joint between them: a group without its parentheses. -/
structure Row where
  joint : Joint
  clauses : List (Bool × Operand)

def Row.grouped (r : Row) (based : Bool) : Operand :=
  .group based r.joint r.clauses

/-! ## Meaning -/

/-- Whether a group matches, from the values of its clauses. A value with a minus excludes. Without
a wanted clause nothing is found, unless the group starts from all documents. -/
def found (based : Bool) (joint : Joint) (values : List (Bool × Bool)) : Bool :=
  let wanted := values.filter fun c => !c.1
  let excluded := values.filter Prod.fst
  !excluded.any Prod.snd && (based ||
    match joint with
    | .and => !wanted.isEmpty && wanted.all Prod.snd
    | .or => wanted.any Prod.snd)

mutual

def Operand.holds (v : List Char → Bool) : Operand → Bool
  | .atom text => v text
  | .group based joint clauses => found based joint (valuesOf v clauses)

def valuesOf (v : List Char → Bool) : List (Bool × Operand) → List (Bool × Bool)
  | [] => []
  | (minus, o) :: cs => (minus, o.holds v) :: valuesOf v cs

end

/-- As a whole filter, a row that only excludes starts from all documents. -/
def Row.holds (v : List Char → Bool) (r : Row) : Bool :=
  found (r.clauses.all Prod.fst) r.joint (valuesOf v r.clauses)

theorem valuesOf_eq_map (v : List Char → Bool) (cs : List (Bool × Operand)) :
    valuesOf v cs = cs.map fun c => (c.1, c.2.holds v) := by
  induction cs with
  | nil => rfl
  | cons c cs ih =>
    obtain ⟨minus, o⟩ := c
    rw [valuesOf, ih]
    rfl

/-- Joined by AND, a row asks for what it wants and for the opposite of what it excludes. -/
theorem found_and (values : List (Bool × Bool)) :
    found (values.all Prod.fst) .and values = values.all fun d => d.1 ^^ d.2 := by
  rw [Bool.eq_iff_iff]
  cases only : values.all Prod.fst with
  | true =>
    have excluded : ∀ d ∈ values, d.1 = true := by simpa using only
    have none : (false, false) ∉ values := fun hd => Bool.false_ne_true (excluded _ hd)
    simp [found, none]
  | false =>
    obtain ⟨⟨minus, b⟩, hd, rfl⟩ : ∃ d ∈ values, d.1 = false := by simpa using only
    have some : (false, false) ∉ values → (false, true) ∈ values := by
      cases b with
      | false => exact fun none => absurd hd none
      | true => exact fun _ => hd
    simpa [found] using ⟨fun ⟨a, _, b⟩ => ⟨b, a⟩, fun ⟨b, a⟩ => ⟨a, some, b⟩⟩

theorem found_or {values : List (Bool × Bool)} (nonempty : values ≠ [])
    (wanted : ∀ d ∈ values, d.1 = false) :
    found (values.all Prod.fst) .or values = values.any Prod.snd := by
  have none : (true, true) ∉ values := fun hd => Bool.false_ne_true (wanted _ hd).symm
  have one : values.all Prod.fst = false := by
    obtain ⟨d, ds, rfl⟩ := List.exists_cons_of_ne_nil nonempty
    simp [wanted d]
  rw [Bool.eq_iff_iff, one]
  simp [found, none]

/-! ## Reading -/

/-- What may come next in an open group. -/
inductive Place where
  | clause
  | operand
  | joint
  deriving DecidableEq, Repr

structure Frame where
  based : Bool
  joint : Option Joint
  clauses : List (Bool × Operand)
  place : Place

namespace Frame

def fresh (based : Bool) : Frame := ⟨based, none, [], .clause⟩

/-- Takes an operand, with the minus that was read before it. -/
def push (f : Frame) (o : Operand) : Frame :=
  { f with clauses := f.clauses ++ [(decide (f.place = .operand), o)], place := .joint }

/-- On the base there are only exclusions, joined by AND. -/
def isSound (f : Frame) : Bool :=
  f.place = .joint && (!f.based || (f.clauses.all Prod.fst && f.joint ≠ some .or))

def row (f : Frame) : Row :=
  ⟨f.joint.getD .and, f.clauses⟩

end Frame

def step : Token → List Frame → Option (List Frame)
  | .atom text, f :: s => if f.place = .joint then none else some (f.push (.atom text) :: s)
  | .minus, f :: s => if f.place = .clause then some ({ f with place := .operand } :: s) else none
  | .opening, f :: s => if f.place = .joint then none else some (.fresh false :: f :: s)
  | .closing, f :: g :: s =>
    if f.isSound then some (g.push (f.row.grouped f.based) :: s) else none
  | .base, f :: g :: s =>
    if f.place = .clause ∧ f.clauses.isEmpty ∧ !f.based then
      some ({ f with based := true } :: g :: s)
    else none
  | .joint j, f :: s =>
    if f.place = .joint ∧ f.joint.getD j = j then
      some ({ f with joint := some j, place := .clause } :: s)
    else none
  | _, _ => none

def run : List Token → List Frame → Option (List Frame)
  | [], s => some s
  | t :: ts, s => (step t s).bind (run ts)

def read? (ts : List Token) : Option Row :=
  match run ts [.fresh false] with
  | some [f] => if f.place = .joint then some f.row else none
  | _ => none

/-- The text reads as the row when its terms are the given atoms, from left to right. -/
def Reads (text : List Char) (atoms : List (List Char)) (r : Row) : Prop :=
  ∃ ts, spelled ts = text ∧ atomsIn ts = atoms ∧ read? ts = some r

theorem run_append (a b : List Token) (s : List Frame) :
    run (a ++ b) s = (run a s).bind (run b) := by
  induction a generalizing s with
  | nil => rfl
  | cons t ts ih =>
    rw [List.cons_append, run, run]
    cases step t s with
    | none => rfl
    | some u => exact ih u

theorem spelled_append (a b : List Token) : spelled (a ++ b) = spelled a ++ spelled b :=
  List.flatMap_append

theorem atomsIn_append (a b : List Token) : atomsIn (a ++ b) = atomsIn a ++ atomsIn b :=
  List.filterMap_append

/-! ## Writing a row, and reading it back -/

def minusIf (minus : Bool) : List Token :=
  if minus then [.minus] else []

def baseIf (based : Bool) : List Token :=
  if based then [.base] else []

mutual

def Operand.tokens : Operand → List Token
  | .atom text => [.atom text]
  | .group based joint clauses =>
    .opening :: (baseIf based ++ ([Token.joint joint].intercalate (clauseTokens clauses) ++
      [.closing]))

/-- The tokens of each clause by itself. -/
def clauseTokens : List (Bool × Operand) → List (List Token)
  | [] => []
  | (minus, o) :: cs => (minusIf minus ++ o.tokens) :: clauseTokens cs

end

def Row.tokens (r : Row) : List Token :=
  [Token.joint r.joint].intercalate (clauseTokens r.clauses)

mutual

/-- What a group read from tokens satisfies. A single clause has no joint, which counts as AND. -/
def Operand.Sound : Operand → Prop
  | .atom _ => True
  | .group based joint clauses =>
    clauses ≠ [] ∧ (joint = .or → 2 ≤ clauses.length) ∧
      (based → clauses.all Prod.fst ∧ joint = .and) ∧ ClausesSound clauses

def ClausesSound : List (Bool × Operand) → Prop
  | [] => True
  | (_, o) :: cs => o.Sound ∧ ClausesSound cs

end

structure Row.Sound (r : Row) : Prop where
  nonempty : r.clauses ≠ []
  joined : r.joint = .or → 2 ≤ r.clauses.length
  parts : ClausesSound r.clauses

theorem clauseTokens_eq_nil {cs : List (Bool × Operand)} : clauseTokens cs = [] ↔ cs = [] := by
  cases cs with
  | nil => simp [clauseTokens]
  | cons c cs => simp [clauseTokens]

/-- The frame after the clauses have been read into it, with `j` between them. -/
def Frame.after (f : Frame) (j : Joint) (cs : List (Bool × Operand)) : Frame :=
  { f with
    clauses := f.clauses ++ cs
    joint := if cs.length = 1 then f.joint else some j
    place := .joint }

theorem Frame.after_joint {f : Frame} {j : Joint} {cs : List (Bool × Operand)}
    (fresh : f.joint = none) (joined : j = .or → 2 ≤ cs.length) :
    (f.after j cs).joint.getD .and = j := by
  cases j with
  | and => simp only [Frame.after, fresh]; split <;> rfl
  | or =>
    have several : cs.length ≠ 1 := by have := joined rfl; omega
    simp [Frame.after, several]

/-- The minus of a clause is read before its operand and kept with it. -/
theorem run_minus (minus : Bool) (o : Operand) (f : Frame) (s : List Frame)
    (hf : f.place = .clause)
    (ho : ∀ f : Frame, f.place ≠ .joint → run o.tokens (f :: s) = some (f.push o :: s)) :
    run (minusIf minus ++ o.tokens) (f :: s) =
      some ({ f with clauses := f.clauses ++ [(minus, o)], place := .joint } :: s) := by
  cases minus with
  | false =>
    have h := ho f (by simp [hf])
    simpa [minusIf, Frame.push, hf] using h
  | true =>
    have h := ho { f with place := .operand } (by simp)
    simp [minusIf, run, step, hf, h, Frame.push]

mutual

theorem run_operand (s : List Frame) : (o : Operand) → o.Sound → (f : Frame) →
    f.place ≠ .joint → run o.tokens (f :: s) = some (f.push o :: s)
  | .atom text, _, f, hf => by simp [Operand.tokens, run, step, hf]
  | .group based joint clauses, h, f, hf => by
    obtain ⟨nonempty, joined, onBase, parts⟩ := h
    have inside := run_clauses (f :: s) clauses parts nonempty joint
      (.fresh based) rfl rfl
    have opened : run (.opening :: baseIf based) (f :: s) =
        some (.fresh based :: f :: s) := by
      cases based <;> simp [baseIf, run, step, hf, Frame.fresh]
    have shut := Frame.after_joint (f := .fresh based) rfl joined
    have sound : ((Frame.fresh based).after joint clauses).isSound := by
      cases based with
      | false => simp [Frame.isSound, Frame.after, Frame.fresh]
      | true =>
        obtain ⟨excluding, rfl⟩ := onBase rfl
        have plain : ((Frame.fresh true).after .and clauses).joint ≠ some .or := by
          simp only [Frame.after, Frame.fresh]
          split <;> simp
        simpa [Frame.isSound, plain, Frame.after, Frame.fresh] using excluding
    rw [Operand.tokens, ← List.cons_append, run_append, opened, Option.bind_some, run_append,
      inside, Option.bind_some, run, step, if_pos sound, Frame.row, shut]
    rfl

theorem run_clauses (s : List Frame) : (cs : List (Bool × Operand)) → ClausesSound cs → cs ≠ [] →
    (j : Joint) → (f : Frame) → f.place = .clause → f.joint.getD j = j →
    run ([Token.joint j].intercalate (clauseTokens cs)) (f :: s) = some (f.after j cs :: s)
  | [], _, h, _, _, _, _ => absurd rfl h
  | [(minus, o)], h, _, j, f, hf, _ => by
    rw [clauseTokens, clauseTokens, List.intercalate_singleton,
      run_minus minus o f s hf (run_operand s o h.1)]
    simp [Frame.after]
  | (minus, o) :: c :: cs, h, _, j, f, hf, hj => by
    have first := run_minus minus o f s hf (run_operand s o h.1)
    have others := run_clauses s (c :: cs) h.2 (by simp) j
      { f with clauses := f.clauses ++ [(minus, o)], joint := some j, place := .clause } rfl rfl
    have between : run [Token.joint j]
        ({ f with clauses := f.clauses ++ [(minus, o)], place := .joint } :: s) =
        some ({ f with clauses := f.clauses ++ [(minus, o)], joint := some j,
                       place := .clause } :: s) := by
      simp [run, step, hj]
    have more : clauseTokens (c :: cs) ≠ [] := by simp [clauseTokens_eq_nil]
    rw [clauseTokens, List.intercalate_cons_of_ne_nil more, List.append_assoc, run_append, first,
      Option.bind_some, run_append, between, Option.bind_some, others]
    simp [Frame.after]

end

theorem read_tokens {r : Row} (h : r.Sound) : read? r.tokens = some r := by
  have all := run_clauses [] r.clauses h.parts h.nonempty r.joint (.fresh false) rfl rfl
  have shut := Frame.after_joint (f := .fresh false) rfl h.joined
  rw [read?, Row.tokens, all]
  simp only [Frame.row, shut]
  rfl

end SearchSelect.Filter
