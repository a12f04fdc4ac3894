/-! Blank characters, trimming, and cutting a text into pieces.
Blank means the Unicode property White_Space, which is wider than the space, tab and line ends
that separate the words of a statement. -/

namespace SearchSelect.Text

/-- The characters with the property White_Space. -/
def isBlank (c : Char) : Bool :=
  ('\x09' ≤ c && c ≤ '\x0d') || c = ' ' || c = '\u0085' || c = '\u00a0' || c = '\u1680' ||
    ('\u2000' ≤ c && c ≤ '\u200a') || c = '\u2028' || c = '\u2029' || c = '\u202f' ||
    c = '\u205f' || c = '\u3000'

/-- No blank is a visible ASCII character. -/
theorem toNat_of_isBlank {c : Char} (h : isBlank c) : c.toNat ≤ 32 ∨ 128 ≤ c.toNat := by
  simp only [isBlank, Bool.or_eq_true, Bool.and_eq_true, decide_eq_true_eq, Char.le_def,
    UInt32.le_iff_toNat_le, Char.toNat_val, ← Char.toNat_inj, Char.reduceToNat] at h
  omega

theorem solid_of_all {w : String} (visible : w.toList.all fun c => !isBlank c) :
    ∀ c ∈ w.toList, isBlank c = false := by
  simpa using visible

def trimStart (s : List Char) : List Char :=
  s.dropWhile isBlank

def trim (s : List Char) : List Char :=
  (trimStart (trimStart s).reverse).reverse

/-- The text between the characters that `p` picks out: one piece more than there are of those. -/
def pieces (p : Char → Bool) : List Char → List (List Char)
  | [] => [[]]
  | c :: r =>
    if p c then
      [] :: pieces p r
    else
      match pieces p r with
      | [] => [[c]]
      | w :: ws => (c :: w) :: ws

section Pieces

variable {p : Char → Bool} {c : Char}

theorem pieces_ne_nil (p : Char → Bool) (s : List Char) : pieces p s ≠ [] := by
  induction s with
  | nil => simp [pieces]
  | cons c s ih =>
    rw [pieces]
    split
    · simp
    · split <;> simp

theorem pieces_append (hc : p c) (a b : List Char) :
    pieces p (a ++ c :: b) = pieces p a ++ pieces p b := by
  induction a with
  | nil => simp [pieces, hc]
  | cons d a ih =>
    rw [List.cons_append, pieces, pieces, ih]
    split
    · rfl
    · cases h : pieces p a with
      | nil => exact absurd h (pieces_ne_nil p a)
      | cons w ws => rfl

theorem pieces_intercalate (hc : p c) {xs : List (List Char)} (some : xs ≠ []) :
    pieces p ([c].intercalate xs) = xs.flatMap (pieces p) := by
  induction xs with
  | nil => exact absurd rfl some
  | cons x xs ih =>
    by_cases last : xs = []
    · simp [last]
    · rw [List.intercalate_cons_of_ne_nil last, List.append_assoc, List.singleton_append,
        pieces_append hc, ih last, List.flatMap_cons]

theorem pieces_of_none {s : List Char} (none : ∀ c ∈ s, p c = false) : pieces p s = [s] := by
  induction s with
  | nil => rfl
  | cons c s ih =>
    obtain ⟨hc, hs⟩ := List.forall_mem_cons.mp none
    rw [pieces, ih hs]
    simp [hc]

/-- Pieces that are joined by a separator are cut apart again. -/
theorem pieces_joined (hc : p c) {xs : List (List Char)} (some : xs ≠ [])
    (none : ∀ x ∈ xs, ∀ d ∈ x, p d = false) : pieces p ([c].intercalate xs) = xs := by
  have whole (x : List Char) (hx : x ∈ xs) : pieces p x = [x] := pieces_of_none (none x hx)
  rw [pieces_intercalate hc some, List.flatMap_def, List.map_congr_left whole, ← List.flatMap_def,
    List.flatMap_singleton']

/-- A text with a separator in it falls into at least two pieces. -/
theorem two_le_length_pieces {s : List Char} (mem : c ∈ s) (hc : p c) :
    2 ≤ (pieces p s).length := by
  obtain ⟨a, b, rfl⟩ := List.append_of_mem mem
  have left := List.length_pos_iff.mpr (pieces_ne_nil p a)
  have right := List.length_pos_iff.mpr (pieces_ne_nil p b)
  rw [pieces_append hc, List.length_append]
  omega

end Pieces

/-- The runs of non-blank characters. -/
def words (s : List Char) : List (List Char) :=
  (pieces isBlank s).filter fun w => !w.isEmpty

def occursIn (w : List Char) : List Char → Bool
  | [] => w.isEmpty
  | c :: r => w.isPrefixOf (c :: r) || occursIn w r

def trimmed (s : String) : String :=
  String.ofList (trim s.toList)

def isBlankText (s : String) : Bool :=
  s.toList.all isBlank

def cutAt (c : Char) (s : String) : List String :=
  (pieces (· = c) s.toList).map String.ofList

def wordsOf (s : String) : List String :=
  (words s.toList).map String.ofList

def mentions (s w : String) : Bool :=
  occursIn w.toList s.toList

theorem occursIn_iff {w s : List Char} : occursIn w s ↔ w <:+: s := by
  induction s with
  | nil => simp [occursIn]
  | cons c s ih =>
    rw [occursIn, Bool.or_eq_true, ih, List.isPrefixOf_iff_prefix, List.infix_cons_iff]

section Joined

variable {c : Char} {sep : String} {xs : List String}

theorem uncut_of_not_mem {s : List Char} (none : c ∉ s) : ∀ d ∈ s, decide (d = c) = false :=
  fun _ hd => decide_eq_false fun same => none (same ▸ hd)

theorem cutAt_of_not_mem {s : String} (none : c ∉ s.toList) : cutAt c s = [s] := by
  rw [cutAt, pieces_of_none (uncut_of_not_mem none)]
  simp

theorem cutAt_append (alone : sep.toList = [c]) (a b : String) :
    cutAt c (a ++ sep ++ b) = cutAt c a ++ cutAt c b := by
  have joined : (a ++ sep ++ b).toList = a.toList ++ c :: b.toList := by simp [alone]
  rw [cutAt, joined, pieces_append (by simp), List.map_append]
  rfl

theorem cutAt_intercalate (alone : sep.toList = [c]) (some : xs ≠ [])
    (none : ∀ x ∈ xs, c ∉ x.toList) : cutAt c (sep.intercalate xs) = xs := by
  have cut : pieces (· = c) ([c].intercalate (xs.map String.toList)) = xs.map String.toList := by
    apply pieces_joined (by simp) (by simpa using some)
    rw [List.forall_mem_map]
    exact fun x hx => uncut_of_not_mem (none x hx)
  rw [cutAt, String.toList_intercalate, alone, cut]
  simp [Function.comp_def]

theorem wordsOf_intercalate (alone : sep.toList = [c]) (blank : isBlank c)
    (solid : ∀ x ∈ xs, x ≠ "" ∧ ∀ d ∈ x.toList, isBlank d = false) :
    wordsOf (sep.intercalate xs) = xs := by
  by_cases some : xs = []
  · rw [some]
    rfl
  · have cut : pieces isBlank ([c].intercalate (xs.map String.toList)) = xs.map String.toList := by
      apply pieces_joined blank (by simpa using some)
      rw [List.forall_mem_map]
      exact fun x hx => (solid x hx).2
    have filled : (xs.map String.toList).filter (fun w => !w.isEmpty) = xs.map String.toList := by
      rw [List.filter_eq_self, List.forall_mem_map]
      intro x hx
      simpa using (solid x hx).1
    rw [wordsOf, words, String.toList_intercalate, alone, cut, filled]
    simp [Function.comp_def]

end Joined

end SearchSelect.Text
