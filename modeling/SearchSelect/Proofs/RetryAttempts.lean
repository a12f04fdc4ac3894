import Mathlib.Order.Bounds.Basic
import Mathlib.Order.Nat
import SearchSelect.Embedding

/-! Bounded retry. Whatever an operation does to its state, and whatever comes of each attempt, the
attempts are numbered from zero without a gap, and the last of them is the first to succeed or the
one whose number is the bound. The counter of attempts never overflows. The number of all attempts,
which only a warning names, does so for the largest bound: where warnings are written and overflows
are trapped, the program ends with the first failure. -/

namespace SearchSelect.Retry

variable {σ ε α : Type} {p : Platform} {operation : UInt32 → StateM σ (Except ε α)}
  {retries n : UInt32} {s t : σ}

/-! ## Sums -/

namespace Platform

/-- The number of all attempts does not fit a word, a warning names it, and this is trapped. -/
def Overflows (p : Platform) (retries : UInt32) : Prop :=
  p.warns ∧ p.traps ∧ retries.toNat + 1 = UInt32.size

theorem sum?_eq_none {m n : UInt32} :
    p.sum? m n = none ↔ p.traps ∧ UInt32.size ≤ m.toNat + n.toNat := by
  simp [sum?]

/-- A number below the bound can be counted on. -/
theorem sum?_of_lt (more : n < retries) : p.sum? n 1 = some (n + 1) := by
  have below : n.toNat < retries.toNat := UInt32.lt_iff_toNat_lt.mp more
  have bound : retries.toNat < UInt32.size := retries.toNat_lt
  apply sum?_of_fits
  rw [UInt32.toNat_one]
  omega

theorem warning?_eq_none (more : n < retries) :
    p.warning? n retries = none ↔ p.Overflows retries := by
  have bound : retries.toNat < UInt32.size := retries.toNat_lt
  have full : UInt32.size ≤ retries.toNat + (1 : UInt32).toNat ↔
      retries.toNat + 1 = UInt32.size := by
    rw [UInt32.toNat_one]
    omega
  unfold warning? Overflows
  by_cases warns : p.warns
  · rw [if_pos warns, sum?_of_lt more, ← full, ← sum?_eq_none]
    cases p.sum? retries 1 <;> simp [warns]
  · simp [warns]

end Platform

/-! ## One attempt -/

theorem run_attemptFrom_ok {a : α} (succeeds : (operation n).run s = (.ok a, t)) :
    (attemptFrom p operation retries n).run s = (.outcome (.ok a), t) := by
  rw [attemptFrom, StateT.run_bind, succeeds]
  rfl

section Failed

variable {e : ε}

theorem run_attemptFrom_last (fails : (operation n).run s = (.error e, t))
    (last : ¬ n < retries) :
    (attemptFrom p operation retries n).run s = (.outcome (.error e), t) := by
  rw [attemptFrom, StateT.run_bind, fails]
  simp only [last, if_false]
  rfl

theorem run_attemptFrom_again (fails : (operation n).run s = (.error e, t))
    (more : n < retries) (calm : ¬ p.Overflows retries) :
    (attemptFrom p operation retries n).run s =
      (attemptFrom p operation retries (n + 1)).run t := by
  obtain ⟨w, warned⟩ := Option.ne_none_iff_exists'.mp (mt (Platform.warning?_eq_none more).mp calm)
  rw [attemptFrom, StateT.run_bind, fails]
  simp only [more, if_true, warned]
  split
  · next none =>
    rw [Platform.sum?_of_lt more] at none
    cases none
  · next m counted =>
    rw [Platform.sum?_of_lt more] at counted
    cases counted
    rfl

theorem run_attemptFrom_overflow (fails : (operation n).run s = (.error e, t))
    (more : n < retries) (trapped : p.Overflows retries) :
    (attemptFrom p operation retries n).run s = (.overflow, t) := by
  rw [attemptFrom, StateT.run_bind, fails]
  simp only [more, if_true, (Platform.warning?_eq_none more).mpr trapped]
  rfl

end Failed

/-- The state once the attempts with the first `i` numbers have been made, whatever came of them. -/
def stateAfter (operation : UInt32 → StateM σ (Except ε α)) (s : σ) : ℕ → σ
  | 0 => s
  | i + 1 => ((operation (.ofNat i)).run (stateAfter operation s i)).2

/-- What comes of attempt number `i` after those before it. -/
def outcome (operation : UInt32 → StateM σ (Except ε α)) (s : σ) (i : ℕ) : Except ε α :=
  ((operation (.ofNat i)).run (stateAfter operation s i)).1

theorem run_operation (operation : UInt32 → StateM σ (Except ε α)) (s : σ) (i : ℕ) :
    (operation (.ofNat i)).run (stateAfter operation s i) =
      (outcome operation s i, stateAfter operation s (i + 1)) := rfl

/-- A number up to the bound is that of an attempt, and is reached without an overflow. -/
theorem toNat_ofNat_of_le {i : ℕ} (within : i ≤ retries.toNat) : (UInt32.ofNat i).toNat = i :=
  UInt32.toNat_ofNat_of_lt' (within.trans_lt retries.toNat_lt)

/-- As long as every attempt fails and the bound is not passed, the next one follows. -/
theorem run_attempt_of_failing {i : ℕ} (calm : ¬ p.Overflows retries) (within : i ≤ retries.toNat)
    (failing : ∀ j < i, ∃ e, outcome operation s j = .error e) :
    (attempt p operation retries).run s =
      (attemptFrom p operation retries (.ofNat i)).run (stateAfter operation s i) := by
  induction i with
  | zero => rfl
  | succ i ih =>
    obtain ⟨e, fails⟩ := failing i i.lt_succ_self
    have step := run_operation operation s i
    rw [fails] at step
    have more : UInt32.ofNat i < retries := by
      have earlier : i ≤ retries.toNat := by omega
      rwa [UInt32.lt_iff_toNat_lt, toNat_ofNat_of_le earlier]
    have next : UInt32.ofNat i + 1 = .ofNat (i + 1) := (UInt32.ofNat_add i 1).symm
    rw [ih (by omega) fun j hj => failing j (by omega), run_attemptFrom_again step more calm, next]

/-- The attempt that succeeds, or has the bound for its number, is the last. -/
theorem run_attemptFrom_stop {k : ℕ} (within : k ≤ retries.toNat)
    (stops : k = retries.toNat ∨ ∃ a, outcome operation s k = .ok a) :
    (attemptFrom p operation retries (.ofNat k)).run (stateAfter operation s k) =
      (.outcome (outcome operation s k), stateAfter operation s (k + 1)) := by
  have step := run_operation operation s k
  cases made : outcome operation s k with
  | ok a =>
    rw [made] at step
    exact run_attemptFrom_ok step
  | error e =>
    have last : k = retries.toNat := stops.resolve_right fun ⟨a, succeeds⟩ => by
      rw [made] at succeeds
      cases succeeds
    have bound : ¬ UInt32.ofNat k < retries := by
      rw [UInt32.lt_iff_toNat_lt, toNat_ofNat_of_le within]
      omega
    rw [made] at step
    exact run_attemptFrom_last step bound

/-- The last attempt is the first one that succeeds or has the bound for its number, unless the
program ends with the first failure. -/
theorem run_attempt (p : Platform) (operation : UInt32 → StateM σ (Except ε α)) (retries : UInt32)
    (s : σ) :
    ∃ k, IsLeast {i | i = retries.toNat ∨ ∃ a, outcome operation s i = .ok a} k ∧
      (¬ (p.Overflows retries ∧ 0 < k) → (attempt p operation retries).run s =
        (.outcome (outcome operation s k), stateAfter operation s (k + 1))) ∧
      (p.Overflows retries ∧ 0 < k → (attempt p operation retries).run s =
        (.overflow, stateAfter operation s 1)) := by
  classical
  -- an attempt with one of these numbers is not followed by another, and every other one is
  have stops : ∃ i, i = retries.toNat ∨ ∃ a, outcome operation s i = .ok a := ⟨_, .inl rfl⟩
  have least := Nat.isLeast_find stops
  generalize Nat.find stops = k at least
  have within : k ≤ retries.toNat := least.2 (.inl rfl)
  have failing (j : ℕ) (before : j < k) : ∃ e, outcome operation s j = .error e := by
    cases made : outcome operation s j with
    | ok a => exact absurd (least.2 (.inr ⟨a, made⟩)) before.not_ge
    | error e => exact ⟨e, rfl⟩
  refine ⟨k, least, fun goesOn => ?_, fun ⟨trapped, first⟩ => ?_⟩
  · rw [← run_attemptFrom_stop (p := p) within least.1]
    by_cases first : 0 < k
    · exact run_attempt_of_failing (fun trapped => goesOn ⟨trapped, first⟩) within failing
    · obtain rfl := Nat.eq_zero_of_not_pos first
      rfl
  · obtain ⟨e, fails⟩ := failing 0 first
    have step := run_operation operation s 0
    rw [fails] at step
    have more : UInt32.ofNat 0 < retries := by
      rw [UInt32.lt_iff_toNat_lt]
      exact first.trans_le within
    exact run_attemptFrom_overflow step more trapped

/-! ## The numbers noted -/

end SearchSelect.Retry
