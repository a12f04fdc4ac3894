import SearchSelect.Fault

/-! Actions change a state and may fail. What an action has changed before it fails stays
changed. -/

namespace SearchSelect

abbrev Action (σ α : Type) := ExceptT Fault (StateM σ) α

namespace Action

variable {σ τ α : Type}

def of (r : Except Fault α) : Action σ α :=
  ExceptT.mk (pure r)

/-- Runs an action that cannot fail by itself and hands on its outcome. -/
def attempt (a : Action σ α) : Action σ (Except Fault α) :=
  ExceptT.mk (Except.ok <$> a.run)

def mapFault (f : Fault → Fault) (a : Action σ α) : Action σ α :=
  ExceptT.mk (Except.mapError f <$> a.run)

/-- Runs an action on a part of the state. -/
def onPart (get : τ → σ) (set : σ → τ → τ) (a : Action σ α) : Action τ α :=
  ExceptT.mk fun t =>
    let (r, s) := a.run (get t)
    (r, set s t)

theorem run_of (r : Except Fault α) (s : σ) : (of r).run s = (r, s) := rfl

theorem run_of_eq {r r' : Except Fault α} (h : r = r') (s : σ) : (of r).run s = (r', s) := by
  rw [run_of, h]

theorem of_map {β : Type} (r : Except Fault α) (f : α → β) :
    (do let x ← of r; return f x : Action σ β) = of (f <$> r) := by
  cases r <;> rfl

theorem run_bind {β : Type} (a : Action σ α) (f : α → Action σ β) (s : σ) :
    (a >>= f).run s = (ExceptT.bindCont f (a.run s).1).run (a.run s).2 := rfl

theorem run_bind_ok {β : Type} {a : Action σ α} {f : α → Action σ β} {x : α} {s s' : σ}
    (h : a.run s = (.ok x, s')) : (a >>= f).run s = (f x).run s' := by
  rw [run_bind, h]
  rfl

theorem run_bind_error {β : Type} {a : Action σ α} {f : α → Action σ β} {e : Fault} {s s' : σ}
    (h : a.run s = (.error e, s')) : (a >>= f).run s = (.error e, s') := by
  rw [run_bind, h]
  rfl

/-- A sequence that succeeds has succeeded in each of its steps. -/
theorem run_bind_eq_ok {β : Type} {a : Action σ α} {f : α → Action σ β} {y : β} {s s' : σ}
    (h : (a >>= f).run s = (.ok y, s')) :
    ∃ x t, a.run s = (.ok x, t) ∧ (f x).run t = (.ok y, s') := by
  rw [run_bind] at h
  cases first : a.run s with
  | mk r t =>
    rw [first] at h
    cases r with
    | ok x => exact ⟨x, t, rfl, h⟩
    | error e => cases h

theorem run_of_eq_ok {r : Except Fault α} {x : α} {s s' : σ}
    (h : (of r).run s = (.ok x, s')) : r = .ok x ∧ s' = s := by
  cases h
  exact ⟨rfl, rfl⟩

theorem run_mapFault_eq_ok {f : Fault → Fault} {a : Action σ α} {x : α} {s s' : σ}
    (h : (a.mapFault f).run s = (.ok x, s')) : a.run s = (.ok x, s') := by
  change ((a.run s).1.mapError f, (a.run s).2) = _ at h
  cases first : a.run s with
  | mk r t =>
    rw [first] at h
    cases r with
    | ok y =>
      cases h
      rfl
    | error e => cases h

theorem run_onPart (get : τ → σ) (set : σ → τ → τ) (a : Action σ α) (t : τ) :
    (a.onPart get set).run t = ((a.run (get t)).1, set (a.run (get t)).2 t) := rfl

theorem run_mapFault (f : Fault → Fault) (a : Action σ α) (s : σ) :
    (a.mapFault f).run s = ((a.run s).1.mapError f, (a.run s).2) := rfl

theorem run_mapFault_ok {f : Fault → Fault} {a : Action σ α} {x : α} {s s' : σ}
    (h : a.run s = (.ok x, s')) : (a.mapFault f).run s = (.ok x, s') := by
  rw [run_mapFault, h]
  rfl

theorem run_attempt (a : Action σ α) (s : σ) :
    a.attempt.run s = (.ok (a.run s).1, (a.run s).2) := rfl

theorem run_get (s : σ) : (get : Action σ σ).run s = (.ok s, s) := rfl

/-- From this state on the action brings a result. -/
def Succeeds (a : Action σ α) (s : σ) : Prop :=
  ∃ x s', a.run s = (.ok x, s')

theorem succeeds_bind {β : Type} {a : Action σ α} {f : α → Action σ β} {x : α} {s s' : σ}
    (h : a.run s = (.ok x, s')) : (a >>= f).Succeeds s ↔ (f x).Succeeds s' := by
  unfold Succeeds
  rw [run_bind_ok h]

theorem succeeds_of {r : Except Fault α} {s : σ} : (of r).Succeeds s ↔ ∃ x, r = .ok x :=
  ⟨fun ⟨x, _, h⟩ => ⟨x, (run_of_eq_ok h).1⟩, fun ⟨x, h⟩ => ⟨x, s, by rw [run_of, h]⟩⟩

theorem succeeds_mapFault {f : Fault → Fault} {a : Action σ α} {s : σ} :
    (a.mapFault f).Succeeds s ↔ a.Succeeds s :=
  ⟨fun ⟨x, t, h⟩ => ⟨x, t, run_mapFault_eq_ok h⟩, fun ⟨x, t, h⟩ => ⟨x, t, run_mapFault_ok h⟩⟩

theorem succeeds_map {β : Type} {g : α → β} {a : Action σ α} {s : σ} :
    Succeeds (g <$> a) s ↔ a.Succeeds s := by
  rw [map_eq_pure_bind]
  constructor
  · rintro ⟨y, t, h⟩
    obtain ⟨x, u, h, -⟩ := run_bind_eq_ok h
    exact ⟨x, u, h⟩
  · rintro ⟨x, t, h⟩
    exact ⟨g x, t, run_bind_ok h⟩

/-- Whatever comes of it, the action leaves this view of the state as it was. -/
def Keeps {β : Type} (view : σ → β) (a : Action σ α) : Prop :=
  ∀ s, view (a.run s).2 = view s

namespace Keeps

variable {β γ : Type} {view : σ → β} {a : Action σ α} {f : α → Action σ γ}

theorem pure (x : α) : Keeps view (Pure.pure x : Action σ α) :=
  fun _ => rfl

theorem of (r : Except Fault α) : Keeps view (Action.of r) :=
  fun _ => rfl

theorem bind (first : Keeps view a) (rest : ∀ x, Keeps view (f x)) : Keeps view (a >>= f) := by
  intro s
  rw [run_bind]
  cases h : (a.run s).1 with
  | ok x => exact (rest x _).trans (first s)
  | error e => exact first s

theorem mapFault (h : Keeps view a) (g : Fault → Fault) : Keeps view (a.mapFault g) :=
  fun s => h s

theorem attempt (h : Keeps view a) : Keeps view a.attempt :=
  fun s => h s

/-- A sequence that only reads after its first step leaves the state where that step left it. -/
theorem bind_reads (reads : ∀ x, Keeps id (f x)) (s : σ) :
    ((a >>= f).run s).2 = (a.run s).2 := by
  rw [run_bind]
  cases (a.run s).1 with
  | ok x => exact reads x _
  | error e => rfl

end Keeps

end Action

end SearchSelect
