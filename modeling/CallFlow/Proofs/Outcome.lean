import CallFlow.Attempt
import Mathlib.Data.List.Forall2

/-!
# Attempts That Succeed

An attempt *gives* a value when it succeeds with it, whatever it writes into its journal. This
module takes attempts apart: a sequence of attempts gives a value just in case its parts give
values that fit together.

## Sections

1. Giving a value
2. Attempts in sequence
3. Attempts over lists
4. Failing
-/

namespace CallFlow.Attempt

variable {α β : Type}

/-! ## §1 Giving a value -/

/-- The attempt succeeds with the value. -/
def Gives (a : Attempt α) (x : α) : Prop := a.outcome = .ok x

/-- Whether an attempt succeeds at all. -/
def succeeds (a : Attempt α) : Bool :=
  match a.outcome with
  | .ok _ => true
  | .error _ => false

theorem gives_of_succeeds {a : Attempt α} (h : a.succeeds = true) : ∃ x, a.Gives x := by
  unfold succeeds at h
  cases ha : a.outcome with
  | ok x => exact ⟨x, ha⟩
  | error e => simp [ha] at h

@[simp] theorem gives_pure {x y : α} : (pure x : Attempt α).Gives y ↔ y = x := by
  simp [Gives, eq_comm]

@[simp] theorem not_gives_fail {e : Failure} {x : α} : ¬ (fail e : Attempt α).Gives x := by
  simp [Gives]

/-! ## §2 Attempts in sequence -/

/-- Two steps give what the second gives after a value that the first gives. -/
theorem gives_bind {a : Attempt α} {f : α → Attempt β} {y : β} :
    (a >>= f).Gives y ↔ ∃ x, a.Gives x ∧ (f x).Gives y := by
  unfold Gives
  rw [outcome_bind]
  cases h : a.outcome with
  | error e =>
    -- Nothing comes after a failure.
    simp [Bind.bind, Except.bind]
  | ok x => simp [Bind.bind, Except.bind]

/-- What comes of a sequence whose first step gives a value is left to its second step. -/
theorem outcome_bind_of_gives {a : Attempt α} {x : α} (h : a.Gives x) (f : α → Attempt β) :
    (a >>= f).outcome = (f x).outcome := by
  rw [outcome_bind, show a.outcome = .ok x from h]
  rfl

theorem gives_map {g : α → β} {a : Attempt α} {y : β} :
    (g <$> a).Gives y ↔ ∃ x, a.Gives x ∧ y = g x := by
  -- A map is a sequence whose second step always succeeds.
  rw [← bind_pure_comp, gives_bind]
  simp

/-- A line in the journal makes no difference to what comes of an attempt. -/
@[simp] theorem outcome_write_bind (level : Level) (text : String) (f : Unit → Attempt β) :
    (write level text >>= f).outcome = (f ()).outcome := by
  rw [outcome_bind]
  rfl

@[simp] theorem gives_debug_bind {text : String} {f : Unit → Attempt β} {y : β} :
    (debug text >>= f).Gives y ↔ (f ()).Gives y := by
  rw [Gives, debug, outcome_write_bind, Gives]

@[simp] theorem gives_info_bind {text : String} {f : Unit → Attempt β} {y : β} :
    (info text >>= f).Gives y ↔ (f ()).Gives y := by
  rw [Gives, info, outcome_write_bind, Gives]

@[simp] theorem gives_warn_bind {text : String} {f : Unit → Attempt β} {y : β} :
    (warn text >>= f).Gives y ↔ (f ()).Gives y := by
  rw [Gives, warn, outcome_write_bind, Gives]

/-! ## §3 Attempts over lists -/

/-- A list of attempts gives the list of what each of them gives. -/
theorem gives_mapM {f : α → Attempt β} {l : List α} {ys : List β} :
    (l.mapM f).Gives ys ↔ List.Forall₂ (fun x y => (f x).Gives y) l ys := by
  induction l generalizing ys with
  | nil => simp [List.forall₂_nil_left_iff]
  | cons x rest ih =>
    simp only [List.mapM_cons, gives_bind, gives_pure, List.forall₂_cons_left_iff]
    constructor
    · rintro ⟨y, hy, zs, hzs, rfl⟩
      exact ⟨y, zs, hy, ih.1 hzs, rfl⟩
    · rintro ⟨y, zs, hy, hzs, rfl⟩
      exact ⟨y, hy, zs, ih.2 hzs, rfl⟩

theorem exists_of_mem_left {R : α → β → Prop} {l : List α} {ys : List β}
    (h : List.Forall₂ R l ys) {x : α} (hx : x ∈ l) : ∃ y ∈ ys, R x y := by
  induction h with
  | nil => simp at hx
  | @cons x' y rest ys hxy _ ih =>
    rcases List.mem_cons.1 hx with rfl | hrest
    · exact ⟨y, List.mem_cons_self .., hxy⟩
    · obtain ⟨y', hy', hxy'⟩ := ih hrest
      exact ⟨y', List.mem_cons_of_mem _ hy', hxy'⟩

theorem exists_of_mem_right {R : α → β → Prop} {l : List α} {ys : List β}
    (h : List.Forall₂ R l ys) {y : β} (hy : y ∈ ys) : ∃ x ∈ l, R x y :=
  exists_of_mem_left h.flip hy

/-! ## §4 Failing -/

/-- The attempt comes to nothing but the failure. -/
def Fails (a : Attempt α) (e : Failure) : Prop := a.outcome = .error e

theorem gives_or_fails (a : Attempt α) : (∃ x, a.Gives x) ∨ ∃ e, a.Fails e := by
  cases h : a.outcome with
  | ok x => exact Or.inl ⟨x, h⟩
  | error e => exact Or.inr ⟨e, h⟩

theorem Gives.unique {a : Attempt α} {x y : α} (hx : a.Gives x) (hy : a.Gives y) : x = y :=
  Except.ok.inj (hx.symm.trans hy)

theorem Gives.not_fails {a : Attempt α} {x : α} (h : a.Gives x) (e : Failure) : ¬ a.Fails e := by
  intro hfails
  have hboth : Except.ok x = Except.error e := h.symm.trans hfails
  cases hboth

@[simp] theorem fails_fail {e e' : Failure} : (fail e : Attempt α).Fails e' ↔ e' = e := by
  simp [Fails, eq_comm]

@[simp] theorem not_fails_pure {x : α} {e : Failure} : ¬ (pure x : Attempt α).Fails e := by
  simp [Fails]

/-- Two steps fail if the first one does, or else the second one after what the first gives. -/
theorem fails_bind {a : Attempt α} {f : α → Attempt β} {e : Failure} :
    (a >>= f).Fails e ↔ a.Fails e ∨ ∃ x, a.Gives x ∧ (f x).Fails e := by
  unfold Fails Gives
  rw [outcome_bind]
  cases h : a.outcome with
  | error e' => simp [Bind.bind, Except.bind]
  | ok x => simp [Bind.bind, Except.bind]

@[simp] theorem fails_write_bind {level : Level} {text : String} {f : Unit → Attempt β}
    {e : Failure} : (write level text >>= f).Fails e ↔ (f ()).Fails e := by
  rw [Fails, outcome_write_bind, Fails]

@[simp] theorem not_fails_write {level : Level} {text : String} {e : Failure} :
    ¬ (write level text).Fails e := by
  simp [Fails]

/-- If what follows never fails, the whole fails with its first part. -/
theorem fails_bind_iff_left {a : Attempt α} {g : α → Attempt β} {e : Failure}
    (h : ∀ x, ¬ (g x).Fails e) : (a >>= g).Fails e ↔ a.Fails e := by
  rw [fails_bind]
  constructor
  · rintro (hfirst | ⟨x, -, hrest⟩)
    · exact hfirst
    · exact absurd hrest (h x)
  · exact Or.inl

@[simp] theorem fails_map {g : α → β} {a : Attempt α} {e : Failure} :
    (g <$> a).Fails e ↔ a.Fails e := by
  rw [← bind_pure_comp, fails_bind]
  simp

/-- A list of attempts fails at one of them. -/
theorem exists_fails_of_mapM {f : α → Attempt β} {l : List α} {e : Failure}
    (h : (l.mapM f).Fails e) : ∃ x ∈ l, (f x).Fails e := by
  induction l with
  | nil => exact absurd h not_fails_pure
  | cons x rest ih =>
    rw [List.mapM_cons, fails_bind] at h
    rcases h with hfirst | ⟨y, -, h⟩
    · exact ⟨x, List.mem_cons_self .., hfirst⟩
    · -- Putting the results together cannot fail, so one of the rest does.
      rw [fails_bind] at h
      rcases h with hrest | ⟨ys, -, hpure⟩
      · obtain ⟨x', hx', hfails⟩ := ih hrest
        exact ⟨x', List.mem_cons_of_mem _ hx', hfails⟩
      · exact absurd hpure not_fails_pure

/-- A run fails at one of its steps, and what every step keeps is still true there. -/
theorem exists_fails_of_foldlM {I : β → Prop} {f : β → α → Attempt β} {l : List α} {b : β}
    {e : Failure} (hstep : ∀ b x b', I b → (f b x).Gives b' → I b') (hb : I b)
    (h : (l.foldlM f b).Fails e) : ∃ x ∈ l, ∃ b', I b' ∧ (f b' x).Fails e := by
  induction l generalizing b with
  | nil => exact absurd h not_fails_pure
  | cons x rest ih =>
    rw [List.foldlM_cons, fails_bind] at h
    rcases h with hfirst | ⟨b', hgives, hrest⟩
    · exact ⟨x, List.mem_cons_self .., b, hb, hfirst⟩
    · have hb' : I b' := hstep b x b' hb hgives
      obtain ⟨x', hx', hfound⟩ := ih hb' hrest
      exact ⟨x', List.mem_cons_of_mem _ hx', hfound⟩

end CallFlow.Attempt
