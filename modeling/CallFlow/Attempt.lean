import CallFlow.Failure

/-!
# Attempts

An attempt is work that may fail and that writes a journal while it goes on. The journal
outlives a failure: what was written before it stays written.

The outcome of an attempt does not depend on its journal: `Attempt.outcome_bind` shows that
the outcomes alone follow the rules of `Except`, so statements about results need not
mention the journal.
-/

namespace CallFlow

/-! ## Journals -/

/-- How much a journal line matters. -/
inductive Level where
  | debug
  | info
  | warning
  deriving DecidableEq, Repr

def Level.name : Level → String
  | debug => "DEBUG"
  | info => "INFO"
  | warning => "WARNING"

/-- The rank of a level; more important lines rank higher. -/
def Level.rank : Level → Nat
  | debug => 10
  | info => 20
  | warning => 30

/-- The least rank that is shown at a level chosen by its name. `NOTSET` shows everything, the
levels above `WARNING` nothing, and a name of no level what `INFO` does. -/
def leastRank (name : String) : Nat :=
  match name with
  | "NOTSET" => 0
  | "DEBUG" => Level.debug.rank
  | "WARNING" | "WARN" => Level.warning.rank
  | "ERROR" => 40
  | "CRITICAL" | "FATAL" => 50
  | _ => Level.info.rank

/-- One line of a journal. -/
structure JournalLine where
  level : Level
  text : String
  deriving DecidableEq, Repr

/-- A journal, oldest line first. -/
abbrev Journal := List JournalLine

/-- The lines of the given rank or a higher one. -/
def Journal.fromRank (journal : Journal) (rank : Nat) : Journal :=
  journal.filter fun line => rank ≤ line.level.rank

/-- The lines that matter at least as much as the given level. -/
def Journal.from (journal : Journal) (level : Level) : Journal := journal.fromRank level.rank

/-! ## Attempts -/

/-- Work that writes a journal and either fails or gives a value. -/
structure Attempt (α : Type) where
  journal : Journal
  outcome : Except Failure α

namespace Attempt

variable {α β : Type}

/-- Succeeds and writes nothing. -/
def succeed (a : α) : Attempt α := ⟨[], .ok a⟩

def fail (e : Failure) : Attempt α := ⟨[], .error e⟩

/-- Goes on with the value of an attempt. -/
def bind (a : Attempt α) (f : α → Attempt β) : Attempt β :=
  match a.outcome with
  | .error e => ⟨a.journal, .error e⟩
  | .ok x => ⟨a.journal ++ (f x).journal, (f x).outcome⟩

instance : Monad Attempt where
  pure := succeed
  bind := bind

def write (level : Level) (text : String) : Attempt Unit := ⟨[⟨level, text⟩], .ok ()⟩

/-- Writes a line at the lowest level. -/
def debug (text : String) : Attempt Unit := write .debug text

/-- Writes a line at the middle level. -/
def info (text : String) : Attempt Unit := write .info text

/-- Writes a line at the highest level. -/
def warn (text : String) : Attempt Unit := write .warning text

/-- The value of an accepted reading; a rejected one is a failure. -/
def ofChecked : Schema.Checked α → Attempt α
  | .accepted a => succeed a
  | .rejected vs => fail (.rejected vs)

/-! ## What attempts come to -/

theorem pure_bind_eq (a : α) (f : α → Attempt β) : bind (succeed a) f = f a := by
  simp [bind, succeed]

theorem bind_bind_eq {γ : Type} (a : Attempt α) (f : α → Attempt β) (g : β → Attempt γ) :
    bind (bind a f) g = bind a fun x => bind (f x) g := by
  obtain ⟨journal, outcome⟩ := a
  cases outcome with
  | error e => rfl
  | ok x => cases h : (f x).outcome <;> simp [bind, h]

theorem bind_succeed_eq (a : Attempt α) : bind a succeed = a := by
  obtain ⟨journal, outcome⟩ := a
  cases outcome <;> simp [bind, succeed]

instance : LawfulMonad Attempt := LawfulMonad.mk' Attempt bind_succeed_eq pure_bind_eq bind_bind_eq

@[simp] theorem outcome_pure (a : α) : (pure a : Attempt α).outcome = .ok a := rfl

@[simp] theorem outcome_fail (e : Failure) : (fail e : Attempt α).outcome = .error e := rfl

@[simp] theorem outcome_write (level : Level) (text : String) :
    (write level text).outcome = .ok () := rfl

@[simp] theorem outcome_debug (text : String) : (debug text).outcome = .ok () := rfl

@[simp] theorem outcome_info (text : String) : (info text).outcome = .ok () := rfl

@[simp] theorem outcome_warn (text : String) : (warn text).outcome = .ok () := rfl

/-- The outcome of two steps is decided by their outcomes. -/
theorem outcome_bind (a : Attempt α) (f : α → Attempt β) :
    (a >>= f).outcome = a.outcome >>= fun x => (f x).outcome := by
  show (bind a f).outcome = _
  unfold bind
  cases a.outcome <;> rfl

theorem outcome_map (f : α → β) (a : Attempt α) : (f <$> a).outcome = f <$> a.outcome := by
  rw [← bind_pure_comp, ← bind_pure_comp, outcome_bind]
  rfl

end Attempt

end CallFlow
