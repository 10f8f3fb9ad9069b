import Marble.Bench.State

/-! Computations on a bench: they change it and answer, or panic half way, or run out of fuel. -/
namespace Marble

variable {α σ ρ τ : Type}

/-- How a computation ends. -/
inductive Outcome (ρ : Type) where
  | done (result : ρ)
  | panicked (message : String)
  | exhausted

/-- A computation on a bench. What it changed before a panic stays changed. -/
def Run (α σ ρ : Type) : Type := Bench α σ → Outcome ρ × Bench α σ

namespace Run

instance : Monad (Run α σ) where
  pure r b := (.done r, b)
  bind m f b :=
    match m b with
    | (.done r, b) => f r b
    | (.panicked message, b) => (.panicked message, b)
    | (.exhausted, b) => (.exhausted, b)

def read (f : Bench α σ → ρ) : Run α σ ρ := fun b => (.done (f b), b)

def update (f : Bench α σ → Bench α σ) : Run α σ Unit := fun b => (.done (), f b)

/-- Changes the bench and answers. -/
def change (f : Bench α σ → ρ × Bench α σ) : Run α σ ρ := fun b => (.done (f b).1, (f b).2)

def note (e : Entry α) : Run α σ Unit := update (·.note e)

def panic (message : String) : Run α σ ρ := fun b => (.panicked message, b)

def exhaust : Run α σ ρ := fun b => (.exhausted, b)

/-- Changes the bench after a computation, however it ends. -/
def ensure (m : Run α σ ρ) (after : Bench α σ → Bench α σ) : Run α σ ρ := fun b =>
  let (outcome, b) := m b
  (outcome, after b)

/-- Changes the bench after a computation that panics. -/
def onPanic (m : Run α σ ρ) (after : Bench α σ → Bench α σ) : Run α σ ρ := fun b =>
  match m b with
  | (.panicked message, b) => (.panicked message, after b)
  | (outcome, b) => (outcome, b)

/-- A computation for each item in turn. -/
def each (f : ρ → Run α σ Unit) : List ρ → Run α σ Unit
  | [] => pure ()
  | x :: xs => do f x; each f xs

end Run

/-- A computation that may also fail with an error. -/
def Attempt (α σ ρ : Type) : Type := Run α σ (Except Error ρ)

namespace Attempt

/-- An error ends the attempt there. -/
def next (m : Run α σ (Except Error ρ)) (f : ρ → Run α σ (Except Error τ)) :
    Run α σ (Except Error τ) := do
  match ← m with
  | .ok r => f r
  | .error e => return .error e

/-- A computation that does not fail. -/
def lift (m : Run α σ ρ) : Attempt α σ ρ := (do return .ok (← m) : Run α σ (Except Error ρ))

instance : Monad (Attempt α σ) where
  pure r := lift (pure r)
  bind := next

/-- What an attempt amounts to, its error included. -/
def result (m : Attempt α σ ρ) : Run α σ (Except Error ρ) := m

def fail (e : Error) : Attempt α σ ρ := (pure (.error e) : Run α σ (Except Error ρ))

def read (f : Bench α σ → ρ) : Attempt α σ ρ := lift (Run.read f)

def update (f : Bench α σ → Bench α σ) : Attempt α σ Unit := lift (Run.update f)

def change (f : Bench α σ → ρ × Bench α σ) : Attempt α σ ρ := lift (Run.change f)

def note (e : Entry α) : Attempt α σ Unit := lift (Run.note e)

/-- Reads something that may not be there to be read. -/
def check (f : Bench α σ → Except Error ρ) : Attempt α σ ρ := fun b => (.done (f b), b)

/-- Changes the bench and may fail. -/
def step (f : Bench α σ → Except Error ρ × Bench α σ) : Attempt α σ ρ :=
  fun b => (.done (f b).1, (f b).2)

end Attempt

/-- How callbacks of the client are carried out, and how many actions a clock may run in one go. -/
structure Engine (α σ : Type) where
  call : σ → Attempt α σ Unit
  /-- The sequence a factory builds, once it has been called. -/
  sequence : σ → Bench α σ → Sequence α
  fuel : Nat

end Marble
