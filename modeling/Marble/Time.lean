/-! Virtual time: instants on a clock that saturates at 64 bits, frame widths and comparison
grids. -/
namespace Marble

/-- The last tick a clock can show; an instant there stands for "never". -/
def maxTicks : Nat := 0xffffffffffffffff

/-- An instant, in ticks. -/
@[ext] structure VirtualTime where
  ticks : Nat
  ticks_le : ticks ≤ maxTicks
deriving DecidableEq

/-- How many ticks one frame of a diagram lasts. -/
@[ext] structure UnitOfTime where
  ticks : Nat
  ticks_pos : 0 < ticks
  ticks_le : ticks ≤ maxTicks
deriving DecidableEq

/-- The width of the cells in which two instants count as equal. -/
@[ext] structure TimeGrid where
  ticks : Nat
  ticks_pos : 0 < ticks
  ticks_le : ticks ≤ maxTicks
deriving DecidableEq

namespace VirtualTime

/-- The instant `n` ticks in; what lies past the last instant becomes the last instant. -/
def clamp (n : Nat) : VirtualTime := ⟨min n maxTicks, Nat.min_le_right ..⟩

/-- The instant `n` ticks in, if there is one. -/
def ofNat? (n : Nat) : Option VirtualTime :=
  if h : n ≤ maxTicks then some ⟨n, h⟩ else none

def zero : VirtualTime := ⟨0, Nat.zero_le _⟩

def never : VirtualTime := ⟨maxTicks, Nat.le_refl _⟩

instance : Inhabited VirtualTime := ⟨zero⟩

def isNever (t : VirtualTime) : Bool := t.ticks == maxTicks

instance : LE VirtualTime := ⟨fun s t => s.ticks ≤ t.ticks⟩
instance : LT VirtualTime := ⟨fun s t => s.ticks < t.ticks⟩
instance (s t : VirtualTime) : Decidable (s ≤ t) := Nat.decLe s.ticks t.ticks
instance (s t : VirtualTime) : Decidable (s < t) := Nat.decLt s.ticks t.ticks
instance : Max VirtualTime := ⟨fun s t => if s ≤ t then t else s⟩
instance : Ord VirtualTime := ⟨fun s t => compare s.ticks t.ticks⟩

/-- Later by a delay, up to the last instant. -/
instance : Add VirtualTime := ⟨fun s t => clamp (s.ticks + t.ticks)⟩

/-- The start of the grid cell an instant lies in. -/
def truncate (t : VirtualTime) (grid : TimeGrid) : VirtualTime :=
  ⟨t.ticks - t.ticks % grid.ticks, Nat.le_trans (Nat.sub_le ..) t.ticks_le⟩

def text (t : VirtualTime) : String := toString t.ticks

@[simp] theorem clamp_ticks (n : Nat) : (clamp n).ticks = min n maxTicks := rfl

@[simp] theorem zero_ticks : zero.ticks = 0 := rfl

@[simp] theorem never_ticks : never.ticks = maxTicks := rfl

@[simp] theorem add_ticks (s t : VirtualTime) :
    (s + t).ticks = min (s.ticks + t.ticks) maxTicks := rfl

@[simp] theorem truncate_ticks (t : VirtualTime) (g : TimeGrid) :
    (t.truncate g).ticks = t.ticks - t.ticks % g.ticks := rfl

theorem le_iff {s t : VirtualTime} : s ≤ t ↔ s.ticks ≤ t.ticks := Iff.rfl

theorem lt_iff {s t : VirtualTime} : s < t ↔ s.ticks < t.ticks := Iff.rfl

@[simp] theorem max_ticks (s t : VirtualTime) : (max s t).ticks = max s.ticks t.ticks := by
  change (if s.ticks ≤ t.ticks then t else s).ticks = _
  split <;> omega

end VirtualTime

/-- What is wrong with a width of zero, in the words of the type that refuses it. -/
def tooSmall (typeName : String) : String :=
  typeName ++ " is too small. The value must be greater than 0."

namespace UnitOfTime

/-- A frame lasts at least one tick. -/
def ofNat? (n : Nat) : Except String UnitOfTime :=
  if h : 0 < n ∧ n ≤ maxTicks then .ok ⟨n, h.1, h.2⟩ else .error (tooSmall "UnitOfTime")

/-- One tick a millisecond; what is left of the last millisecond does not count. -/
def ofDuration? (seconds nanoseconds : Nat) : Except String UnitOfTime :=
  ofNat? (min (seconds * 1000 + nanoseconds / 1000000) maxTicks)

instance : Inhabited UnitOfTime := ⟨⟨10, by decide, by decide⟩⟩

/-- When the frame at a position starts. -/
def frameStart (unit : UnitOfTime) (position : Nat) : VirtualTime :=
  .clamp (position * unit.ticks)

def text (unit : UnitOfTime) : String := toString unit.ticks

end UnitOfTime

namespace TimeGrid

/-- A cell is at least one tick wide. -/
def ofNat? (n : Nat) : Except String TimeGrid :=
  if h : 0 < n ∧ n ≤ maxTicks then .ok ⟨n, h.1, h.2⟩ else .error (tooSmall "TimeGrid")

instance : Inhabited TimeGrid := ⟨⟨10, by decide, by decide⟩⟩

/-- The grid on which only equal instants are equal. -/
def exact : TimeGrid := ⟨1, by decide, by decide⟩

def text (grid : TimeGrid) : String := toString grid.ticks

end TimeGrid

end Marble
