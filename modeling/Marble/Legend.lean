import Marble.Notification
import Marble.Text.LowerCase

/-! Legends: what the characters of a diagram stand for. Keys ignore case, and tokens are no
keys. -/
namespace Marble

variable {α ε φ : Type}

namespace Token

/-- One frame of silence. -/
def wait : Char := '-'

def complete : Char := '|'

def error : Char := '#'

/-- Turns the key before it into a side effect. -/
def effectMarker : Char := '!'

def reserved : List Char := [wait, complete, error, effectMarker]

end Token

/-- A folded character that is no token. -/
structure LegendKey where
  char : Char
deriving DecidableEq

/-- What a key is bound to, by kind. -/
inductive Slot where
  | value
  | error
  | effect
deriving DecidableEq

/-- What a key is bound to: a value, an error, or a side effect to invoke. -/
inductive LegendEntry (α ε φ : Type) where
  | value (v : α)
  | error (e : ε)
  | effect (f : φ)

/-- What can be wrong with a legend, or with a diagram read against it. -/
inductive LegendError where
  | reservedKey (char : Char)
  | duplicateKey (key : LegendKey)
  | ambiguousError (first second : LegendKey)
  | missingError (column : Nat)
  | unresolvedKey (char : Char) (column : Nat)
  | slotMismatch (key : LegendKey) (column : Nat) (bound used : Slot)
  | strayEffectMarker (column : Nat)
deriving DecidableEq

namespace Slot

def text : Slot → String
  | .value => "a value"
  | .error => "an error"
  | .effect => "a side effect"

end Slot

namespace LegendEntry

def slot : LegendEntry α ε φ → Slot
  | .value _ => .value
  | .error _ => .error
  | .effect _ => .effect

end LegendEntry

namespace LegendKey

/-- Every character but a token is a key, in its lower case. -/
def parse (c : Char) : Except LegendError LegendKey :=
  if c ∈ Token.reserved then .error (.reservedKey c) else .ok ⟨Text.lowerCase c⟩

def text (k : LegendKey) : String := k.char.toString

end LegendKey

namespace LegendError

def message : LegendError → String
  | .reservedKey c => s!"'{c}' is a marble token and cannot be used as a legend key"
  | .duplicateKey k => s!"legend key '{k.text}' is bound more than once"
  | .ambiguousError first second =>
    s!"legend binds errors to both '{first.text}' and '{second.text}', so '#' is ambiguous"
  | .missingError column =>
    s!"'#' at column {column} needs an error in the legend, but none is bound"
  | .unresolvedKey c column => s!"no legend entry for '{c}' at column {column}"
  | .slotMismatch k column bound used =>
    s!"legend key '{k.text}' is bound to {bound.text} but column {column} uses it as {used.text}"
  | .strayEffectMarker column => s!"'!' at column {column} does not follow a legend key"

end LegendError

/-- Entries in the order of their keys, and the key of the one error among them. -/
structure Legend (α ε φ : Type) where
  entries : List (LegendKey × LegendEntry α ε φ)
  errorKey : Option LegendKey

namespace Legend

def empty : Legend α ε φ := ⟨[], none⟩

instance : Inhabited (Legend α ε φ) := ⟨empty⟩

def find? (l : Legend α ε φ) (key : LegendKey) : Option (LegendEntry α ε φ) :=
  l.entries.lookup key

/-- What a character stands for; a token stands for nothing. -/
def get? (l : Legend α ε φ) (c : Char) : Option (LegendEntry α ε φ) :=
  (LegendKey.parse c).toOption.bind l.find?

/-- The one error a legend binds. -/
def error? (l : Legend α ε φ) : Option ε :=
  match l.errorKey.bind l.find? with
  | some (.error e) => some e
  | _ => none

def size (l : Legend α ε φ) : Nat := l.entries.length

def isEmpty (l : Legend α ε φ) : Bool := l.entries.isEmpty

def keys (l : Legend α ε φ) : List LegendKey := l.entries.map (·.1)

/-- Puts an entry in front of the first larger key. -/
def insertEntry (key : LegendKey) (entry : LegendEntry α ε φ) :
    List (LegendKey × LegendEntry α ε φ) → List (LegendKey × LegendEntry α ε φ)
  | [] => [(key, entry)]
  | (k, e) :: rest =>
    if key.char < k.char then (key, entry) :: (k, e) :: rest
    else (k, e) :: insertEntry key entry rest

/-- Binds one more key. A token is refused first, then a key already bound, then a second error. -/
def add (l : Legend α ε φ) (c : Char) (entry : LegendEntry α ε φ) :
    Except LegendError (Legend α ε φ) := do
  let key ← LegendKey.parse c
  if (l.find? key).isSome then throw (.duplicateKey key)
  match entry, l.errorKey with
  | .error _, some first => throw (.ambiguousError first key)
  | .error _, none => return ⟨insertEntry key entry l.entries, some key⟩
  | _, errorKey => return ⟨insertEntry key entry l.entries, errorKey⟩

/-- Binds keys one after the other; the first that cannot be bound decides. -/
def ofPairs (pairs : List (Char × LegendEntry α ε φ)) : Except LegendError (Legend α ε φ) :=
  pairs.foldlM (fun l p => l.add p.1 p.2) empty

/-- A legend of values alone. -/
def ofValues (pairs : List (Char × α)) : Except LegendError (Legend α ε φ) :=
  ofPairs (pairs.map fun p => (p.1, .value p.2))

end Legend

end Marble
