/-! How deep the parts of a pattern nest, counted while it is read. -/
namespace Marble.LogFilter

/-- The items of the sequence being read, the depth of the last one and the greatest of those before
it, and the depth of what an operator has closed on the left. -/
structure Nesting where
  items : Nat := 0
  last : Nat := 0
  before : Nat := 0
  left : Option Nat := none

namespace Nesting

def add (n : Nesting) (depth : Nat) : Nesting :=
  { n with items := n.items + 1, last := depth, before := max n.before n.last }

/-- The last item is put into one more layer. -/
def wrap (n : Nesting) : Nesting := { n with last := n.last + 1 }

/-- A sequence of more than one item is a layer of its own. -/
def sequence (n : Nesting) : Nat := max n.before n.last + if 2 ≤ n.items then 1 else 0

/-- The depth of the whole; an operator is a layer over its two sides. -/
def depth (n : Nesting) : Nat :=
  match n.left with
  | none => n.sequence
  | some left => max left n.sequence + 1

/-- A branch ends; all branches stand side by side. -/
def branch (n : Nesting) : Nesting := { left := some (max (n.left.getD 0) n.sequence) }

/-- An operand ends; operators gather to the left. -/
def operand (n : Nesting) : Nesting := { left := some n.depth }

end Nesting

end Marble.LogFilter
