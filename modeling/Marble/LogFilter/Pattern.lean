import Marble.Decimal.Digits
import Marble.LogFilter.Nesting
import Marble.Text.Alphanumeric
import Marble.Text.Blank

/-! Patterns: regular expressions over field values, read without character tables beyond ASCII. -/
namespace Marble.LogFilter.Pattern

/-- Case is told apart, whole characters are matched, and blanks stand for themselves until flags
inside the pattern say otherwise. -/
structure Flags where
  caseless : Bool := false
  unicode : Bool := true
  spaced : Bool := false

namespace Flags

/-- Whole characters without regard to case are matched by a table. -/
def needsTable (f : Flags) : Bool := f.unicode && f.caseless

/-- The flags that decide whether a pattern can be read; the others are only known. -/
def set (f : Flags) (on : Bool) : Char → Option Flags
  | 'i' => some { f with caseless := on }
  | 'u' => some { f with unicode := on }
  | 'x' => some { f with spaced := on }
  | 'm' | 's' | 'U' | 'R' | '-' => some f
  | _ => none

/-- Drops blanks, and comments up to the end of their line. -/
def dropBlanks : Bool → List Char → List Char
  | _, [] => []
  | true, c :: rest => dropBlanks (c != '\n') rest
  | false, c :: rest =>
    if Text.isBlank c then dropBlanks false rest
    else if c == '#' then dropBlanks true rest
    else c :: rest

def skip (f : Flags) (cs : List Char) : List Char := if f.spaced then dropBlanks false cs else cs

end Flags

/-- One character's worth of a pattern. -/
inductive Atom where
  | literal (c : Char) (byNumber : Bool)
  | dot
  | anchor
  | boundary
  | charClass (negated : Bool)

/-- What can be matched under the flags: no table is at hand, and no byte leaves a character half
read. -/
def Atom.isAllowed (f : Flags) : Atom → Bool
  | .literal c byNumber =>
    !f.needsTable && (f.unicode || !(byNumber && 0x80 ≤ c.toNat))
  | .dot => f.unicode
  | .anchor => true
  | .boundary => !f.unicode
  | .charClass negated => !f.unicode && !negated

/-- Inside brackets anchors and boundaries mean nothing, and bytes are ASCII. -/
def Atom.isMember (f : Flags) : Atom → Bool
  | .literal c _ => !f.needsTable && (f.unicode || c.toNat < 0x80)
  | .charClass negated => !f.unicode && !negated
  | _ => false

/-- A character by so many hexadecimal digits. -/
def byNumber (f : Flags) : Nat → Nat → List Char → Option (Char × List Char)
  | 0, code, cs => if code.isValidChar then some (.ofNat code, cs) else none
  | count + 1, code, cs =>
    match f.skip cs with
    | c :: rest => do byNumber f count (16 * code + (← Decimal.hexDigit? c)) rest
    | [] => none

/-- What follows a backslash. -/
def escape (f : Flags) : List Char → Option (Atom × List Char)
  | [] => none
  | 'x' :: rest => (byNumber f 2 0 rest).map fun (c, rest) => (.literal c true, rest)
  | 'u' :: rest => (byNumber f 4 0 rest).map fun (c, rest) => (.literal c false, rest)
  | 'U' :: rest => (byNumber f 8 0 rest).map fun (c, rest) => (.literal c false, rest)
  | 'a' :: rest => some (.literal '\x07' false, rest)
  | 't' :: rest => some (.literal '\t' false, rest)
  | 'n' :: rest => some (.literal '\n' false, rest)
  | 'v' :: rest => some (.literal '\x0b' false, rest)
  | 'f' :: rest => some (.literal '\x0c' false, rest)
  | 'r' :: rest => some (.literal '\r' false, rest)
  | c :: rest =>
    if c ∈ ['d', 's', 'w'] then some (.charClass false, rest)
    else if c ∈ ['D', 'S', 'W'] then some (.charClass true, rest)
    else if c ∈ ['A', 'z'] then some (.anchor, rest)
    else if c ∈ ['b', 'B', '<', '>'] then some (.boundary, rest)
    else if c.toNat < 0x80 ∧ ¬c.isAlphanum then some (.literal c false, rest)
    else none

def atom (f : Flags) : List Char → Option (Atom × List Char)
  | [] => none
  | '\\' :: rest => escape f rest
  | '.' :: rest => some (.dot, rest)
  | '^' :: rest | '$' :: rest => some (.anchor, rest)
  | c :: rest => some (.literal c false, rest)

/-! ## Brackets -/

def member (f : Flags) : List Char → Option (Atom × List Char)
  | [] => none
  | '\\' :: rest => escape f rest
  | c :: rest => some (.literal c false, rest)

/-- What is looked at after a hyphen: blanks are passed over and so is a number sign, but not the
comment that it begins. -/
def afterHyphen (f : Flags) (cs : List Char) : Option Char :=
  if f.spaced then
    match cs.dropWhile Text.isBlank with
    | '#' :: rest => (rest.dropWhile Text.isBlank).head?
    | rest => rest.head?
  else cs.head?

/-- A member or a range of them; a hyphen before the end or before another one makes no range. -/
def range (f : Flags) (cs : List Char) : Option (List Char) := do
  let (first, rest) ← member f cs
  let rest := f.skip rest
  let single := if first.isMember f then some rest else none
  match rest with
  | [] => none
  | '-' :: after =>
    if afterHyphen f after ∈ [some ']', some '-'] then single
    else do
      let (last, rest) ← member f (f.skip after)
      match first, last with
      | .literal a _, .literal b _ =>
        if a ≤ b ∧ first.isMember f ∧ last.isMember f then some rest else none
      | _, _ => none
  | _ => single

/-- The classes of ASCII characters that have a name. -/
def classNames : List String :=
  ["alnum", "alpha", "ascii", "blank", "cntrl", "digit", "graph", "lower", "print", "punct",
    "space", "upper", "word", "xdigit"]

/-- A named class after its opening bracket, and whether it is negated. -/
def namedClass : List Char → Option (Bool × List Char)
  | ':' :: rest =>
    let (negated, rest) := match rest with
      | '^' :: rest => (true, rest)
      | rest => (false, rest)
    match rest.dropWhile (· != ':') with
    | ':' :: ']' :: after =>
      if classNames.contains (String.ofList (rest.takeWhile (· != ':'))) then some (negated, after)
      else none
    | _ => none
  | _ => none

/-- Whether a bracket is negated, and its members. -/
def negation (f : Flags) (cs : List Char) : Bool × List Char :=
  match f.skip cs with
  | '^' :: rest => (true, rest)
  | cs => (false, cs)

/-- The members of a bracket up to its end. At the start hyphens are members, and so is a closing
bracket that comes first. -/
def members : Nat → Flags → Bool → Nesting → List Char → Option (Nat × List Char)
  | 0, _, _, _, _ => none
  | fuel + 1, f, start, n, cs =>
    match f.skip cs with
    | [] => none
    | ']' :: rest =>
      if !start || n.items != 0 then some (n.depth + 1, rest)
      else if f.needsTable then none
      else members fuel f false (n.add 0) rest
    | '[' :: rest =>
      match namedClass rest with
      | some (negated, rest) =>
        if f.needsTable || (negated && !f.unicode) then none
        else members fuel f false (n.add 0) rest
      | none => do
        let (negated, inner) := negation f rest
        if negated && !f.unicode then none
        else
          let (depth, rest) ← members fuel f true {} inner
          members fuel f false (n.add depth) rest
    | '-' :: rest =>
      if start then if f.needsTable then none else members fuel f true (n.add 0) rest
      else match rest with
        | '-' :: rest => members fuel f false n.operand rest
        | _ => do members fuel f false (n.add 0) (← range f ('-' :: rest))
    | '&' :: '&' :: rest | '~' :: '~' :: rest => members fuel f false n.operand rest
    | cs => do members fuel f false (n.add 0) (← range f cs)

/-! ## Groups -/

/-- The flags of a group, or of the rest of the group around it, each named once. -/
def letters (f : Flags) (seen : List Char) : List Char → Option (Bool × Flags × List Char)
  | [] => none
  | ':' :: rest => if seen.head? = some '-' then none else some (true, f, rest)
  | ')' :: rest => if seen.head? = some '-' ∨ seen = [] then none else some (false, f, rest)
  | c :: rest =>
    if c ∈ seen then none
    else do letters (← f.set (!seen.contains '-') c) (c :: seen) rest

/-- The name of a group, up to its bracket. -/
def groupName (cs : List Char) : Option (List Char × List Char) :=
  let name := cs.takeWhile (· != '>')
  match name, cs.dropWhile (· != '>') with
  | first :: others, '>' :: rest =>
    if (first == '_' || Text.isAlphabetic first) &&
        others.all (fun c => c ∈ ['_', '.', '[', ']'] || Text.isAlphanumeric c) then
      some (name, rest)
    else none
  | _, _ => none

/-- What an opening parenthesis begins: a group with its flags and the names given so far, or
flags for what follows in the group around it. -/
inductive Opening where
  | group (flags : Flags) (names : List (List Char))
  | setting (flags : Flags)

def opening (f : Flags) (names : List (List Char)) (cs : List Char) :
    Option (Opening × List Char) :=
  match f.skip cs with
  | '?' :: 'P' :: '<' :: rest => named rest
  | '?' :: '<' :: rest =>
    match rest with
    | '=' :: _ | '!' :: _ => none
    | rest => named rest
  | '?' :: rest => do
    let (isGroup, inner, rest) ← letters f [] rest
    return (if isGroup then .group inner names else .setting inner, rest)
  | rest => some (.group f names, rest)
where
  named (cs : List Char) : Option (Opening × List Char) := do
    let (name, rest) ← groupName cs
    if name ∈ names then none else some (.group f (name :: names), rest)

/-- After a repetition sign one more question mark may stand. -/
def dropLazy : List Char → List Char
  | '?' :: rest => rest
  | cs => cs

/-- The branches of a group up to its end. The names given and the depth are handed on; only after
an item may it be repeated, and counted repetition is not read at all. -/
def branches : Nat → Flags → List (List Char) → Nesting → Bool → List Char →
    Option (List (List Char) × Nat × List Char)
  | 0, _, _, _, _, _ => none
  | fuel + 1, f, names, n, repeatable, cs =>
    match f.skip cs with
    | [] => some (names, n.depth, [])
    | ')' :: rest => some (names, n.depth, ')' :: rest)
    | '\x7b' :: _ => none
    | '|' :: rest => branches fuel f names n.branch false rest
    | '*' :: rest | '+' :: rest | '?' :: rest =>
      if repeatable then branches fuel f names n.wrap true (dropLazy rest) else none
    | '[' :: rest => do
      let (negated, inner) := negation f rest
      if negated && !f.unicode then none
      else
        let (depth, rest) ← members fuel f true {} inner
        branches fuel f names (n.add depth) true rest
    | '(' :: rest => do
      match ← opening f names rest with
      | (.setting inner, rest) => branches fuel inner names (n.add 0) false rest
      | (.group inner names, rest) =>
        match ← branches fuel inner names {} false rest with
        | (names, depth, ')' :: rest) => branches fuel f names (n.add (depth + 1)) true rest
        | _ => none
    | cs => do
      let (atom, rest) ← atom f cs
      if atom.isAllowed f then branches fuel f names (n.add 0) true rest else none

/-- So many layers may lie in one another. -/
def maxDepth : Nat := 250

/-- Whether a text is a pattern. -/
def isValid (cs : List Char) : Bool :=
  match branches (cs.length + 1) {} [] {} false cs with
  | some (_, depth, []) => depth ≤ maxDepth
  | _ => false

end Marble.LogFilter.Pattern
