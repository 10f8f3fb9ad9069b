import Marble.LogFilter.Pattern

/-! Log filters: directives between commas, each a level, or a target or span with a level. -/
namespace Marble.LogFilter

/-- A level is one of six words in any case, or its number, or left out. -/
def isLevel (cs : List Char) : Bool :=
  let digits := match cs with
    | '+' :: rest => rest
    | _ => cs
  match Decimal.nat? digits with
  | some n => n ≤ 5
  | none =>
    String.ofList (cs.map Char.toLower) ∈ ["", "error", "warn", "info", "debug", "trace", "off"]

def unsigned : List Char → List Char
  | '+' :: rest | '-' :: rest => rest
  | cs => cs

/-- A number in decimal or scientific notation, an infinity, or no number by name. -/
def isNumber (cs : List Char) : Bool :=
  let body := unsigned cs
  String.ofList (body.map Char.toLower) ∈ ["inf", "infinity", "nan"] || isDecimal body
where
  isDecimal (cs : List Char) : Bool :=
    let whole := cs.takeWhile Char.isDigit
    let rest := cs.dropWhile Char.isDigit
    let (fraction, rest) := match rest with
      | '.' :: rest => (rest.takeWhile Char.isDigit, rest.dropWhile Char.isDigit)
      | _ => ([], rest)
    (whole ++ fraction ≠ []) && match rest with
      | [] => true
      | e :: power => e ∈ ['e', 'E'] && (Decimal.nat? (unsigned power)).isSome

/-- A field is a name, or a name and what its value is compared with: a number or a pattern. -/
def isField (cs : List Char) : Bool :=
  cs ≠ [] && match cs.splitOn '=' with
    | _ :: value :: _ => isNumber value || Pattern.isValid value
    | _ => true

/-- A text without its first bytes, where they end between characters. -/
def dropBytes? : Nat → List Char → Option (List Char)
  | 0, cs => some cs
  | _ + 1, [] => none
  | n + 1, c :: rest => if c.utf8Size ≤ n + 1 then dropBytes? (n + 1 - c.utf8Size) rest else none

/-- The first bytes of a text, where they end between characters. -/
def takeBytes? : Nat → List Char → Option (List Char)
  | 0, _ => some []
  | _ + 1, [] => none
  | n + 1, c :: rest =>
    if c.utf8Size ≤ n + 1 then (takeBytes? (n + 1 - c.utf8Size) rest).map (c :: ·) else none

def slice? (start stop : Nat) (cs : List Char) : Option (List Char) := do
  takeBytes? (stop - start) (← dropBytes? start cs)

/-- Where in a directive a character stands, with the offset at which the part began. -/
inductive Place where
  | start
  | target
  | span (since : Nat)
  | field (since : Nat)
  | fields
  | closed
  | level (since : Nat)

/-- Reads one character. Offsets are counted without the blanks in front, and the parts are cut from
the text with them. -/
def Place.next (text : List Char) (offset : Nat) (c : Char) : Place → Option Place
  | .start =>
    if c = '[' then some (.span (offset + 1))
    else if c ∈ ['-', ':', '_'] ∨ Text.isAlphanumeric c then some .target
    else none
  | .target => do
    if c = '=' then (slice? 0 offset text).map fun _ => .level (offset + 1)
    else if c = '[' then (slice? 0 offset text).map fun _ => .span (offset + 1)
    else some .target
  | .span since =>
    if c = ']' then (slice? since offset text).map fun _ => .closed
    else if c = '\x7b' then (slice? since offset text).map fun _ => .field (offset + 1)
    else some (.span since)
  | .field since =>
    if c = '\x7d' then do if isField (← slice? since offset text) then some .fields else none
    else some (.field since)
  | .fields => if c = ']' then some .closed else none
  | .closed => if c = '=' then some (.level (offset + 1)) else none
  | .level since => some (.level since)

/-- Whether a directive may end here; alone a target may be anything, a level included. -/
def Place.isEnd (text : List Char) : Place → Bool
  | .target | .closed => true
  | .level since => (dropBytes? since text).any isLevel
  | _ => false

/-- One directive; the blanks around it are not read. -/
def isDirective (text : List Char) : Bool :=
  let step := fun (offset, place) (c : Char) => do
    return (offset + c.utf8Size, ← Place.next text offset c place)
  ((Text.trim text).foldlM step (0, .start)).any fun (_, place) => place.isEnd text

/-- Whether every directive of a filter can be read; empty ones are skipped. -/
def isValid (filter : String) : Bool :=
  ((filter.toList.splitOn ',').filter (· ≠ [])).all isDirective

end Marble.LogFilter
