import Marble.Decimal.Digits
import Marble.Settings
import Marble.Text.LowerCase

/-! Settings from environment variables: each names a place in the default settings and what to put
there, and all are read when the last has been put. -/
namespace Marble.Settings

/-- A step into a value: to a field, or to an item, which is counted from the end if negative. -/
inductive Step where
  | field (name : String)
  | item (index : Int)
deriving DecidableEq

/-- Puts a value at the end of a path. What stands on the way and cannot be entered is replaced, and
items that are missing before the one meant are null. -/
def put (value : Json) : List Step → Json → Json
  | [], _ => value
  | .field name :: steps, j =>
    let fields := match j with
      | .object fields => fields
      | _ => []
    .object (Json.putField name (put value steps ((fields.lookup name).getD .null)) fields)
  | .item index :: steps, j =>
    let items := match j with
      | .array items => items
      | _ => []
    let place := (if index < 0 then index + items.length else index).toNat
    let missing := if index < 0 then index.natAbs - items.length else place + 1 - items.length
    let nulls := List.replicate missing Json.null
    let items := if index < 0 then nulls ++ items else items ++ nulls
    .array (items.modify place (put value steps))

/-- Places fit 64 bits with their sign. -/
def maxPlace : Nat := 9223372036854775807

/-- The place of an item between blanks, up to its bracket: digits, after a minus sign if it is
counted from the end. -/
def item? (cs : List Char) : Option Step := do
  let isGap := fun c => c = ' ' ∨ c = '\t'
  match cs.reverse with
  | ']' :: rest =>
    match ((rest.dropWhile isGap).reverse).dropWhile isGap with
    | '-' :: digits => do
      let n ← Decimal.nat? digits
      if n ≤ maxPlace + 1 then some (.item (-n)) else none
    | digits => do
      let n ← Decimal.nat? digits
      if n ≤ maxPlace then some (.item n) else none
  | _ => none

/-- A name of letters, digits, lines and hyphens, with the items meant inside it. -/
def segment? (cs : List Char) : Option (List Step) :=
  let isPart := fun (c : Char) => c.isAlphanum || c == '_' || c == '-'
  let name := cs.takeWhile isPart
  match (cs.dropWhile isPart).splitOn '[' with
  | [] :: items => do
    if name = [] then none else return .field (String.ofList name) :: (← items.mapM item?)
  | _ => none

/-- Two lines in a name part a section from what is in it. -/
def separate : List Char → List Char
  | '_' :: '_' :: rest => '.' :: separate rest
  | c :: rest => c :: separate rest
  | [] => []

/-- Where a variable belongs, if it names a place at all; case does not matter. -/
def path? (name : String) : Option (List Step) :=
  let title := "marbletest__".toList
  let cs := name.toList.map Text.lowerCase
  if title.isPrefixOf cs then
    (((separate (cs.drop title.length)).splitOn '.').mapM segment?).map List.flatten
  else none

/-- A number in the environment: digits after an optional plus sign, or a word for one or zero. -/
def readTicks? (value : String) : Option Nat :=
  match value.toList.map Char.toLower with
  | ['t', 'r', 'u', 'e'] | ['o', 'n'] | ['y', 'e', 's'] => some 1
  | ['f', 'a', 'l', 's', 'e'] | ['o', 'f', 'f'] | ['n', 'o'] => some 0
  | '+' :: digits => (Decimal.nat? digits).filter (· ≤ maxTicks)
  | digits => (Decimal.nat? digits).filter (· ≤ maxTicks)

/-- A section has at least its fields, by name or in order. -/
def section? (names : List String) : Json → Option (List Json)
  | .object fields => names.mapM fun name => fields.lookup name
  | .array items => if names.length ≤ items.length then some (items.take names.length) else none
  | _ => none

/-- A number may be written as text. -/
def ticks? : Json → Option Nat
  | .string s => readTicks? s
  | j => j.ticks?

/-- Settings whose numbers may be written as text. -/
def ofLoose? (j : Json) : Option Settings := do
  match ← section? ["scheduler", "logging"] j with
  | [scheduler, logging] =>
    match ← section?
        ["unit_of_time_ticks", "time_grid_ticks", "expectation_padding_ticks"] scheduler,
      ← section? ["level"] logging with
    | [unit, grid, padding], [level] =>
      return ⟨← ticks? unit, ← ticks? grid, ← VirtualTime.ofNat? (← ticks? padding), ← decode level⟩
    | _, _ => none
  | _ => none

/-- The defaults as changed by environment variables; none if they can no longer be read. -/
def ofEnvironment (environment : List (String × String)) : Option Settings :=
  ofLoose? (environment.foldl
    (fun j v => match path? v.1 with
      | some path => put (.string v.2) path j
      | none => j)
    (toJson {}))

end Marble.Settings
