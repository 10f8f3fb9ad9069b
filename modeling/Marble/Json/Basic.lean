/-! JSON values, the shapes records and variants take in them, and reading and writing classes. -/
namespace Marble

/-- Whole numbers and floating-point numbers are different values. -/
inductive Json where
  | null
  | bool (value : Bool)
  | int (value : Int)
  | float (value : Float)
  | string (value : String)
  | array (items : List Json)
  | object (fields : List (String × Json))

instance : Inhabited Json := ⟨.null⟩

namespace Json

mutual
/-- Equality of values; floating-point numbers compare as numbers, so the two zeros are equal. -/
def same : Json → Json → Bool
  | .null, .null => true
  | .bool a, .bool b => a == b
  | .int a, .int b => a == b
  | .float a, .float b => a == b
  | .string a, .string b => a == b
  | .array as, .array bs => sameItems as bs
  | .object as, .object bs => sameFields as bs
  | _, _ => false

def sameItems : List Json → List Json → Bool
  | [], [] => true
  | a :: as, b :: bs => same a b && sameItems as bs
  | _, _ => false

def sameFields : List (String × Json) → List (String × Json) → Bool
  | [], [] => true
  | (k, a) :: as, (l, b) :: bs => k == l && same a b && sameFields as bs
  | _, _ => false
end

instance : BEq Json := ⟨same⟩

/-- Puts a value for one field, in its place or behind the others. -/
def putField (name : String) (value : Json) : List (String × Json) → List (String × Json)
  | [] => [(name, value)]
  | (key, old) :: rest =>
    if key = name then (key, value) :: rest else (key, old) :: putField name value rest

/-- A record is an object with at least its fields, or the array of its fields in order. -/
def record? (names : List String) : Json → Option (List Json)
  | .object fields => names.mapM fun name => fields.lookup name
  | .array items => if items.length = names.length then some items else none
  | _ => none

/-- A variant is its name, or an object whose one field is its name with its content. -/
def variant? : Json → Option (String × Option Json)
  | .string name => some (name, none)
  | .object [(name, content)] => some (name, some content)
  | _ => none

/-- A variant without content may say so by `null`. -/
def bare : Option Json → Bool
  | none => true
  | some .null => true
  | some _ => false

end Json

/-- Values with a JSON form; some values may have none, and the reason is given. -/
class Encode (α : Type) where
  encode : α → Except String Json

/-- Values that can be read from JSON. -/
class Decode (α : Type) where
  decode : Json → Option α

export Encode (encode)
export Decode (decode)

end Marble
