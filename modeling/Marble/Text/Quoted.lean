import Marble.Text.Unshown

/-! Quoted literals: texts and characters written so that the quote and the backslash stay
readable. -/
namespace Marble.Text

/-- Whether a character may stand for itself in a literal, as all of ASCII may but its controls. -/
def isShown (c : Char) : Bool :=
  (' ' ≤ c && c ≤ '~') || !unshown.any fun r => r.1 ≤ c.toNat && c.toNat ≤ r.2

/-- A character inside a literal that `quote` closes. -/
def escape (quote c : Char) : List Char :=
  if c = quote ∨ c = '\\' then ['\\', c]
  else if c = '\n' then ['\\', 'n']
  else if c = '\r' then ['\\', 'r']
  else if c = '\t' then ['\\', 't']
  else if c = '\x00' then ['\\', '0']
  else if isShown c then [c]
  else ['\\', 'u', '\x7b'] ++ Nat.toDigits 16 c.toNat ++ ['\x7d']

/-- Characters between two `quote`s. -/
def literal (quote : Char) (cs : List Char) : List Char :=
  quote :: cs.flatMap (escape quote) ++ [quote]

def quotedString (s : String) : String := .ofList (literal '"' s.toList)

def quotedChar (c : Char) : String := .ofList (literal '\'' [c])

end Marble.Text
