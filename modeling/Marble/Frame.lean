import Marble.Legend

/-! The grammar of diagrams: frames, how a text is cut into them and how they are written. -/
namespace Marble

/-- One token of a diagram, before its key is looked up. -/
inductive Frame where
  | wait
  | complete
  | error
  | emit (key : Char)
  | effect (key : Char)
deriving DecidableEq

/-- A frame with its index among the frames and the index of its first character in the text. -/
structure PositionedFrame where
  position : Nat
  column : Nat
  frame : Frame
deriving DecidableEq

namespace Frame

/-- The frame a character starts when no effect marker follows; an effect marker starts none. -/
def ofChar? (c : Char) : Option Frame :=
  if c = Token.wait then some .wait
  else if c = Token.complete then some .complete
  else if c = Token.error then some .error
  else if c = Token.effectMarker then none
  else some (.emit c)

/-- Cuts a text into frames, counting both from given numbers. An effect marker belongs to the key
before it and takes no frame. -/
def scan (position column : Nat) : List Char → Except LegendError (List PositionedFrame)
  | [] => .ok []
  | [c] =>
    match ofChar? c with
    | none => .error (.strayEffectMarker column)
    | some frame => .ok [⟨position, column, frame⟩]
  | c :: d :: rest =>
    match ofChar? c with
    | none => .error (.strayEffectMarker column)
    | some (.emit key) =>
      if d = Token.effectMarker then do
        return ⟨position, column, .effect key⟩ :: (← scan (position + 1) (column + 2) rest)
      else do
        return ⟨position, column, .emit key⟩ :: (← scan (position + 1) (column + 1) (d :: rest))
    | some frame => do
      return ⟨position, column, frame⟩ :: (← scan (position + 1) (column + 1) (d :: rest))

def tokenize (text : List Char) : Except LegendError (List PositionedFrame) := scan 0 0 text

/-- How a frame is written. -/
def render : Frame → List Char
  | .wait => [Token.wait]
  | .complete => [Token.complete]
  | .error => [Token.error]
  | .emit c => [c]
  | .effect c => [c, Token.effectMarker]

end Frame

end Marble
