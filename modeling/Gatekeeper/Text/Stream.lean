import Gatekeeper.Text.Utf8

/-!
# Texts that come in pieces

A reader that asks for some characters at a time decodes no more bytes than it needs, and a defect
shows when the piece with it is decoded. Its place counts within the piece, together with the bytes
of a character that the piece before has cut off.
-/
namespace Gatekeeper.Text

structure Stream where
  /-- The bytes to come. -/
  bytes : List UInt8
  /-- The bytes of a character that is cut off. -/
  cut : List UInt8 := []
  /-- Whether a carriage return waits for the line feed that may follow it. -/
  returned : Bool := false
  /-- Characters that are decoded and not taken. -/
  ready : List Char := []
  /-- The numbers of bytes and of characters in the last piece. -/
  lastBytes : Nat := 0
  lastChars : Nat := 0
  ended : Bool := false
  deriving Repr

namespace Stream

/-- The least number of bytes in a piece. -/
def leastPiece : Nat := 8192

/-- How many bytes are decoded at once for some characters: as many as they would take if they were
as long as those of the last piece. -/
def pieceSize (s : Stream) (wanted : Nat) : Nat :=
  max leastPiece (if s.lastChars < s.lastBytes then s.lastBytes * wanted / s.lastChars.max 1 else wanted)

/-- Whether a defect is a half of a surrogate pair of which the last byte is missing. -/
def isCutHalf (data : List UInt8) (e : Utf8.Error) : Bool :=
  match data.drop e.place with
  | [first, second] => first == 0xED && 0xA0 ≤ second && second ≤ 0xBF
  | _ => false

/-- The characters of some bytes, and how many bytes are left of a character that is cut off. -/
def decodeSome (data : List UInt8) : Except Utf8.Error (List Char × Nat) :=
  match Utf8.decodeFrom 0 none data with
  | .ok (chars, cut?) => .ok (chars, cut?.elim 0 (·.read))
  | .error e =>
    if isCutHalf data e then
      (Utf8.decodeFrom 0 none (data.take e.place)).map fun (chars, _) => (chars, 2)
    else .error e

/-- Decode one more piece. -/
def decodePiece (s : Stream) (wanted : Nat) : Except Utf8.Error Stream := do
  let size := s.pieceSize wanted
  let piece := s.bytes.take size
  let data := s.cut ++ piece
  let ended := piece.isEmpty
  let (chars, left) ← if ended then (Utf8.decode data).map (·, 0) else decodeSome data
  let chars := if s.returned then '\r' :: chars else chars
  let returned := !ended && chars.getLast? == some '\r'
  let chars := Utf8.withLineFeeds (if returned then chars.dropLast else chars)
  return {
    bytes := s.bytes.drop size
    cut := data.drop (data.length - left)
    returned, ended
    ready := s.ready ++ chars
    lastBytes := piece.length
    lastChars := chars.length }

/-- Decode until some characters are ready or none are left. -/
def fill (s : Stream) (wanted : Nat) : Nat → Except Utf8.Error Stream
  | 0 => .ok s
  | fuel + 1 =>
    if wanted ≤ s.ready.length || s.ended then .ok s
    else do (← s.decodePiece (wanted - s.ready.length)).fill wanted fuel

/-- The next characters, fewer only at the end. -/
def read (s : Stream) (wanted : Nat) : Except Utf8.Error (List Char × Stream) := do
  let s ← s.fill wanted (s.bytes.length + 2)
  return (s.ready.take wanted, { s with ready := s.ready.drop wanted })

end Stream

end Gatekeeper.Text
