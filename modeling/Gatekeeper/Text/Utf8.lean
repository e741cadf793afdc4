import Gatekeeper.Text.Quoted

/-!
# UTF-8

Bytes for text and text from bytes. The halves of surrogate pairs have no bytes; a run of them is
reported with its place. In decoding, the first byte of a character says how many follow and in which
range the second one lies; every other byte lies in one fixed range. A defect is reported with the
bytes that were read of its character.
-/
namespace Gatekeeper.Text.Utf8

/-- A run of halves that begins with one that stands for nothing: its place, that half, and the length
of the run. -/
structure Unencodable where
  place : Nat
  half : Nat
  length : Nat
  deriving DecidableEq, Repr

def Unencodable.message (u : Unencodable) : String :=
  let what :=
    if u.length = 1 then s!"character '\\u{String.ofList (hex 4 u.half)}' in position {u.place}"
    else s!"characters in position {u.place}-{u.place + u.length - 1}"
  "'utf-8' codec can't encode " ++ what ++ ": surrogates not allowed"

/-- The bytes of the code points from `place` on, where a half may stand for a byte. -/
def encodeFrom (byte? : Nat → Option UInt8) (place : Nat) :
    List Nat → Except Unencodable (List UInt8)
  | [] => .ok []
  | n :: rest =>
    if isSurrogate n then
      match byte? n with
      | some b => (encodeFrom byte? (place + 1) rest).map (b :: ·)
      | none => .error ⟨place, n, (rest.takeWhile isSurrogate).length + 1⟩
    else (encodeFrom byte? (place + 1) rest).map (String.utf8EncodeChar (Char.ofNat n) ++ ·)

/-- The bytes of a text. -/
def encode (text : List Char) : Except Unencodable (List UInt8) :=
  encodeFrom (fun _ => none) 0 (codes text)

inductive Problem where
  | invalidStart
  | invalidContinuation
  | unexpectedEnd
  deriving DecidableEq, Repr

def Problem.message : Problem → String
  | invalidStart => "invalid start byte"
  | invalidContinuation => "invalid continuation byte"
  | unexpectedEnd => "unexpected end of data"

/-- A character that is no UTF-8: its place, its first byte, and how many of its bytes were read. -/
structure Error where
  place : Nat
  first : Nat
  read : Nat
  problem : Problem
  deriving DecidableEq, Repr

def Error.message (e : Error) : String :=
  let what :=
    if e.read = 1 then s!"byte 0x{String.ofList (hex 2 e.first)} in position {e.place}"
    else s!"bytes in position {e.place}-{e.place + e.read - 1}"
  "'utf-8' codec can't decode " ++ what ++ ": " ++ e.problem.message

/-- A character of which some bytes are read. -/
structure Partial where
  place : Nat
  first : Nat
  read : Nat
  /-- The bytes that are missing, and the range of the next one. -/
  missing : Nat
  low : Nat
  high : Nat
  code : Nat
  deriving Repr

/-- The character that a first byte begins. -/
def begin? (place byte : Nat) : Option Partial :=
  if 0xC2 ≤ byte ∧ byte ≤ 0xDF then some ⟨place, byte, 1, 1, 0x80, 0xBF, byte - 0xC0⟩
  else if byte = 0xE0 then some ⟨place, byte, 1, 2, 0xA0, 0xBF, 0⟩
  else if byte = 0xED then some ⟨place, byte, 1, 2, 0x80, 0x9F, 0xD⟩
  else if 0xE1 ≤ byte ∧ byte ≤ 0xEF then some ⟨place, byte, 1, 2, 0x80, 0xBF, byte - 0xE0⟩
  else if byte = 0xF0 then some ⟨place, byte, 1, 3, 0x90, 0xBF, 0⟩
  else if byte = 0xF4 then some ⟨place, byte, 1, 3, 0x80, 0x8F, 4⟩
  else if 0xF1 ≤ byte ∧ byte ≤ 0xF3 then some ⟨place, byte, 1, 3, 0x80, 0xBF, byte - 0xF0⟩
  else none

def Partial.error (p : Partial) (problem : Problem) : Error :=
  ⟨p.place, p.first, p.read, problem⟩

/-- The characters of the bytes from `place` on, and the character that is cut off by their end. -/
def decodeFrom (place : Nat) (pending : Option Partial) :
    List UInt8 → Except Error (List Char × Option Partial)
  | [] => .ok ([], pending)
  | b :: rest =>
    let byte := b.toNat
    let front (code : Nat) : List Char × Option Partial → List Char × Option Partial
      | (chars, cut) => (Char.ofNat code :: chars, cut)
    match pending with
    | none =>
      if byte < 0x80 then (decodeFrom (place + 1) none rest).map (front byte)
      else
        match begin? place byte with
        | some p => decodeFrom (place + 1) (some p) rest
        | none => .error ⟨place, byte, 1, .invalidStart⟩
    | some p =>
      if p.low ≤ byte ∧ byte ≤ p.high then
        let code := p.code * 64 + (byte - 0x80)
        if p.missing ≤ 1 then (decodeFrom (place + 1) none rest).map (front code)
        else
          decodeFrom (place + 1)
            (some ⟨p.place, p.first, p.read + 1, p.missing - 1, 0x80, 0xBF, code⟩) rest
      else .error (p.error .invalidContinuation)

/-- The characters of bytes that end with a whole character. -/
def decode (bytes : List UInt8) : Except Error (List Char) :=
  match decodeFrom 0 none bytes with
  | .ok (chars, none) => .ok chars
  | .ok (_, some p) => .error (p.error .unexpectedEnd)
  | .error e => .error e

/-- A text whose lines all end with a line feed. -/
def withLineFeeds : List Char → List Char
  | '\r' :: '\n' :: rest => '\n' :: withLineFeeds rest
  | c :: rest => (if c = '\r' then '\n' else c) :: withLineFeeds rest
  | [] => []

end Gatekeeper.Text.Utf8
