import Gatekeeper.Text.CodePoint
import Gatekeeper.Text.Stream
import Gatekeeper.Yaml.Error

/-!
# Sources of YAML text

A text is read block by block as its tokens are needed. A block with a defect stops the reading where
the block before it ends, so tokens in front of it may still be wrong first.
-/
namespace Gatekeeper.Yaml

/-- What can be read of a text, and what stops reading behind it, if that is not its end. -/
structure Source where
  text : List Char := []
  stop? : Option Error := none
  deriving DecidableEq, Repr

/-- Whether a character may occur. -/
def isAllowed (c : Char) : Bool :=
  c == '\t' || c == '\n' || c == '\r' || (' ' ≤ c && c ≤ '~') || c == '\u0085' ||
    ('\u00A0' ≤ c && c ≤ '\uD7FF') || ('\uE000' ≤ c && c ≤ '\uFFFD') || 0x10000 ≤ c.toNat

namespace Source

/-- The number of characters in a block. -/
def blockSize : Nat := 4096

/-- Some blocks, which are looked at together. -/
def readBlocks : Nat → Text.Stream → Except Error (List Char × Text.Stream)
  | 0, stream => .ok ([], stream)
  | count + 1, stream => do
    let (block, stream) ← (stream.read blockSize).mapError .encoding
    let (blocks, stream) ← readBlocks count stream
    return (block ++ blocks, stream)

/-- What can be read of a stream when some blocks come first. -/
def ofStream (stream : Text.Stream) (count : Nat) : Nat → Source
  | 0 => {}
  | fuel + 1 =>
    match readBlocks count stream with
    | .error e => { stop? := some e }
    | .ok ([], _) => {}
    | .ok (blocks, stream) =>
      if blocks.all isAllowed then
        let rest := ofStream stream 1 fuel
        { rest with text := Text.ofCharacters blocks ++ rest.text }
      else { stop? := some .character }

/-- The source of a file's bytes. The first two blocks are read at once. -/
def ofBytes (bytes : List UInt8) : Source :=
  ofStream { bytes } 2 (bytes.length + 1)

end Source

end Gatekeeper.Yaml
