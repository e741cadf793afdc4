import Gatekeeper.Yaml.Draft
import Gatekeeper.Yaml.Outline
import Gatekeeper.Yaml.Style

/-!
# Writing YAML

Block YAML: one entry or item a line, lists under a key at the column of the key, and empty
containers in brackets. A key that is short and stands on one line has its value behind a colon; any
other key and its value have a line each. Long texts are folded.
-/
namespace Gatekeeper.Yaml

/-- The column behind which a line is folded. -/
def lineWidth : Nat := 80

/-- The length from which on a key, with its marks, does not stand in front of its value. -/
def keyWidth : Nat := 128

def anchorName (anchor : Nat) : String :=
  "id" ++ String.ofList (List.replicate (3 - (toString anchor).length) '0') ++ toString anchor

namespace Draft

/-- Write a run of blanks, of line feeds, or of other characters. A line feed takes one more, and a
single blank within a text becomes a line break behind the line width. Without a margin nothing is
folded. -/
def writeRun (margin? : Option Nat) (inner : Bool) (d : Draft) (run : List Char) : Draft :=
  match margin?, run with
  | some margin, '\n' :: _ => (run.foldl (fun d _ => d.newLine) d.newLine).startLine margin
  | some margin, [' '] =>
    if inner && lineWidth < d.column then d.startLine margin else d.write " "
  | _, _ => d.write (String.ofList run)

def writeRuns (margin? : Option Nat) (first : Bool) (d : Draft) : List (List Char) → Draft
  | [] => d
  | run :: rest => writeRuns margin? false (d.writeRun margin? (!first && !rest.isEmpty) run) rest

/-- Write a text, run by run. -/
def writeText (margin? : Option Nat) (d : Draft) (text : List Char) : Draft :=
  d.writeRuns margin? true
    (text.splitBy fun a b => (a == ' ') == (b == ' ') && (a == '\n') == (b == '\n'))

/-- Break a line between double quotes. A blank that would start the next one is escaped. -/
def fold (margin : Nat) (d : Draft) (next? : Option Nat) : Draft :=
  let d := ((d.write "\\").startLine margin).settled
  if next? = some ' '.toNat then d.write "\\" else d

/-- Write code points between double quotes. A line is folded in front of a blank, or next to an
escape. -/
def writeEscaped (margin? : Option Nat) (first nextToEscape : Bool) (d : Draft) :
    List Nat → Draft
  | [] => d
  | code :: rest =>
    let folded (isHere : Bool) (width : Nat) (next? : Option Nat) (d : Draft) : Draft :=
      match margin? with
      | some margin =>
        if !first && !rest.isEmpty && isHere && width < d.column then d.fold margin next? else d
      | none => d
    match escape? code with
    | some form =>
      let d := folded true (lineWidth + 1) rest.head? (d.write (String.ofList form))
      writeEscaped margin? false true d rest
    | none =>
      let d := folded (code == ' '.toNat || nextToEscape) lineWidth (some code) d
      writeEscaped margin? false false (d.write (String.ofList (Text.ofCode code))) rest

/-- Write lines that each end with a line feed, every one at a margin. -/
def writeLines (margin : Nat) (d : Draft) (text : List Char) : Draft :=
  (text.splitOn '\n').dropLast.foldl
    (fun d line => ((d.startLine margin).write (String.ofList line)).newLine) d

/-- Write a scalar in its style. -/
def writeScalar (margin? : Option Nat) (d : Draft) (s : Scalar) : Draft :=
  let text := textOf s
  match Style.ofScalar s with
  | .plain => (d.apart.writeText margin? text).settled
  | .single =>
    let doubled := text.flatMap fun c => if c = '\x27' then ['\x27', '\x27'] else [c]
    ((d.mark "'").writeText margin? doubled).close "'"
  | .double => ((d.mark "\"").writeEscaped margin? true true (Text.codes text)).close "\""
  | .literal => (d.mark "|").newLine.writeLines (margin?.getD 0) text

/-- The marks in front of a node. -/
def writeMarks (anchor? : Option Nat) (tag : String) (d : Draft) : Draft :=
  let d := anchor?.elim d fun anchor => d.mark ("&" ++ anchorName anchor)
  if tag.isEmpty then d else d.mark tag

/-- Write a leaf. Bytes have their tag in front of them. -/
def writeLeaf (margin? : Option Nat) (d : Draft) : Leaf → Draft
  | .alias anchor => d.mark ("*" ++ anchorName anchor)
  | .scalar anchor? s =>
    let kind := Kind.ofScalar s
    (d.writeMarks anchor? (if kind = .binary then kind.tag else "")).writeScalar margin? s

end Draft

/-- Whether a leaf can be a key in front of its value: one line of content, and not too long. -/
def Leaf.isShort : Leaf → Bool
  | .alias _ => true
  | .scalar anchor? s =>
    let text := textOf s
    let marks := (anchor?.elim "" anchorName).length + (Kind.ofScalar s).tag.length
    !text.isEmpty && !text.any isFeed && marks + Text.length text < keyWidth

mutual

/-- Write a node within a collection at some column. A list is not indented below a key on its line. -/
def writeNode (indent? : Option Nat) (behindKey : Bool) (d : Draft) : Outline → Draft
  | .leaf l => d.writeLeaf (some (indent?.elim 2 (· + 2))) l
  | .list anchor? tag [] => (d.writeMarks anchor? tag).mark "[]"
  | .map anchor? tag [] => (d.writeMarks anchor? tag).mark "\x7b\x7d"
  | .list anchor? tag items =>
    let d := d.writeMarks anchor? tag
    let step := if behindKey && !d.fresh then 0 else 2
    writeItems (indent?.elim 0 (· + step)) d items
  | .map anchor? tag entries =>
    writeEntries (indent?.elim 0 (· + 2)) (d.writeMarks anchor? tag) entries

/-- Write the items of a list at its column. -/
def writeItems (indent : Nat) (d : Draft) : List Outline → Draft
  | [] => d
  | o :: items =>
    writeItems indent (writeNode (some indent) false ((d.startLine indent).bullet "-") o) items

/-- Write the entries of a map at its column. -/
def writeEntries (indent : Nat) (d : Draft) : List (Leaf × Outline) → Draft
  | [] => d
  | (key, o) :: entries =>
    let d := d.startLine indent
    let d :=
      if key.isShort then (d.writeLeaf none key).close ":"
      else (((d.bullet "?").writeLeaf (some (indent + 2)) key).startLine indent).bullet ":"
    writeEntries indent (writeNode (some indent) true d o) entries

end

/-- Write a value as a document. A text without quotes that stands alone has an end mark. -/
def print (v : Value) : String :=
  let d := (writeNode none false {} (Outline.ofRoot v)).startLine 0
  match v with
  | .scalar s => if Style.ofScalar s = .plain then d.text ++ "...\n" else d.text
  | _ => d.text

end Gatekeeper.Yaml
