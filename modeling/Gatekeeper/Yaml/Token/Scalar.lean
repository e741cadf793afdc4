import Gatekeeper.Json.Reader
import Gatekeeper.Text.CodePoint
import Gatekeeper.Yaml.Cursor
import Gatekeeper.Yaml.Error

/-!
# Scalars in a text

Reading the characters of one scalar: plain, between quotes, or in a block of lines. Line breaks
within a scalar fold: one becomes a blank, and of several all but the first are kept.
-/
namespace Gatekeeper.Yaml.Cursor

/-- What a line break and those behind it fold to. -/
def folded (first : Char) (others : List Char) : List Char :=
  if first ≠ '\n' then first :: others
  else if others.isEmpty then [' ']
  else others

/-- The line breaks ahead and the blanks around them, up to the next character or a mark that ends
the document. The flag says whether such a mark was met. -/
def plainBreaks (k : Cursor) (fuel : Nat) : Except Error (Bool × List Char × Cursor) :=
  match fuel with
  | 0 => .ok (false, [], k)
  | fuel + 1 =>
    if k.peek == ' ' then k.next.plainBreaks fuel
    else
      match k.lineBreak? with
      | none => .ok (false, [], k)
      | some (c, after) => do
        if ← after.atDocumentMark then return (true, [], after)
        let (ended, breaks, after) ← after.plainBreaks fuel
        return (ended, c :: breaks, after)

/-- The gap behind a word of a plain scalar: its folded characters, and whether it goes over a line
break. There is none at the end of a document. -/
def plainGap (k : Cursor) : Except Error (List Char × Bool × Cursor) := do
  let (blanks, after) := k.takeWhile (· == ' ')
  match after.lineBreak? with
  | none => return (blanks, false, after)
  | some (c, behind) =>
    if ← behind.atDocumentMark then return ([], true, behind)
    let (ended, breaks, behind) ← behind.plainBreaks (behind.size + 1)
    return (if ended then [] else folded c breaks, true, behind)

/-- The characters of a plain scalar up to the next gap. Within brackets the marks of a collection
end it as well. -/
def plainWord (flow : Bool) : List Char → List Char
  | [] => []
  | c :: rest =>
    let next := rest.headD '\x00'
    if isSeparator c then []
    else if c == ':' && (isSeparator next || (flow && ",[]\x7b\x7d".toList.contains next)) then []
    else if flow && ",?[]\x7b\x7d".toList.contains c then []
    else c :: plainWord flow rest

/-- A plain scalar whose lines stand at `indent` or behind it, with the place behind it and whether
the gap behind its last word goes over a line break. -/
def plain (k : Cursor) (flow : Bool) (indent : Nat) (gap : List Char) (broken : Bool) (fuel : Nat) :
    Except Error (List Char × Bool × Cursor) :=
  match fuel with
  | 0 => .ok ([], broken, k)
  | fuel + 1 => do
    let word := plainWord flow k.rest
    let behind := k.advance word.length
    if k.peek != '#' then behind.require (if behind.peek == ':' then 2 else 1)
    if k.peek == '#' || word.isEmpty then return ([], broken, k)
    let (next, isBroken, after) ← behind.plainGap
    after.require 1
    if next.isEmpty || after.peek == '#' || (!flow && after.column < indent) then
      return (gap ++ word, isBroken, after)
    let (more, broken, after) ← after.plain flow indent next isBroken fuel
    return (gap ++ word ++ more, broken, after)

/-- The characters that a letter behind a backslash stands for. -/
def shortEscapes : List (Char × Char) :=
  [('0', '\x00'), ('a', '\x07'), ('b', '\x08'), ('t', '\t'), ('\t', '\t'), ('n', '\n'), ('v', '\x0B'),
    ('f', '\x0C'), ('r', '\r'), ('e', '\x1B'), (' ', ' '), ('"', '"'), ('\\', '\\'), ('/', '/'),
    ('N', '\u0085'), ('_', '\u00A0'), ('L', '\u2028'), ('P', '\u2029')]

/-- How many hexadecimal digits follow a letter behind a backslash. -/
def longEscapes : List (Char × Nat) := [('x', 2), ('u', 4), ('U', 8)]

/-- The line breaks ahead and the blanks around them, within quotes. -/
def quotedBreaks (k : Cursor) (fuel : Nat) : Except Error (List Char × Cursor) :=
  match fuel with
  | 0 => .ok ([], k)
  | fuel + 1 => do
    if ← k.atDocumentMark then throw .token
    let k := k.skipWhile fun c => c == ' ' || c == '\t'
    match k.lineBreak? with
    | none => return ([], k)
    | some (c, after) =>
      let (breaks, after) ← after.quotedBreaks fuel
      return (c :: breaks, after)

/-- The character of an escape, or the breaks that an escaped line break leaves. -/
def escape (k : Cursor) : Except Error (List Char × Cursor) := do
  k.require 1
  match shortEscapes.lookup k.peek, longEscapes.lookup k.peek with
  | some c, _ => .ok ([c], k.next)
  | none, some width =>
    let isHex (c : Char) : Bool := (Json.hexValue? c).isSome
    let digits := ((k.next.rest.take width).takeWhile isHex).filterMap Json.hexValue?
    if digits.length < width then
      (k.next.advance digits.length).require 1
      throw .token
    else
      let n := digits.foldl (fun n d => 16 * n + d) 0
      if Nat.pow 2 31 ≤ n then .error .escape
      else if 0x110000 ≤ n then .error (.literal "chr() arg not in range(0x110000)")
      else .ok (Text.ofCode n, k.advance (width + 1))
  | none, none =>
    match k.lineBreak? with
    | some (_, after) => after.quotedBreaks (after.size + 1)
    | none => .error .token

/-- The characters of a quoted scalar from within up to behind its closing quote. -/
def quotedBody (k : Cursor) (quote : Char) (fuel : Nat) : Except Error (List Char × Cursor) :=
  match fuel with
  | 0 => .error .token
  | fuel + 1 =>
    let c := k.peek
    if c == quote && quote == '\x27' && k.peekAt 1 == '\x27' then do
      let (chars, after) ← (k.advance 2).quotedBody quote fuel
      return ('\x27' :: chars, after)
    else if c == quote then .ok ([], k.next)
    else if c == '\\' && quote == '"' then do
      let (meant, after) ← k.next.escape
      let (chars, after) ← after.quotedBody quote fuel
      return (meant ++ chars, after)
    else if c == '\x00' then .error .unfinished
    else if isSeparator c then do
      let (blanks, after) := k.takeWhile fun c => c == ' ' || c == '\t'
      if after.peek == '\x00' then .error .unfinished
      else
        match after.lineBreak? with
        | none =>
          let (chars, after) ← after.quotedBody quote fuel
          return (blanks ++ chars, after)
        | some (c, behind) =>
          let (breaks, behind) ← behind.quotedBreaks (behind.size + 1)
          let (chars, after) ← behind.quotedBody quote fuel
          return (folded c breaks ++ chars, after)
    else do
      let (chars, after) ← k.next.quotedBody quote fuel
      return (c :: chars, after)

/-- A quoted scalar, from its opening quote. -/
def quoted (k : Cursor) : Except Error (List Char × Cursor) :=
  k.next.quotedBody k.peek (k.size + 1)

/-- What the end of a block of lines keeps of its line breaks. -/
inductive Chomp where
  | strip
  | clip
  | keep
  deriving DecidableEq, Repr

/-- The rest of a line that may hold a comment only. -/
def ignoredLine (k : Cursor) : Except Error Cursor := do
  let k := k.skipWhile (· == ' ')
  let k := if k.peek == '#' then k.skipWhile (!isLineEnd ·) else k
  k.require 1
  if isLineEnd k.peek then .ok ((k.lineBreak?.map (·.2)).getD k) else .error .token

/-- The marks behind the sign of a block: how its end is kept, and its depth if it is given. -/
def blockHeader (k : Cursor) : Except Error (Chomp × Option Nat × Cursor) := do
  let chompOf? (c : Char) : Option Chomp :=
    if c == '+' then some .keep else if c == '-' then some .strip else none
  let depthOf? (c : Char) : Option Nat := if c.isDigit then some (c.toNat - 48) else none
  let (chomp, depth?, k) :=
    match chompOf? k.peek, depthOf? k.peek with
    | some chomp, _ =>
      match depthOf? (k.peekAt 1) with
      | some depth => (chomp, some depth, k.advance 2)
      | none => (chomp, none, k.next)
    | none, some depth =>
      match chompOf? (k.peekAt 1) with
      | some chomp => (chomp, some depth, k.advance 2)
      | none => (.clip, some depth, k.next)
    | none, none => (.clip, none, k)
  if depth? = some 0 then throw .token
  k.require 1
  if k.peek == ' ' || isLineEnd k.peek then return (chomp, depth?, k)
  else .error .token

/-- The empty lines ahead and the greatest column that their blanks reach. -/
def blockIndentation (k : Cursor) (fuel : Nat) : List Char × Nat × Cursor :=
  match fuel with
  | 0 => ([], 0, k)
  | fuel + 1 =>
    if k.peek == ' ' then
      let (breaks, reached, after) := k.next.blockIndentation fuel
      (breaks, max k.next.column reached, after)
    else
      match k.lineBreak? with
      | none => ([], 0, k)
      | some (c, after) =>
        let (breaks, reached, after) := after.blockIndentation fuel
        (c :: breaks, reached, after)

/-- On over blanks, but not behind a column. -/
def skipIndent (k : Cursor) (indent : Nat) : Cursor :=
  k.advance (min (indent - k.column) (k.rest.takeWhile (· == ' ')).length)

/-- The empty lines ahead of a line at some column. -/
def blockBreaks (k : Cursor) (indent fuel : Nat) : List Char × Cursor :=
  match fuel with
  | 0 => ([], k)
  | fuel + 1 =>
    let k := k.skipIndent indent
    match k.lineBreak? with
    | none => ([], k)
    | some (c, after) =>
      let (breaks, after) := after.blockBreaks indent fuel
      (c :: breaks, after)

/-- The lines of a block, with the last line break and the empty lines behind it. -/
def blockLines (k : Cursor) (isFolded : Bool) (indent : Nat) (breaks : List Char) (fuel : Nat) :
    List Char × List Char × List Char × Cursor :=
  match fuel with
  | 0 => ([], [], breaks, k)
  | fuel + 1 =>
    if k.column ≠ indent || k.peek == '\x00' then ([], [], breaks, k)
    else
      let startsBlank (k : Cursor) : Bool := k.peek == ' ' || k.peek == '\t'
      let (line, after) := k.takeWhile (!isLineEnd ·)
      let (lineBreak, after) :=
        match after.lineBreak? with
        | some (c, behind) => ([c], behind)
        | none => ([], after)
      let (next, after) := after.blockBreaks indent (after.size + 1)
      if after.column ≠ indent || after.peek == '\x00' then (breaks ++ line, lineBreak, next, after)
      else
        let joint :=
          if isFolded && lineBreak == ['\n'] && !startsBlank k && !startsBlank after then
            if next.isEmpty then [' '] else []
          else lineBreak
        let (lines, lineBreak, next, after) := after.blockLines isFolded indent next fuel
        (breaks ++ line ++ joint ++ lines, lineBreak, next, after)

/-- A block of lines, from its sign, in a collection whose column is one before `least`. -/
def block (k : Cursor) (least : Nat) : Except Error (List Char × Cursor) := do
  let isFolded := k.peek == '>'
  let (chomp, depth?, k) ← k.next.blockHeader
  let k ← k.ignoredLine
  let least := max least 1
  let (breaks, indent, k) :=
    match depth? with
    | some depth =>
      let indent := least + depth - 1
      let (breaks, k) := k.blockBreaks indent (k.size + 1)
      (breaks, indent, k)
    | none =>
      let (breaks, reached, k) := k.blockIndentation (k.size + 1)
      (breaks, max least reached, k)
  let (lines, lineBreak, next, k) := k.blockLines isFolded indent breaks (k.size + 1)
  let ending :=
    match chomp with
    | .strip => []
    | .clip => lineBreak
    | .keep => lineBreak ++ next
  return (lines ++ ending, k)

end Gatekeeper.Yaml.Cursor
