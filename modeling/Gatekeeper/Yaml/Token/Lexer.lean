import Gatekeeper.Yaml.Token.Basic
import Gatekeeper.Yaml.Token.Scalar

/-!
# Reading tokens

A lexer turns characters into tokens one at a time. Two things make it look around: indentation opens
and closes collections, and a token may turn out to be a key only when a colon follows it on the same
line, so tokens wait in a queue while the first of them may still become one.
-/
namespace Gatekeeper.Yaml

/-- A token that becomes a key if a colon follows. -/
structure KeyCandidate where
  /-- The number of the token since the start of the text. -/
  number : Nat
  /-- Whether nothing but a key may stand here. -/
  required : Bool
  index : Nat
  line : Nat
  column : Nat
  deriving Repr

structure Lexer where
  cursor : Cursor
  /-- Tokens that are read but not taken. -/
  queue : List Token := []
  taken : Nat := 0
  /-- How many brackets are open. -/
  flow : Nat := 0
  /-- The column of the innermost block collection, and those of the collections around it. -/
  indent : Int := -1
  outer : List Int := []
  keyAllowed : Bool := true
  /-- The candidate of each bracket depth. -/
  candidates : List (Nat × KeyCandidate) := []
  finished : Bool := false
  /-- What stops reading where the text ends, if that is not the end of the file. -/
  stop? : Option Error := none
  deriving Repr

namespace Lexer

/-- At the start of a text, behind a mark of its byte order. -/
def ofText (text : List Char) (stop? : Option Error) : Lexer :=
  let cursor : Cursor := { rest := text, cut := stop?.isSome }
  { cursor := if cursor.peek == '\uFEFF' then cursor.next else cursor, stop? }

def push (l : Lexer) (t : Token) : Lexer := { l with queue := l.queue ++ [t] }

/-- Over blanks, comments, and line breaks. A line break in a block allows a key. -/
def skipToToken (l : Lexer) (fuel : Nat) : Lexer :=
  match fuel with
  | 0 => l
  | fuel + 1 =>
    let k := l.cursor.skipWhile (· == ' ')
    let k := if k.peek == '#' then k.skipWhile (!isLineEnd ·) else k
    match k.lineBreak? with
    | none => { l with cursor := k }
    | some (_, after) =>
      skipToToken { l with cursor := after, keyAllowed := l.keyAllowed || l.flow == 0 } fuel

/-- Forget the candidates that no colon can reach any more. -/
def dropStale (l : Lexer) : Except Error Lexer :=
  let isStale (c : KeyCandidate) : Bool :=
    c.line != l.cursor.line || 1024 < l.cursor.index - c.index
  if l.candidates.any fun (_, c) => isStale c && c.required then .error .token
  else .ok { l with candidates := l.candidates.filter fun (_, c) => !isStale c }

/-- Forget the candidate of this bracket depth. -/
def dropCandidate (l : Lexer) : Except Error Lexer :=
  if l.candidates.any fun (depth, c) => depth == l.flow && c.required then .error .token
  else .ok { l with candidates := l.candidates.filter (·.1 != l.flow) }

/-- Note that the token to come may be a key. -/
def noteCandidate (l : Lexer) : Except Error Lexer :=
  if l.keyAllowed then do
    let l ← l.dropCandidate
    let candidate : KeyCandidate := {
      number := l.taken + l.queue.length
      required := l.flow == 0 && l.indent == l.cursor.column
      index := l.cursor.index
      line := l.cursor.line
      column := l.cursor.column }
    return { l with candidates := l.candidates ++ [(l.flow, candidate)] }
  else .ok l

/-- Close the block collections that stand behind a column. -/
def closeBlocks (l : Lexer) (column : Int) : Lexer :=
  let rec go (indent : Int) (outer : List Int) (queue : List Token) : Int × List Int × List Token :=
    if column < indent then
      match outer with
      | [] => (-1, [], queue ++ [.blockEnd])
      | next :: outer => go next outer (queue ++ [.blockEnd])
    else (indent, outer, queue)
  if l.flow = 0 then
    let (indent, outer, queue) := go l.indent l.outer l.queue
    { l with indent, outer, queue }
  else l

/-- Open a block collection at a column, if it stands behind the innermost one. -/
def openBlock (l : Lexer) (column : Nat) : Option Lexer :=
  if l.indent < column then some { l with indent := column, outer := l.indent :: l.outer } else none

/-- Put a token at a place of the queue. -/
def insert (l : Lexer) (place : Nat) (t : Token) : Lexer :=
  { l with queue := l.queue.take place ++ t :: l.queue.drop place }

/-- A token of some characters without a meaning of their own. -/
def mark (l : Lexer) (width : Nat) (t : Token) : Lexer :=
  { l with cursor := l.cursor.advance width }.push t

def isNameChar (c : Char) : Bool :=
  c.isAlphanum || c == '-' || c == '_'

/-- A name at the cursor. -/
def takeName (k : Cursor) : Except Error (String × Cursor) := do
  let (name, after) := k.takeWhile isNameChar
  after.require 1
  if name.isEmpty then .error .token else .ok (String.ofList name, after)

/-- A handle of tags: two exclamation marks with a name between them, or one. -/
def takeHandle (k : Cursor) : Except Error (String × Cursor) := do
  k.require 1
  if k.peek != '!' then throw .token
  k.require 2
  if k.peekAt 1 == ' ' then return ("!", k.next)
  let (name, after) := k.next.takeWhile isNameChar
  after.require 1
  if after.peek != '!' then throw .token
  after.require 2
  return ("!" ++ String.ofList name ++ "!", after.next)

/-- The text of some bytes, if they are one. -/
def textOfBytes? (bytes : List UInt8) : Option (List Char) :=
  (Text.Utf8.decode bytes).toOption.map Text.ofCharacters

/-- The text of a tag in which escapes stand for bytes, when some bytes come before it. The bytes of
neighbouring escapes must be a text. -/
def unescape (bytes : List UInt8) : List Char → Option (List Char)
  | '%' :: a :: b :: rest => do
    let byte := 16 * (← Json.hexValue? a) + (← Json.hexValue? b)
    unescape (bytes ++ [byte.toUInt8]) rest
  | '%' :: _ => none
  | [] => textOfBytes? bytes
  | c :: rest => do return (← textOfBytes? bytes) ++ c :: (← unescape [] rest)

/-- The characters of a tag behind its handle. A wrong escape shows before what follows is looked at,
unless it may go on there. -/
def takeSuffix (k : Cursor) : Except Error (String × Cursor) := do
  let isSuffixChar (c : Char) : Bool :=
    c.isAlphanum || "-;/?:@&=+$,_.!~*'()[]%".toList.contains c
  let (written, after) := k.takeWhile isSuffixChar
  let mayGoOn (c : Char) : Bool := c == '%' || (Json.hexValue? c).isSome
  if (unescape [] (written.reverse.dropWhile mayGoOn).reverse).isNone then throw .token
  after.require 1
  match written, unescape [] written with
  | _ :: _, some suffix => .ok (String.ofList suffix, after)
  | _, _ => .error .token

/-- Whether an exclamation mark stands in the word at the cursor, behind its first character. -/
def hasInnerBang (k : Cursor) : Except Error Bool := do
  let behind := k.next.skipWhile fun c => !isLineEnd c && c != ' ' && c != '!'
  behind.require 1
  return behind.peek == '!'

def tag (k : Cursor) : Except Error (Token × Cursor) := do
  k.require 2
  let (handle, suffix, after) ←
    if k.peekAt 1 == '<' then do
      let (suffix, after) ← takeSuffix (k.advance 2)
      if after.peek != '>' then throw .token
      pure (none, suffix, after.next)
    else if isSeparator (k.peekAt 1) then pure (none, "!", k.next)
    else do
      let (handle, after) ← if ← hasInnerBang k then takeHandle k else pure ("!", k.next)
      let (suffix, after) ← takeSuffix after
      pure (some handle, suffix, after)
  after.require 1
  if after.peek == ' ' || isLineEnd after.peek then return (.tag handle suffix, after)
  else .error .token

/-- The name behind the sign of an anchor or an alias. -/
def reference (k : Cursor) (make : String → Token) : Except Error (Token × Cursor) := do
  let (name, after) ← takeName k.next
  if isSeparator after.peek || "?:,]\x7d%@\x60".toList.contains after.peek then
    return (make name, after)
  else .error .token

def takeNumber (k : Cursor) : Except Error (Nat × Cursor) := do
  let (digits, after) := k.takeWhile Char.isDigit
  after.require 1
  if digits.isEmpty then .error .token
  else if Number.digitLimit < digits.length then
    .error (.literal (Number.Whole.tooLongMessage digits.length))
  else .ok (Json.decimalValue digits, after)

def directive (k : Cursor) : Except Error (Token × Cursor) := do
  let (name, k) ← takeName k.next
  if k.peek != ' ' && !isLineEnd k.peek then .error .token
  let (d, k) ←
    match name with
    | "YAML" => do
      let (major, k) ← takeNumber (k.skipWhile (· == ' '))
      if k.peek != '.' then .error .token
      let (_, k) ← takeNumber k.next
      if k.peek == ' ' || isLineEnd k.peek then pure (Directive.version major, k) else .error .token
    | "TAG" => do
      let (handle, k) ← takeHandle (k.skipWhile (· == ' '))
      if k.peek != ' ' then .error .token
      let (start, k) ← takeSuffix (k.skipWhile (· == ' '))
      if k.peek == ' ' || isLineEnd k.peek then pure (Directive.handle handle start, k)
      else .error .token
    | _ => pure (Directive.other, k.skipWhile (!isLineEnd ·))
  return (.directive d, ← k.ignoredLine)

/-- A token that is read as a whole and may be a key. -/
def whole (l : Lexer) (read : Cursor → Except Error (Token × Cursor)) : Except Error Lexer := do
  let l ← l.noteCandidate
  let (t, cursor) ← read l.cursor
  return { l with cursor, keyAllowed := false }.push t

/-- A token that stands outside all block collections. -/
def outside (l : Lexer) : Except Error Lexer := do
  let l ← (l.closeBlocks (-1)).dropCandidate
  return { l with keyAllowed := false }

def opening (l : Lexer) (t : Token) : Except Error Lexer := do
  let l ← l.noteCandidate
  return { l with flow := l.flow + 1, keyAllowed := true }.mark 1 t

def closing (l : Lexer) (t : Token) : Except Error Lexer := do
  let l ← l.dropCandidate
  return { l with flow := l.flow - 1, keyAllowed := false }.mark 1 t

/-- A dash or a question mark, which in a block may open a collection. -/
def entryMark (l : Lexer) (start t : Token) (allowsKey : Bool) : Except Error Lexer := do
  let l ←
    if l.flow = 0 then
      if l.keyAllowed then
        pure ((l.openBlock l.cursor.column).map (·.push start) |>.getD l)
      else .error .token
    else pure l
  let l ← { l with keyAllowed := allowsKey }.dropCandidate
  return l.mark 1 t

/-- A colon: what came before it becomes a key, or it belongs to a key that was marked as one. -/
def colon (l : Lexer) : Except Error Lexer := do
  match l.candidates.lookup l.flow with
  | some candidate =>
    let l := { l with candidates := l.candidates.filter (·.1 != l.flow) }
    let place := candidate.number - l.taken
    let l := l.insert place .key
    let l :=
      if l.flow = 0 then
        (l.openBlock candidate.column).map (·.insert place .blockMappingStart) |>.getD l
      else l
    return { l with keyAllowed := false }.mark 1 .value
  | none =>
    let l ←
      if l.flow = 0 then
        if l.keyAllowed then
          pure ((l.openBlock l.cursor.column).map (·.push .blockMappingStart) |>.getD l)
        else .error .token
      else pure l
    let l ← { l with keyAllowed := l.flow == 0 }.dropCandidate
    return l.mark 1 .value

/-- Whether a plain scalar may start here. -/
def startsPlain (l : Lexer) : Bool :=
  let c := l.cursor.peek
  let next := l.cursor.peekAt 1
  !(isSeparator c || "-?:,[]\x7b\x7d#&*!|>'\"%@\x60".toList.contains c) ||
    (!isSeparator next && (c == '-' || (l.flow == 0 && (c == '?' || c == ':'))))

def plainScalar (l : Lexer) : Except Error Lexer := do
  let l ← l.noteCandidate
  let fuel := l.cursor.size + 1
  let (text, broken, cursor) ← l.cursor.plain (l.flow != 0) (l.indent + 1).toNat [] false fuel
  return { l with cursor, keyAllowed := broken }.push (.scalar text true)

def blockScalar (l : Lexer) : Except Error Lexer := do
  let l ← { l with keyAllowed := true }.dropCandidate
  let (text, cursor) ← l.cursor.block (l.indent + 1).toNat
  return { l with cursor }.push (.scalar text false)

/-- How many characters tell what a mark of blocks is. -/
def lookahead (flow : Nat) (c : Char) : Nat :=
  if flow = 0 ∧ (c = '|' ∨ c = '>') ∨ flow ≠ 0 ∧ (c = '?' ∨ c = ':') then 1 else 2

/-- Read the token at the cursor, with those that indentation puts before it. -/
def fetchHere (l : Lexer) : Except Error Lexer := do
  let l ← l.dropStale
  let l := l.closeBlocks l.cursor.column
  let c := l.cursor.peek
  let next := l.cursor.peekAt 1
  let isMark ←
    if l.cursor.column == 0 && (c == '-' || c == '.') then l.cursor.atDocumentMark else pure false
  if c == '\x00' then
    let l ← l.outside
    return { l with candidates := [], finished := true }.push .streamEnd
  else if c == '%' && l.cursor.column == 0 then
    let l ← l.outside
    let (t, cursor) ← directive l.cursor
    return { l with cursor }.push t
  else if isMark then
    let l ← l.outside
    return l.mark 3 (if c == '-' then .documentStart else .documentEnd)
  else
    match c with
    | '[' => l.opening .flowSequenceStart
    | '\x7b' => l.opening .flowMappingStart
    | ']' => l.closing .flowSequenceEnd
    | '\x7d' => l.closing .flowMappingEnd
    | ',' => do
      let l ← { l with keyAllowed := true }.dropCandidate
      return l.mark 1 .flowEntry
    | '*' => l.whole (reference · .alias)
    | '&' => l.whole (reference · .anchor)
    | '!' => l.whole tag
    | '\x27' | '"' => l.whole fun k => do
      let (text, after) ← k.quoted
      return (.scalar text false, after)
    | _ =>
      if "-?:|>@%\x60\t".toList.contains c then l.cursor.require (lookahead l.flow c)
      if c == '-' && isSeparator next then l.entryMark .blockSequenceStart .blockEntry true
      else if c == '?' && (l.flow != 0 || isSeparator next) then
        l.entryMark .blockMappingStart .key (l.flow == 0)
      else if c == ':' && (l.flow != 0 || isSeparator next) then l.colon
      else if (c == '|' || c == '>') && l.flow == 0 then l.blockScalar
      else if l.startsPlain then l.plainScalar
      else .error .token

/-- Read the next token. What would be looked for behind a cut is never found. -/
def fetch (l : Lexer) : Except Error Lexer :=
  let fetched : Except Error Lexer := do
    let l := l.skipToToken (l.cursor.size + 1)
    l.cursor.require 1
    let l ← l.fetchHere
    l.cursor.require 1
    return l
  fetched.mapError fun e => if e = .unfinished then l.stop?.getD e else e

/-- Read on until the first token of the queue is certain. -/
def ready (l : Lexer) (fuel : Nat) : Except Error Lexer :=
  match fuel with
  | 0 => .ok l
  | fuel + 1 =>
    if l.finished then .ok l
    else if l.queue.isEmpty then do (← l.fetch).ready fuel
    else do
      let l ← l.dropStale
      if l.candidates.any (·.2.number == l.taken) then (← l.fetch).ready fuel else return l

/-- The next token, which stays in the queue. -/
def peek (l : Lexer) : Except Error (Token × Lexer) := do
  let l ← l.ready (l.cursor.size + 2)
  return (l.queue.headD .streamEnd, l)

/-- The lexer behind the next token. -/
def drop (l : Lexer) : Lexer :=
  { l with queue := l.queue.drop 1, taken := l.taken + 1 }

end Lexer

end Gatekeeper.Yaml
