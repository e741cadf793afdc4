import Gatekeeper.Cli.Switch
import Gatekeeper.Text.Digit

/-!
# Reading words

The words of a command line are switches and operands. Two dashes end the switches: every word
behind them is an operand. A command line takes one run of operands; other operands and unknown
switches are left over.
-/
namespace Gatekeeper.Cli

/-- What a word is, by its looks. -/
inductive Kind where
  | operand
  | separator
  | unknown
  | mention (m : Mention)
  deriving DecidableEq, Repr

structure Word where
  text : String
  kind : Kind
  deriving DecidableEq, Repr

/-- Whether what follows a dash is a number: digits, of which the last ones may stand behind a
point. A line feed at the end does not count. -/
def isNumber (text : List Char) : Bool :=
  let text := if text.getLast? = some '\n' then text.dropLast else text
  match text.dropWhile Text.isDigit with
  | [] => !text.isEmpty
  | '.' :: fraction => !fraction.isEmpty && fraction.all Text.isDigit
  | _ => false

/-- The kind of a word in front of any separator. A dash with a number behind it and a word with a
space in it can be operands. -/
def Kind.ofText (switches : List Switch) (text : String) : Except Misuse Kind :=
  match text.toList with
  | '-' :: c :: rest =>
    let word := '-' :: c :: rest
    let spelling := String.ofList (word.takeWhile (· != '='))
    match spelled? switches text, spelled? switches spelling with
    | some s, _ => .ok (.mention ⟨s, text, none⟩)
    | none, some s => .ok (.mention ⟨s, spelling, some ((word.dropWhile (· != '=')).drop 1)⟩)
    | none, none =>
      match meanings switches word with
      | [] => .ok (if isNumber (c :: rest) || word.contains ' ' then .operand else .unknown)
      | [m] => .ok (.mention m)
      | ms => .error (.ambiguous text (ms.map Mention.spelling))
  | _ => .ok .operand

def Word.ofTexts (switches : List Switch) : List String → Except Misuse (List Word)
  | [] => .ok []
  | "--" :: rest => .ok (⟨"--", .separator⟩ :: rest.map (⟨·, .operand⟩))
  | text :: rest => do
    return ⟨text, ← Kind.ofText switches text⟩ :: (← Word.ofTexts switches rest)

/-- How many words a run of operands has. The operands of a command are all words from the first
operand on, switches included. -/
inductive Extent where
  | one
  | many
  | command
  deriving DecidableEq, Repr

/-- Where in a command line a word stands: before the run of operands, within it, or behind it. -/
inductive Place where
  | before
  | within
  | behind
  deriving DecidableEq, Repr

/-- What the words of a command line come to, up to the first misuse. -/
structure Reading where
  uses : List Use := []
  operands : List String := []
  leftovers : List String := []
  misuse? : Option Misuse := none
  deriving Repr

namespace Reading

def use (uses : List Use) (r : Reading) : Reading :=
  { r with uses := uses ++ r.uses }

def operand (text : String) (r : Reading) : Reading :=
  { r with operands := text :: r.operands }

def leftover (text : String) (r : Reading) : Reading :=
  { r with leftovers := text :: r.leftovers }

/-- The place behind a word that is no operand. -/
def Place.onward : Place → Place
  | .within => .behind
  | place => place

/-- Read words from a place on. A switch may be waiting for its argument, together with the uses that
come into force with it. -/
def ofWords (switches : List Switch) (extent : Extent) (place : Place)
    (waiting? : Option (List Use × Switch)) : List Word → Reading
  | [] =>
    match waiting? with
    | none => {}
    | some (_, s) => { misuse? := some (.missingArgument s) }
  | word :: rest =>
    match waiting?, word.kind, place, extent with
    | some (uses, s), .operand, _, _ =>
      (ofWords switches extent place none rest).use (uses ++ [⟨s, argumentOf word.text⟩])
    | some (_, s), _, _, _ => { misuse? := some (.missingArgument s) }
    | none, _, .within, .command =>
      (ofWords switches extent .within none rest).operand word.text
    | none, .unknown, _, _ =>
      (ofWords switches extent (Place.onward place) none rest).leftover word.text
    | none, .mention m, _, _ =>
      match m.uses switches with
      | .error misuse => { misuse? := some misuse }
      | .ok (uses, none) =>
        (ofWords switches extent (Place.onward place) none rest).use uses
      | .ok (uses, some s) =>
        ofWords switches extent (Place.onward place) (some (uses, s)) rest
    | none, .operand, .before, _ =>
      (ofWords switches extent .within none rest).operand word.text
    | none, .operand, .within, .many =>
      (ofWords switches extent .within none rest).operand word.text
    | none, .operand, _, _ => (ofWords switches extent .behind none rest).leftover word.text
    | none, .separator, .before, .command =>
      if rest.isEmpty then Reading.leftover word.text {}
      else (ofWords switches extent .within none rest).operand word.text
    | none, .separator, .before, _ => ofWords switches extent .before none rest
    | none, .separator, .within, .many => ofWords switches extent .within none rest
    | none, .separator, .within, _ => ofWords switches extent .behind none rest
    | none, .separator, .behind, _ =>
      (ofWords switches extent .behind none rest).leftover word.text

/-- Read a command line. -/
def ofTexts (switches : List Switch) (extent : Extent) (texts : List String) : Reading :=
  match Word.ofTexts switches texts with
  | .error misuse => { misuse? := some misuse }
  | .ok words => ofWords switches extent .before none words

end Reading

end Gatekeeper.Cli
