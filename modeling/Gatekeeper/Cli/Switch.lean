import Gatekeeper.Value.Basic

/-!
# Switches

The options of the command line, and the words they are recognised by. A word may spell a switch in
full or cut a long spelling short, may carry its argument behind an equals sign or, behind a short
spelling, directly, and may join several short switches.
-/
namespace Gatekeeper.Cli

inductive Switch where
  | help
  | verbose
  | maxDepth
  | permission
  | assignment
  | noAttributes
  | name
  | gate
  deriving DecidableEq, Repr

namespace Switch

def spellings : Switch → List String
  | help => ["-h", "--help"]
  | verbose => ["-v", "--verbose"]
  | maxDepth => ["--max-depth"]
  | permission => ["-p", "--permission"]
  | assignment => ["-a", "--attribute"]
  | noAttributes => ["--no-attributes"]
  | name => ["--name"]
  | gate => ["--gate"]

def takesArgument : Switch → Bool
  | help | verbose | noAttributes => false
  | _ => true

/-- All spellings of a switch. -/
def title (s : Switch) : String :=
  "/".intercalate s.spellings

end Switch

/-- How a word names a switch: the spelling meant, and what is attached to it. -/
structure Mention where
  switch : Switch
  spelling : String
  attached? : Option (List Char)
  deriving DecidableEq, Repr

/-- A switch in force, with its argument or null. -/
structure Use where
  switch : Switch
  argument : Value
  deriving Repr

/-- What is wrong with a command line. -/
inductive Misuse where
  | ambiguous (word : String) (meant : List String)
  | missingArgument (switch : Switch)
  | ignoredArgument (switch : Switch) (argument : String)
  | notWhole (switch : Switch) (argument : String)
  | missingOperand (name : String)
  | unknownCommand (name : String) (known : List String)
  | leftovers (words : List String)
  deriving DecidableEq, Repr

/-- The switch with some spelling among those on offer. -/
def spelled? (switches : List Switch) (spelling : String) : Option Switch :=
  switches.find? (·.spellings.contains spelling)

/-- The switches that a word without an exact spelling may mean. -/
def meanings (switches : List Switch) (word : List Char) : List Mention :=
  match word with
  | '-' :: '-' :: _ =>
    let short := word.takeWhile (· != '=')
    let attached? := match word.dropWhile (· != '=') with
      | [] => none
      | _ :: argument => some argument
    switches.flatMap fun s =>
      (s.spellings.filter fun spelling => short.isPrefixOf spelling.toList).map
        (⟨s, ·, attached?⟩)
  | _ =>
    let spelling := String.ofList (word.take 2)
    ((spelled? switches spelling).map (⟨·, spelling, some (word.drop 2)⟩)).toList

/-- The argument that a text gives. Two dashes give the empty list. -/
def argumentOf (text : String) : Value :=
  if text = "--" then .list [] else .text text

/-- The switches joined in a word, the first of them with what follows it in the word, and the switch
that is left waiting for an argument. -/
def joined (switches : List Switch) (s : Switch) :
    List Char → Except Misuse (List Use × Option Switch)
  | [] => .ok (if s.takesArgument then ([], some s) else ([⟨s, .null⟩], none))
  | c :: rest =>
    if s.takesArgument then .ok ([⟨s, argumentOf (String.ofList (c :: rest))⟩], none)
    else
      match spelled? switches (String.ofList ['-', c]) with
      | none => .error (.ignoredArgument s (String.ofList (c :: rest)))
      | some next =>
        (joined switches next rest).map fun (uses, waiting?) => (⟨s, .null⟩ :: uses, waiting?)

/-- The uses that a mention stands for, and the switch that is left waiting for an argument. -/
def Mention.uses (switches : List Switch) (m : Mention) :
    Except Misuse (List Use × Option Switch) :=
  match m.attached? with
  | none => joined switches m.switch []
  | some attached =>
    if m.switch.takesArgument then
      .ok ([⟨m.switch, argumentOf (String.ofList attached)⟩], none)
    else if attached.isEmpty || m.spelling.length ≠ 2 then
      .error (.ignoredArgument m.switch (String.ofList attached))
    else joined switches m.switch attached

end Gatekeeper.Cli
