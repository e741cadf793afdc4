import Gatekeeper.Yaml.Scalar.Moment

/-!
# Kinds of nodes

What a node of YAML 1.1 is. A tag says it by name; a plain scalar shows it by its form: names of truth
values and of nothing, numbers in several bases, in groups of sixty, or with a point, dates with or
without a time of day, and two signs with a meaning of their own. Every other text is a text.
-/
namespace Gatekeeper.Yaml

inductive Kind where
  | null
  | bool
  | int
  | float
  | moment
  | text
  | binary
  | list
  | map
  | set
  | orderedMap
  | pairs
  /-- The key under which other maps are taken in. -/
  | merge
  /-- The key whose value stands for a map where a scalar is needed. -/
  | default
  | unknown
  deriving DecidableEq, Repr, Inhabited

/-- The start of the names of the standard tags. -/
def standardTags : String := "tag:yaml.org,2002:"

namespace Kind

/-- The kinds with the last parts of their tags. -/
def names : List (Kind × String) :=
  [(null, "null"), (bool, "bool"), (int, "int"), (float, "float"), (moment, "timestamp"),
    (text, "str"), (binary, "binary"), (list, "seq"), (map, "map"), (set, "set"),
    (orderedMap, "omap"), (pairs, "pairs"), (merge, "merge"), (default, "value")]

/-- The kind that a tag names. -/
def ofTag (tag : String) : Kind :=
  ((names.find? fun (_, name) => standardTags ++ name == tag).map (·.1)).getD unknown

/-- Names of truth values. -/
def truthNames : List String :=
  ["yes", "Yes", "YES", "no", "No", "NO", "true", "True", "TRUE", "false", "False", "FALSE", "on",
    "On", "ON", "off", "Off", "OFF"]

def nullNames : List String := ["~", "null", "Null", "NULL"]

/-- The sign at the start of a text, and the rest. -/
def takeSign : List Char → Bool × List Char
  | '-' :: rest => (true, rest)
  | '+' :: rest => (false, rest)
  | rest => (false, rest)

def isDigitOrGap (c : Char) : Bool :=
  c.isDigit || c == '_'

/-- Whether a text has digits of a base or gaps only, and at least one of them. -/
def isWholeIn (base : Nat) (text : List Char) : Bool :=
  !text.isEmpty && text.all fun c => c == '_' || (Json.hexValue? c).any (· < base)

/-- What follows the groups of sixty that start a text: a colon and one digit or two below sixty. -/
def afterSixties : List Char → List Char
  | ':' :: a :: b :: rest =>
    if a.isDigit && a < '6' && b.isDigit then afterSixties rest
    else if a.isDigit then afterSixties (b :: rest)
    else ':' :: a :: b :: rest
  | [':', a] => if a.isDigit then [] else [':', a]
  | rest => rest

def isInt (text : List Char) : Bool :=
  match (takeSign text).2 with
  | ['0'] => true
  | '0' :: 'b' :: digits => isWholeIn 2 digits
  | '0' :: 'x' :: digits => isWholeIn 16 digits
  | '0' :: digits => isWholeIn 8 digits
  | c :: rest => c.isDigit && (afterSixties (rest.dropWhile isDigitOrGap)).isEmpty
  | [] => false

/-- Whether a text is an exponent with its sign, or nothing. -/
def isExponent : List Char → Bool
  | [] => true
  | e :: sign :: digits =>
    (e == 'e' || e == 'E') && (sign == '-' || sign == '+') && !digits.isEmpty &&
      digits.all Char.isDigit
  | _ => false

/-- Whether a text is a number with a point that starts with a digit. -/
def isPointed : List Char → Bool
  | [] => false
  | c :: rest =>
    c.isDigit &&
      match rest.dropWhile isDigitOrGap with
      | '.' :: fraction => isExponent (fraction.dropWhile isDigitOrGap)
      | sixties =>
        match afterSixties sixties with
        | '.' :: fraction => fraction.all isDigitOrGap
        | _ => false

def isFloat (text : List Char) : Bool :=
  let unsigned := (takeSign text).2
  [".inf", ".Inf", ".INF"].contains (String.ofList unsigned) ||
    [".nan", ".NaN", ".NAN"].contains (String.ofList text) ||
    match text with
    | '.' :: c :: rest => c.isDigit && isExponent (rest.dropWhile isDigitOrGap)
    | _ => isPointed unsigned

/-- Whether a text has the form of a moment. Only a date with a time may leave out leading zeros. -/
def isMoment (text : List Char) : Bool :=
  (writtenMoment? text).any fun m => m.clock?.isSome || text.length == 10

/-- The kind of a plain scalar. -/
def ofText (written : List Char) : Kind :=
  let text := withoutLastFeed written
  let s := String.ofList text
  if written.isEmpty || nullNames.contains s then null
  else if truthNames.contains s then bool
  else if isFloat text then float
  else if isInt text then int
  else if s == "<<" then merge
  else if isMoment text then moment
  else if s == "=" then default
  else Kind.text

end Kind

end Gatekeeper.Yaml
