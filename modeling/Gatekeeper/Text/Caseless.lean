/-!
# Words in any letter case

Keywords are written in lower case and read in any case. Besides its own upper case, `i` also
answers to the dotted capital and the dotless small letter, and `s` to the long s.
-/
namespace Gatekeeper.Text

/-- Whether a character is some form of the lower-case letter `letter`. -/
def isFormOf (letter c : Char) : Bool :=
  c == letter || c == letter.toUpper ||
    (letter == 'i' && (c == '\u0130' || c == '\u0131')) || (letter == 's' && c == '\u017F')

/-- What follows a word at the start of a text, or `none` if the text does not start with it. -/
def afterWord? : List Char → List Char → Option (List Char)
  | [], text => some text
  | _ :: _, [] => none
  | letter :: letters, c :: text => if isFormOf letter c then afterWord? letters text else none

@[simp] theorem afterWord?_nil (text : List Char) : afterWord? [] text = some text := by
  cases text <;> rfl

/-- The first of some words that starts the text, with what follows it. -/
def afterAnyWord? (words : List String) (text : List Char) : Option (String × List Char) :=
  words.findSome? fun word => (afterWord? word.toList text).map (word, ·)

end Gatekeeper.Text
