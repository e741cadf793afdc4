/-!
# Blank characters

The characters that separate the words of an expression, and the normal form of a text: its words
with one space between them. The parser reads normal forms only, so the layout of an expression
never decides what it means.
-/
namespace Gatekeeper.Text

/-- First and last code point of each run of blank characters. -/
def blankRanges : List (Nat × Nat) :=
  [(0x09, 0x0D), (0x1C, 0x20), (0x85, 0x85), (0xA0, 0xA0), (0x1680, 0x1680), (0x2000, 0x200A),
    (0x2028, 0x2029), (0x202F, 0x202F), (0x205F, 0x205F), (0x3000, 0x3000)]

def isBlank (c : Char) : Bool :=
  blankRanges.any fun r => r.1 ≤ c.toNat && c.toNat ≤ r.2

def trimStart (text : List Char) : List Char :=
  text.dropWhile isBlank

def trimEnd (text : List Char) : List Char :=
  (trimStart text.reverse).reverse

/-- The text without the blanks at its two ends. -/
def trim (text : List Char) : List Char :=
  trimEnd (trimStart text)

/-- The maximal runs of characters that are not blank. -/
def words (text : List Char) : List (List Char) :=
  (text.splitOnP isBlank).filter (!·.isEmpty)

/-- The words of a text with one space between neighbours. -/
def normalize (text : List Char) : List Char :=
  [' '].intercalate (words text)

/-- `normalize` on strings. -/
def normalizeString (text : String) : String :=
  String.ofList (normalize text.toList)

/-- `trim` on strings. -/
def trimString (text : String) : String :=
  String.ofList (trim text.toList)

@[simp] theorem isBlank_space : isBlank ' ' = true := by decide

@[simp] theorem words_nil : words [] = [] := by
  simp [words, List.splitOnP_nil]

@[simp] theorem normalize_nil : normalize [] = [] := by
  simp [normalize]

/-- A blank ends one word and starts the next. -/
theorem words_append_blank {c : Char} (h : isBlank c = true) (front back : List Char) :
    words (front ++ c :: back) = words front ++ words back := by
  unfold words
  rw [List.splitOnP_append_cons front back h, List.filter_append]

end Gatekeeper.Text
