import Gatekeeper.Operator
import Gatekeeper.Proofs.Keyword

/-!
# Numerals

Which texts are numerals, as a grammar that says nothing of how they are read, and that the reader
takes just these for numerals. All of them are converted but the names of infinity that are spelled
with a dotted capital or a dotless small i, so a comparison fails where such a name is one of its
sides, and nowhere else.
-/
namespace Gatekeeper

namespace Number

open Text Numeral

/-! ## The grammar -/

def IsSign (text : List Char) : Prop :=
  text = [] ∨ text = ['+'] ∨ text = ['-']

/-- Digits of any script. -/
def AreDigits (text : List Char) : Prop :=
  ∀ c ∈ text, isDigit c = true

/-- Digits with a point at any place among them, or with none. -/
inductive Mantissa : List Char → Prop where
  | whole {digits : List Char} (h : AreDigits digits) (ne : digits ≠ []) : Mantissa digits
  | pointed {digits fraction : List Char} (h : AreDigits digits) (hf : AreDigits fraction)
      (ne : digits ++ fraction ≠ []) : Mantissa (digits ++ '.' :: fraction)

inductive Exponent : List Char → Prop where
  | none : Exponent []
  | some {letter : Char} {sign digits : List Char} (hl : letter = 'e' ∨ letter = 'E')
      (hs : IsSign sign) (h : AreDigits digits) (ne : digits ≠ []) :
      Exponent (letter :: (sign ++ digits))

/-- The words that are numerals. -/
def names : List String :=
  ["nan", "inf", "infinity"]

/-- A numeral without its sign. -/
inductive Unsigned : List Char → Prop where
  | named {word : String} {name : List Char} (hw : word ∈ names) (h : Spells word name) :
      Unsigned name
  | decimal {mantissa exponent : List Char} (hm : Mantissa mantissa) (he : Exponent exponent) :
      Unsigned (mantissa ++ exponent)

def IsNumeral (text : List Char) : Prop :=
  ∃ sign body, IsSign sign ∧ Unsigned body ∧ text = sign ++ body

/-- A name of infinity with a letter that is no plain i. -/
def IsStrange (name : List Char) : Prop :=
  (Spells "inf" name ∨ Spells "infinity" name) ∧ ('\u0130' ∈ name ∨ '\u0131' ∈ name)

/-- A numeral, with or without a sign, that no number goes by. -/
def IsMisnamed (text : List Char) : Prop :=
  ∃ sign name, IsSign sign ∧ IsStrange name ∧ text = sign ++ name

theorem exists_name_of_infinite {name : List Char}
    (h : Spells "inf" name ∨ Spells "infinity" name) : ∃ word ∈ names, Spells word name := by
  rcases h with spelled | spelled
  · exact ⟨"inf", by decide, spelled⟩
  · exact ⟨"infinity", by decide, spelled⟩

theorem IsStrange.unsigned {name : List Char} (h : IsStrange name) : Unsigned name := by
  obtain ⟨word, hw, spelled⟩ := exists_name_of_infinite h.1
  exact .named hw spelled

theorem IsMisnamed.isNumeral {text : List Char} (h : IsMisnamed text) : IsNumeral text := by
  obtain ⟨sign, name, hs, strange, rfl⟩ := h
  exact ⟨sign, name, hs, strange.unsigned, rfl⟩

/-! ## Signs -/

theorem exists_takeSign (text : List Char) :
    ∃ sign, IsSign sign ∧ text = sign ++ (takeSign text).2 := by
  rw [takeSign.eq_def]
  split
  · exact ⟨['-'], .inr (.inr rfl), rfl⟩
  · exact ⟨['+'], .inr (.inl rfl), rfl⟩
  · exact ⟨[], .inl rfl, rfl⟩

/-- What a sign stands before does not start with a second one. -/
theorem takeSign_append {sign body : List Char} (hs : IsSign sign)
    (first : ∀ c ∈ body.head?, c ≠ '+' ∧ c ≠ '-') :
    takeSign (sign ++ body) = (decide (sign = ['-']), body) := by
  rcases hs with rfl | rfl | rfl
  · rw [List.nil_append, takeSign.eq_def]
    split
    · exact absurd rfl (first _ rfl).2
    · exact absurd rfl (first _ rfl).1
    · rfl
  · rfl
  · rfl

theorem Mantissa.first {text : List Char} (h : Mantissa text) :
    ∃ c rest, text = c :: rest ∧ (isDigit c = true ∨ c = '.') := by
  cases h with
  | whole h ne =>
    obtain ⟨c, rest, rfl⟩ := List.exists_cons_of_ne_nil ne
    exact ⟨c, rest, rfl, .inl (h c (List.mem_cons_self ..))⟩
  | @pointed digits fraction h _ _ =>
    cases digits with
    | nil => exact ⟨'.', fraction, rfl, .inr rfl⟩
    | cons c digits => exact ⟨c, digits ++ '.' :: fraction, rfl, .inl (h c (List.mem_cons_self ..))⟩

/-! ## Names -/

/-- What is said of all forms of the letters of the names is said of the characters that spell one. -/
theorem forall_name {p : Char → Bool}
    (each : names.all fun word => word.toList.all fun letter => (forms letter).all p)
    {word : String} {name : List Char} (hw : word ∈ names) (h : Spells word name) {c : Char}
    (hc : c ∈ name) : p c = true := by
  obtain ⟨letter, hl, hf⟩ := exists_form_of_mem h hc
  simp only [List.all_eq_true] at each
  exact each word hw letter hl c ((mem_forms_iff letter c).2 hf)

/-- The characters that spell a name are no signs, and only two of them are not ASCII. -/
theorem name_character {word : String} {name : List Char} (hw : word ∈ names)
    (h : Spells word name) {c : Char} (hc : c ∈ name) :
    c ≠ '+' ∧ c ≠ '-' ∧ (c.toNat < 128 ↔ c ≠ '\u0130' ∧ c ≠ '\u0131') := by
  have each : names.all fun word => word.toList.all fun letter => (forms letter).all fun c =>
      c != '+' && c != '-' && decide (c.toNat < 128) == (c != '\u0130' && c != '\u0131') := by
    decide +kernel
  have character := forall_name each hw h hc
  rw [Bool.and_eq_true, Bool.and_eq_true] at character
  obtain ⟨⟨plus, minus⟩, ascii⟩ := character
  rw [beq_iff_eq, Bool.eq_iff_iff] at ascii
  exact ⟨by simpa using plus, by simpa using minus, by simpa using ascii⟩

/-- They do not start a decimal number either. -/
theorem name_not_decimal {word : String} {name : List Char} (hw : word ∈ names)
    (h : Spells word name) {c : Char} (hc : c ∈ name) : ¬(isDigit c = true ∨ c = '.') := by
  have each : names.all fun word => word.toList.all fun letter => (forms letter).all fun c =>
      !(isDigit c || c == '.') := by
    decide +kernel
  simpa using forall_name each hw h hc

theorem isWord_iff (word : String) (text : List Char) : isWord word text = true ↔ Spells word text := by
  rw [isWord, beq_iff_eq, afterWord?_eq_some_iff]
  simp [Spells]

theorem not_spells_nan {name : List Char} (h : Spells "nan" name) :
    ¬Spells "inf" name ∧ ¬Spells "infinity" name := by
  have apart {word : List Char} (h' : List.Forall₂ (fun letter c => isFormOf letter c = true)
      ('i' :: word) name) : False := by
    obtain ⟨c, rest, hn, -, rfl⟩ := List.forall₂_cons_left_iff.1 h
    obtain ⟨hi, -⟩ := List.forall₂_cons.1 h'
    exact absurd (isFormOf_inj (by decide) (by decide) hn hi) (by decide)
  exact ⟨apart, apart⟩

theorem all_ascii_iff {name : List Char} (h : Spells "inf" name ∨ Spells "infinity" name) :
    name.all (·.toNat < 128) = true ↔ ¬IsStrange name := by
  obtain ⟨word, hw, spelled⟩ := exists_name_of_infinite h
  rw [IsStrange, and_iff_right h, not_or, List.all_eq_true]
  simp only [decide_eq_true_eq]
  constructor
  · intro ascii
    refine ⟨fun hc => ?_, fun hc => ?_⟩
    · exact absurd (ascii _ hc) (by decide)
    · exact absurd (ascii _ hc) (by decide)
  · rintro ⟨dotted, dotless⟩ c hc
    refine (name_character hw spelled hc).2.2.2 ⟨?_, ?_⟩
    · rintro rfl
      exact dotted hc
    · rintro rfl
      exact dotless hc

/-- A name is read as the number it names, unless it is a strange one. -/
theorem named?_cases (negative : Bool) (text : List Char) :
    ((∀ word ∈ names, ¬Spells word text) ∧ named? negative text = none) ∨
      (IsStrange text ∧ named? negative text = some (.unreadable text)) ∨
      (¬IsStrange text ∧ (∃ word ∈ names, Spells word text) ∧
        (named? negative text = some .nan ∨ named? negative text = some (.infinity negative))) := by
  rw [named?]
  split
  · next nan =>
    rw [isWord_iff] at nan
    have other := not_spells_nan nan
    exact .inr (.inr ⟨fun strange => strange.1.elim other.1 other.2, ⟨"nan", by decide, nan⟩, .inl rfl⟩)
  · next nan =>
    rw [isWord_iff] at nan
    split
    · next infinite =>
      rw [Bool.or_eq_true, isWord_iff, isWord_iff] at infinite
      have named := exists_name_of_infinite infinite
      split
      · next ascii => exact .inr (.inr ⟨(all_ascii_iff infinite).1 ascii, named, .inr rfl⟩)
      · next ascii =>
        rw [all_ascii_iff infinite, not_not] at ascii
        exact .inr (.inl ⟨ascii, rfl⟩)
    · next infinite =>
      rw [Bool.or_eq_true, isWord_iff, isWord_iff, not_or] at infinite
      refine .inl ⟨?_, rfl⟩
      simp [names, nan, infinite]

/-! ## Decimal numbers -/

theorem Exponent.first {text : List Char} (h : Exponent text) :
    ∀ c ∈ text.head?, isDigit c = false ∧ c ≠ '.' := by
  cases h with
  | none => exact fun c hc => nomatch hc
  | some hl _ _ _ =>
    intro c hc
    obtain rfl := Option.some.inj hc
    rcases hl with rfl | rfl <;> decide

theorem AreDigits.first {digits : List Char} (h : AreDigits digits) :
    ∀ c ∈ digits.head?, c ≠ '+' ∧ c ≠ '-' := by
  intro c hc
  have digit := h c (List.mem_of_mem_head? hc)
  constructor
  all_goals
    rintro rfl
    exact absurd digit (by decide)

theorem exponent?_isSome_iff (text : List Char) : (exponent? text).isSome = true ↔ Exponent text := by
  cases text with
  | nil => exact ⟨fun _ => .none, fun _ => rfl⟩
  | cons letter rest =>
    have digits_iff : (exponent? (letter :: rest)).isSome = true ↔
        (letter = 'e' ∨ letter = 'E') ∧ (takeSign rest).2 ≠ [] ∧ AreDigits (takeSign rest).2 := by
      rw [exponent?]
      by_cases hl : letter = 'e' ∨ letter = 'E'
      · simp [hl, AreDigits]
      · simp [hl]
    rw [digits_iff]
    constructor
    · rintro ⟨hl, ne, h⟩
      obtain ⟨sign, hs, he⟩ := exists_takeSign rest
      rw [he]
      exact .some hl hs h ne
    · intro h
      cases h with
      | some hl hs h ne =>
        rw [takeSign_append hs h.first]
        exact ⟨hl, ne, h⟩

theorem exists_parts_of_decimal? {negative : Bool} {text : List Char}
    (h : (decimal? negative text).isSome = true) :
    ∃ mantissa exponent, Mantissa mantissa ∧ Exponent exponent ∧ text = mantissa ++ exponent := by
  have digits {rest : List Char} : AreDigits (rest.takeWhile isDigit) :=
    fun c hc => List.mem_takeWhile_imp hc
  have parts := (List.takeWhile_append_dropWhile (p := isDigit) (l := text)).symm
  rw [decimal?] at h
  dsimp only at h
  split at h
  · next afterPoint he =>
    dsimp only at h
    split at h
    · cases h
    · next ne =>
      rw [Option.isSome_map, exponent?_isSome_iff] at h
      refine ⟨_, _, .pointed digits digits (by simpa using ne), h, ?_⟩
      rw [List.append_assoc, List.cons_append, List.takeWhile_append_dropWhile, ← he, ← parts]
  · dsimp only at h
    split at h
    · cases h
    · next ne =>
      rw [Option.isSome_map, exponent?_isSome_iff] at h
      exact ⟨_, _, .whole digits (by simpa using ne), h, parts⟩

theorem decimal?_whole {digits exponent : List Char} (h : AreDigits digits) (ne : digits ≠ [])
    (he : Exponent exponent) (negative : Bool) :
    decimal? negative (digits ++ exponent) = (exponent? exponent).map (decimal negative digits []) := by
  obtain ⟨taken, left⟩ := span_append h fun c hc => (he.first c hc).1
  have unpointed : ∀ rest, exponent ≠ '.' :: rest := by
    rintro rest rfl
    exact (he.first '.' rfl).2 rfl
  rw [decimal?, taken, left]
  dsimp only
  split
  · next afterPoint => exact absurd rfl (unpointed afterPoint)
  · rw [if_neg (by simpa using ne)]

theorem decimal?_pointed {digits fraction exponent : List Char} (h : AreDigits digits)
    (hf : AreDigits fraction) (ne : digits ++ fraction ≠ []) (he : Exponent exponent)
    (negative : Bool) :
    decimal? negative (digits ++ '.' :: fraction ++ exponent) =
      (exponent? exponent).map (decimal negative digits fraction) := by
  have point : ∀ c ∈ ('.' :: (fraction ++ exponent)).head?, isDigit c = false := by
    rintro c ⟨⟩
    decide
  rw [List.append_assoc, List.cons_append, decimal?]
  obtain ⟨taken, left⟩ := span_append h point
  obtain ⟨taken', left'⟩ := span_append hf fun c hc => (he.first c hc).1
  simp only [taken, left, taken', left']
  rw [if_neg (by simpa using ne)]

theorem decimal?_append {mantissa exponent : List Char} (hm : Mantissa mantissa)
    (he : Exponent exponent) (negative : Bool) :
    (decimal? negative (mantissa ++ exponent)).isSome = true := by
  have read := (exponent?_isSome_iff exponent).2 he
  cases hm with
  | whole h ne => rwa [decimal?_whole h ne he, Option.isSome_map]
  | pointed h hf ne => rwa [decimal?_pointed h hf ne he, Option.isSome_map]

/-- The reader takes digits up to a point, digits behind it, and what is left as an exponent. -/
theorem decimal?_isSome_iff (negative : Bool) (text : List Char) :
    (decimal? negative text).isSome = true ↔
      ∃ mantissa exponent, Mantissa mantissa ∧ Exponent exponent ∧ text = mantissa ++ exponent := by
  refine ⟨exists_parts_of_decimal?, ?_⟩
  rintro ⟨mantissa, exponent, hm, he, rfl⟩
  exact decimal?_append hm he negative

/-! ## Reading -/

theorem Unsigned.first {body : List Char} (h : Unsigned body) :
    ∀ c ∈ body.head?, c ≠ '+' ∧ c ≠ '-' := by
  cases h with
  | named hw h =>
    intro c hc
    have character := name_character hw h (List.mem_of_mem_head? hc)
    exact ⟨character.1, character.2.1⟩
  | decimal hm _ =>
    obtain ⟨c, rest, rfl, first⟩ := hm.first
    rintro d ⟨⟩
    constructor
    all_goals
      rintro rfl
      exact absurd first (by decide)

theorem isNumeral_iff (text : List Char) : IsNumeral text ↔ Unsigned (takeSign text).2 := by
  constructor
  · rintro ⟨sign, body, hs, h, rfl⟩
    rwa [takeSign_append hs h.first]
  · intro h
    obtain ⟨sign, hs, he⟩ := exists_takeSign text
    exact ⟨sign, _, hs, h, he⟩

theorem isMisnamed_iff (text : List Char) : IsMisnamed text ↔ IsStrange (takeSign text).2 := by
  constructor
  · rintro ⟨sign, name, hs, h, rfl⟩
    rwa [takeSign_append hs h.unsigned.first]
  · intro h
    obtain ⟨sign, hs, he⟩ := exists_takeSign text
    exact ⟨sign, _, hs, h, he⟩

theorem exists_of_decimal? {negative : Bool} {text : List Char} {numeral : Numeral}
    (h : decimal? negative text = some numeral) :
    ∃ whole fraction exponent, numeral = .decimal negative whole fraction exponent := by
  rw [decimal?] at h
  dsimp only at h
  split at h <;> dsimp only at h
  all_goals
    split at h
    · cases h
    · obtain ⟨exponent, -, rfl⟩ := Option.map_eq_some_iff.1 h
      exact ⟨_, _, _, rfl⟩

theorem exists_value_of_decimal? {negative : Bool} {text : List Char} {numeral : Numeral}
    (h : decimal? negative text = some numeral) : ∃ x, numeral.value = .ok x := by
  obtain ⟨whole, fraction, exponent, rfl⟩ := exists_of_decimal? h
  exact ⟨_, rfl⟩

/-- A text is no numeral, or one that no number goes by, or it is read as a numeral with a value. -/
theorem ofText?_cases (text : List Char) :
    (¬IsNumeral text ∧ ofText? text = none) ∨
      (IsMisnamed text ∧ ofText? text = some (.unreadable text)) ∨
      (IsNumeral text ∧ ¬IsMisnamed text ∧
        ∃ numeral x, ofText? text = some numeral ∧ numeral.value = .ok x) := by
  rw [isNumeral_iff, isMisnamed_iff, ofText?]
  generalize takeSign text = taken
  obtain ⟨negative, body⟩ := taken
  dsimp only
  rcases named?_cases negative body with ⟨unnamed, hn⟩ | ⟨strange, hn⟩ |
    ⟨plain, ⟨word, hw, spelled⟩, hn⟩
  · have notStrange : ¬IsStrange body := by
      intro strange
      obtain ⟨word, hw, spelled⟩ := exists_name_of_infinite strange.1
      exact unnamed word hw spelled
    rw [hn]
    cases hd : decimal? negative body with
    | none =>
      refine .inl ⟨fun h => ?_, rfl⟩
      cases h with
      | named hw h => exact unnamed _ hw h
      | decimal hm he =>
        have read := (decimal?_isSome_iff negative _).2 ⟨_, _, hm, he, rfl⟩
        rw [hd] at read
        cases read
    | some numeral =>
      obtain ⟨x, hx⟩ := exists_value_of_decimal? hd
      obtain ⟨mantissa, exponent, hm, he, rfl⟩ :=
        (decimal?_isSome_iff negative body).1 (by rw [hd]; rfl)
      exact .inr (.inr ⟨.decimal hm he, notStrange, numeral, x, rfl, hx⟩)
  · rw [hn]
    exact .inr (.inl ⟨strange, rfl⟩)
  · refine .inr (.inr ⟨.named hw spelled, plain, ?_⟩)
    rcases hn with hn | hn
    · rw [hn]
      exact ⟨_, _, rfl, rfl⟩
    · rw [hn]
      exact ⟨_, _, rfl, rfl⟩

/-- A text gives no number, or cannot be converted, or gives the number that it is a numeral of. -/
theorem number?_cases (text : String) :
    (¬IsNumeral (trim text.toList) ∧ number? text = .ok none) ∨
      (IsMisnamed (trim text.toList) ∧ number? text = .error (trimString text)) ∨
      (IsNumeral (trim text.toList) ∧ ¬IsMisnamed (trim text.toList) ∧
        ∃ x, number? text = .ok (some x)) := by
  rw [number?]
  rcases ofText?_cases (trim text.toList) with ⟨other, h⟩ | ⟨misnamed, h⟩ |
    ⟨numeral, named, n, x, h, hx⟩
  · rw [h]
    exact .inl ⟨other, rfl⟩
  · rw [h]
    exact .inr (.inl ⟨misnamed, rfl⟩)
  · rw [h]
    simp only [hx]
    exact .inr (.inr ⟨numeral, named, x, rfl⟩)

theorem number?_error_iff (text x : String) :
    number? text = .error x ↔ IsMisnamed (trim text.toList) ∧ x = trimString text := by
  rcases number?_cases text with ⟨other, h⟩ | ⟨misnamed, h⟩ | ⟨-, named, n, h⟩
  · have named : ¬IsMisnamed (trim text.toList) := fun misnamed => other misnamed.isNumeral
    simp [h, named]
  · simp [h, misnamed, eq_comm]
  · simp [h, named]

theorem number?_none_iff (text : String) :
    number? text = .ok none ↔ ¬IsNumeral (trim text.toList) := by
  rcases number?_cases text with ⟨other, h⟩ | ⟨misnamed, h⟩ | ⟨numeral, -, n, h⟩
  · simp [h, other]
  · simp [h, misnamed.isNumeral]
  · simp [h, numeral]

theorem number?_some_iff (text : String) :
    (∃ n, number? text = .ok (some n)) ↔
      IsNumeral (trim text.toList) ∧ ¬IsMisnamed (trim text.toList) := by
  rcases number?_cases text with ⟨other, h⟩ | ⟨misnamed, h⟩ | ⟨numeral, named, n, h⟩
  · simp [h, other]
  · simp [h, misnamed]
  · simp [h, numeral, named]

end Number

namespace Operator

open Text Number

/-- A text can always be written. -/
theorem number?_text (text : String) :
    number? (.text text) = (Number.number? text).mapError .unreadable :=
  rfl

/-- Both sides of a comparison are read before they are compared, the left one first. -/
theorem compare_cases (op : Operator) (left right : String) :
    (∃ x, Number.number? left = .error x ∧
        op.compare (.text left) (.text right) = .error (.unreadable x)) ∨
      (∃ a, Number.number? left = .ok a ∧ ∃ x, Number.number? right = .error x ∧
        op.compare (.text left) (.text right) = .error (.unreadable x)) ∨
      ∃ a b, Number.number? left = .ok a ∧ Number.number? right = .ok b ∧
        ∃ answer, op.compare (.text left) (.text right) = .ok answer := by
  rw [compare, number?_text, number?_text]
  cases Number.number? left with
  | error x => exact .inl ⟨x, rfl, rfl⟩
  | ok a =>
    cases Number.number? right with
    | error x => exact .inr (.inl ⟨a, rfl, x, rfl, rfl⟩)
    | ok b => cases a <;> cases b <;> exact .inr (.inr ⟨_, _, rfl, rfl, _, rfl⟩)

/-- A comparison fails at a name of infinity that no number goes by, the left one first, and answers
anywhere else. Every other numeral is converted. -/
theorem compare_error_iff (op : Operator) (left right : String) :
    (∀ fault, op.compare (.text left) (.text right) = .error fault ↔
      IsMisnamed (trim left.toList) ∧ fault = .unreadable (trimString left) ∨
        ¬IsMisnamed (trim left.toList) ∧ IsMisnamed (trim right.toList) ∧
          fault = .unreadable (trimString right)) ∧
    ((∃ answer, op.compare (.text left) (.text right) = .ok answer) ↔
      ¬IsMisnamed (trim left.toList) ∧ ¬IsMisnamed (trim right.toList)) ∧
    ∀ text : String,
      (Number.number? text = .ok none ↔ ¬IsNumeral (trim text.toList)) ∧
      ((∃ n, Number.number? text = .ok (some n)) ↔
        IsNumeral (trim text.toList) ∧ ¬IsMisnamed (trim text.toList)) := by
  have named {text : String} {a : Option Double} (h : Number.number? text = .ok a) :
      ¬IsMisnamed (trim text.toList) := by
    intro misnamed
    rw [(number?_error_iff text _).2 ⟨misnamed, rfl⟩] at h
    cases h
  refine ⟨fun fault => ?_, ?_, fun text => ⟨number?_none_iff text, number?_some_iff text⟩⟩
  · rcases compare_cases op left right with ⟨y, hl, h⟩ | ⟨a, hl, y, hr, h⟩ | ⟨a, b, hl, hr, answer, h⟩
    · obtain ⟨misnamed, rfl⟩ := (number?_error_iff left y).1 hl
      simp [h, misnamed, eq_comm]
    · obtain ⟨misnamed, rfl⟩ := (number?_error_iff right y).1 hr
      simp [h, named hl, misnamed, eq_comm]
    · simp [h, named hl, named hr]
  · rcases compare_cases op left right with ⟨y, hl, h⟩ | ⟨a, hl, y, hr, h⟩ | ⟨a, b, hl, hr, answer, h⟩
    · simp [h, ((number?_error_iff left y).1 hl).1]
    · simp [h, ((number?_error_iff right y).1 hr).1]
    · simp [h, named hl, named hr]

/-- The dotless small i is taken for a letter of the name, but no number goes by it. -/
theorem compare_error_iff_dotless :
    IsNumeral (trim "\u0131nf".toList) ∧ IsMisnamed (trim "\u0131nf".toList) ∧
      Operator.eq.compare (.text "\u0131nf") (.text "1") = .error (.unreadable "\u0131nf") := by
  have text : trim "\u0131nf".toList = "\u0131nf".toList := by decide
  have spelled : Spells "inf" "\u0131nf".toList := (isWord_iff _ _).1 (by decide)
  have misnamed : IsMisnamed (trim "\u0131nf".toList) :=
    ⟨[], _, .inl rfl, ⟨.inl spelled, .inr (by decide)⟩, text⟩
  exact ⟨misnamed.isNumeral, misnamed, by decide +kernel⟩

end Operator

end Gatekeeper
