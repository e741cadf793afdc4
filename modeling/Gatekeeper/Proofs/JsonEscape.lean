import Gatekeeper.Json.Reader
import Gatekeeper.Proofs.JsonText

/-!
# JSON texts are read back

What is written of a text is read as the same text again, whatever stands behind it, if the text
stands for characters and has no halves of surrogate pairs.
-/
namespace Gatekeeper.Json

open Text Number

/-! ## Escapes -/

/-- Digits that are filled up end with the last one. -/
theorem hex_succ {width : Nat} (h : 0 < width) (n : Nat) :
    hex (width + 1) n = hex width (n / 16) ++ [(n % 16).digitChar] := by
  simp only [hex]
  rw [@Nat.toDigits_eq_if 16 n (by decide)]
  split
  · next small =>
    have none : Nat.toDigits 16 (n / 16) = ['0'] := by rw [Nat.div_eq_of_lt small]; rfl
    obtain ⟨w, rfl⟩ : ∃ w, width = w + 1 := ⟨width - 1, by omega⟩
    rw [none, Nat.mod_eq_of_lt small]
    simp [List.replicate_succ']
  · rw [List.length_append, List.length_singleton, Nat.add_sub_add_right, List.append_assoc]

theorem hex_four {n : Nat} (h : n < 0x10000) :
    hex 4 n = [(n / 16 / 16 / 16).digitChar, (n / 16 / 16 % 16).digitChar, (n / 16 % 16).digitChar,
      (n % 16).digitChar] := by
  have first : hex 1 (n / 16 / 16 / 16) = [(n / 16 / 16 / 16).digitChar] := by
    rw [hex, Nat.toDigits_eq_if (by decide), if_pos (by omega)]
    rfl
  rw [hex_succ (by decide), hex_succ (by decide), hex_succ (by decide), first]
  rfl

theorem hexValue?_digitChar {d : Nat} (h : d < 16) : hexValue? d.digitChar = some d := by
  have all : ∀ d < 16, hexValue? d.digitChar = some d := by decide
  exact all d h

/-- The digits of a code unit give it back, whatever follows them. -/
theorem codeUnit?_hex {n : Nat} (h : n < 0x10000) {rest : List Char} (more : rest ≠ []) :
    codeUnit? (hex 4 n ++ rest) = some n := by
  obtain ⟨c, rest, rfl⟩ := List.exists_cons_of_ne_nil more
  rw [hex_four h]
  have digit (m : Nat) : hexValue? (m % 16).digitChar = some (m % 16) :=
    hexValue?_digitChar (Nat.mod_lt m (by decide))
  have first : hexValue? (n / 16 / 16 / 16).digitChar = some (n / 16 / 16 / 16) :=
    hexValue?_digitChar (by omega)
  simp only [List.cons_append, List.nil_append, codeUnit?, first, digit, Option.bind_eq_bind,
    Option.bind_some, Option.pure_def, Option.some.injEq]
  omega

/-- Characters that belong to an escape are passed over. -/
theorem readChars_length (opening : Nat) (code rest : List Char) :
    readChars opening code.length (code ++ rest) = readChars opening 0 rest := by
  induction code with
  | nil => rfl
  | cons c code ih => rw [List.cons_append, List.length_cons, readChars, ih]

section

variable (opening : Nat) {rest chars after : List Char}

variable {opening} in
theorem readChars_escape (code : List Char) {meant : List Char}
    (he : escape opening (code ++ rest) = .ok (meant, code.length))
    (h : readChars opening 0 rest = .ok (chars, after)) :
    readChars opening 0 ('\\' :: code ++ rest) = .ok (meant ++ chars, after) := by
  rw [List.cons_append, readChars, if_neg (by decide), if_pos rfl, he]
  show (readChars opening code.length (code ++ rest) >>= _) = _
  rw [readChars_length, h]
  rfl

theorem escape_short {c letter : Char} (h : (c, letter) ∈ shortEscapes) (rest : List Char) :
    escape opening ([letter] ++ rest) = .ok (ofCode c.toNat, 1) := by
  simp only [shortEscapes, List.mem_cons, Prod.mk.injEq, List.not_mem_nil, or_false] at h
  rcases h with ⟨rfl, rfl⟩ | ⟨rfl, rfl⟩ | ⟨rfl, rfl⟩ | ⟨rfl, rfl⟩ | ⟨rfl, rfl⟩ | ⟨rfl, rfl⟩ |
    ⟨rfl, rfl⟩ <;> rfl

/-- An escape of one unit, unless it is half of a pair. -/
theorem escape_unit {n : Nat} (small : n < 0x10000) (whole : isSurrogate n = false)
    (more : rest ≠ []) : escape opening (('u' :: hex 4 n) ++ rest) = .ok (ofCode n, 5) := by
  have outside : ¬(0xD800 ≤ n ∧ n < 0xDC00) := by
    simp only [isSurrogate, Bool.and_eq_false_iff, decide_eq_false_iff_not] at whole
    omega
  rw [List.cons_append, escape, codeUnit?_hex small more]
  exact if_neg outside

theorem length_hex_four {n : Nat} (h : n < 0x10000) : (hex 4 n).length = 4 := by
  rw [hex_four h]
  rfl

theorem escape_pair {n : Nat} (large : 0x10000 ≤ n) (valid : n < 0x110000) {d : Char}
    {more : List Char} (hd : IsPlain d) (hr : rest = d :: more) :
    escape opening (('u' :: hex 4 (0xD800 + (n - 0x10000) / 0x400)) ++
      (writeUnit (0xDC00 + (n - 0x10000) % 0x400) ++ rest)) = .ok (ofCode n, 11) := by
  have first : 0xD800 ≤ 0xD800 + (n - 0x10000) / 0x400 ∧ 0xD800 + (n - 0x10000) / 0x400 < 0xDC00 := by
    omega
  have second : 0xDC00 ≤ 0xDC00 + (n - 0x10000) % 0x400 ∧
      0xDC00 + (n - 0x10000) % 0x400 < 0xE000 := by
    omega
  have number : 0x10000 + (0xD800 + (n - 0x10000) / 0x400 - 0xD800) * 0x400 +
      (0xDC00 + (n - 0x10000) % 0x400 - 0xDC00) = n := by
    omega
  generalize 0xD800 + (n - 0x10000) / 0x400 = high at *
  generalize 0xDC00 + (n - 0x10000) % 0x400 = low at *
  have long : isShorter 5 (hex 4 low ++ rest) = false := by
    have plain : ArePlain (hex 4 low ++ [d]) :=
      arePlain_append.2 ⟨arePlain_hex 4 low, arePlain_cons.2 ⟨hd, arePlain_nil⟩⟩
    have shorter := isShorter_of_plain plain more
    rwa [List.length_append, length_hex_four (by omega), List.append_assoc, List.singleton_append,
      ← hr] at shorter
  have start : writeUnit low ++ rest = '\\' :: 'u' :: (hex 4 low ++ rest) := by
    rw [writeUnit, List.cons_append, List.cons_append]
  have behind : (hex 4 high ++ ('\\' :: 'u' :: (hex 4 low ++ rest))).drop 4 =
      '\\' :: 'u' :: (hex 4 low ++ rest) := List.drop_left' (length_hex_four (by omega))
  rw [start, List.cons_append, escape, codeUnit?_hex (by omega) (by simp)]
  simp only [if_pos first, behind, long, codeUnit?_hex (show low < 0x10000 by omega)
    (show rest ≠ [] by simp [hr]), Bool.false_eq_true, if_false, if_pos second, number]

end

/-- A character comes back from the escape that it is written as, if it has to be. -/
theorem readChars_writeCode (c : Char) {opening : Nat} {rest chars after : List Char}
    (plain : ∃ d more, rest = d :: more ∧ IsPlain d)
    (h : readChars opening 0 rest = .ok (chars, after)) :
    readChars opening 0 (writeCode c.toNat ++ rest) = .ok (ofCode c.toNat ++ chars, after) := by
  obtain ⟨d, more, hr, hd⟩ := plain
  have full : rest ≠ [] := hr ▸ List.cons_ne_nil _ _
  have valid : c.toNat.isValidChar := c.valid
  have whole : isSurrogate c.toNat = false := by
    simp only [isSurrogate, Bool.and_eq_false_iff, decide_eq_false_iff_not]
    rcases valid with h | h <;> omega
  have bound : c.toNat < 0x110000 := by
    rcases valid with h | h <;> omega
  rw [writeCode.eq_def]
  split
  · next c' letter hs =>
    have same : c'.toNat = c.toNat := by simpa using List.find?_some hs
    have short := escape_short opening (List.mem_of_find?_eq_some hs) rest
    rw [same] at short
    exact readChars_escape _ short h
  · next none =>
    have other (p : Char × Char) (hp : p ∈ shortEscapes) : c ≠ p.1 := by
      rintro rfl
      simpa using List.find?_eq_none.1 none p hp
    split
    · next range =>
      have alone : ofCode c.toNat = [c] :=
        IsPlain.ofCode ⟨by omega, other ('\r', 'r') (by decide)⟩
      rw [alone, List.singleton_append, readChars, if_neg (other ('"', '"') (by decide)),
        if_neg (other ('\\', '\\') (by decide)), if_neg (by omega), h]
      rfl
    · split
      · next small =>
        have unit := escape_unit opening small whole full
        refine readChars_escape ('u' :: hex 4 c.toNat) ?_ h
        rw [unit, List.length_cons, length_hex_four small]
      · next large =>
        have pair := escape_pair opening (Nat.le_of_not_lt large) bound hd hr
        rw [← List.append_assoc] at pair
        refine readChars_escape ('u' :: hex 4 _ ++ writeUnit _) ?_ h
        rw [pair, List.length_append, List.length_cons, writeUnit, List.length_cons, List.length_cons,
          length_hex_four (by omega), length_hex_four (by omega)]

/-- Characters that stand for characters, with no halves of pairs. -/
def AreWhole (text : List Char) : Prop :=
  ∃ chars, text = ofCharacters chars

def IsWhole (s : String) : Prop :=
  AreWhole s.toList

theorem codes_ofCharacters (chars : List Char) :
    codes (ofCharacters chars) = chars.map Char.toNat := by
  have bounds : ∀ n ∈ chars.map Char.toNat, n < 0x110000 := by
    intro n hn
    obtain ⟨c, -, rfl⟩ := List.mem_map.1 hn
    have valid : c.toNat.isValidChar := c.valid
    rcases valid with h | h <;> omega
  have back := codes_flatMap_ofCode bounds
  rwa [List.flatMap_map] at back

theorem readChars_writeText (opening : Nat) (chars rest : List Char) :
    readChars opening 0 ((chars.map Char.toNat).flatMap writeCode ++ '"' :: rest) =
      .ok (ofCharacters chars, rest) := by
  induction chars with
  | nil => rfl
  | cons c chars ih =>
    rw [List.map_cons, List.flatMap_cons, List.append_assoc]
    have start : ArePlain ((chars.map Char.toNat).flatMap writeCode) := by
      intro d hd
      obtain ⟨n, -, hn⟩ := List.mem_flatMap.1 hd
      exact arePlain_writeCode n d hn
    refine readChars_writeCode c ?_ ih
    generalize (chars.map Char.toNat).flatMap writeCode = inner at start
    cases inner with
    | nil => exact ⟨_, _, rfl, by decide⟩
    | cons d inner => exact ⟨_, _, rfl, (arePlain_cons.1 start).1⟩

/-- A text comes back from its JSON text. -/
theorem readText_writeText {s : String} (h : IsWhole s) :
    ∃ inner, (writeText s).toList = '"' :: inner ∧
      ∀ rest, readText (inner ++ rest) = .ok (s, rest) := by
  obtain ⟨chars, hs⟩ := h
  refine ⟨(codes s.toList).flatMap writeCode ++ ['"'], ?_, fun rest => ?_⟩
  · rw [writeText, String.toList_ofList]
  · rw [readText, hs, codes_ofCharacters, List.append_assoc, List.singleton_append,
      readChars_writeText, ← hs]
    show Except.ok (String.ofList s.toList, rest) = _
    rw [String.ofList_toList]

end Gatekeeper.Json
