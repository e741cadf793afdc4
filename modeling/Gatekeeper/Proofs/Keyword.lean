import Gatekeeper.Expression.Parser
import Gatekeeper.Proofs.Layout
import Gatekeeper.Text.Lowercase
import Mathlib.Data.List.Forall2

/-!
# Keywords

When a text spells a word, and that the readers of keywords find the words that are spelled. The few
letters that keywords are made of have few forms, no form of one is a form of another, and none of
them is a blank or a bracket. Lower case undoes the forms only in part, and leaves no other character
than a plain letter among these letters.
-/
namespace Gatekeeper.Text

/-- The text is the word in some letter case. -/
def Spells (word : String) (text : List Char) : Prop :=
  List.Forall₂ (fun letter c => isFormOf letter c = true) word.toList text

instance (word : String) (text : List Char) : Decidable (Spells word text) :=
  inferInstanceAs (Decidable (List.Forall₂ _ word.toList text))

/-- Every letter that occurs in a keyword. -/
def letters : List Char :=
  "acdehilmnoprsty".toList

/-- All forms of a lower-case letter. -/
def forms (letter : Char) : List Char :=
  [letter, letter.toUpper] ++ (if letter = 'i' then ['\u0130', '\u0131'] else []) ++
    if letter = 's' then ['\u017F'] else []

theorem mem_forms_iff (letter c : Char) : c ∈ forms letter ↔ isFormOf letter c = true := by
  by_cases hi : letter = 'i' <;> by_cases hs : letter = 's' <;> simp [forms, isFormOf, hi, hs, or_assoc]

/-- No character is a form of two letters. -/
theorem isFormOf_inj {letter letter' c : Char} (hl : letter ∈ letters) (hl' : letter' ∈ letters)
    (h : isFormOf letter c = true) (h' : isFormOf letter' c = true) : letter = letter' := by
  have apart : letters.all fun letter => (forms letter).all fun c => letters.all fun letter' =>
      !isFormOf letter' c || letter == letter' := by decide +kernel
  simp only [List.all_eq_true, Bool.or_eq_true, Bool.not_eq_true', beq_iff_eq] at apart
  rcases apart letter hl c ((mem_forms_iff letter c).2 h) letter' hl' with hn | he
  · rw [h'] at hn
    cases hn
  · exact he

/-- The characters that may stand behind or instead of a keyword, and are no letters. -/
def endsWord (c : Char) : Bool :=
  isBlank c || c == '[' || c == ']' || c == ';' || c == '!'

theorem isFormOf_endsWord {letter c : Char} (hl : letter ∈ letters) (h : endsWord c = true) :
    isFormOf letter c = false := by
  have apart : letters.all fun letter => (forms letter).all (!endsWord ·) := by decide +kernel
  simp only [List.all_eq_true, Bool.not_eq_true'] at apart
  by_contra hf
  have := apart letter hl c ((mem_forms_iff letter c).2 (by simpa using hf))
  simp [h] at this

theorem afterWord?_eq_some_iff (word text rest : List Char) :
    afterWord? word text = some rest ↔
      ∃ front, List.Forall₂ (fun letter c => isFormOf letter c = true) word front ∧
        text = front ++ rest := by
  induction word generalizing text with
  | nil =>
    rw [afterWord?_nil]
    constructor
    · rintro ⟨⟩
      exact ⟨[], .nil, rfl⟩
    · rintro ⟨front, hf, rfl⟩
      cases hf
      rfl
  | cons letter word ih =>
    cases text with
    | nil => simp [afterWord?]
    | cons c text =>
      rw [afterWord?]
      split
      · next hc =>
        rw [ih]
        constructor
        · rintro ⟨front, hf, rfl⟩
          exact ⟨c :: front, .cons hc hf, rfl⟩
        · rintro ⟨front, hf, he⟩
          obtain ⟨d, front', -, hf', rfl⟩ := List.forall₂_cons_left_iff.1 hf
          obtain ⟨rfl, rfl⟩ := List.cons.inj he
          exact ⟨front', hf', rfl⟩
      · next hc =>
        constructor
        · rintro ⟨⟩
        · rintro ⟨front, hf, he⟩
          obtain ⟨d, front', hd, -, rfl⟩ := List.forall₂_cons_left_iff.1 hf
          obtain ⟨rfl, -⟩ := List.cons.inj he
          exact absurd hd hc

/-- Of two texts that spell words, one can only be a prefix of the other if the words are, too. -/
theorem prefix_of_spelled {word word' front front' : List Char} (hl : ∀ l ∈ word, l ∈ letters)
    (hl' : ∀ l ∈ word', l ∈ letters)
    (h : List.Forall₂ (fun letter c => isFormOf letter c = true) word front)
    (h' : List.Forall₂ (fun letter c => isFormOf letter c = true) word' front')
    (hp : front <+: front') : word <+: word' := by
  induction h generalizing word' front' with
  | nil => exact List.nil_prefix
  | cons hc h ih =>
    cases h' with
    | nil => simp at hp
    | cons hc' h' =>
      obtain ⟨rfl, hr⟩ := List.cons_prefix_cons.1 hp
      obtain ⟨hm, hw⟩ := List.forall_mem_cons.1 hl
      obtain ⟨hm', hw'⟩ := List.forall_mem_cons.1 hl'
      exact List.cons_prefix_cons.2 ⟨isFormOf_inj hm hm' hc hc', ih hw hw' h' hr⟩

theorem exists_form_of_mem {word front : List Char} {c : Char}
    (h : List.Forall₂ (fun letter c => isFormOf letter c = true) word front) (hc : c ∈ front) :
    ∃ letter ∈ word, isFormOf letter c = true := by
  induction h with
  | nil => simp at hc
  | cons hf h ih =>
    rcases List.mem_cons.1 hc with rfl | hc
    · exact ⟨_, List.mem_cons_self .., hf⟩
    · obtain ⟨letter, hm, hf⟩ := ih hc
      exact ⟨letter, List.mem_cons_of_mem _ hm, hf⟩

theorem spells_of_afterAnyWord? {words : List String} {text rest : List Char} {word : String}
    (h : afterAnyWord? words text = some (word, rest)) :
    word ∈ words ∧ ∃ front, Spells word front ∧ text = front ++ rest := by
  obtain ⟨w, hw, ha⟩ := List.exists_of_findSome?_eq_some h
  obtain ⟨r, hr, he⟩ := Option.map_eq_some_iff.1 ha
  obtain ⟨rfl, rfl⟩ := Prod.mk.inj he
  exact ⟨hw, (afterWord?_eq_some_iff _ _ _).1 hr⟩

/-- A word that is spelled in full is found, if no word before it in the list is a start of it. -/
theorem afterAnyWord?_of_spells {words : List String} {word : String} {front back : List Char}
    {c : Char} (hw : word ∈ words) (hl : ∀ w ∈ words, ∀ l ∈ w.toList, l ∈ letters)
    (hp : words.Pairwise fun w w' => ¬w.toList <+: w'.toList) (hs : Spells word front)
    (hc : endsWord c = true) :
    afterAnyWord? words (front ++ c :: back) = some (word, c :: back) := by
  induction words with
  | nil => simp at hw
  | cons w words ih =>
    obtain ⟨hlw, hl⟩ := List.forall_mem_cons.1 hl
    obtain ⟨hpw, hp⟩ := List.pairwise_cons.1 hp
    rw [afterAnyWord?, List.findSome?_cons]
    rcases List.mem_cons.1 hw with rfl | hw
    · rw [(afterWord?_eq_some_iff _ _ (c :: back)).2 ⟨front, hs, rfl⟩]
      rfl
    · cases ha : afterWord? w.toList (front ++ c :: back) with
      | none => exact ih hw hl hp
      | some rest =>
        obtain ⟨front', hs', he⟩ := (afterWord?_eq_some_iff _ _ _).1 ha
        rcases List.append_eq_append_iff.1 he with ⟨between, rfl, hb⟩ | ⟨between, rfl, -⟩
        · cases between with
          | nil =>
            rw [List.append_nil] at hs'
            exact absurd (prefix_of_spelled hlw (hl word hw) hs' hs (List.prefix_refl _)) (hpw word hw)
          | cons d between =>
            -- The earlier word would have the character that ends this one within it.
            obtain ⟨rfl, -⟩ := List.cons.inj hb
            obtain ⟨letter, hm, hf⟩ := exists_form_of_mem hs' (c := c) (by simp)
            rw [isFormOf_endsWord (hlw letter hm) hc] at hf
            cases hf
        · exact absurd (prefix_of_spelled hlw (hl word hw) hs' hs (List.prefix_append ..)) (hpw word hw)

/-- Only the first run is of ASCII letters, and besides it only the one of the sign for kelvin leads
among them. -/
theorem exists_lowercaseRuns_eq : ∃ runs, lowercaseRuns = (0x41, 0x5A, 1, 32) :: runs ∧
    ∀ run ∈ runs, 128 ≤ run.1 ∧
      (run = (0x212A, 0x212A, 1, -8383) ∨ (128 : Int) ≤ run.1 + run.2.2.2) :=
  ⟨lowercaseRuns.tail, rfl, by decide +kernel⟩

/-- Below the letters beyond ASCII the lower-case form is the plain one. -/
theorem lowerChar_of_lt {c : Char} (h : c.toNat < 128) : lowerChar c = [c.toLower] := by
  have plain : ∀ n < 128, (Char.ofNat n).toLower =
      if 0x41 ≤ n ∧ n ≤ 0x5A then Char.ofNat (n + 32) else Char.ofNat n := by decide +kernel
  have hc := plain c.toNat h
  rw [Char.ofNat_toNat] at hc
  obtain ⟨runs, hr, beyond⟩ := exists_lowercaseRuns_eq
  rw [lowerChar, if_neg (by rintro rfl; revert h; decide), hc]
  by_cases hl : 0x41 ≤ c.toNat ∧ c.toNat ≤ 0x5A
  · have sum : ((c.toNat : Int) + 32).toNat = c.toNat + 32 := by omega
    rw [if_pos hl, hr, List.find?_cons]
    simp [hl, Nat.mod_one, sum]
  · rw [if_neg hl]
    split
    · next first last step distance hf =>
      have hm := List.mem_of_find?_eq_some hf
      have hb := List.find?_some hf
      simp only [Bool.and_eq_true, decide_eq_true_eq] at hb
      rw [hr, List.mem_cons] at hm
      rcases hm with he | hm
      · obtain ⟨rfl, rfl, -⟩ := Prod.mk.inj he |>.imp_right Prod.mk.inj
        exact absurd hb.1 hl
      · have := (beyond _ hm).1
        simp only at this
        omega
    · rfl

theorem lt_of_mem_letters {c : Char} (h : c ∈ letters) : c.toNat < 128 := by
  have small : letters.all (·.toNat < 128) := by decide
  simpa using List.all_eq_true.1 small c h

/-- No letter beyond ASCII has a lower-case form among the letters of keywords. -/
theorem exists_lowerChar_not_mem {c : Char} (h : 128 ≤ c.toNat) :
    ∃ d ∈ lowerChar c, d ∉ letters := by
  rw [lowerChar]
  split
  · exact ⟨'\u0307', by simp, by decide⟩
  · split
    · next first last step distance hr =>
      refine ⟨_, List.mem_singleton_self _, ?_⟩
      have hf := List.find?_some hr
      simp only [Bool.and_eq_true, decide_eq_true_eq] at hf
      obtain ⟨runs, he, beyond⟩ := exists_lowercaseRuns_eq
      have hm := List.mem_of_find?_eq_some hr
      rw [he, List.mem_cons] at hm
      rcases hm with he | hm
      · simp only [Prod.mk.injEq] at he
        omega
      · rcases (beyond _ hm).2 with he | hd
        · simp only [Prod.mk.injEq] at he
          obtain ⟨rfl, rfl, rfl, rfl⟩ := he
          have hc : c.toNat = 0x212A := by omega
          rw [hc]
          decide
        · intro hm
          have hlt := lt_of_mem_letters hm
          by_cases hv : ((c.toNat : Int) + distance).toNat.isValidChar
          · rw [toNat_ofNat hv] at hlt
            simp only at hd
            omega
          · rw [Char.ofNat, dif_neg hv] at hm
            revert hm
            decide
    · exact ⟨c, List.mem_singleton_self c, fun hm => by have := lt_of_mem_letters hm; omega⟩

theorem lowerChar_eq_of_mem {c : Char} (h : ∀ d ∈ lowerChar c, d ∈ letters) :
    lowerChar c = [c.toLower] := by
  by_cases hc : c.toNat < 128
  · exact lowerChar_of_lt hc
  · obtain ⟨d, hd, hn⟩ := exists_lowerChar_not_mem (Nat.le_of_not_lt hc)
    exact absurd (h d hd) hn

theorem toLower_of_not_lt {c : Char} (h : ¬c.toNat < 128) : c.toLower = c := by
  refine dif_neg fun hc => ?_
  have : c.toNat ≤ 90 := hc.2
  omega

/-- Where one of the two lower-case forms of a text has the letters of keywords only, both agree. -/
theorem lowerFrom_eq {before text : List Char}
    (h : (∀ d ∈ lowerFrom before text, d ∈ letters) ∨ ∀ d ∈ text.map Char.toLower, d ∈ letters) :
    lowerFrom before text = text.map Char.toLower := by
  induction text generalizing before with
  | nil => rfl
  | cons c text ih =>
    rw [lowerFrom, List.map_cons] at *
    have head : (if c = '\u03A3' ∧ isFinal before text then ['\u03C2'] else lowerChar c) =
        [c.toLower] := by
      rcases h with h | h
      · split at h
        · exact absurd (h '\u03C2' (by simp)) (by decide)
        · next hc =>
          rw [if_neg hc]
          exact lowerChar_eq_of_mem fun d hd => h d (List.mem_append_left _ hd)
      · have hm := h c.toLower (List.mem_cons_self ..)
        have hc : c.toNat < 128 := by
          by_contra hc
          rw [toLower_of_not_lt hc] at hm
          exact hc (lt_of_mem_letters hm)
        rw [if_neg, lowerChar_of_lt hc]
        rintro ⟨rfl, -⟩
        revert hc
        decide
    rw [head, List.singleton_append, ih]
    rcases h with h | h
    · exact .inl fun d hd => h d (List.mem_append_right _ hd)
    · exact .inr fun d hd => h d (List.mem_cons_of_mem _ hd)

end Gatekeeper.Text

namespace Gatekeeper.Parser

open Text

theorem mem_letters_of_keyword {word : String} (h : word ∈ keywords) :
    ∀ letter ∈ word.toList, letter ∈ letters := by
  have spelled : keywords.all fun word => word.toList.all letters.contains := by decide +kernel
  intro letter hl
  exact List.contains_iff_mem.1 (List.all_eq_true.1 (List.all_eq_true.1 spelled word h) letter hl)

/-- A bare keyword is a text whose lower-case form is one. -/
theorem isKeyword_iff (text : List Char) :
    isKeyword text = true ↔ String.ofList (lower text) ∈ keywords := by
  rw [isKeyword, List.contains_iff_mem]
  constructor
  · intro h
    have := mem_letters_of_keyword h
    rw [String.toList_ofList] at this
    rwa [lower, lowerFrom_eq (.inr this)]
  · intro h
    have := mem_letters_of_keyword h
    rw [String.toList_ofList] at this
    rwa [lower, lowerFrom_eq (.inl this)] at h

/-- A keyword has letters only, in lower case. -/
theorem lower_not_mem_keywords {text : List Char} {c : Char} (hm : c ∈ text)
    (hc : c.toLower ∉ letters) : String.ofList (lower text) ∉ keywords := by
  rw [← isKeyword_iff]
  intro h
  have each := mem_letters_of_keyword (List.contains_iff_mem.1 h)
  rw [String.toList_ofList] at each
  exact hc (each _ (List.mem_map_of_mem hm))

/-- A text that starts with one of some words, in any letter case, and a blank; `back` follows. -/
def StartsWith (words : List String) (text back : List Char) : Prop :=
  ∃ word ∈ words, ∃ front c, Spells word front ∧ isBlank c = true ∧ text = front ++ c :: back

theorem afterKeyword?_eq_some_iff {words : List String} (hk : ∀ w ∈ words, w ∈ keywords)
    (hp : words.Pairwise fun w w' => ¬w.toList <+: w'.toList) (text body : List Char) :
    afterKeyword? words text = some body ↔
      ∃ back, StartsWith words text back ∧ body = trimStart back := by
  constructor
  · intro h
    rw [afterKeyword?] at h
    split at h
    · next word c rest ha =>
      obtain ⟨hw, front, hs, rfl⟩ := spells_of_afterAnyWord? ha
      split at h
      · next hc => exact ⟨rest, ⟨word, hw, front, c, hs, hc, rfl⟩, (Option.some.inj h).symm⟩
      · cases h
    · cases h
  · rintro ⟨back, ⟨word, hw, front, c, hs, hc, rfl⟩, rfl⟩
    have hl : ∀ w ∈ words, ∀ l ∈ w.toList, l ∈ letters := fun w h => mem_letters_of_keyword (hk w h)
    rw [afterKeyword?, afterAnyWord?_of_spells hw hl hp hs (by simp [endsWord, hc])]
    exact if_pos hc

/-- A text starts with two words only if one of them starts with the other. -/
theorem prefix_or_prefix_of_spells {word word' : String} {front rest front' rest' : List Char}
    (hw : word ∈ keywords) (hw' : word' ∈ keywords) (h : Spells word front)
    (h' : Spells word' front') (he : front ++ rest = front' ++ rest') :
    word.toList <+: word'.toList ∨ word'.toList <+: word.toList := by
  have hl := mem_letters_of_keyword hw
  have hl' := mem_letters_of_keyword hw'
  rcases List.prefix_or_prefix_of_prefix (List.prefix_append front rest)
      (he ▸ List.prefix_append front' rest') with hp | hp
  · exact .inl (prefix_of_spelled hl hl' h h' hp)
  · exact .inr (prefix_of_spelled hl' hl h' h hp)

theorem StartsWith.disjoint {words words' : List String} {text back back' : List Char}
    (hk : ∀ w ∈ words, w ∈ keywords) (hk' : ∀ w ∈ words', w ∈ keywords)
    (hd : ∀ w ∈ words, ∀ w' ∈ words', ¬w.toList <+: w'.toList ∧ ¬w'.toList <+: w.toList)
    (h : StartsWith words text back) : ¬StartsWith words' text back' := by
  rintro ⟨word', hw', front', c', hs', -, he⟩
  obtain ⟨word, hw, front, c, hs, -, rfl⟩ := h
  obtain ⟨hn, hn'⟩ := hd word hw word' hw'
  rcases prefix_or_prefix_of_spells (hk word hw) (hk' word' hw') hs hs' he with hp | hp
  · exact hn hp
  · exact hn' hp

/-- A keyword has letters only. -/
theorem not_mem_of_spells {word : String} {front : List Char} (hw : word ∈ keywords)
    (h : Spells word front) {c : Char} (hc : endsWord c = true) : c ∉ front := by
  intro hm
  obtain ⟨letter, hl, hf⟩ := exists_form_of_mem h hm
  rw [isFormOf_endsWord (mem_letters_of_keyword hw letter hl) hc] at hf
  cases hf

theorem StartsWith.head_ne {words : List String} {text back : List Char} {c : Char}
    (hk : ∀ w ∈ words, w ∈ keywords) (h : StartsWith words text back) (hc : endsWord c = true) :
    text.head? ≠ some c := by
  obtain ⟨word, hw, front, d, hs, -, rfl⟩ := h
  intro he
  cases front with
  | nil =>
    have empty : word.toList = [] := List.forall₂_nil_right_iff.1 hs
    have full : ∀ word ∈ keywords, word.toList ≠ [] := by decide
    exact full word (hk word hw) empty
  | cons e front =>
    obtain rfl : e = c := by simpa using he
    exact not_mem_of_spells (hk word hw) hs hc (List.mem_cons_self ..)

theorem StartsWith.ne_nil {words : List String} {text back : List Char}
    (h : StartsWith words text back) : text ≠ [] := by
  obtain ⟨-, -, front, c, -, -, rfl⟩ := h
  simp

theorem StartsWith.subset {words : List String} {text back : List Char}
    (h : StartsWith words text back) : back ⊆ text := by
  obtain ⟨-, -, front, c, -, -, rfl⟩ := h
  simp

/-- Behind a keyword stands a part of the text. -/
theorem StartsWith.isInfix {words : List String} {text back : List Char}
    (h : StartsWith words text back) : back <:+: text := by
  obtain ⟨-, -, front, c, -, -, rfl⟩ := h
  exact ((List.suffix_cons c back).trans (List.suffix_append front _)).isInfix

/-- Behind a keyword in a normal text there is something to read. -/
theorem StartsWith.words_ne_nil {keys : List String} {text back : List Char}
    (h : StartsWith keys text back) (hn : IsNormal text) : words back ≠ [] := by
  obtain ⟨-, -, front, c, -, hc, rfl⟩ := h
  exact (hn.sides hc).2.2.2.2

/-- Within a normal text a keyword has just one blank behind it. -/
theorem StartsWith.isNormal {words : List String} {text back : List Char}
    (h : StartsWith words text back) (hn : IsNormal text) : IsNormal back := by
  obtain ⟨word, -, front, c, -, hc, rfl⟩ := h
  exact (hn.sides hc).2.2.1

theorem afterKeyword?_normal_iff {words : List String} (hk : ∀ w ∈ words, w ∈ keywords)
    (hp : words.Pairwise fun w w' => ¬w.toList <+: w'.toList) {text : List Char}
    (hn : IsNormal text) (body : List Char) :
    afterKeyword? words text = some body ↔ StartsWith words text body := by
  rw [afterKeyword?_eq_some_iff hk hp]
  constructor
  · rintro ⟨back, hs, rfl⟩
    rwa [(hs.isNormal hn).trimStart_eq]
  · intro hs
    exact ⟨body, hs, ((hs.isNormal hn).trimStart_eq).symm⟩

/-- The words of a group that counts in a mode. -/
def groupWords : Mode → List String
  | .all => ["all", "and"]
  | .any => ["any", "or"]

theorem mem_groupWords_iff {word : String} (h : word ∈ ["any", "or", "all", "and"]) (mode : Mode) :
    word ∈ groupWords mode ↔ (if word = "all" ∨ word = "and" then Mode.all else .any) = mode := by
  have each : ∀ word ∈ ["any", "or", "all", "and"], ∀ mode ∈ [Mode.all, .any],
      (word ∈ groupWords mode ↔
        (if word = "all" ∨ word = "and" then Mode.all else .any) = mode) := by decide
  exact each word h mode (by cases mode <;> simp)

theorem afterGroup?_eq_some_iff (text : List Char) (mode : Mode) (inside : List Char) :
    afterGroup? text = some (mode, inside) ↔
      ∃ word ∈ groupWords mode, ∃ front blanks, Spells word front ∧
        (∀ c ∈ blanks, isBlank c = true) ∧ text = front ++ blanks ++ '[' :: inside := by
  constructor
  · intro h
    rw [afterGroup?] at h
    split at h
    · cases h
    · next word rest ha =>
      obtain ⟨hw, front, hs, rfl⟩ := spells_of_afterAnyWord? ha
      split at h
      · next _ hr =>
        obtain ⟨hm, rfl⟩ := Prod.mk.inj (Option.some.inj h)
        refine ⟨word, (mem_groupWords_iff hw mode).2 hm, front, rest.takeWhile isBlank, hs,
          fun c hc => List.mem_takeWhile_imp hc, ?_⟩
        rw [List.append_assoc, ← hr, trimStart, List.takeWhile_append_dropWhile]
      · cases h
  · rintro ⟨word, hw, front, blanks, hs, hb, rfl⟩
    have hm : word ∈ ["any", "or", "all", "and"] := by
      cases mode <;> simp only [groupWords, List.mem_cons, List.not_mem_nil] at hw ⊢ <;> tauto
    obtain ⟨c, back, he, hc⟩ : ∃ c back, blanks ++ '[' :: inside = c :: back ∧
        endsWord c = true := by
      cases blanks with
      | nil => exact ⟨'[', inside, rfl, by decide⟩
      | cons c blanks => exact ⟨c, _, rfl, by simp [endsWord, hb c (List.mem_cons_self ..)]⟩
    have hl : ∀ w ∈ ["any", "or", "all", "and"], ∀ l ∈ w.toList, l ∈ letters :=
      fun w h => mem_letters_of_keyword (by revert w; decide)
    have hr : trimStart (blanks ++ '[' :: inside) = '[' :: inside := by
      rw [trimStart, List.dropWhile_append_of_pos hb]
      exact trimStart_cons (by decide) inside
    rw [List.append_assoc, he, afterGroup?, afterAnyWord?_of_spells hm hl (by decide) hs hc, ← he]
    simp only [hr, (mem_groupWords_iff hm mode).1 hw]

end Gatekeeper.Parser
