import Gatekeeper.Text.Blank
import Mathlib.Data.List.DropRight

/-!
# The layout of a text

What the normal form of a text keeps and what it gives up. Everything rests on how a text begins: a
blank at the front belongs to no word, and any other character either ends a word or goes in front of
the first one. A text that is its own normal form keeps this in every part that a blank cuts off.
-/
namespace Gatekeeper.Text

theorem words_cons_blank {c : Char} (h : isBlank c = true) (text : List Char) :
    words (c :: text) = words text := by
  simpa using words_append_blank h [] text

theorem words_singleton {c : Char} (h : isBlank c = false) : words [c] = [[c]] := by
  simp [words, List.splitOnP_cons_eq_if_modifyHead, List.splitOnP_nil, h]

theorem words_cons_cons_blank {c d : Char} (hc : isBlank c = false) (hd : isBlank d = true)
    (text : List Char) : words (c :: d :: text) = [c] :: words text := by
  simpa [words_singleton hc] using words_append_blank hd [c] text

/-- A character in front of a word belongs to it. -/
theorem words_cons_cons {c d : Char} (hc : isBlank c = false) (hd : isBlank d = false)
    (text : List Char) : words (c :: d :: text) = (words (d :: text)).modifyHead (c :: ·) := by
  obtain ⟨piece, pieces, hp⟩ := List.exists_cons_of_ne_nil (List.splitOnP_ne_nil isBlank text)
  simp [words, List.splitOnP_cons_eq_if_modifyHead, hc, hd, hp]

/-- Induction on a text by how its words begin and end. -/
theorem layout_induction {motive : List Char → Prop} (nil : motive [])
    (blank : ∀ c text, isBlank c = true → motive text → motive (c :: text))
    (letter : ∀ c, isBlank c = false → motive [c])
    (wordEnd : ∀ c d text, isBlank c = false → isBlank d = true → motive text →
      motive (c :: d :: text))
    (inWord : ∀ c d text, isBlank c = false → isBlank d = false → motive (d :: text) →
      motive (c :: d :: text)) : ∀ text, motive text
  | [] => nil
  | c :: text => by
    cases hc : isBlank c with
    | true => exact blank c text hc (layout_induction nil blank letter wordEnd inWord text)
    | false =>
      match text with
      | [] => exact letter c hc
      | d :: text =>
        cases hd : isBlank d with
        | true =>
          exact wordEnd c d text hc hd (layout_induction nil blank letter wordEnd inWord text)
        | false =>
          exact inWord c d text hc hd
            (layout_induction nil blank letter wordEnd inWord (d :: text))

theorem words_cons_ne_nil {c : Char} (h : isBlank c = false) (text : List Char) :
    words (c :: text) ≠ [] := by
  induction text generalizing c with
  | nil => simp [words_singleton h]
  | cons d text ih =>
    cases hd : isBlank d with
    | true => simp [words_cons_cons_blank h hd]
    | false =>
      obtain ⟨word, rest, hw⟩ := List.exists_cons_of_ne_nil (ih hd)
      simp [words_cons_cons h hd, hw]

theorem normalize_singleton {c : Char} (h : isBlank c = false) : normalize [c] = [c] := by
  simp [normalize, words_singleton h]

theorem normalize_cons_blank {c : Char} (h : isBlank c = true) (text : List Char) :
    normalize (c :: text) = normalize text := by
  rw [normalize, words_cons_blank h, normalize]

theorem normalize_cons_cons_blank {c d : Char} (hc : isBlank c = false) (hd : isBlank d = true)
    (text : List Char) :
    normalize (c :: d :: text) = c :: if words text = [] then [] else ' ' :: normalize text := by
  rw [normalize, words_cons_cons_blank hc hd, normalize]
  cases words text <;> simp

theorem normalize_cons_cons {c d : Char} (hc : isBlank c = false) (hd : isBlank d = false)
    (text : List Char) : normalize (c :: d :: text) = c :: normalize (d :: text) := by
  obtain ⟨word, rest, hw⟩ := List.exists_cons_of_ne_nil (words_cons_ne_nil hd text)
  rw [normalize, words_cons_cons hc hd, normalize, hw, List.modifyHead_cons]
  cases rest <;> simp

theorem length_normalize_le (text : List Char) : (normalize text).length ≤ text.length := by
  induction text using layout_induction with
  | nil => simp
  | blank c text hc ih =>
    rw [normalize_cons_blank hc, List.length_cons]
    omega
  | letter c hc => simp [normalize_singleton hc]
  | wordEnd c d text hc hd ih =>
    rw [normalize_cons_cons_blank hc hd]
    split <;> simp only [List.length_cons, List.length_nil] <;> omega
  | inWord c d text hc hd ih =>
    rw [normalize_cons_cons hc hd]
    simpa using ih

theorem normalize_eq_nil_iff (text : List Char) : normalize text = [] ↔ words text = [] := by
  induction text using layout_induction with
  | nil => simp
  | blank c text hc ih => rw [normalize_cons_blank hc, words_cons_blank hc, ih]
  | letter c hc => simp [normalize_singleton hc, words_singleton hc]
  | wordEnd c d text hc hd ih => simp [normalize_cons_cons_blank hc hd, words_cons_cons_blank hc hd]
  | inWord c d text hc hd ih => simp [normalize_cons_cons hc hd, words_cons_ne_nil hc]

/-- The characters of a text that are not blank. -/
def ink (text : List Char) : List Char :=
  text.filter (!isBlank ·)

@[simp] theorem ink_nil : ink [] = [] := rfl

@[simp] theorem ink_append (front back : List Char) : ink (front ++ back) = ink front ++ ink back :=
  List.filter_append ..

theorem ink_cons_blank {c : Char} (h : isBlank c = true) (text : List Char) :
    ink (c :: text) = ink text := by
  simp [ink, h]

theorem ink_cons {c : Char} (h : isBlank c = false) (text : List Char) :
    ink (c :: text) = c :: ink text := by
  simp [ink, h]

theorem ink_eq_nil_iff (text : List Char) : ink text = [] ↔ words text = [] := by
  induction text using layout_induction with
  | nil => simp
  | blank c text hc ih => rw [ink_cons_blank hc, words_cons_blank hc, ih]
  | letter c hc => simp [ink_cons hc, words_singleton hc]
  | wordEnd c d text hc hd ih => simp [ink_cons hc, words_cons_cons_blank hc hd]
  | inWord c d text hc hd ih => simp [ink_cons hc, words_cons_ne_nil hc]

/-- The normal form changes blanks only. -/
theorem any_not_isBlank_iff (text : List Char) :
    text.any (!isBlank ·) = true ↔ words text ≠ [] := by
  rw [ne_eq, ← ink_eq_nil_iff, ink]
  simp

theorem ink_normalize (text : List Char) : ink (normalize text) = ink text := by
  induction text using layout_induction with
  | nil => simp
  | blank c text hc ih => rw [normalize_cons_blank hc, ink_cons_blank hc, ih]
  | letter c hc => rw [normalize_singleton hc]
  | wordEnd c d text hc hd ih =>
    rw [normalize_cons_cons_blank hc hd, ink_cons hc, ink_cons hc, ink_cons_blank hd]
    split
    · next h => rw [(ink_eq_nil_iff text).2 h, ink_nil]
    · rw [ink_cons_blank isBlank_space, ih]
  | inWord c d text hc hd ih => rw [normalize_cons_cons hc hd, ink_cons hc, ink_cons hc, ih]

theorem normalize_cons {c : Char} (h : isBlank c = false) (text : List Char) :
    ∃ rest, normalize (c :: text) = c :: rest := by
  cases text with
  | nil => exact ⟨[], normalize_singleton h⟩
  | cons d text =>
    cases hd : isBlank d with
    | true => exact ⟨_, normalize_cons_cons_blank h hd text⟩
    | false => exact ⟨_, normalize_cons_cons h hd text⟩

theorem words_normalize (text : List Char) : words (normalize text) = words text := by
  induction text using layout_induction with
  | nil => simp
  | blank c text hc ih => rw [normalize_cons_blank hc, words_cons_blank hc, ih]
  | letter c hc => rw [normalize_singleton hc]
  | wordEnd c d text hc hd ih =>
    rw [normalize_cons_cons_blank hc hd, words_cons_cons_blank hc hd]
    split
    · next h => rw [words_singleton hc, h]
    · rw [words_cons_cons_blank hc isBlank_space, ih]
  | inWord c d text hc hd ih =>
    obtain ⟨rest, hr⟩ := normalize_cons hd text
    rw [normalize_cons_cons hc hd, words_cons_cons hc hd, ← ih, hr, words_cons_cons hc hd]

theorem normalize_congr {text text' : List Char} (h : words text = words text') :
    normalize text = normalize text' := by
  rw [normalize, h, normalize]

@[simp] theorem normalize_normalize (text : List Char) :
    normalize (normalize text) = normalize text :=
  normalize_congr (words_normalize text)

theorem words_trimStart (text : List Char) : words (trimStart text) = words text := by
  induction text with
  | nil => rfl
  | cons c text ih =>
    cases hc : isBlank c with
    | true => rw [words_cons_blank hc, ← ih, trimStart, List.dropWhile_cons_of_pos hc, trimStart]
    | false => rw [trimStart, List.dropWhile_cons_of_neg (by simp [hc])]

theorem words_trimEnd (text : List Char) : words (trimEnd text) = words text := by
  induction text using List.reverseRecOn with
  | nil => rfl
  | append_singleton text c ih =>
    cases hc : isBlank c with
    | true =>
      rw [words_append_blank hc, words_nil, List.append_nil, ← ih, trimEnd, trimEnd]
      simp [trimStart, hc]
    | false => simp [trimEnd, trimStart, hc]

@[simp] theorem words_trim (text : List Char) : words (trim text) = words text := by
  rw [trim, words_trimEnd, words_trimStart]

@[simp] theorem normalize_trim (text : List Char) : normalize (trim text) = normalize text :=
  normalize_congr (words_trim text)

theorem trimEnd_eq_rdropWhile (text : List Char) : trimEnd text = text.rdropWhile isBlank := rfl

theorem trimStart_cons {c : Char} (h : isBlank c = false) (text : List Char) :
    trimStart (c :: text) = c :: text := by
  simp [trimStart, h]

theorem trimEnd_concat {c : Char} (h : isBlank c = false) (text : List Char) :
    trimEnd (text ++ [c]) = text ++ [c] := by
  rw [trimEnd_eq_rdropWhile, List.rdropWhile_concat_neg _ _ _ (by simp [h])]

/-- Blanks at the end of a text that follows a character that is not blank. -/
theorem trimEnd_append_cons {c : Char} (h : isBlank c = false) (front back : List Char) :
    trimEnd (front ++ c :: back) = front ++ c :: trimEnd back := by
  induction back using List.reverseRecOn with
  | nil => exact trimEnd_concat h front
  | append_singleton back d ih =>
    have assoc : front ++ c :: (back ++ [d]) = (front ++ c :: back) ++ [d] := by simp
    cases hd : isBlank d with
    | true =>
      rw [assoc, trimEnd_eq_rdropWhile, List.rdropWhile_concat_pos _ _ _ hd,
        ← trimEnd_eq_rdropWhile, ih, trimEnd_eq_rdropWhile (back ++ [d]),
        List.rdropWhile_concat_pos _ _ _ hd, ← trimEnd_eq_rdropWhile]
    | false => rw [assoc, trimEnd_concat hd, trimEnd_concat hd, ← assoc]

theorem trim_cons {c : Char} (h : isBlank c = false) (text : List Char) :
    trim (c :: text) = c :: trimEnd text := by
  rw [trim, trimStart_cons h]
  exact trimEnd_append_cons h [] text

theorem trim_cons_blank {c : Char} (h : isBlank c = true) (text : List Char) :
    trim (c :: text) = trim text := by
  simp [trim, trimStart, h]

@[simp] theorem trim_trim (text : List Char) : trim (trim text) = trim text := by
  induction text with
  | nil => rfl
  | cons c text ih =>
    cases hc : isBlank c with
    | true => rw [trim_cons_blank hc, ih]
    | false =>
      rw [trim_cons hc, trim_cons hc, trimEnd_eq_rdropWhile, trimEnd_eq_rdropWhile,
        List.rdropWhile_idempotent]

theorem trim_concat_blank {c : Char} (h : isBlank c = true) (text : List Char) :
    trim (text ++ [c]) = trim text := by
  induction text with
  | nil => exact trim_cons_blank h []
  | cons d text ih =>
    rw [List.cons_append]
    cases hd : isBlank d with
    | true => rw [trim_cons_blank hd, trim_cons_blank hd, ih]
    | false =>
      rw [trim_cons hd, trim_cons hd, trimEnd_eq_rdropWhile, List.rdropWhile_concat_pos _ _ _ h,
        ← trimEnd_eq_rdropWhile]

theorem isInfix_trim (text : List Char) : trim text <:+: text :=
  (List.rdropWhile_prefix isBlank (l := trimStart text)).isInfix.trans
    (List.dropWhile_suffix isBlank).isInfix

theorem trim_of_ink {text : List Char} (h : ∀ c ∈ text, isBlank c = false) : trim text = text := by
  have start : trimStart text = text := by
    cases text with
    | nil => rfl
    | cons c text => exact trimStart_cons (h c (List.mem_cons_self ..)) text
  rw [trim, start]
  cases text using List.reverseRecOn with
  | nil => rfl
  | append_singleton text c => exact trimEnd_concat (h c (by simp)) text

theorem trim_blanks_append {blanks : List Char} (hb : ∀ c ∈ blanks, isBlank c = true)
    (text : List Char) : trim (blanks ++ text) = trim text := by
  rw [trim, trimStart, List.dropWhile_append_of_pos hb, ← trimStart, ← trim]

theorem trim_eq_nil_iff (text : List Char) : trim text = [] ↔ words text = [] := by
  induction text with
  | nil => simp [trim, trimStart, trimEnd]
  | cons c text ih =>
    cases hc : isBlank c with
    | true => rw [trim_cons_blank hc, words_cons_blank hc, ih]
    | false => simp [trim_cons hc, words_cons_ne_nil hc]

/-- A check of all characters says something of each one. -/
theorem forall_not_of_all {p : Char → Bool} {text : List Char}
    (h : (text.all fun c => !p c) = true) : ∀ c ∈ text, p c = false := by
  simpa using h

theorem forall_not_mem_of_all {text other : List Char}
    (h : (text.all fun c => !other.contains c) = true) : ∀ c ∈ text, c ∉ other := by
  simpa using h

/-- Characters of one kind are taken up to the first one that is not. -/
theorem span_append {p : Char → Bool} {front back : List Char} (h : ∀ c ∈ front, p c = true)
    (other : ∀ c ∈ back.head?, p c = false) :
    (front ++ back).takeWhile p = front ∧ (front ++ back).dropWhile p = back := by
  rw [List.takeWhile_append_of_pos h, List.dropWhile_append_of_pos h]
  cases back with
  | nil => exact ⟨List.append_nil _, rfl⟩
  | cons c back =>
    have hc : ¬p c = true := ne_true_of_eq_false (other c rfl)
    rw [List.takeWhile_cons_of_neg hc, List.dropWhile_cons_of_neg hc, List.append_nil]
    exact ⟨rfl, rfl⟩

theorem intercalate_append {separator : List Char} {xs ys : List (List Char)} (hx : xs ≠ [])
    (hy : ys ≠ []) : separator.intercalate (xs ++ ys) =
      separator.intercalate xs ++ separator ++ separator.intercalate ys := by
  induction xs with
  | nil => exact absurd rfl hx
  | cons x xs ih =>
    cases xs with
    | nil =>
      obtain ⟨y, ys, rfl⟩ := List.exists_cons_of_ne_nil hy
      simp [List.intercalate_cons_cons]
    | cons x' xs =>
      have := ih (List.cons_ne_nil _ _)
      rw [List.cons_append] at this
      rw [List.cons_append, List.cons_append, List.intercalate_cons_cons, this,
        List.intercalate_cons_cons]
      simp only [List.append_assoc]

/-- A text that is laid out as the parser reads it. -/
def IsNormal (text : List Char) : Prop :=
  normalize text = text

theorem isNormal_normalize (text : List Char) : IsNormal (normalize text) :=
  normalize_normalize text

theorem isNormal_of_ink {text : List Char} (h : ∀ c ∈ text, isBlank c = false) : IsNormal text := by
  induction text using layout_induction with
  | nil => exact normalize_nil
  | blank c text hc ih => exact absurd (h c (List.mem_cons_self ..)) (by simp [hc])
  | letter c hc => exact normalize_singleton hc
  | wordEnd c d text hc hd ih => exact absurd (h d (by simp)) (by simp [hd])
  | inWord c d text hc hd ih =>
    rw [IsNormal, normalize_cons_cons hc hd, ih fun e he => h e (List.mem_cons_of_mem c he)]

/-- The two sides of a blank within a normal text are normal, and the blank is a plain space. -/
theorem IsNormal.sides {c : Char} {front back : List Char} (h : IsNormal (front ++ c :: back))
    (hc : isBlank c = true) :
    IsNormal front ∧ c = ' ' ∧ IsNormal back ∧ words front ≠ [] ∧ words back ≠ [] := by
  have hfront := length_normalize_le front
  have hback := length_normalize_le back
  have hlength := congrArg List.length h
  rw [IsNormal, normalize, words_append_blank hc] at h
  simp only [List.length_append, List.length_cons] at hlength
  -- A side without words would make the normal form shorter than the text.
  by_cases hf : words front = []
  · rw [normalize, words_append_blank hc, hf, List.nil_append, ← normalize] at hlength
    omega
  by_cases hb : words back = []
  · rw [normalize, words_append_blank hc, hb, List.append_nil, ← normalize] at hlength
    omega
  rw [intercalate_append hf hb, ← normalize, ← normalize, List.append_assoc] at h
  have hlengths := congrArg List.length h
  simp only [List.length_append, List.length_cons, List.length_nil] at hlengths
  obtain ⟨hf', hr⟩ := List.append_inj h (by omega)
  obtain ⟨hc', hb'⟩ := List.cons.inj hr
  exact ⟨hf', hc'.symm, hb', hf, hb⟩

theorem IsNormal.isBlank_head {c : Char} {text : List Char} (h : IsNormal (c :: text)) :
    isBlank c = false := by
  by_contra hc
  obtain ⟨-, -, -, hw, -⟩ := IsNormal.sides (show IsNormal ([] ++ c :: text) from h) (by simpa using hc)
  exact hw words_nil

theorem IsNormal.isBlank_last {c : Char} {text : List Char} (h : IsNormal (text ++ [c])) :
    isBlank c = false := by
  by_contra hc
  obtain ⟨-, -, -, -, hw⟩ := IsNormal.sides h (by simpa using hc)
  exact hw words_nil

/-- A normal text has no blanks to trim behind any place. -/
theorem IsNormal.trimEnd_back (front : List Char) {back : List Char} (h : IsNormal (front ++ back)) :
    trimEnd back = back := by
  cases hb : back using List.reverseRecOn with
  | nil => rfl
  | append_singleton text c =>
    rw [hb, ← List.append_assoc] at h
    exact trimEnd_concat h.isBlank_last text

/-- Only blanks in front of the rest of a normal text are trimmed. -/
theorem IsNormal.takeWhile_append_trim (front : List Char) {back : List Char}
    (h : IsNormal (front ++ back)) :
    back.takeWhile isBlank ++ trim back = back := by
  have hn : IsNormal ((front ++ back.takeWhile isBlank) ++ trimStart back) := by
    rwa [List.append_assoc, trimStart, List.takeWhile_append_dropWhile]
  rw [trim, hn.trimEnd_back _, trimStart, List.takeWhile_append_dropWhile]

theorem IsNormal.trimStart_eq {text : List Char} (h : IsNormal text) : trimStart text = text := by
  cases text with
  | nil => rfl
  | cons c text => exact trimStart_cons h.isBlank_head text

theorem IsNormal.trim_eq {text : List Char} (h : IsNormal text) : trim text = text := by
  rw [trim, h.trimStart_eq]
  exact IsNormal.trimEnd_back [] h

/-- The text with one space for each run of blanks, or none for a run at its start if a blank comes
before it. -/
def squeeze : Bool → List Char → List Char
  | _, [] => []
  | afterBlank, c :: text =>
    if isBlank c then
      if afterBlank then squeeze true text else ' ' :: squeeze true text
    else c :: squeeze false text

theorem squeeze_cons {c : Char} (h : isBlank c = false) (afterBlank : Bool) (text : List Char) :
    squeeze afterBlank (c :: text) = c :: squeeze false text := by
  simp [squeeze, h]

theorem squeeze_true_cons_blank {c : Char} (h : isBlank c = true) (text : List Char) :
    squeeze true (c :: text) = squeeze true text := by
  simp [squeeze, h]

theorem squeeze_false_cons_blank {c : Char} (h : isBlank c = true) (text : List Char) :
    squeeze false (c :: text) = ' ' :: squeeze true text := by
  simp [squeeze, h]

theorem squeeze_append_cons {c : Char} (h : isBlank c = false) (afterBlank : Bool)
    (front back : List Char) : squeeze afterBlank (front ++ c :: back) =
      squeeze afterBlank front ++ c :: squeeze false back := by
  induction front generalizing afterBlank with
  | nil => exact squeeze_cons h afterBlank back
  | cons d front ih =>
    simp only [List.cons_append, squeeze, ih]
    split
    · split <;> rfl
    · rfl

/-- Squeezing changes blanks only. -/
theorem words_squeeze (afterBlank : Bool) (text : List Char) :
    words (squeeze afterBlank text) = words text := by
  induction text using layout_induction generalizing afterBlank with
  | nil => rfl
  | blank c text hc ih =>
    rw [words_cons_blank hc, squeeze, if_pos hc]
    split
    · exact ih true
    · rw [words_cons_blank isBlank_space, ih]
  | letter c hc => rw [squeeze_cons hc, squeeze]
  | wordEnd c d text hc hd ih =>
    rw [squeeze_cons hc, squeeze_false_cons_blank hd, words_cons_cons_blank hc isBlank_space,
      words_cons_cons_blank hc hd, ih]
  | inWord c d text hc hd ih =>
    rw [squeeze_cons hc, squeeze_cons hd, words_cons_cons hc hd, words_cons_cons hc hd,
      ← squeeze_cons hd false, ih]

/-- A text that does not end in a blank is squeezed into its normal form. -/
theorem squeeze_eq_normalize (text : List Char) (h : ∀ c ∈ text.getLast?, isBlank c = false) :
    squeeze true text = normalize text := by
  induction text using layout_induction with
  | nil => rfl
  | blank c text hc ih =>
    rw [squeeze_true_cons_blank hc, normalize_cons_blank hc]
    cases text with
    | nil => rfl
    | cons d text => exact ih (by simpa using h)
  | letter c hc => rw [squeeze_cons hc, squeeze, normalize_singleton hc]
  | wordEnd c d text hc hd ih =>
    cases text using List.reverseRecOn with
    | nil => simp [hd] at h
    | append_singleton text e =>
      have he : isBlank e = false := h e (List.getLast?_concat (l := c :: d :: text))
      have hw : words (text ++ [e]) ≠ [] := by
        rw [ne_eq, ← ink_eq_nil_iff, ink_append, ink_cons he]
        simp
      rw [squeeze_cons hc, squeeze_false_cons_blank hd, normalize_cons_cons_blank hc hd, if_neg hw,
        ih (by simpa using he)]
  | inWord c d text hc hd ih =>
    rw [squeeze_cons hc, normalize_cons_cons hc hd, ← ih (by simpa using h), squeeze_cons hd,
      squeeze_cons hd]

theorem length_squeeze_le (afterBlank : Bool) (text : List Char) :
    (squeeze afterBlank text).length ≤ text.length := by
  induction text generalizing afterBlank with
  | nil => exact Nat.le_refl 0
  | cons c text ih =>
    rw [squeeze]
    split
    · split
      · exact Nat.le_succ_of_le (ih true)
      · exact Nat.succ_le_succ (ih true)
    · exact Nat.succ_le_succ (ih false)

theorem squeeze_append (afterBlank : Bool) (front back : List Char) :
    ∃ between, squeeze afterBlank (front ++ back) =
      squeeze afterBlank front ++ squeeze between back := by
  induction front generalizing afterBlank with
  | nil => exact ⟨afterBlank, rfl⟩
  | cons c front ih =>
    obtain ⟨between, blank⟩ := ih true
    obtain ⟨between', other⟩ := ih false
    simp only [List.cons_append, squeeze]
    split
    · split
      · exact ⟨between, blank⟩
      · exact ⟨between, congrArg (' ' :: ·) blank⟩
    · exact ⟨between', congrArg (c :: ·) other⟩

/-- No part of a normal text has a blank to squeeze out. -/
theorem IsNormal.squeeze_parts {front back : List Char} (h : IsNormal (front ++ back)) :
    squeeze true front = front ∧ ∃ between, squeeze between back = back := by
  have last : ∀ c ∈ (front ++ back).getLast?, isBlank c = false := by
    intro c hc
    obtain ⟨text, ht⟩ := List.getLast?_eq_some_iff.1 hc
    rw [ht] at h
    exact h.isBlank_last
  have whole : squeeze true (front ++ back) = front ++ back := (squeeze_eq_normalize _ last).trans h
  obtain ⟨between, apart⟩ := squeeze_append true front back
  rw [apart] at whole
  have lengths := congrArg List.length whole
  have front_le := length_squeeze_le true front
  have back_le := length_squeeze_le between back
  rw [List.length_append, List.length_append] at lengths
  obtain ⟨hf, hb⟩ := List.append_inj whole (by omega)
  exact ⟨hf, between, hb⟩

theorem IsNormal.trim_front {front back : List Char} (h : IsNormal (front ++ back)) :
    IsNormal (trim front) := by
  induction front using List.reverseRecOn generalizing back with
  | nil => exact normalize_nil
  | append_singleton front c ih =>
    cases hc : isBlank c with
    | true =>
      rw [trim_concat_blank hc]
      exact ih (by rwa [List.append_assoc] at h)
    | false =>
      have normal : IsNormal (front ++ [c]) := by
        rw [IsNormal, ← squeeze_eq_normalize _ (by simpa using hc)]
        exact h.squeeze_parts.1
      rwa [normal.trim_eq]

theorem IsNormal.trim_back {front back : List Char} (h : IsNormal (front ++ back)) :
    IsNormal (trim back) := by
  induction back generalizing front with
  | nil => exact normalize_nil
  | cons c back ih =>
    cases hc : isBlank c with
    | true =>
      have further : IsNormal (front ++ [c] ++ back) := by rwa [List.append_assoc]
      rw [trim_cons_blank hc]
      exact ih further
    | false =>
      have last : ∀ d ∈ (c :: back).getLast?, isBlank d = false := by
        intro d hd
        obtain ⟨text, ht⟩ := List.getLast?_eq_some_iff.1 hd
        rw [ht, ← List.append_assoc] at h
        exact h.isBlank_last
      have normal : IsNormal (c :: back) := by
        obtain ⟨between, squeezed⟩ := h.squeeze_parts.2
        rw [squeeze_cons hc] at squeezed
        rw [IsNormal, ← squeeze_eq_normalize _ last, squeeze_cons hc, squeezed]
      rwa [normal.trim_eq]

/-- Within a normal text everything is normal but for the blanks at its ends. -/
theorem IsNormal.trim_within {front part back : List Char}
    (h : IsNormal (front ++ (part ++ back))) : IsNormal (trim part) := by
  induction part generalizing front with
  | nil => exact normalize_nil
  | cons c part ih =>
    cases hc : isBlank c with
    | true =>
      have further : IsNormal (front ++ [c] ++ (part ++ back)) := by simpa using h
      rw [trim_cons_blank hc]
      exact ih further
    | false =>
      have last : trimEnd (part ++ back) = part ++ back :=
        IsNormal.trimEnd_back (front ++ [c]) (by simpa using h)
      have normal := h.trim_back
      rw [List.cons_append, trim_cons hc, last, ← List.cons_append] at normal
      exact normal.trim_front

/-- A part of a normal text has its normal form within the text. -/
theorem IsNormal.normalize_within {text part : List Char} (hn : IsNormal text) (h : part <:+: text) :
    normalize part <:+: text := by
  obtain ⟨front, back, rfl⟩ := h
  rw [List.append_assoc] at hn
  have normal : normalize part = trim part := by rw [← normalize_trim, hn.trim_within]
  rw [normal]
  exact (isInfix_trim part).trans (List.infix_append front part back)

/-- The normal forms of two texts around a blank, unless the second one is blank. -/
theorem normalize_append_blank {c : Char} (hc : isBlank c = true) {front : List Char}
    (hf : words front ≠ []) (back : List Char) :
    normalize (front ++ c :: back) =
      normalize front ++ if words back = [] then [] else ' ' :: normalize back := by
  rw [normalize, words_append_blank hc, normalize, normalize]
  split
  · next hb => rw [hb, List.append_nil, List.append_nil]
  · next hb => rw [intercalate_append hf hb, List.append_assoc, List.singleton_append]

/-- Two normal texts with a space between them are one. -/
theorem IsNormal.append_space {front back : List Char} (hf : IsNormal front) (ne : front ≠ [])
    (hb : IsNormal back) (ne' : back ≠ []) : IsNormal (front ++ ' ' :: back) := by
  have shown {text : List Char} (hn : IsNormal text) (ne : text ≠ []) : words text ≠ [] := by
    rw [ne_eq, ← normalize_eq_nil_iff, hn]
    exact ne
  rw [IsNormal, normalize_append_blank isBlank_space (shown hf ne), if_neg (shown hb ne'), hf, hb]

theorem ink_trim (text : List Char) : ink (trim text) = ink text := by
  rw [← ink_normalize, normalize_trim, ink_normalize]

end Gatekeeper.Text
