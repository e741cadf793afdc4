import Gatekeeper.Proofs.Composition
import Gatekeeper.Proofs.Refusal
import Mathlib.Logic.Relation

/-!
# Spacing

Which blanks of an expression do not count: how many there are between two words and of which kind,
those at its ends, and those beside a bracket or a semicolon. Texts that differ in such blanks only
have the same tokens, which are their words once every bracket and semicolon stands alone. The grammar
goes by the tokens: what it derives from a text it derives from every other text that has them.
-/
namespace Gatekeeper.Text

/-- The characters beside which blanks do not count. -/
def isSign (c : Char) : Bool :=
  c == '[' || c == ']' || c == ';'

/-- The characters that words are made of. -/
def inWord (c : Char) : Bool :=
  !isBlank c && !isSign c

/-- A change of blanks that do not count. -/
inductive Edit : List Char → List Char → Prop where
  | run (front back : List Char) {blanks blanks' : List Char} (ne : blanks ≠ []) (ne' : blanks' ≠ [])
      (hb : ∀ c ∈ blanks, isBlank c = true) (hb' : ∀ c ∈ blanks', isBlank c = true) :
      Edit (front ++ blanks ++ back) (front ++ blanks' ++ back)
  | first (text : List Char) {blanks : List Char} (hb : ∀ c ∈ blanks, isBlank c = true) :
      Edit text (blanks ++ text)
  | last (text : List Char) {blanks : List Char} (hb : ∀ c ∈ blanks, isBlank c = true) :
      Edit text (text ++ blanks)
  | before (front back : List Char) {c : Char} {blanks : List Char} (hc : isSign c = true)
      (hb : ∀ c ∈ blanks, isBlank c = true) : Edit (front ++ c :: back) (front ++ blanks ++ c :: back)
  | behind (front back : List Char) {c : Char} {blanks : List Char} (hc : isSign c = true)
      (hb : ∀ c ∈ blanks, isBlank c = true) :
      Edit (front ++ c :: back) (front ++ c :: (blanks ++ back))

/-- Texts that come from one another by any number of such changes, made or undone. -/
def SameLayout : List Char → List Char → Prop :=
  Relation.EqvGen Edit

/-- A text in which blanks stand around every sign. -/
def spread (text : List Char) : List Char :=
  text.flatMap fun c => if isSign c then [' ', c, ' '] else [c]

/-- The words and the signs of a text. -/
def tokens (text : List Char) : List (List Char) :=
  words (spread text)

/-! ## Tokens -/

theorem isBlank_of_isSign {c : Char} (h : isSign c = true) : isBlank c = false := by
  simp only [isSign, Bool.or_eq_true, beq_iff_eq] at h
  rcases h with (rfl | rfl) | rfl <;> decide

theorem isSign_of_isBlank {c : Char} (h : isBlank c = true) : isSign c = false := by
  by_contra hc
  rw [isBlank_of_isSign (by simpa using hc)] at h
  cases h

theorem spread_append (front back : List Char) : spread (front ++ back) = spread front ++ spread back := by
  simp [spread]

theorem spread_cons {c : Char} (h : isSign c = false) (text : List Char) :
    spread (c :: text) = c :: spread text := by
  simp [spread, h]

theorem spread_cons_sign {c : Char} (h : isSign c = true) (text : List Char) :
    spread (c :: text) = ' ' :: c :: ' ' :: spread text := by
  simp [spread, h]

/-- A text without signs stays as it is. -/
theorem spread_eq {text : List Char} (h : ∀ c ∈ text, isSign c = false) : spread text = text := by
  induction text with
  | nil => rfl
  | cons c text ih =>
    obtain ⟨hc, ht⟩ := List.forall_mem_cons.1 h
    rw [spread_cons hc, ih ht]

@[simp] theorem tokens_nil : tokens [] = [] := words_nil

theorem tokens_eq_words {text : List Char} (h : ∀ c ∈ text, isSign c = false) :
    tokens text = words text := by
  rw [tokens, spread_eq h]

/-- A blank ends one token and starts the next. -/
theorem tokens_append_blank {c : Char} (h : isBlank c = true) (front back : List Char) :
    tokens (front ++ c :: back) = tokens front ++ tokens back := by
  rw [tokens, spread_append, spread_cons (isSign_of_isBlank h), words_append_blank h, tokens, tokens]

/-- So does a sign, which is a token itself. -/
theorem tokens_append_sign {c : Char} (h : isSign c = true) (front back : List Char) :
    tokens (front ++ c :: back) = tokens front ++ [c] :: tokens back := by
  have alone : words (c :: ' ' :: spread back) = [c] :: words (spread back) :=
    words_cons_cons_blank (isBlank_of_isSign h) isBlank_space _
  rw [tokens, spread_append, spread_cons_sign h, words_append_blank isBlank_space, alone, tokens, tokens]

theorem tokens_cons_blank {c : Char} (h : isBlank c = true) (text : List Char) :
    tokens (c :: text) = tokens text := by
  simpa using tokens_append_blank h [] text

theorem tokens_cons_sign {c : Char} (h : isSign c = true) (text : List Char) :
    tokens (c :: text) = [c] :: tokens text := by
  simpa using tokens_append_sign h [] text

theorem tokens_blanks_append {blanks : List Char} (h : ∀ c ∈ blanks, isBlank c = true)
    (text : List Char) : tokens (blanks ++ text) = tokens text := by
  induction blanks with
  | nil => rfl
  | cons c blanks ih =>
    obtain ⟨hc, hb⟩ := List.forall_mem_cons.1 h
    rw [List.cons_append, tokens_cons_blank hc, ih hb]

theorem tokens_append_blanks {blanks : List Char} (h : ∀ c ∈ blanks, isBlank c = true)
    (text : List Char) : tokens (text ++ blanks) = tokens text := by
  cases blanks with
  | nil => rw [List.append_nil]
  | cons c blanks =>
    obtain ⟨hc, hb⟩ := List.forall_mem_cons.1 h
    have none : tokens blanks = [] := by simpa using tokens_blanks_append hb []
    rw [tokens_append_blank hc, none, List.append_nil]

/-- A run of blanks only keeps the tokens around it apart. -/
theorem tokens_append_run {blanks : List Char} (ne : blanks ≠ []) (h : ∀ c ∈ blanks, isBlank c = true)
    (front back : List Char) : tokens (front ++ blanks ++ back) = tokens front ++ tokens back := by
  obtain ⟨c, blanks, rfl⟩ := List.exists_cons_of_ne_nil ne
  obtain ⟨hc, hb⟩ := List.forall_mem_cons.1 h
  rw [List.append_assoc, List.cons_append, tokens_append_blank hc, tokens_blanks_append hb]

theorem Edit.tokens_eq {text text' : List Char} (h : Edit text text') :
    tokens text = tokens text' := by
  cases h with
  | run front back ne ne' hb hb' => rw [tokens_append_run ne hb, tokens_append_run ne' hb']
  | first text hb => rw [tokens_blanks_append hb]
  | last text hb => rw [tokens_append_blanks hb]
  | before front back hc hb =>
    rw [tokens_append_sign hc, tokens_append_sign hc, tokens_append_blanks hb]
  | behind front back hc hb =>
    rw [tokens_append_sign hc, tokens_append_sign hc, tokens_blanks_append hb]

/-- Blanks that do not count are in no token. -/
theorem SameLayout.tokens_eq {text text' : List Char} (h : SameLayout text text') :
    tokens text = tokens text' := by
  induction h with
  | rel _ _ h => exact h.tokens_eq
  | refl _ => rfl
  | symm _ _ _ ih => exact ih.symm
  | trans _ _ _ _ _ ih ih' => exact ih.trans ih'

theorem words_of_ink {word : List Char} (ne : word ≠ []) (h : ∀ c ∈ word, isBlank c = false) :
    words word = [word] := by
  induction word with
  | nil => exact absurd rfl ne
  | cons c word ih =>
    obtain ⟨hc, hw⟩ := List.forall_mem_cons.1 h
    cases word with
    | nil => exact words_singleton hc
    | cons d word =>
      rw [words_cons_cons hc (hw d (List.mem_cons_self ..)), ih (List.cons_ne_nil _ _) hw]
      rfl

theorem flatten_words (text : List Char) : (words text).flatten = ink text := by
  induction text using layout_induction with
  | nil => simp
  | blank c text hc ih => rw [words_cons_blank hc, ink_cons_blank hc, ih]
  | letter c hc => simp [words_singleton hc, ink_cons hc]
  | wordEnd c d text hc hd ih =>
    rw [words_cons_cons_blank hc hd, ink_cons hc, ink_cons_blank hd, List.flatten_cons, ih]
    rfl
  | inWord c d text hc hd ih =>
    obtain ⟨word, rest, hw⟩ := List.exists_cons_of_ne_nil (words_cons_ne_nil hd text)
    rw [words_cons_cons hc hd, ink_cons hc, ← ih, hw]
    rfl

/-- The tokens have all that is not blank. -/
theorem flatten_tokens (text : List Char) : (tokens text).flatten = ink text := by
  rw [tokens, flatten_words]
  induction text with
  | nil => rfl
  | cons c text ih =>
    cases hc : isSign c with
    | true =>
      have ht := isBlank_of_isSign hc
      rw [spread_cons_sign hc, ink_cons_blank isBlank_space, ink_cons ht, ink_cons_blank isBlank_space,
        ih, ink_cons ht]
    | false =>
      rw [spread_cons hc]
      cases hb : isBlank c with
      | true => rw [ink_cons_blank hb, ink_cons_blank hb, ih]
      | false => rw [ink_cons hb, ink_cons hb, ih]

theorem ink_congr {text text' : List Char} (h : tokens text = tokens text') : ink text = ink text' := by
  rw [← flatten_tokens, h, flatten_tokens]

theorem mem_ink_iff (c : Char) (text : List Char) : c ∈ ink text ↔ c ∈ text ∧ isBlank c = false := by
  simp [ink]

theorem tokens_eq_nil_iff (text : List Char) : tokens text = [] ↔ ∀ c ∈ text, isBlank c = true := by
  constructor
  · intro h c hc
    by_contra hb
    have hm : c ∈ ink text := (mem_ink_iff c text).2 ⟨hc, by simpa using hb⟩
    rw [← flatten_tokens, h] at hm
    cases hm
  · intro h
    simpa using tokens_blanks_append h []

/-- The start of a text up to its first blank or sign is a token. -/
theorem tokens_word_append {word : List Char} (ne : word ≠ []) (h : ∀ c ∈ word, inWord c = true)
    {back : List Char} (hb : ∀ c ∈ back.head?, inWord c = false) :
    tokens (word ++ back) = word :: tokens back := by
  have plain : ∀ c ∈ word, isBlank c = false ∧ isSign c = false := by simpa [inWord] using h
  have alone : tokens word = [word] := by
    rw [tokens_eq_words fun c hc => (plain c hc).2, words_of_ink ne fun c hc => (plain c hc).1]
  cases back with
  | nil => rw [List.append_nil, alone, tokens_nil]
  | cons c back =>
    cases hc : isBlank c with
    | true =>
      rw [tokens_append_blank hc, alone, tokens_cons_blank hc]
      rfl
    | false =>
      have hs : isSign c = true := by simpa [inWord, hc] using hb c rfl
      rw [tokens_append_sign hs, alone, tokens_cons_sign hs]
      rfl

theorem tokens_word {word : List Char} (ne : word ≠ []) (h : ∀ c ∈ word, inWord c = true) :
    tokens word = [word] := by
  have := @tokens_word_append word ne h [] (by simp)
  rwa [List.append_nil, tokens_nil] at this

/-- Induction on a text by its first token. -/
theorem token_induction {motive : List Char → Prop} (nil : motive [])
    (blank : ∀ c text, isBlank c = true → motive text → motive (c :: text))
    (sign : ∀ c text, isSign c = true → motive text → motive (c :: text))
    (word : ∀ word back, word ≠ [] → (∀ c ∈ word, inWord c = true) →
      (∀ c ∈ back.head?, inWord c = false) → motive back → motive (word ++ back)) :
    ∀ text, motive text
  | [] => nil
  | c :: text => by
    cases hb : isBlank c with
    | true => exact blank c text hb (token_induction nil blank sign word text)
    | false =>
      cases hs : isSign c with
      | true => exact sign c text hs (token_induction nil blank sign word text)
      | false =>
        have hc : inWord c = true := by simp [inWord, hb, hs]
        have start : ∀ d ∈ text.takeWhile inWord, inWord d = true := fun d hd =>
          List.mem_takeWhile_imp hd
        have back : ∀ d ∈ (text.dropWhile inWord).head?, inWord d = false := by
          intro d hd
          have := List.head?_dropWhile_not inWord text
          rw [Option.mem_def.1 hd] at this
          simpa using this
        have shorter : (text.dropWhile inWord).length ≤ text.length :=
          (List.dropWhile_suffix inWord).length_le
        have := word (c :: text.takeWhile inWord) (text.dropWhile inWord) (List.cons_ne_nil _ _)
          (List.forall_mem_cons.2 ⟨hc, start⟩) back
          (token_induction nil blank sign word (text.dropWhile inWord))
        rwa [List.cons_append, List.takeWhile_append_dropWhile] at this
  termination_by text => text.length

theorem tokens_cons_cons {c d : Char} (hc : isBlank c = false) (hs : isSign c = false)
    (hd : isBlank d = false) (text : List Char) :
    tokens (c :: d :: text) = if isSign d then [c] :: tokens (d :: text)
      else (tokens (d :: text)).modifyHead (c :: ·) := by
  cases hd' : isSign d with
  | true =>
    have alone : tokens [c] = [[c]] := by rw [tokens_eq_words (by simpa using hs), words_singleton hc]
    have apart : tokens (c :: d :: text) = tokens [c] ++ [d] :: tokens text :=
      tokens_append_sign hd' [c] text
    rw [if_pos rfl, tokens_cons_sign hd', apart, alone]
    rfl
  | false =>
    rw [if_neg Bool.false_ne_true, tokens, spread_cons hs, spread_cons hd', words_cons_cons hc hd,
      tokens, spread_cons hd']

/-- The normal form of a text has its tokens. -/
theorem tokens_normalize (text : List Char) : tokens (normalize text) = tokens text := by
  induction text using layout_induction with
  | nil => simp
  | blank c text hc ih => rw [normalize_cons_blank hc, tokens_cons_blank hc, ih]
  | letter c hc => rw [normalize_singleton hc]
  | wordEnd c d text hc hd ih =>
    have apart : tokens (c :: d :: text) = tokens [c] ++ tokens text := tokens_append_blank hd [c] text
    rw [normalize_cons_cons_blank hc hd, apart]
    split
    · next h =>
      rw [← ih, (normalize_eq_nil_iff text).2 h, tokens_nil, List.append_nil]
    · rw [← ih]
      exact tokens_append_blank isBlank_space [c] (normalize text)
  | inWord c d text hc hd ih =>
    obtain ⟨rest, hr⟩ := normalize_cons hd text
    rw [hr] at ih
    rw [normalize_cons_cons hc hd, hr]
    cases hs : isSign c with
    | true => rw [tokens_cons_sign hs, tokens_cons_sign hs, ih]
    | false => rw [tokens_cons_cons hc hs hd, tokens_cons_cons hc hs hd, ih]

/-- A sign among the tokens is a place of the text. -/
theorem exists_of_tokens_eq_append {c : Char} (hc : isSign c = true) {text : List Char}
    {left right : List (List Char)} (h : tokens text = left ++ [c] :: right) :
    ∃ front back, text = front ++ c :: back ∧ tokens front = left ∧ tokens back = right := by
  induction text using token_induction generalizing left with
  | nil => simp at h
  | blank d text hd ih =>
    rw [tokens_cons_blank hd] at h
    obtain ⟨front, back, rfl, hl, hr⟩ := ih h
    exact ⟨d :: front, back, rfl, by rw [tokens_cons_blank hd, hl], hr⟩
  | sign d text hd ih =>
    rw [tokens_cons_sign hd] at h
    cases left with
    | nil =>
      obtain ⟨he, rfl⟩ := List.cons.inj h
      obtain ⟨rfl, -⟩ := List.cons.inj he
      exact ⟨[], text, rfl, rfl, rfl⟩
    | cons token left =>
      obtain ⟨rfl, ht⟩ := List.cons.inj h
      obtain ⟨front, back, rfl, hl, hr⟩ := ih ht
      exact ⟨d :: front, back, rfl, by rw [tokens_cons_sign hd, hl], hr⟩
  | word word back ne hw hb ih =>
    rw [tokens_word_append ne hw hb] at h
    cases left with
    | nil =>
      obtain ⟨rfl, -⟩ := List.cons.inj h
      have := hw c (List.mem_singleton_self c)
      simp [inWord, hc] at this
    | cons token left =>
      obtain ⟨rfl, ht⟩ := List.cons.inj h
      obtain ⟨front, back', rfl, hl, hr⟩ := ih ht
      refine ⟨word ++ front, back', by rw [List.append_assoc], ?_, hr⟩
      rw [tokens_word_append ne hw, hl]
      intro d hd
      obtain ⟨front, rfl⟩ := List.head?_eq_some_iff.1 hd
      exact hb d rfl

/-- A word among the tokens that comes first is the start of the text. -/
theorem exists_of_tokens_eq_cons {word text : List Char} {rest : List (List Char)}
    (hw : ∀ c ∈ word, inWord c = true) (first : ∀ c ∈ text.head?, isBlank c = false)
    (h : tokens text = word :: rest) :
    ∃ back, text = word ++ back ∧ (∀ c ∈ back.head?, inWord c = false) ∧ tokens back = rest := by
  induction text using token_induction with
  | nil => simp at h
  | blank c text hc =>
    rw [first c rfl] at hc
    cases hc
  | sign c text hc =>
    rw [tokens_cons_sign hc] at h
    obtain ⟨rfl, -⟩ := List.cons.inj h
    have := hw c (List.mem_singleton_self c)
    simp [inWord, hc] at this
  | word word' back ne hw' hb =>
    rw [tokens_word_append ne hw' hb] at h
    obtain ⟨rfl, hr⟩ := List.cons.inj h
    exact ⟨back, rfl, hb, hr⟩

theorem IsNormal.isBlank_head? {text : List Char} (h : IsNormal text) :
    ∀ c ∈ text.head?, isBlank c = false := by
  intro c hc
  obtain ⟨rest, rfl⟩ := List.head?_eq_some_iff.1 hc
  exact h.isBlank_head

/-- A normal text does not end with blanks. -/
theorem IsNormal.eq_nil_of_blank (front : List Char) {back : List Char} (h : IsNormal (front ++ back))
    (hb : ∀ c ∈ back, isBlank c = true) : back = [] := by
  rw [← h.trimEnd_back front, trimEnd_eq_rdropWhile, List.rdropWhile_eq_nil_iff]
  exact hb

end Gatekeeper.Text

namespace Gatekeeper.Grammar

open Text Gatekeeper.Bracket Gatekeeper.Parser Condition

/-! ## Reading goes by the tokens -/

theorem isPiece_congr {text text' : List Char} (h : tokens text = tokens text') :
    IsPiece text ↔ IsPiece text' := by
  rw [← isPiece_ink_iff, ink_congr h, isPiece_ink_iff]

/-- A content with the tokens of another one is cut at the same semicolons. -/
theorem exists_pieces_of_tokens_eq {pieces : List (List Char)} (ne : pieces ≠ []) {content : List Char}
    (h : tokens content = tokens ([';'].intercalate pieces)) :
    ∃ pieces', content = [';'].intercalate pieces' ∧
      List.Forall₂ (fun piece' piece => tokens piece' = tokens piece) pieces' pieces := by
  induction pieces generalizing content with
  | nil => exact absurd rfl ne
  | cons piece pieces ih =>
    cases pieces with
    | nil => exact ⟨[content], by simp, .cons (by simpa using h) .nil⟩
    | cons next pieces =>
      rw [List.intercalate_cons_cons, List.append_assoc, List.singleton_append,
        tokens_append_sign (by decide)] at h
      obtain ⟨front, back, rfl, hf, hb⟩ := exists_of_tokens_eq_append (by decide) h
      obtain ⟨pieces', rfl, hp⟩ := ih (List.cons_ne_nil _ _) hb
      refine ⟨front :: pieces', ?_, .cons hf hp⟩
      obtain ⟨piece', pieces', rfl⟩ : ∃ piece' rest, pieces' = piece' :: rest := by
        cases hp with
        | cons => exact ⟨_, _, rfl⟩
      rw [List.intercalate_cons_cons, List.append_assoc, List.singleton_append]

theorem listed_congr {pieces pieces' : List (List Char)}
    (h : List.Forall₂ (fun piece' piece => tokens piece' = tokens piece) pieces' pieces) :
    List.Forall₂ (fun piece' piece => tokens piece' = tokens piece) (listed pieces') (listed pieces) := by
  refine List.rel_filter (fun piece' piece hp => ?_) h
  show piece'.any (!isBlank ·) = true ↔ piece.any (!isBlank ·) = true
  rw [any_not_isBlank_iff, any_not_isBlank_iff, ne_eq, ne_eq, ← ink_eq_nil_iff, ← ink_eq_nil_iff,
    ink_congr hp]

theorem forall₂_trans {α β γ : Type} {R : α → β → Prop} {S : β → γ → Prop} {T : α → γ → Prop}
    {xs : List α} {ys : List β} {zs : List γ} (h : List.Forall₂ R xs ys) (h' : List.Forall₂ S ys zs)
    (ht : ∀ x y z, R x y → S y z → T x z) : List.Forall₂ T xs zs := by
  induction h generalizing zs with
  | nil =>
    cases h'
    exact .nil
  | cons hr _ ih =>
    cases h' with
    | cons hs h' => exact .cons (ht _ _ _ hr hs) (ih h')

theorem inWord_of_spells {word : String} {front : List Char} (hw : word ∈ keywords)
    (h : Spells word front) : ∀ c ∈ front, inWord c = true := by
  intro c hc
  by_contra hn
  refine not_mem_of_spells hw h (c := c) ?_ hc
  simp only [inWord, isSign, Bool.and_eq_true, Bool.not_eq_true', not_and_or, Bool.not_eq_false,
    Bool.or_eq_true] at hn
  simp only [endsWord, Bool.or_eq_true]
  tauto

theorem ne_nil_of_spells {word : String} {front : List Char} (hw : word ∈ keywords)
    (h : Spells word front) : front ≠ [] := by
  rintro rfl
  have empty : word.toList = [] := List.forall₂_nil_right_iff.1 h
  have full : ∀ word ∈ keywords, word.toList ≠ [] := by decide
  exact full word hw empty

/-- A text that derives a condition does not start with a sign. -/
theorem Derives.head_ink {mark text : List Char} {t : Condition} (h : Derives mark text t)
    {c : Char} (hc : isSign c = true) : (ink text).head? ≠ some c := by
  have spelled {word : String} {front : List Char} (hw : word ∈ keywords) (hs : Spells word front)
      (back : List Char) : (ink (front ++ back)).head? ≠ some c := by
    obtain ⟨d, front, rfl⟩ := List.exists_cons_of_ne_nil (ne_nil_of_spells hw hs)
    have hd := inWord_of_spells hw hs d (List.mem_cons_self ..)
    simp only [inWord, Bool.and_eq_true, Bool.not_eq_true'] at hd
    rw [List.cons_append, ink_cons hd.1, List.head?_cons, ne_eq, Option.some_inj]
    rintro rfl
    rw [hd.2] at hc
    cases hc
  cases h with
  | group hw hs =>
    rw [List.append_assoc]
    exact spelled (keyword_of_mem_groupWords hw) hs _
  | not keyword =>
    obtain ⟨word, hw, front, d, hs, -, rfl⟩ := keyword
    have hk : ∀ w ∈ ["not"], w ∈ keywords := by decide
    exact spelled (hk word hw) hs _
  | leaf opening closing _ _ h =>
    intro he
    have hm : c ∈ text := ((mem_ink_iff c text).1 (List.mem_of_mem_head? he)).1
    simp only [isSign, Bool.or_eq_true, beq_iff_eq] at hc
    rcases hc with (rfl | rfl) | rfl
    · exact opening hm
    · exact closing hm
    · exact h.semicolon_not_mem hm

/-- Normal texts with the same tokens derive the same conditions. -/
theorem Derives.of_tokens_eq {mark text text' : List Char} {t : Condition} (h : Derives mark text t)
    (hn : IsNormal text) (hn' : IsNormal text') (he : tokens text' = tokens text) :
    Derives mark text' t := by
  induction h generalizing text' with
  | @group mode word front blanks pieces cs hw spelled hb cut ne length each ih =>
    have hk := keyword_of_mem_groupWords hw
    have hf := inWord_of_spells hk spelled
    have start : tokens (front ++ blanks) = [front] := by
      rw [tokens_append_blanks hb, tokens_word (ne_nil_of_spells hk spelled) hf]
    rw [tokens_append_sign (by decide), start, tokens_append_sign (by decide)] at he
    -- The keyword, the two brackets and the semicolons between them are places of the other text.
    obtain ⟨back, rfl, -, hback⟩ := exists_of_tokens_eq_cons hf hn'.isBlank_head? he
    obtain ⟨blanks', back, rfl, hblanks, hback⟩ :
        ∃ blanks' back', back = blanks' ++ '[' :: back' ∧ tokens blanks' = [] ∧ tokens back' = _ :=
      exists_of_tokens_eq_append (by decide) hback
    obtain ⟨content, last, rfl, hcontent, hlast⟩ := exists_of_tokens_eq_append (by decide) hback
    obtain ⟨pieces', rfl, hpieces⟩ :=
      exists_pieces_of_tokens_eq (fun hnil => ne (by rw [hnil]; rfl)) hcontent
    have whole : front ++ (blanks' ++ '[' :: ([';'].intercalate pieces' ++ ']' :: last)) =
        (front ++ blanks' ++ '[' :: ([';'].intercalate pieces' ++ [']'])) ++ last := by simp
    rw [whole] at hn' ⊢
    obtain rfl := hn'.eq_nil_of_blank _ ((tokens_eq_nil_iff last).1 hlast)
    rw [List.append_nil]
    have hlisted := listed_congr hpieces
    refine .group hw spelled ((tokens_eq_nil_iff blanks').1 hblanks) ?_ ?_ ?_ ?_
    · have both := (List.forall₂_and_left _ _).2 ⟨cut, hpieces.flip⟩
      have each' := both.flip.imp fun _ _ h => And.intro ((isPiece_congr h.2).2 h.1) h.2
      exact ((List.forall₂_and_left _ _).1 each').1
    · intro hnil
      rw [hnil, List.forall₂_nil_left_iff] at hlisted
      exact ne hlisted
    · rw [hlisted.length_eq, length]
    · have derived : List.Forall₂
          (fun piece c => ∀ text', IsNormal text' → tokens text' = tokens piece → Derives mark text' c)
          (listed pieces) cs := by
        refine List.forall₂_iff_zip.2 ⟨length, fun {piece c} hz text' hn' he => ?_⟩
        exact ih piece c hz (isNormal_normalize piece) hn' (he.trans (tokens_normalize piece).symm)
      have derived' : List.Forall₂ (fun piece' c => Derives mark (normalize piece') c)
          (listed pieces') cs :=
        forall₂_trans hlisted derived fun piece' piece c he hd =>
          hd _ (isNormal_normalize piece') ((tokens_normalize piece').trans he)
      exact fun piece' c hz => (List.forall₂_iff_zip.1 derived').2 hz
  | @not text back c keyword h ih =>
    obtain ⟨word, hw, front, d, hs, hd, rfl⟩ := keyword
    have hwords : ∀ w ∈ ["not"], w ∈ keywords := by decide
    have hk := hwords word hw
    have hf := inWord_of_spells hk hs
    rw [tokens_append_blank hd, tokens_word (ne_nil_of_spells hk hs) hf, List.singleton_append] at he
    obtain ⟨rest, rfl, first, hrest⟩ := exists_of_tokens_eq_cons hf hn'.isBlank_head? he
    rw [← tokens_normalize back] at hrest
    -- What follows the keyword starts with a word, so a blank must stand between the two.
    obtain ⟨e, rest, rfl⟩ : ∃ e rest', rest = e :: rest' := by
      refine List.exists_cons_of_ne_nil ?_
      rintro rfl
      rw [tokens_nil, eq_comm, tokens_eq_nil_iff] at hrest
      exact h.ne_nil ((isNormal_normalize back).eq_nil_of_blank [] hrest)
    have blank : isBlank e = true := by
      by_contra hb
      have hsign : isSign e = true := by
        have hb' : isBlank e = false := by simpa using hb
        simpa [inWord, hb'] using first e rfl
      rw [tokens_cons_sign hsign] at hrest
      refine h.head_ink hsign ?_
      rw [← flatten_tokens, ← hrest]
      rfl
    rw [tokens_cons_blank blank] at hrest
    refine .not ⟨word, hw, front, e, hs, blank, rfl⟩ ?_
    exact ih (isNormal_normalize back) (isNormal_normalize rest) ((tokens_normalize rest).trans hrest)
  | @leaf text c opening closing bare keyword leaf =>
    have plain : ∀ c ∈ text, isSign c = false := by
      intro c hc
      by_contra hs
      simp only [isSign, Bool.not_eq_false, Bool.or_eq_true, beq_iff_eq] at hs
      rcases hs with (rfl | rfl) | rfl
      · exact opening hc
      · exact closing hc
      · exact leaf.semicolon_not_mem hc
    have plain' : ∀ c ∈ text', isSign c = false := by
      intro c hc
      by_contra hs
      have hm : c ∈ ink text' :=
        (mem_ink_iff c text').2 ⟨hc, isBlank_of_isSign (by simpa using hs)⟩
      rw [ink_congr he, mem_ink_iff] at hm
      exact hs (plain c hm.1)
    rw [tokens_eq_words plain, tokens_eq_words plain'] at he
    obtain rfl : text' = text := by rw [← hn', ← hn, normalize_congr he]
    exact .leaf opening closing bare keyword leaf

/-- What a parser reads from a text, it reads from every other text with the same tokens. -/
theorem parse_of_tokens_eq {limit : DepthLimit} {mark s s' : String} {t : Condition}
    (h : Parser.parse ⟨limit, .ofValue (.text mark)⟩ s = .ok t)
    (he : tokens s'.toList = tokens s.toList) :
    Parser.parse ⟨limit, .ofValue (.text mark)⟩ s' = .ok t := by
  obtain ⟨ht, hd⟩ := parse_sound h
  refine parse_complete ht (hd.of_tokens_eq (isNormal_normalize _) (isNormal_normalize _) ?_)
  rw [tokens_normalize, tokens_normalize, he]

/-- Texts that differ in blanks that do not count are both read, as one condition, or both refused. -/
theorem parse_sameLayout (limit : DepthLimit) (mark : String) {s s' : String}
    (h : SameLayout s.toList s'.toList) :
    (∃ t, Parser.parse ⟨limit, .ofValue (.text mark)⟩ s = .ok t ∧
      Parser.parse ⟨limit, .ofValue (.text mark)⟩ s' = .ok t) ∨
    ∃ e e', Parser.parse ⟨limit, .ofValue (.text mark)⟩ s = .error (.refused e) ∧
      Parser.parse ⟨limit, .ofValue (.text mark)⟩ s' = .error (.refused e') := by
  have he := h.tokens_eq
  have conclusive (s : String) : IsConclusive (Parser.parse ⟨limit, .ofValue (.text mark)⟩ s) :=
    isConclusive_parse rfl s
  rcases (conclusive s).ok_or_refused with ⟨t, ht⟩ | ⟨e, hs⟩
  · exact .inl ⟨t, ht, parse_of_tokens_eq ht he.symm⟩
  · rcases (conclusive s').ok_or_refused with ⟨t, ht⟩ | ⟨e', hs'⟩
    · have both := parse_of_tokens_eq ht he
      rw [hs] at both
      cases both
    · exact .inr ⟨e, e', hs, hs'⟩

theorem parse_sameLayout_spread :
    SameLayout "any[a;not b]".toList "any [a;not\t b]\n".toList ∧
      ((∃ t, Parser.parse ⟨⟨2, "2"⟩, .ofValue (.text "%")⟩ "any[a;not b]" = .ok t ∧
        Parser.parse ⟨⟨2, "2"⟩, .ofValue (.text "%")⟩ "any [a;not\t b]\n" = .ok t) ∨
      ∃ e e', Parser.parse ⟨⟨2, "2"⟩, .ofValue (.text "%")⟩ "any[a;not b]" = .error (.refused e) ∧
        Parser.parse ⟨⟨2, "2"⟩, .ofValue (.text "%")⟩ "any [a;not\t b]\n" = .error (.refused e')) := by
  have space : ∀ c ∈ [' '], isBlank c = true := List.forall_mem_singleton.2 (by decide)
  have indent : ∀ c ∈ ['\t', ' '], isBlank c = true := List.forall_mem_cons.2 ⟨by decide, space⟩
  have line : ∀ c ∈ ['\n'], isBlank c = true := List.forall_mem_singleton.2 (by decide)
  have apart : Edit "any[a;not b]".toList "any [a;not b]".toList :=
    .before "any".toList "a;not b]".toList rfl space
  have wide : Edit "any [a;not b]".toList "any [a;not\t b]".toList :=
    .run "any [a;not".toList "b]".toList (by decide) (by decide) space indent
  have ended : Edit "any [a;not\t b]".toList "any [a;not\t b]\n".toList :=
    .last "any [a;not\t b]".toList line
  have same : SameLayout "any[a;not b]".toList "any [a;not\t b]\n".toList :=
    .trans _ _ _ (.rel _ _ apart) (.trans _ _ _ (.rel _ _ wide) (.rel _ _ ended))
  exact ⟨same, parse_sameLayout ⟨2, "2"⟩ "%" same⟩

end Gatekeeper.Grammar
