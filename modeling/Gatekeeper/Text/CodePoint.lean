/-!
# Code points

A text is a sequence of code points. Most of them are characters and stand for themselves. The halves
of surrogate pairs are code points but no characters, so a text holds each of them as two characters
out of a block that is set apart for this, a lead and a tail. A character of that block itself is held
as a lead and a tail too. No lead is a tail, so a text has its code points without doubt, and texts can
be joined, searched and compared as they are. What counts, orders, shows or encodes code points goes
by `codes`.
-/
namespace Gatekeeper.Text

def isSurrogate (n : Nat) : Bool :=
  0xD800 ≤ n && n < 0xE000

/-- The first lead. -/
def leads : Nat := 0xB4000

/-- The first tail, behind all leads. -/
def tails : Nat := leads + 34

/-- The first character behind the block. -/
def blockEnd : Nat := tails + 64

def isLead (c : Char) : Bool :=
  leads ≤ c.toNat && c.toNat < tails

def isTail (c : Char) : Bool :=
  tails ≤ c.toNat && c.toNat < blockEnd

/-- The number of a code point among those that are held by two characters: the halves come first,
then the block. -/
def pairNumber? (n : Nat) : Option Nat :=
  if isSurrogate n then some (n - 0xD800)
  else if leads ≤ n ∧ n < blockEnd then some (0x800 + (n - leads))
  else none

/-- The code point of a number. -/
def ofPairNumber (k : Nat) : Nat :=
  if k < 0x800 then 0xD800 + k else leads + (k - 0x800)

/-- The characters that hold a code point. -/
def ofCode (n : Nat) : List Char :=
  match pairNumber? n with
  | some k => [Char.ofNat (leads + k / 64), Char.ofNat (tails + k % 64)]
  | none => [Char.ofNat n]

/-- The code points of a text. -/
def codes : List Char → List Nat
  | c :: d :: rest =>
    if isLead c && isTail d then
      ofPairNumber ((c.toNat - leads) * 64 + (d.toNat - tails)) :: codes rest
    else c.toNat :: codes (d :: rest)
  | [c] => [c.toNat]
  | [] => []

/-- A text as it is held, from its characters. -/
def ofCharacters (text : List Char) : List Char :=
  text.flatMap fun c => ofCode c.toNat

/-- A text with one character for each code point: of two only the lead. -/
def heads (text : List Char) : List Char :=
  text.filter (!isTail ·)

/-- The number of code points in a text. -/
def length (text : List Char) : Nat :=
  (heads text).length

/-- Whether a text has fewer than `n` code points. -/
def isShorter (n : Nat) (text : List Char) : Bool :=
  length (text.take (2 * n)) < n

theorem ofPairNumber_of_pairNumber? {n k : Nat} (h : pairNumber? n = some k) :
    ofPairNumber k = n := by
  simp only [pairNumber?, isSurrogate, Bool.and_eq_true, decide_eq_true_eq] at h
  split at h
  · obtain rfl := Option.some.inj h
    simp only [ofPairNumber]
    split <;> omega
  · split at h
    · obtain rfl := Option.some.inj h
      simp only [ofPairNumber]
      split <;> omega
    · simp at h

/-- There are no more such code points than pairs. -/
theorem pairNumber?_lt {n k : Nat} (h : pairNumber? n = some k) : k < 34 * 64 := by
  simp only [pairNumber?, isSurrogate, Bool.and_eq_true, decide_eq_true_eq] at h
  split at h
  · obtain rfl := Option.some.inj h
    omega
  · split at h
    · obtain rfl := Option.some.inj h
      simp only [blockEnd, tails] at *
      omega
    · simp at h

theorem toNat_ofNat {n : Nat} (h : n.isValidChar) : (Char.ofNat n).toNat = n := by
  unfold Char.ofNat
  rw [dif_pos h]
  rfl

/-- The characters of a pair tell its number. -/
theorem codes_pair {k : Nat} (h : k < 34 * 64) (rest : List Char) :
    codes (Char.ofNat (leads + k / 64) :: Char.ofNat (tails + k % 64) :: rest) =
      ofPairNumber k :: codes rest := by
  have lead : (Char.ofNat (leads + k / 64)).toNat = leads + k / 64 :=
    toNat_ofNat (Or.inr (by simp only [leads]; omega))
  have tail : (Char.ofNat (tails + k % 64)).toNat = tails + k % 64 :=
    toNat_ofNat (Or.inr (by simp only [leads, tails]; omega))
  have pair : (isLead (Char.ofNat (leads + k / 64)) && isTail (Char.ofNat (tails + k % 64))) =
      true := by
    simp only [isLead, isTail, lead, tail, Bool.and_eq_true, decide_eq_true_eq]
    simp only [blockEnd, tails]
    omega
  have number : (leads + k / 64 - leads) * 64 + (tails + k % 64 - tails) = k := by omega
  rw [codes, if_pos pair, lead, tail, number]

/-- A character outside the block stands for itself. -/
theorem codes_cons {c : Char} (h : isLead c = false) (rest : List Char) :
    codes (c :: rest) = c.toNat :: codes rest := by
  cases rest <;> simp [codes, h]

/-- Every code point comes back from the characters that hold it, whatever follows. -/
theorem codes_ofCode_append {n : Nat} (h : n < 0x110000) (rest : List Char) :
    codes (ofCode n ++ rest) = n :: codes rest := by
  cases hk : pairNumber? n with
  | some k =>
    simpa [ofCode, hk, ofPairNumber_of_pairNumber? hk] using codes_pair (pairNumber?_lt hk) rest
  | none =>
    have held : ofCode n = [Char.ofNat n] := by simp [ofCode, hk]
    have outside : isSurrogate n = false ∧ ¬(leads ≤ n ∧ n < blockEnd) := by
      simp only [pairNumber?] at hk
      split at hk <;> simp_all
    have valid : n.isValidChar := by
      have := outside.1
      simp only [isSurrogate, Bool.and_eq_false_iff, decide_eq_false_iff_not] at this
      rcases Nat.lt_or_ge n 0xD800 with hn | hn
      · exact Or.inl hn
      · exact Or.inr ⟨by omega, h⟩
    have notLead : isLead (Char.ofNat n) = false := by
      have := outside.2
      simp only [isLead, toNat_ofNat valid, Bool.and_eq_false_iff, decide_eq_false_iff_not]
      simp only [blockEnd, tails] at *
      omega
    rw [held, List.singleton_append, codes_cons notLead, toNat_ofNat valid]

/-- The text of some code points has these code points. -/
theorem codes_flatMap_ofCode {ns : List Nat} (h : ∀ n ∈ ns, n < 0x110000) :
    codes (ns.flatMap ofCode) = ns := by
  induction ns with
  | nil => rfl
  | cons n ns ih =>
    rw [List.flatMap_cons, codes_ofCode_append (h n (by simp)), ih fun m hm => h m (by simp [hm])]

end Gatekeeper.Text
