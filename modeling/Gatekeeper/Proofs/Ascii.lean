import Gatekeeper.Text.Utf8
import Mathlib.Data.List.Basic

/-!
# Texts that a file holds as they are

A character of ASCII is one byte of UTF-8, and unless it is a carriage return a file gives it back as
it was written. A text of such characters comes back from its bytes.
-/
namespace Gatekeeper.Text

/-- A character that is one byte in a file and comes back from it. -/
def IsPlain (c : Char) : Prop :=
  c.toNat < 0x80 ∧ c ≠ '\r'

instance : DecidablePred IsPlain := fun _ => inferInstanceAs (Decidable (_ ∧ _))

def ArePlain (text : List Char) : Prop :=
  ∀ c ∈ text, IsPlain c

-- Decided along the text, not over all characters there are.
instance (text : List Char) : Decidable (ArePlain text) :=
  List.decidableBAll IsPlain text

theorem arePlain_append {front back : List Char} :
    ArePlain (front ++ back) ↔ ArePlain front ∧ ArePlain back :=
  List.forall_mem_append

theorem arePlain_cons {c : Char} {text : List Char} :
    ArePlain (c :: text) ↔ IsPlain c ∧ ArePlain text :=
  List.forall_mem_cons

theorem arePlain_nil : ArePlain [] := fun _ hc => absurd hc List.not_mem_nil

theorem ArePlain.intercalate {separator : List Char} (h : ArePlain separator)
    {members : List (List Char)} (hm : ∀ member ∈ members, ArePlain member) :
    ArePlain (separator.intercalate members) := by
  induction members with
  | nil => exact arePlain_nil
  | cons member members ih =>
    obtain ⟨first, rest⟩ := List.forall_mem_cons.1 hm
    cases members with
    | nil => simpa using first
    | cons next members =>
      rw [List.intercalate_cons_cons, arePlain_append, arePlain_append]
      exact ⟨⟨first, h⟩, ih rest⟩

theorem IsPlain.isLead {c : Char} (h : IsPlain c) : isLead c = false := by
  have below : ¬leads ≤ c.toNat := by
    have := h.1
    simp only [leads]
    omega
  simp [Text.isLead, below]

/-- A plain character stands for itself. -/
theorem IsPlain.ofCode {c : Char} (h : IsPlain c) : ofCode c.toNat = [c] := by
  have number : pairNumber? c.toNat = none := by
    have := h.1
    have half : isSurrogate c.toNat = false := by
      simp only [isSurrogate, Bool.and_eq_false_iff, decide_eq_false_iff_not]
      omega
    have block : ¬(leads ≤ c.toNat ∧ c.toNat < blockEnd) := by
      simp only [leads]
      omega
    rw [pairNumber?, half, if_neg Bool.false_ne_true, if_neg block]
  rw [Text.ofCode, number, Char.ofNat_toNat]

theorem codes_of_plain {text : List Char} (h : ArePlain text) :
    codes text = text.map Char.toNat := by
  induction text with
  | nil => rfl
  | cons c text ih =>
    obtain ⟨hc, ht⟩ := arePlain_cons.1 h
    rw [codes_cons hc.isLead, ih ht, List.map_cons]

theorem ofCharacters_of_plain {text : List Char} (h : ArePlain text) : ofCharacters text = text := by
  induction text with
  | nil => rfl
  | cons c text ih =>
    obtain ⟨hc, ht⟩ := arePlain_cons.1 h
    rw [ofCharacters, List.flatMap_cons, hc.ofCode]
    exact congrArg (c :: ·) (ih ht)

/-- Plain characters are code points of their own. -/
theorem heads_of_plain {text : List Char} (h : ArePlain text) : heads text = text := by
  refine List.filter_eq_self.2 fun c hc => ?_
  have small := (h c hc).1
  have before : ¬tails ≤ c.toNat := by
    simp only [tails, leads]
    omega
  simp [isTail, before]

theorem isShorter_of_plain {front : List Char} (h : ArePlain front) (back : List Char) :
    isShorter front.length (front ++ back) = false := by
  have taken : (front ++ back).take (2 * front.length) = front ++ back.take front.length := by
    rw [Nat.two_mul, List.take_length_add_append]
  rw [isShorter, taken, Text.length, heads, List.filter_append]
  rw [show front.filter _ = front from heads_of_plain h, List.length_append]
  simp

namespace Utf8

/-- The bytes of a text with plain characters only. -/
def bytesOf (text : List Char) : List UInt8 :=
  text.map fun c => c.toNat.toUInt8

theorem utf8EncodeChar_of_plain {c : Char} (h : IsPlain c) :
    String.utf8EncodeChar c = [c.toNat.toUInt8] := by
  have short : c.val.toNat ≤ 127 := Nat.le_of_lt_succ h.1
  rw [String.utf8EncodeChar]
  exact if_pos short

theorem encode_of_plain {text : List Char} (h : ArePlain text) :
    encode text = .ok (bytesOf text) := by
  rw [encode, codes_of_plain h]
  generalize 0 = place
  induction text generalizing place with
  | nil => rfl
  | cons c text ih =>
    obtain ⟨hc, ht⟩ := arePlain_cons.1 h
    have half : isSurrogate c.toNat = false := by
      have := hc.1
      simp only [isSurrogate, Bool.and_eq_false_iff, decide_eq_false_iff_not]
      omega
    rw [List.map_cons, encodeFrom, half, if_neg Bool.false_ne_true, ih ht, Char.ofNat_toNat,
      utf8EncodeChar_of_plain hc]
    rfl

theorem decode_of_plain {text : List Char} (h : ArePlain text) :
    decode (bytesOf text) = .ok text := by
  have whole (place : Nat) : decodeFrom place none (bytesOf text) = .ok (text, none) := by
    induction text generalizing place with
    | nil => rfl
    | cons c text ih =>
      obtain ⟨hc, ht⟩ := arePlain_cons.1 h
      have byte : c.toNat.toUInt8.toNat = c.toNat := by
        have := hc.1
        rw [Nat.toUInt8_eq, UInt8.toNat_ofNat']
        omega
      rw [bytesOf, List.map_cons, decodeFrom]
      simp only [byte, if_pos hc.1]
      rw [show (text.map fun c => c.toNat.toUInt8) = bytesOf text from rfl, ih ht, Char.ofNat_toNat]
      rfl
  rw [decode, whole]

theorem withLineFeeds_of_plain {text : List Char} (h : ArePlain text) : withLineFeeds text = text := by
  induction text with
  | nil => rfl
  | cons c text ih =>
    obtain ⟨hc, ht⟩ := arePlain_cons.1 h
    rw [withLineFeeds, if_neg hc.2, ih ht]
    rintro rest rfl
    exact absurd rfl hc.2

end Utf8

end Gatekeeper.Text
