import Gatekeeper.Proofs.Description

/-!
# Attributes in parts

What the parts of an attribute have to do with its text: together they are the text but for blanks, no
operator is passed over between the token in delimiters and the one that is taken, and the parts with
single blanks between them are read as the same attribute.
-/
namespace Gatekeeper.Condition

open Text Delimiter Operator Grammar

/-- The attribute of a token, which must be there or is compared with a value. -/
def ofParts (token : List Char) : Option (Operator × List Char) → Condition
  | none => attr (.text (String.ofList token)) none none
  | some (op, expected) =>
    attr (.text (String.ofList token)) (some op) (some (.text (String.ofList expected)))

/-- The parts of an attribute in one text, with a gap on both sides of the operator. -/
def joined (gap token : List Char) : Option (Operator × List Char) → List Char
  | none => token
  | some (op, expected) => token ++ (gap ++ (op.symbol.toList ++ (gap ++ expected)))

/-- No operator starts within a token behind what it has in delimiters, when `back` follows it. -/
def IsUncut (mark token back : List Char) : Prop :=
  ∃ front rest, token = front ++ rest ∧ Opens mark front rest ∧
    ∀ (op : Operator) (left right : List Char),
      rest ++ back = left ++ (op.symbol.toList ++ right) → rest.length ≤ left.length

/-- What follows a token: nothing, or the longest symbol at its place and a value. -/
inductive Follows : List Char → Option (Operator × List Char) → Prop where
  | nothing : Follows [] none
  | comparison {blanks after : List Char} {op : Operator} (hb : ∀ c ∈ blanks, isBlank c = true)
      (longest : ∀ (other : Operator) (right : List Char),
        op.symbol.toList ++ after = other.symbol.toList ++ right →
          other.symbol.toList.length ≤ op.symbol.toList.length)
      (single : op = .gt ∨ op = .lt → after.head? ≠ some '=') :
      Follows (blanks ++ (op.symbol.toList ++ after)) (some (op, trim after))

/-- The parts of an attribute in its text. -/
structure IsSplit (mark text token : List Char) (test : Option (Operator × List Char)) : Prop where
  lossless : ink (joined [] token test) = ink text
  ne : token ≠ []
  normal : IsNormal token
  expected : ∀ op expected, test = some (op, expected) → IsNormal expected
  place : ∃ back, normalize text = token ++ back ∧ IsUncut mark token back ∧ Follows back test
  stable : readAttribute (.ofMark mark) (joined [' '] token test) = .ok (ofParts token test)

variable {mark : List Char}

theorem isNormal_symbol (op : Operator) : IsNormal op.symbol.toList := by
  show normalize op.symbol.toList = op.symbol.toList
  cases op <;> decide

/-- Only the empty text at the start of a normal text is blank. -/
theorem eq_nil_of_trim_eq_nil {front back : List Char} (hn : IsNormal (front ++ back))
    (h : trim front = []) : front = [] := by
  cases front with
  | nil => rfl
  | cons c front => exact absurd ((trim_eq_nil_iff _).1 h) (words_cons_ne_nil hn.isBlank_head front)

/-! ## Where no attribute is read -/

/-- Nothing stands in front of an operator when the text starts with it and nothing is in delimiters. -/
theorem trim_front_eq_nil_iff {text token before after : List Char} {op : Operator}
    (hn : IsNormal text) (he : text = token ++ (before ++ (op.symbol.toList ++ after)))
    (ho : Opens mark token (before ++ (op.symbol.toList ++ after))) (splits : Splits before op after) :
    trim (token ++ before) = [] ↔ (∃ op : Operator, op.symbol.toList <+: text) ∧
      ∀ front, front <+: text → ¬Encloses mark front := by
  constructor
  · intro hnil
    have normal : IsNormal (token ++ before ++ (op.symbol.toList ++ after)) := by
      rwa [List.append_assoc, ← he]
    obtain ⟨rfl, rfl⟩ := List.append_eq_nil_iff.1 (eq_nil_of_trim_eq_nil normal hnil)
    refine ⟨⟨op, he ▸ List.prefix_append ..⟩, ?_⟩
    cases ho with
    | delimited ht _ => exact absurd (List.prefix_nil.1 ht.starts) ht.1
    | plain none => exact fun front hf => none front (he ▸ hf)
  · rintro ⟨⟨other, right, hr⟩, unenclosed⟩
    cases ho with
    | delimited ht _ => exact absurd ht (unenclosed token ⟨_, he.symm⟩)
    | plain _ =>
      have first := splits.leftmost [] other right (he.symm.trans hr.symm)
      rw [List.eq_nil_of_length_eq_zero (Nat.le_zero.1 first)]
      rfl

/-- The only defect is a token that is empty. -/
theorem readAttribute_error_iff (mark expression : List Char) (x : LeafError) :
    readAttribute (.ofMark mark) expression = .error x ↔
      x = .defect .emptyToken ∧ (normalize expression = [] ∨
        (∃ op : Operator, op.symbol.toList <+: normalize expression) ∧
          ∀ front, front <+: normalize expression → ¬Encloses mark front) := by
  obtain ⟨token, rest, hc⟩ := exists_cut_eq_ok mark (normalize expression)
  obtain ⟨he, ho⟩ := cut_sound hc
  have refused (text : List Char) (op : Option Operator) (value : Option Value) :
      (attr? (.text (String.ofList text)) op value).mapError LeafError.defect = .error x ↔
        x = .defect .emptyToken ∧ text = [] := by
    rw [attr?_text]
    split
    · next hnil => simp [Except.mapError, hnil, eq_comm]
    · next ne => simp [Except.mapError, ne]
  rw [readAttribute_of_cut hc]
  match hs : cut? rest with
  | none =>
    rw [refused]
    refine and_congr_right fun _ => (or_iff_left ?_).symm
    rintro ⟨⟨op, hp⟩, unenclosed⟩
    cases ho with
    | delimited ht _ => exact unenclosed token ⟨rest, he.symm⟩ ht
    | plain _ =>
      rw [he, List.nil_append] at hp
      exact (cut?_eq_none_iff rest).1 hs op hp.isInfix
  | some (before, op, after) =>
    obtain ⟨rfl, splits⟩ := (cut?_eq_some_iff rest before op after).1 hs
    have ne : normalize expression ≠ [] := by
      rw [he]
      simp
    rw [refused, or_iff_right ne]
    exact and_congr_right fun _ => trim_front_eq_nil_iff (isNormal_normalize _) he ho splits

/-! ## What is read -/

/-- A text that has no operator behind its token in delimiters is all token. -/
theorem isSplit_presence {mark text front rest : List Char} (hn : normalize text = front ++ rest)
    (ho : Opens mark front rest) (absent : ∀ op : Operator, ¬op.symbol.toList <:+: rest)
    (ne : front ++ rest ≠ []) : IsSplit mark text (front ++ rest) none where
  lossless := by rw [joined, ← hn, ink_normalize]
  ne := ne
  normal := hn ▸ isNormal_normalize text
  expected := fun op expected h => nomatch h
  place := by
    refine ⟨[], by rw [hn, List.append_nil], ⟨front, rest, rfl, ho, ?_⟩, .nothing⟩
    intro op left right he
    rw [List.append_nil] at he
    exact absurd ⟨left, right, by rw [he, List.append_assoc]⟩ (absent op)
  stable := by
    refine readAttribute_complete (.presence ho absent ne) ?_
    rw [joined, ← hn, normalize_normalize]

/-- What is left of the parts with single blanks between them when the value is empty or not. -/
theorem normalize_joined {token : List Char} (ht : IsNormal token) (ne : token ≠ []) (op : Operator)
    {expected : List Char} (he : IsNormal expected) :
    ∃ tail, normalize (joined [' '] token (some (op, expected))) =
        token ++ ' ' :: (op.symbol.toList ++ tail) ∧
      tail <+: ' ' :: expected ∧ trim tail = expected := by
  have shown {text : List Char} (hn : IsNormal text) (ne : text ≠ []) : words text ≠ [] := by
    rw [ne_eq, ← normalize_eq_nil_iff, hn]
    exact ne
  have hs := isNormal_symbol op
  have symbol := shown hs (symbol_toList_ne_nil op)
  have text : joined [' '] token (some (op, expected)) =
      token ++ ' ' :: (op.symbol.toList ++ ' ' :: expected) := by simp [joined]
  have behind : words (op.symbol.toList ++ ' ' :: expected) ≠ [] := by
    rw [words_append_blank isBlank_space]
    simp [symbol]
  rw [text, normalize_append_blank isBlank_space (shown ht ne), if_neg behind,
    normalize_append_blank isBlank_space symbol, ht, hs, he]
  refine ⟨_, rfl, ?_⟩
  split
  · next hw =>
    rw [← normalize_eq_nil_iff, he] at hw
    rw [hw]
    exact ⟨List.nil_prefix, rfl⟩
  · exact ⟨List.prefix_refl _, by rw [trim_cons_blank isBlank_space, he.trim_eq]⟩

theorem isSplit_comparison {mark text front before after : List Char} {op : Operator}
    (hm : Solid mark) (hn : normalize text = front ++ (before ++ (op.symbol.toList ++ after)))
    (ho : Opens mark front (before ++ (op.symbol.toList ++ after))) (splits : Splits before op after)
    (ne : trim (front ++ before) ≠ []) :
    IsSplit mark text (trim (front ++ before)) (some (op, trim after)) := by
  have normal : IsNormal (front ++ (before ++ (op.symbol.toList ++ after))) :=
    hn ▸ isNormal_normalize text
  have token : IsNormal (trim (front ++ before)) := by
    rw [← List.append_assoc] at normal
    exact normal.trim_front
  have value : IsNormal (trim after) := by
    rw [← List.append_assoc, ← List.append_assoc] at normal
    exact normal.trim_back
  have start : trim (front ++ before) = front ++ trimEnd before := by
    refine trim_token hm normal ho fun hnil => ne ?_
    rw [hnil]
    rfl
  have blanks : trimEnd before ++ before.rtakeWhile isBlank = before :=
    List.rdropWhile_append_rtakeWhile
  refine ⟨?_, ne, token, ?_, ?_, ?_⟩
  · rw [← ink_normalize text, hn, joined]
    simp [ink_trim]
  · rintro op' expected ⟨⟩
    exact value
  · refine ⟨before.rtakeWhile isBlank ++ (op.symbol.toList ++ after), ?_, ⟨front, _, start, ?_, ?_⟩,
      .comparison (fun c hc => List.mem_rtakeWhile_imp hc) splits.longest splits.head?_ne⟩
    · rw [hn, start, List.append_assoc, ← List.append_assoc (trimEnd before), blanks]
    · rw [← blanks, List.append_assoc] at ho
      exact ho.of_append
    · intro other left right he
      rw [← List.append_assoc, blanks] at he
      exact (List.rdropWhile_prefix (p := isBlank) (l := before)).length_le.trans
        (splits.leftmost left other right he)
  · obtain ⟨tail, again, ht, hv⟩ := normalize_joined token ne op value
    exact readAttribute_complete (attribute_rewritten hm normal ho splits ne ht hv) again

/-- A text is refused if nothing stands in front of its first operator, and any other one is split into
parts that lose nothing, pass over no operator and are read again as they are. -/
theorem readAttribute_splits {mark : String} (hm : (codes mark.toList).length ≤ 1)
    (text : List Char) :
    (∀ x, readAttribute (.ofValue (.text mark)) text = .error x ↔
      x = .defect .emptyToken ∧ (normalize text = [] ∨
        (∃ op : Operator, op.symbol.toList <+: normalize text) ∧
          ∀ front, front <+: normalize text → ¬Encloses mark.toList front)) ∧
    ∀ c, readAttribute (.ofValue (.text mark)) text = .ok c →
      ∃ token test, c = ofParts token test ∧ IsSplit mark.toList text token test := by
  rw [ofValue_text]
  refine ⟨readAttribute_error_iff mark.toList text, fun c h => ?_⟩
  have read := readAttribute_sound h
  generalize hn : normalize text = normal at read
  cases read with
  | presence ho absent ne => exact ⟨_, none, rfl, isSplit_presence hn ho absent ne⟩
  | comparison ho splits ne =>
    exact ⟨_, some (_, _), rfl, isSplit_comparison (solid_of_codes hm) hn ho splits ne⟩

theorem readAttribute_splits_enclosed :
    (codes "%".toList).length ≤ 1 ∧
      readAttribute (.ofValue (.text "%")) " %a > b%>=  5 == x".toList =
        .ok (ofParts "%a > b%".toList (some (.ge, "5 == x".toList))) ∧
      ∃ token test, ofParts "%a > b%".toList (some (.ge, "5 == x".toList)) = ofParts token test ∧
        IsSplit "%".toList " %a > b%>=  5 == x".toList token test := by
  have single : (codes "%".toList).length ≤ 1 := by decide
  have read : readAttribute (.ofValue (.text "%")) " %a > b%>=  5 == x".toList =
      .ok (ofParts "%a > b%".toList (some (.ge, "5 == x".toList))) := by decide +kernel
  exact ⟨single, read, (readAttribute_splits single _).2 _ read⟩

end Gatekeeper.Condition
