import Gatekeeper.Expression.Leaf
import Gatekeeper.Proofs.Layout
import Mathlib.Data.List.Infix

/-!
# Tokens and operators

Where an attribute is cut into its token, its operator and its value. A token in delimiters is the
shortest start of the text that begins and ends with the mark; an operator is the leftmost symbol
behind such a token, and the longest at its place. The cuts find just these.
-/
namespace Gatekeeper

namespace Operator

/-- Between two parts of a text the operator is its leftmost symbol, and the longest at its place. -/
structure Splits (before : List Char) (op : Operator) (after : List Char) : Prop where
  leftmost : ∀ (front : List Char) (other : Operator) (back : List Char),
    before ++ (op.symbol.toList ++ after) = front ++ (other.symbol.toList ++ back) →
      before.length ≤ front.length
  longest : ∀ (other : Operator) (back : List Char),
    op.symbol.toList ++ after = other.symbol.toList ++ back →
      other.symbol.toList.length ≤ op.symbol.toList.length

theorem length_symbol_le (op : Operator) : op.symbol.toList.length ≤ 2 := by
  cases op <;> decide

@[simp] theorem symbol_ne_empty (op : Operator) : op.symbol ≠ "" := by
  cases op <;> decide

theorem symbol_inj {op other : Operator} (h : op.symbol.toList = other.symbol.toList) :
    op = other := by
  revert h
  cases op <;> cases other <;> decide

theorem atStart?_sound {text after : List Char} {op : Operator}
    (h : atStart? text = some (op, after)) :
    text = op.symbol.toList ++ after ∧ ∀ (other : Operator) (back : List Char),
      text = other.symbol.toList ++ back →
        other.symbol.toList.length ≤ op.symbol.toList.length := by
  rw [atStart?.eq_def] at h
  split at h
  case h_5 rest hne | h_6 rest hne =>
    obtain ⟨rfl, rfl⟩ := Prod.mk.inj (Option.some.inj h)
    refine ⟨rfl, fun other back he => ?_⟩
    cases other with
    | gt | lt => decide
    | ge | le => exact absurd (List.cons.inj he).2 (hne _)
    | eq | ne => simp [symbol] at he
  case h_7 => cases h
  all_goals
    obtain ⟨rfl, rfl⟩ := Prod.mk.inj (Option.some.inj h)
    exact ⟨rfl, fun other _ _ => length_symbol_le other⟩

theorem atStart?_append_ne_none (op : Operator) (after : List Char) :
    atStart? (op.symbol.toList ++ after) ≠ none := by
  rw [atStart?.eq_def]
  cases op <;> simp [symbol] <;> split <;> simp_all

theorem atStart?_eq_some_iff (op : Operator) (after : List Char) :
    atStart? (op.symbol.toList ++ after) = some (op, after) ↔
      ∀ (other : Operator) (back : List Char), op.symbol.toList ++ after =
        other.symbol.toList ++ back → other.symbol.toList.length ≤ op.symbol.toList.length := by
  constructor
  · intro h
    exact (atStart?_sound h).2
  · intro h
    match hs : atStart? (op.symbol.toList ++ after) with
    | none => exact absurd hs (atStart?_append_ne_none op after)
    | some (other, back) =>
      obtain ⟨he, hl⟩ := atStart?_sound hs
      have hlength := Nat.le_antisymm (h other back he) (hl op after rfl)
      obtain ⟨hsymbol, hrest⟩ := List.append_inj he hlength.symm
      rw [symbol_inj hsymbol, hrest]

/-- What is known of a symbol further on when none starts the text. -/
theorem splits_cons_iff {c : Char} {before after : List Char} {op : Operator}
    (h : atStart? (c :: (before ++ (op.symbol.toList ++ after))) = none) :
    Splits (c :: before) op after ↔ Splits before op after := by
  constructor
  · intro hs
    refine ⟨fun front other back he => ?_, hs.longest⟩
    have := hs.leftmost (c :: front) other back (congrArg (c :: ·) he)
    simpa using this
  · intro hs
    refine ⟨fun front other back he => ?_, hs.longest⟩
    cases front with
    | nil =>
      rw [List.cons_append, List.nil_append] at he
      exact absurd (he ▸ h) (atStart?_append_ne_none other back)
    | cons d front =>
      have := hs.leftmost front other back (List.cons.inj he).2
      simpa using this

/-- What stands further behind an operator does not matter for its place. -/
theorem Splits.of_append {before after more : List Char} {op : Operator}
    (h : Splits before op (after ++ more)) : Splits before op after := by
  constructor
  · intro front other back he
    refine h.leftmost front other (back ++ more) ?_
    simpa only [List.append_assoc] using congrArg (· ++ more) he
  · intro other back he
    refine h.longest other (back ++ more) ?_
    simpa only [List.append_assoc] using congrArg (· ++ more) he

/-- An operator of one character is followed by no character that would make it a longer one. -/
theorem Splits.head?_ne {before after : List Char} {op : Operator} (h : Splits before op after)
    (single : op = .gt ∨ op = .lt) : after.head? ≠ some '=' := by
  intro hc
  obtain ⟨rest, rfl⟩ := List.head?_eq_some_iff.1 hc
  rcases single with rfl | rfl
  · exact absurd (h.longest .ge rest rfl) (by decide)
  · exact absurd (h.longest .le rest rfl) (by decide)

theorem cut?_eq_some_iff (text before : List Char) (op : Operator) (after : List Char) :
    cut? text = some (before, op, after) ↔
      text = before ++ (op.symbol.toList ++ after) ∧ Splits before op after := by
  induction text generalizing before with
  | nil => simp [cut?]
  | cons c text ih =>
    rw [cut?]
    match hs : atStart? (c :: text) with
    | some (other, back) =>
      obtain ⟨he, hl⟩ := atStart?_sound hs
      constructor
      · rintro ⟨⟩
        exact ⟨he, fun front _ _ _ => Nat.zero_le _, (atStart?_eq_some_iff op after).1 (he ▸ hs)⟩
      · rintro ⟨he', hs'⟩
        obtain rfl : before = [] := by
          have := hs'.leftmost [] other back (he'.symm.trans he)
          exact List.eq_nil_of_length_eq_zero (Nat.le_zero.1 this)
        rw [List.nil_append] at he'
        rw [he', (atStart?_eq_some_iff op after).2 hs'.longest] at hs
        obtain ⟨rfl, rfl⟩ := Prod.mk.inj (Option.some.inj hs)
        rfl
    | none =>
      constructor
      · intro h
        obtain ⟨⟨front, other, back⟩, hr, hm⟩ := Option.map_eq_some_iff.1 h
        obtain ⟨rfl, rfl, rfl⟩ : c :: front = before ∧ other = op ∧ back = after := by simpa using hm
        obtain ⟨rfl, hsplit⟩ := (ih front).1 hr
        exact ⟨rfl, (splits_cons_iff hs).2 hsplit⟩
      · rintro ⟨he, hsplit⟩
        cases before with
        | nil => exact absurd (he ▸ hs) (atStart?_append_ne_none op after)
        | cons d before =>
          obtain ⟨rfl, rfl⟩ := List.cons.inj he
          have hr := (ih before).2 ⟨rfl, (splits_cons_iff hs).1 hsplit⟩
          exact Option.map_eq_some_iff.2 ⟨(before, op, after), hr, rfl⟩

theorem cut?_eq_none_iff (text : List Char) :
    cut? text = none ↔ ∀ op : Operator, ¬op.symbol.toList <:+: text := by
  induction text with
  | nil => simp [cut?]
  | cons c text ih =>
    rw [cut?]
    match hs : atStart? (c :: text) with
    | some (op, after) =>
      have := (atStart?_sound hs).1
      simp only [reduceCtorEq, false_iff, not_forall, not_not]
      exact ⟨op, this ▸ (List.prefix_append ..).isInfix⟩
    | none =>
      rw [Option.map_eq_none_iff, ih]
      constructor
      · rintro h op hi
        rcases List.infix_cons_iff.1 hi with ⟨back, hp⟩ | hi
        · exact absurd (hp ▸ hs) (atStart?_append_ne_none op back)
        · exact h op hi
      · exact fun h op hi => h op (List.infix_cons_iff.2 (.inr hi))

end Operator

namespace Delimiter

/-- The delimiter that a text sets; the empty text sets none. -/
def ofMark (text : List Char) : Delimiter :=
  ofValue (.text (String.ofList text))

theorem ofValue_text (mark : String) : ofValue (.text mark) = ofMark mark.toList := by
  rw [ofMark, String.ofList_toList]

theorem ofMark_of_ne_nil {text : List Char} (h : text ≠ []) : ofMark text = mark text := by
  have : (Value.text (String.ofList text)).holds = true := by
    simpa [Value.holds, Scalar.holds] using h
  rw [ofMark, ofValue, if_pos this, String.toList_ofList]

/-- A text between two marks, which are part of it. -/
def Encloses (mark token : List Char) : Prop :=
  mark ≠ [] ∧ ∃ inside, token = mark ++ inside ++ mark

/-- The start of a text that is its token in delimiters, the shortest one, or nothing if the text
does not start with one. -/
inductive Opens (mark : List Char) : List Char → List Char → Prop where
  | delimited {token rest : List Char} (h : Encloses mark token)
      (shortest : ∀ front, front <+: token → Encloses mark front → front = token) :
      Opens mark token rest
  | plain {rest : List Char} (none : ∀ front, front <+: rest → ¬Encloses mark front) :
      Opens mark [] rest

/-- The cut comes behind the first occurrence of the mark. -/
theorem cutAfter?_eq_some_iff {mark : List Char} (hm : mark ≠ []) (text before after : List Char) :
    cutAfter? mark text = some (before, after) ↔ text = before ++ after ∧ mark <:+ before ∧
      ∀ front, front <+: before → mark <:+ front → front = before := by
  induction text generalizing before with
  | nil =>
    rw [cutAfter?, if_neg (by simpa using hm)]
    simp only [reduceCtorEq, false_iff]
    rintro ⟨he, hs, -⟩
    obtain ⟨rfl, -⟩ := List.append_eq_nil_iff.1 he.symm
    exact hm (List.suffix_nil.1 hs)
  | cons c text ih =>
    rw [cutAfter?]
    split
    · next hp =>
      obtain ⟨rest, hr⟩ := List.isPrefixOf_iff_prefix.1 hp
      rw [← hr, List.drop_left]
      constructor
      · rintro ⟨⟩
        exact ⟨rfl, List.suffix_refl _, fun front hf hs => hf.eq_of_length_le hs.length_le⟩
      · rintro ⟨he, hs, shortest⟩
        have hb : mark <+: before :=
          List.prefix_of_prefix_length_le ⟨rest, rfl⟩ ⟨after, he.symm⟩ hs.length_le
        obtain rfl := shortest mark hb (List.suffix_refl _)
        rw [List.append_cancel_left he]
    · next hp =>
      rw [List.isPrefixOf_iff_prefix] at hp
      constructor
      · intro h
        obtain ⟨⟨b, a⟩, hr, hm'⟩ := Option.map_eq_some_iff.1 h
        obtain ⟨rfl, rfl⟩ := Prod.mk.inj hm'
        obtain ⟨rfl, hs, shortest⟩ := (ih b).1 hr
        refine ⟨rfl, hs.trans (List.suffix_cons c b), fun front hf hsf => ?_⟩
        cases front with
        | nil => exact absurd (List.suffix_nil.1 hsf) hm
        | cons d front =>
          obtain ⟨rfl, hf'⟩ := List.cons_prefix_cons.1 hf
          rcases List.suffix_cons_iff.1 hsf with rfl | hsf
          · exact absurd (hf.trans (List.prefix_append (d :: b) a)) hp
          · rw [shortest front hf' hsf]
      · rintro ⟨he, hs, shortest⟩
        cases before with
        | nil => exact absurd (List.suffix_nil.1 hs) hm
        | cons d b =>
          obtain ⟨rfl, rfl⟩ := List.cons.inj he
          rcases List.suffix_cons_iff.1 hs with rfl | hs
          · exact absurd (List.prefix_append (c :: b) after) hp
          · refine Option.map_eq_some_iff.2 ⟨(b, after), (ih b).2 ⟨rfl, hs, ?_⟩, rfl⟩
            intro front hf hsf
            have := shortest (c :: front) (List.cons_prefix_cons.2 ⟨rfl, hf⟩)
              (hsf.trans (List.suffix_cons c front))
            exact (List.cons.inj this).2

theorem cutAfter?_eq_none_iff {mark : List Char} (hm : mark ≠ []) (text : List Char) :
    cutAfter? mark text = none ↔ ∀ front, front <+: text → ¬mark <:+ front := by
  induction text with
  | nil => simp [cutAfter?, hm]
  | cons c text ih =>
    rw [cutAfter?]
    split
    · next hp =>
      simp only [reduceCtorEq, false_iff, not_forall, not_not]
      exact ⟨mark, List.isPrefixOf_iff_prefix.1 hp, List.suffix_refl _⟩
    · next hp =>
      rw [List.isPrefixOf_iff_prefix] at hp
      rw [Option.map_eq_none_iff, ih]
      constructor
      · intro h front hf hs
        cases front with
        | nil => exact hm (List.suffix_nil.1 hs)
        | cons d front =>
          obtain ⟨rfl, hf'⟩ := List.cons_prefix_cons.1 hf
          rcases List.suffix_cons_iff.1 hs with rfl | hs
          · exact hp hf
          · exact h front hf' hs
      · intro h front hf hs
        exact h (c :: front) (List.cons_prefix_cons.2 ⟨rfl, hf⟩) (hs.trans (List.suffix_cons c front))

/-- An enclosed start of a text that starts with the mark ends where the mark comes again. -/
theorem encloses_append_iff {mark : List Char} (hm : mark ≠ []) (front : List Char) :
    Encloses mark (mark ++ front) ↔ mark <:+ front := by
  constructor
  · rintro ⟨-, inside, he⟩
    rw [List.append_assoc, List.append_cancel_left_eq] at he
    exact ⟨inside, he.symm⟩
  · rintro ⟨inside, rfl⟩
    exact ⟨hm, inside, by rw [List.append_assoc]⟩

theorem Encloses.exists_eq_append {mark token : List Char} (h : Encloses mark token) :
    ∃ front, token = mark ++ front := by
  obtain ⟨-, inside, rfl⟩ := h
  exact ⟨inside ++ mark, by rw [List.append_assoc]⟩

theorem Encloses.starts {mark token : List Char} (h : Encloses mark token) : mark <+: token := by
  obtain ⟨front, rfl⟩ := h.exists_eq_append
  exact List.prefix_append ..

/-- A text has one token in delimiters at most. -/
theorem Opens.unique {mark token rest token' rest' : List Char} (h : Opens mark token rest)
    (h' : Opens mark token' rest') (he : token ++ rest = token' ++ rest') :
    token = token' ∧ rest = rest' := by
  have tokens : token = token' := by
    cases h with
    | delimited ht shortest =>
      cases h' with
      | delimited ht' shortest' =>
        rcases List.prefix_or_prefix_of_prefix (List.prefix_append token rest)
            (he ▸ List.prefix_append token' rest') with hp | hp
        · exact shortest' token hp ht
        · exact (shortest token' hp ht').symm
      | plain none => exact absurd ht (none token ⟨rest, he⟩)
    | plain none =>
      cases h' with
      | delimited ht' _ => exact absurd ht' (none token' ⟨rest', he.symm⟩)
      | plain _ => rfl
  subst tokens
  exact ⟨rfl, List.append_cancel_left he⟩

theorem Opens.of_append {mark token rest more : List Char} (h : Opens mark token (rest ++ more)) :
    Opens mark token rest := by
  cases h with
  | delimited ht shortest => exact .delimited ht shortest
  | plain none => exact .plain fun front hf => none front (hf.trans (List.prefix_append rest more))

theorem exists_cut_eq_ok (mark text : List Char) :
    ∃ token rest, (ofMark mark).cut text = .ok (token, rest) := by
  by_cases hm : mark = []
  · exact ⟨[], text, by rw [hm]; rfl⟩
  rw [ofMark_of_ne_nil hm, cut]
  split
  · split
    · exact ⟨_, _, rfl⟩
    · exact ⟨_, _, rfl⟩
  · exact ⟨_, _, rfl⟩

theorem cut_sound {mark text token rest : List Char}
    (h : (ofMark mark).cut text = .ok (token, rest)) :
    text = token ++ rest ∧ Opens mark token rest := by
  by_cases hm : mark = []
  · rw [hm] at h ⊢
    cases h
    exact ⟨rfl, .plain fun front _ hf => hf.1 rfl⟩
  rw [ofMark_of_ne_nil hm, cut] at h
  split at h
  · next hp =>
    obtain ⟨t, rfl⟩ := List.isPrefixOf_iff_prefix.1 hp
    rw [List.drop_left] at h
    split at h
    · next inside after hc =>
      cases h
      obtain ⟨rfl, hs, shortest⟩ := (cutAfter?_eq_some_iff hm t inside _).1 hc
      refine ⟨by rw [List.append_assoc], .delimited ((encloses_append_iff hm inside).2 hs) ?_⟩
      intro front hf he
      obtain ⟨f, rfl⟩ := he.exists_eq_append
      rw [shortest f ((List.prefix_append_right_inj mark).1 hf) ((encloses_append_iff hm f).1 he)]
    · next hc =>
      cases h
      refine ⟨rfl, .plain fun front hf he => ?_⟩
      obtain ⟨f, rfl⟩ := he.exists_eq_append
      exact (cutAfter?_eq_none_iff hm t).1 hc f ((List.prefix_append_right_inj mark).1 hf)
        ((encloses_append_iff hm f).1 he)
  · next hp =>
    cases h
    exact ⟨rfl, .plain fun front hf he => hp (List.isPrefixOf_iff_prefix.2 (he.starts.trans hf))⟩

/-- The cut finds the token in delimiters. -/
theorem cut_eq_ok_iff (mark text token rest : List Char) :
    (ofMark mark).cut text = .ok (token, rest) ↔ text = token ++ rest ∧ Opens mark token rest := by
  constructor
  · exact cut_sound
  · rintro ⟨rfl, ho⟩
    obtain ⟨token', rest', hc⟩ := exists_cut_eq_ok mark (token ++ rest)
    obtain ⟨he, ho'⟩ := cut_sound hc
    obtain ⟨rfl, rfl⟩ := ho.unique ho' he
    exact hc

end Delimiter

namespace Condition

open Delimiter Operator

/-- The attribute of a text: the text itself must be there, or the value of the token in front of its
operator is compared with what stands behind it. -/
inductive Attribute (mark : List Char) : List Char → Condition → Prop where
  | presence {token rest : List Char} (h : Opens mark token rest)
      (absent : ∀ op : Operator, ¬op.symbol.toList <:+: rest) (ne : token ++ rest ≠ []) :
      Attribute mark (token ++ rest) (attr (.text (String.ofList (token ++ rest))) none none)
  | comparison {token before after : List Char} {op : Operator}
      (h : Opens mark token (before ++ (op.symbol.toList ++ after))) (splits : Splits before op after)
      (ne : Text.trim (token ++ before) ≠ []) :
      Attribute mark (token ++ (before ++ (op.symbol.toList ++ after)))
        (attr (.text (String.ofList (Text.trim (token ++ before)))) (some op)
          (some (.text (String.ofList (Text.trim after)))))

/-- A text asks for one attribute at most. -/
theorem Attribute.unique {mark text : List Char} {t t' : Condition} (h : Attribute mark text t)
    (h' : Attribute mark text t') : t = t' := by
  cases h with
  | presence h absent =>
    rename_i token rest ne
    generalize he : token ++ rest = text at h'
    cases h' with
    | presence => rfl
    | comparison h' =>
      obtain ⟨rfl, rfl⟩ := h.unique h' he
      exact absurd ((List.prefix_append ..).isInfix.trans (List.suffix_append ..).isInfix) (absent _)
  | comparison h splits =>
    rename_i token before after op ne
    generalize he : token ++ (before ++ (op.symbol.toList ++ after)) = text at h'
    cases h' with
    | presence h' absent =>
      obtain ⟨rfl, rfl⟩ := h.unique h' he
      exact absurd ((List.prefix_append ..).isInfix.trans (List.suffix_append ..).isInfix) (absent _)
    | comparison h' splits' =>
      obtain ⟨rfl, hr⟩ := h.unique h' he
      have cut := (cut?_eq_some_iff _ _ _ _).2 ⟨rfl, splits⟩
      rw [(cut?_eq_some_iff _ _ _ _).2 ⟨hr, splits'⟩] at cut
      cases cut
      rfl

theorem attr?_text (token : List Char) (op : Option Operator) (expected : Option Value) :
    attr? (.text (String.ofList token)) op expected =
      if token = [] then .error .emptyToken else .ok (attr (.text (String.ofList token)) op expected) := by
  by_cases h : token = [] <;> simp [attr?, Value.holds, Scalar.holds, h]

theorem readAttribute_of_cut {mark expression token rest : List Char}
    (h : (ofMark mark).cut (Text.normalize expression) = .ok (token, rest)) :
    readAttribute (ofMark mark) expression =
      match cut? rest with
      | none => (attr? (.text (String.ofList (Text.normalize expression))) none none).mapError .defect
      | some (before, op, after) =>
        (attr? (.text (String.ofList (Text.trim (token ++ before)))) (some op)
          (some (.text (String.ofList (Text.trim after))))).mapError .defect := by
  rw [readAttribute, h]
  rfl

theorem readAttribute_sound {mark expression : List Char} {t : Condition}
    (h : readAttribute (ofMark mark) expression = .ok t) :
    Attribute mark (Text.normalize expression) t := by
  obtain ⟨token, rest, hc⟩ := exists_cut_eq_ok mark (Text.normalize expression)
  obtain ⟨he, ho⟩ := cut_sound hc
  rw [readAttribute_of_cut hc, he] at h
  rw [he]
  match hs : cut? rest with
  | none =>
    simp only [hs, attr?_text] at h
    split at h
    · cases h
    · next ne =>
      cases h
      exact .presence ho ((cut?_eq_none_iff rest).1 hs) ne
  | some (before, op, after) =>
    obtain ⟨rfl, splits⟩ := (cut?_eq_some_iff rest before op after).1 hs
    simp only [hs, attr?_text] at h
    split at h
    · cases h
    · next ne =>
      cases h
      exact .comparison ho splits ne

theorem readAttribute_complete {mark expression text : List Char} {t : Condition}
    (h : Attribute mark text t) (he : Text.normalize expression = text) :
    readAttribute (ofMark mark) expression = .ok t := by
  cases h with
  | presence ho absent ne =>
    rw [readAttribute_of_cut ((cut_eq_ok_iff ..).2 ⟨he, ho⟩), (cut?_eq_none_iff _).2 absent, he]
    simp only [attr?_text, if_neg ne]
    rfl
  | comparison ho splits ne =>
    rw [readAttribute_of_cut ((cut_eq_ok_iff ..).2 ⟨he, ho⟩),
      (cut?_eq_some_iff ..).2 ⟨rfl, splits⟩]
    simp only [attr?_text, if_neg ne]
    rfl

/-- The reader finds the attribute that a text asks for. -/
theorem readAttribute_eq_ok_iff (mark expression : List Char) (t : Condition) :
    readAttribute (ofMark mark) expression = .ok t ↔
      Attribute mark (Text.normalize expression) t :=
  ⟨readAttribute_sound, fun h => readAttribute_complete h rfl⟩

end Condition

end Gatekeeper
