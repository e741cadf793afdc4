import Gatekeeper.Proofs.Grammar

/-!
# Descriptions

Two conditions that were read have the same description only if they are the same. The cut of an
attribute finds in its description what it found in the expression, since an operator and a token in
delimiters have no blanks of their own; and what describes the members of a group are pieces of a
list, which can be told apart.
-/
namespace Gatekeeper.Grammar

open Text Gatekeeper.Bracket Delimiter Operator Condition

/-! ## Attributes -/

/-- A part of a text that lacks one of its characters lies on one side of it. -/
theorem side_of_not_mem {c : Char} {part : List Char} (hc : c ∉ part) (ne : part ≠ [])
    {left right : List Char} (front : List Char) {back : List Char}
    (he : left ++ c :: right = front ++ (part ++ back)) :
    (∃ rest, left = front ++ (part ++ rest)) ∨
      ∃ rest, front = left ++ c :: rest ∧ right = rest ++ (part ++ back) := by
  rcases List.append_eq_append_iff.1 he with ⟨gap, rfl, hr⟩ | ⟨gap, rfl, hr⟩
  · right
    cases gap with
    | nil =>
      obtain ⟨d, part, rfl⟩ := List.exists_cons_of_ne_nil ne
      obtain ⟨rfl, -⟩ := List.cons.inj hr
      exact absurd (List.mem_cons_self ..) hc
    | cons d gap =>
      obtain ⟨rfl, rfl⟩ := List.cons.inj hr
      exact ⟨gap, rfl, rfl⟩
  · left
    rcases List.append_eq_append_iff.1 hr with ⟨rest, rfl, -⟩ | ⟨rest, rfl, hr'⟩
    · exact ⟨rest, rfl⟩
    · cases rest with
      | nil => exact ⟨[], by simp⟩
      | cons d rest =>
        obtain ⟨rfl, -⟩ := List.cons.inj hr'
        exact absurd (by simp) hc

theorem space_not_mem_symbol (op : Operator) : ' ' ∉ op.symbol.toList := by
  cases op <;> decide

theorem symbol_toList_ne_nil (op : Operator) : op.symbol.toList ≠ [] := by
  simp

/-- Blanks around an operator do not change where the text is cut. -/
theorem splits_spaced {before after token : List Char} {op : Operator}
    (h : Splits before op after) (hb : token <+: before) (value : List Char) :
    Splits (token ++ [' ']) op (' ' :: value) := by
  obtain ⟨blanks, rfl⟩ := hb
  constructor
  · intro front other back he
    rw [List.append_assoc, List.singleton_append] at he
    rcases side_of_not_mem (space_not_mem_symbol other) (symbol_toList_ne_nil other) front he with
      ⟨rest, rfl⟩ | ⟨rest, rfl, -⟩
    · have := h.leftmost front other (rest ++ (blanks ++ (op.symbol.toList ++ after))) (by simp)
      have ne := List.length_pos_of_ne_nil (symbol_toList_ne_nil other)
      simp only [List.length_append] at this
      omega
    · simp
  · intro other back he
    rcases side_of_not_mem (space_not_mem_symbol other) (symbol_toList_ne_nil other) [] he with
      ⟨rest, hr⟩ | ⟨rest, hr, -⟩
    · rw [hr]
      simp
    · simp at hr

/-- A mark that no blank cuts: it has none, or it starts with one, so that no normal text starts with
it. -/
def Solid (mark : List Char) : Prop :=
  (∃ c ∈ mark.head?, isBlank c = true) ∨ ∀ c ∈ mark, isBlank c = false

theorem Solid.not_blank {c : Char} {mark : List Char} (h : Solid (c :: mark))
    (hc : isBlank c = false) : ∀ d ∈ c :: mark, isBlank d = false := by
  rcases h with ⟨d, hd, hb⟩ | plain
  · obtain rfl := Option.some.inj hd
    rw [hb] at hc
    cases hc
  · exact plain

/-- Blanks around an operator do not make a token in delimiters of what was none. -/
theorem not_encloses_spaced {mark before after value : List Char} {op : Operator} {d : Char}
    {token : List Char} (hm : Solid mark) (hd : isBlank d = false) (ht : d :: token <+: before)
    (hv : value <:+: after)
    (none : ∀ front, front <+: before ++ (op.symbol.toList ++ after) → ¬Encloses mark front) :
    ∀ front, front <+: d :: token ++ ' ' :: (op.symbol.toList ++ ' ' :: value) →
      ¬Encloses mark front := by
  rintro front ⟨rest, he⟩ ⟨ne, inside, rfl⟩
  rw [List.append_assoc, List.append_assoc] at he
  have space : ' ' ∉ mark := by
    obtain ⟨c, mark, rfl⟩ := List.exists_cons_of_ne_nil ne
    obtain ⟨rfl, -⟩ := List.cons.inj he
    intro hs
    exact absurd (hm.not_blank hd ' ' hs) (by decide)
  obtain ⟨blanks, rfl⟩ := ht
  -- The first mark starts the token, and the second is elsewhere in it or behind the blank.
  rcases side_of_not_mem space ne [] he.symm with ⟨r, hr⟩ | ⟨r, hr, -⟩
  · rw [List.nil_append] at hr
    rw [hr, List.append_assoc, List.append_cancel_left_eq] at he
    have second : mark <:+: r ∨ mark <:+: op.symbol.toList ++ after := by
      rcases side_of_not_mem space ne inside he.symm with ⟨r', rfl⟩ | ⟨r', -, hr'⟩
      · exact .inl ⟨inside, r', by rw [List.append_assoc]⟩
      · rcases side_of_not_mem space ne r' hr' with ⟨r'', hs⟩ | ⟨r'', -, hs⟩
        · exact .inr (List.IsInfix.trans ⟨r', r'', by rw [List.append_assoc, hs]⟩
            (List.prefix_append ..).isInfix)
        · have : mark <:+: value := ⟨r'', rest, by rw [hs, List.append_assoc]⟩
          exact .inr ((this.trans hv).trans (List.suffix_append ..).isInfix)
    obtain ⟨inside', rest', hi⟩ : mark <:+: r ++ (blanks ++ (op.symbol.toList ++ after)) := by
      rcases second with h | h
      · exact h.trans (List.prefix_append ..).isInfix
      · exact h.trans ((List.suffix_append ..).trans (List.suffix_append ..)).isInfix
    refine none (mark ++ inside' ++ mark) ⟨rest', ?_⟩ ⟨ne, inside', rfl⟩
    rw [hr]
    simp only [List.append_assoc] at hi ⊢
    rw [hi]
  · simp at hr

/-- A token in delimiters starts and ends without blanks. -/
theorem Solid.encloses_ends {mark token : List Char} (hm : Solid mark) (h : Encloses mark token)
    (first : ∀ c ∈ token.head?, isBlank c = false) :
    ∃ front c, isBlank c = false ∧ token = front ++ [c] := by
  obtain ⟨ne, inside, rfl⟩ := h
  obtain ⟨c, rest, rfl⟩ := List.exists_cons_of_ne_nil ne
  have last := hm.not_blank (first c rfl) _ (List.getLast_mem ne)
  refine ⟨c :: rest ++ inside ++ (c :: rest).dropLast, (c :: rest).getLast ne, last, ?_⟩
  rw [List.append_assoc _ _ [_], List.dropLast_append_getLast ne]

/-- Behind a token in delimiters, only the end of what stands in front of the operator is trimmed. -/
theorem trim_token {mark token before rest : List Char} (hm : Solid mark)
    (hn : IsNormal (token ++ (before ++ rest))) (h : Opens mark token (before ++ rest))
    (ne : token ++ before ≠ []) : trim (token ++ before) = token ++ trimEnd before := by
  obtain ⟨c, back, hb⟩ := List.exists_cons_of_ne_nil ne
  rw [← List.append_assoc, hb] at hn
  have hc : isBlank c = false := hn.isBlank_head
  have start : trim (token ++ before) = trimEnd (token ++ before) := by
    rw [trim, hb, trimStart_cons hc]
  rw [start]
  cases h with
  | delimited he _ =>
    have first : ∀ d ∈ token.head?, isBlank d = false := by
      intro d hd
      obtain ⟨token, rfl⟩ := List.head?_eq_some_iff.1 hd
      obtain ⟨rfl, -⟩ := List.cons.inj hb
      exact hc
    obtain ⟨front, d, hd, rfl⟩ := hm.encloses_ends he first
    rw [List.append_assoc, List.singleton_append, trimEnd_append_cons hd, List.append_assoc]
    rfl
  | plain _ => rfl

/-- A comparison that is written again with blanks around its operator is cut as before, also if the
last of these blanks is left out where nothing follows it. -/
theorem attribute_rewritten {mark token before after tail : List Char} {op : Operator}
    (hm : Solid mark) (hn : IsNormal (token ++ (before ++ (op.symbol.toList ++ after))))
    (h : Opens mark token (before ++ (op.symbol.toList ++ after))) (splits : Splits before op after)
    (ne : trim (token ++ before) ≠ []) (ht : tail <+: ' ' :: trim after)
    (hv : trim tail = trim after) :
    Attribute mark (trim (token ++ before) ++ ' ' :: (op.symbol.toList ++ tail))
      (attr (.text (String.ofList (trim (token ++ before)))) (some op)
        (some (.text (String.ofList (trim after))))) := by
  have hb : trimEnd before <+: before := List.rdropWhile_prefix ..
  have start : trim (token ++ before) = token ++ trimEnd before := by
    refine trim_token hm hn h fun hnil => ne ?_
    rw [hnil]
    rfl
  have opens : Opens mark token (trimEnd before ++ [' '] ++ (op.symbol.toList ++ ' ' :: trim after)) := by
    cases h with
    | delimited he shortest => exact .delimited he shortest
    | plain none =>
      cases before with
      | nil => exact absurd rfl ne
      | cons d before =>
        have hd : isBlank d = false := hn.isBlank_head
        have trimmed : trimEnd (d :: before) = d :: trimEnd before := trimEnd_append_cons hd [] before
        rw [trimmed] at hb ⊢
        rw [List.append_assoc, List.singleton_append]
        exact .plain (not_encloses_spaced hm hd hb (isInfix_trim after) none)
  have spaced := splits_spaced splits hb (trim after)
  obtain ⟨more, hr⟩ := ht
  rw [← hr, ← List.append_assoc op.symbol.toList, ← List.append_assoc] at opens
  rw [← hr] at spaced
  have trimmed : trim (token ++ (trimEnd before ++ [' '])) = trim (token ++ before) := by
    rw [← List.append_assoc, trim_concat_blank (by decide), ← start, trim_trim]
  have again := Attribute.comparison opens.of_append spaced.of_append (by rwa [trimmed])
  have text : token ++ (trimEnd before ++ [' '] ++ (op.symbol.toList ++ tail)) =
      trim (token ++ before) ++ ' ' :: (op.symbol.toList ++ tail) := by
    rw [start]
    simp only [List.append_assoc, List.singleton_append]
  rwa [trimmed, hv, text] at again

/-- The description of a comparison is cut as the expression was. -/
theorem attribute_spaced {mark token before after : List Char} {op : Operator} (hm : Solid mark)
    (hn : IsNormal (token ++ (before ++ (op.symbol.toList ++ after))))
    (h : Opens mark token (before ++ (op.symbol.toList ++ after))) (splits : Splits before op after)
    (ne : trim (token ++ before) ≠ []) :
    Attribute mark (trim (token ++ before) ++ ' ' :: (op.symbol.toList ++ ' ' :: trim after))
      (attr (.text (String.ofList (trim (token ++ before)))) (some op)
        (some (.text (String.ofList (trim after))))) :=
  attribute_rewritten hm hn h splits ne (List.prefix_refl _) (by
    rw [trim_cons_blank isBlank_space, trim_trim])

/-! ## Conditions that were read -/

/-- What every condition that was read is made of. -/
inductive Built (mark : List Char) : Condition → Prop where
  | perm {node : List Char} {negate : Bool} (h : IsNode node) :
      Built mark (perm (String.ofList node) (.bool negate))
  | attr {text : List Char} {t : Condition} (normal : IsNormal text)
      (plain : ∀ c ∈ text, c ≠ '[' ∧ c ≠ ']' ∧ c ≠ ';') (h : Attribute mark text t) : Built mark t
  | group {mode : Mode} {cs : List Condition} (ne : cs ≠ []) (each : ∀ c ∈ cs, Built mark c) :
      Built mark (group mode cs)
  | not {c : Condition} (h : Built mark c) : Built mark (not c)

theorem Permission.built {mark text : List Char} {t : Condition} (h : Permission text t) :
    Built mark t := by
  cases h with
  | held h | lacked _ h => exact .perm h

/-- A leaf is a permission, or an attribute of a normal text that nothing in it would cut. -/
theorem Leaf.permission_or_attribute {mark text : List Char} {t : Condition} (h : Leaf mark text t)
    (hn : IsNormal text) (opening : '[' ∉ text) (closing : ']' ∉ text) :
    (∃ body, Permission body t) ∨
      ∃ body, IsNormal body ∧ (∀ c ∈ body, c ≠ '[' ∧ c ≠ ']' ∧ c ≠ ';') ∧ Attribute mark body t := by
  have plain {back : List Char} (hs : back ⊆ text) (semicolon : ';' ∉ back) :
      ∀ c ∈ back, c ≠ '[' ∧ c ≠ ']' ∧ c ≠ ';' := by
    rintro c hc
    refine ⟨?_, ?_, ?_⟩ <;> rintro rfl
    · exact opening (hs hc)
    · exact closing (hs hc)
    · exact semicolon hc
  cases h with
  | permission _ h | lacked _ h => exact .inl ⟨_, h⟩
  | placeholder keyword semicolon h =>
    exact .inr ⟨_, keyword.isNormal hn, plain keyword.subset semicolon, h⟩
  | delimited _ _ _ semicolon h => exact .inr ⟨text, hn, plain (fun _ hc => hc) semicolon, h⟩
  | bare _ first h => exact .inl ⟨text, .held h first⟩

theorem Leaf.built {mark text : List Char} {t : Condition} (h : Leaf mark text t)
    (hn : IsNormal text) (opening : '[' ∉ text) (closing : ']' ∉ text) : Built mark t := by
  rcases h.permission_or_attribute hn opening closing with ⟨body, h⟩ | ⟨body, normal, plain, h⟩
  · exact h.built
  · exact .attr normal plain h

theorem Derives.built {mark text : List Char} {t : Condition} (h : Derives mark text t)
    (hn : IsNormal text) : Built mark t := by
  induction h with
  | group hw spelled hb cut ne length each ih =>
    refine .group (fun hc => ne (List.eq_nil_of_length_eq_zero (by rw [length, hc]; rfl))) ?_
    intro c hc
    obtain ⟨piece, hpc⟩ := exists_mem_zip length hc
    exact ih piece c hpc (isNormal_normalize piece)
  | not _ _ ih => exact .not (ih (isNormal_normalize _))
  | leaf opening closing _ _ h => exact h.built hn opening closing

/-! ## Descriptions -/

theorem describe_perm (node : List Char) (negate : Bool) :
    (perm (String.ofList node) (.bool negate)).describe.toList =
      (if negate then "NOT permission: ".toList else "permission: ".toList) ++ node := by
  cases negate <;> simp [describe, Value.holds, Scalar.holds]

theorem describe_presence (token : List Char) :
    (attr (.text (String.ofList token)) none none).describe.toList =
      "attribute exists: ".toList ++ token := by
  simp [describe, Value.plain, Scalar.plain]

theorem describe_comparison (token value : List Char) (op : Operator) :
    (attr (.text (String.ofList token)) (some op) (some (.text (String.ofList value)))).describe.toList =
      "attribute: ".toList ++ (token ++ ' ' :: (op.symbol.toList ++ ' ' :: value)) := by
  simp [describe, Value.plain, Scalar.plain]

theorem describeEach_eq (cs : List Condition) : describeEach cs = cs.map describe := by
  induction cs with
  | nil => rfl
  | cons c cs ih => rw [describeEach, ih, List.map_cons]

theorem describe_group (mode : Mode) (cs : List Condition) :
    (group mode cs).describe.toList = mode.name.toList ++ ' ' :: '[' ::
      ([';'].intercalate (spaced (cs.map fun c => c.describe.toList)) ++ [']']) := by
  rw [← intercalate_spaced]
  simp [describe, describeEach_eq, Function.comp_def]

theorem describe_not (c : Condition) :
    (not c).describe.toList = "not ".toList ++ c.describe.toList := by
  simp [describe]

/-- Descriptions may be the pieces of a list. -/
theorem Built.isPiece {mark : List Char} {c : Condition} (h : Built mark c) :
    IsPiece c.describe.toList := by
  induction h with
  | @perm node negate h =>
    rw [describe_perm]
    refine isPiece_append ?_ (isPiece_of_plain fun c hc => (h.2 c hc).2)
    cases negate <;> exact isPiece_of_all (by decide)
  | attr _ plain h =>
    cases h with
    | presence =>
      rw [describe_presence]
      exact isPiece_append (isPiece_of_all (by decide)) (isPiece_of_plain plain)
    | @comparison token before after op =>
      have symbol : IsPiece op.symbol.toList := by
        cases op <;> exact isPiece_of_all (by decide)
      have space : IsPiece [' '] := isPiece_of_all (by decide)
      have part {text : List Char}
          (h : text <:+: token ++ (before ++ (op.symbol.toList ++ after))) : IsPiece (trim text) :=
        isPiece_of_plain fun c hc => plain c ((isInfix_trim text).trans h |>.subset hc)
      have left : IsPiece (trim (token ++ before)) := part ⟨[], op.symbol.toList ++ after, by simp⟩
      have right : IsPiece (trim after) := part ⟨token ++ before ++ op.symbol.toList, [], by simp⟩
      rw [describe_comparison]
      exact isPiece_append (isPiece_of_all (by decide)) (isPiece_append left
        (isPiece_append space (isPiece_append symbol (isPiece_append space right))))
  | @group mode cs _ _ ih =>
    rw [describe_group]
    have name : IsPiece (mode.name.toList ++ [' ']) := by
      cases mode <;> exact isPiece_of_all (by decide)
    have pieces := isPiece_spaced (List.forall_mem_map.2 ih)
    have := isPiece_append name (isPiece_brackets (isBalanced_intercalate pieces))
    rwa [List.append_assoc, List.singleton_append] at this
  | not _ ih =>
    rw [describe_not]
    exact isPiece_append (isPiece_of_all (by decide)) ih

inductive Kind where
  | permission
  | presence
  | comparison
  | group
  | not
  deriving DecidableEq

def kind : Condition → Kind
  | .perm .. => .permission
  | .attr _ (some _) (some _) => .comparison
  | .attr .. => .presence
  | .group .. => .group
  | .not _ => .not

/-- The words that descriptions start with. -/
def openings : List (Kind × List Char) :=
  [(.permission, "permission: ".toList), (.permission, "NOT permission: ".toList),
    (.presence, "attribute exists: ".toList), (.comparison, "attribute: ".toList),
    (.group, "all [".toList), (.group, "any [".toList), (.not, "not ".toList)]

theorem openings_prefix_free :
    ∀ o ∈ openings, ∀ o' ∈ openings, o.2 <+: o'.2 → o.1 = o'.1 := by decide

theorem Built.starts {mark : List Char} {c : Condition} (h : Built mark c) :
    ∃ o ∈ openings, o.1 = kind c ∧ o.2 <+: c.describe.toList := by
  cases h with
  | @perm node negate =>
    rw [describe_perm]
    cases negate
    · exact ⟨(.permission, _), by decide, rfl, List.prefix_append ..⟩
    · exact ⟨(.permission, _), by decide, rfl, List.prefix_append ..⟩
  | attr _ _ h =>
    cases h with
    | presence =>
      rw [describe_presence]
      exact ⟨(.presence, _), by decide, rfl, List.prefix_append ..⟩
    | comparison =>
      rw [describe_comparison]
      exact ⟨(.comparison, _), by decide, rfl, List.prefix_append ..⟩
  | @group mode =>
    rw [describe_group]
    cases mode
    · exact ⟨(.group, _), by decide, rfl, List.prefix_append "all [".toList _⟩
    · exact ⟨(.group, _), by decide, rfl, List.prefix_append "any [".toList _⟩
  | not =>
    rw [describe_not]
    exact ⟨(.not, _), by decide, rfl, List.prefix_append ..⟩

/-- The first words of a description tell the kind of the condition. -/
theorem Built.kind_eq {mark : List Char} {c c' : Condition} (h : Built mark c) (h' : Built mark c')
    (he : c.describe.toList = c'.describe.toList) : kind c = kind c' := by
  obtain ⟨o, ho, hk, hp⟩ := h.starts
  obtain ⟨o', ho', hk', hp'⟩ := h'.starts
  rw [he] at hp
  rcases List.prefix_or_prefix_of_prefix hp hp' with hp | hp
  · rw [← hk, ← hk', openings_prefix_free o ho o' ho' hp]
  · rw [← hk, ← hk', openings_prefix_free o' ho' o ho hp]

/-- A description tells the condition that was read. -/
theorem Built.eq_of_describe_eq {mark : List Char} (hm : Solid mark) {c c' : Condition}
    (h : Built mark c) (h' : Built mark c') (he : c.describe.toList = c'.describe.toList) :
    c = c' := by
  have hk := h.kind_eq h' he
  induction h generalizing c' with
  | @perm node negate h =>
    cases h' with
    | @perm node' negate' =>
      rw [describe_perm, describe_perm] at he
      cases negate <;> cases negate' <;> simp at he <;> rw [he]
    | attr _ _ h' => cases h' <;> cases hk
    | group | not => cases hk
  | attr normal plain h =>
    cases h with
    | presence =>
      cases h' with
      | attr _ _ h' =>
        cases h' with
        | presence =>
          rw [describe_presence, describe_presence, List.append_cancel_left_eq] at he
          rw [he]
        | comparison => cases hk
      | perm | group | not => cases hk
    | comparison h splits ne =>
      cases h' with
      | attr normal' _ h' =>
        cases h' with
        | presence => cases hk
        | comparison h' splits' ne' =>
          rw [describe_comparison, describe_comparison, List.append_cancel_left_eq] at he
          have spaced := attribute_spaced hm normal h splits ne
          rw [he] at spaced
          exact spaced.unique (attribute_spaced hm normal' h' splits' ne')
      | perm | group | not => cases hk
  | @group mode cs ne each ih =>
    cases h' with
    | attr _ _ h' => cases h' <;> cases hk
    | @group mode' cs' ne' each' =>
      rw [describe_group, describe_group] at he
      obtain rfl : mode = mode' := by
        cases mode <;> cases mode' <;> simp [Mode.name] at he ⊢
      rw [List.append_cancel_left_eq, List.cons.injEq, List.cons.injEq] at he
      have hs := intercalate_inj (spaced_ne_nil (by simpa using ne)) (spaced_ne_nil (by simpa using ne'))
        (isPiece_spaced (List.forall_mem_map.2 fun c hc => (each c hc).isPiece))
        (isPiece_spaced (List.forall_mem_map.2 fun c hc => (each' c hc).isPiece))
        (List.append_cancel_right he.2.2)
      have hd := spaced_inj hs
      rw [← List.forall₂_eq_eq_eq, List.forall₂_map_left_iff, List.forall₂_map_right_iff,
        List.forall₂_iff_zip] at hd
      have hcs : List.Forall₂ Eq cs cs' := by
        refine List.forall₂_iff_zip.2 ⟨hd.1, fun {c c'} hz => ?_⟩
        obtain ⟨hc, hc'⟩ := List.of_mem_zip hz
        exact ih c hc (each' c' hc') (hd.2 hz) ((each c hc).kind_eq (each' c' hc') (hd.2 hz))
      rw [List.forall₂_eq_eq_eq] at hcs
      rw [hcs]
    | perm | not => cases hk
  | not h ih =>
    cases h' with
    | attr _ _ h' => cases h' <;> cases hk
    | not h' =>
      rw [describe_not, describe_not, List.append_cancel_left_eq] at he
      rw [ih h' he (h.kind_eq h' he)]
    | perm | group => cases hk

/-- The characters that hold a code point in pairs are not blank. -/
theorem isBlank_of_leads_le {c : Char} (h : leads ≤ c.toNat) : isBlank c = false := by
  have low : ∀ r ∈ blankRanges, r.2 < leads := by decide
  rw [isBlank, List.any_eq_false]
  intro r hr
  have := low r hr
  simp only [Bool.and_eq_true, decide_eq_true_eq]
  omega

/-- No blank cuts a mark of one code point at most. -/
theorem solid_of_codes {mark : List Char} (h : (codes mark).length ≤ 1) : Solid mark := by
  match mark with
  | [] => exact .inr (by simp)
  | [c] =>
    cases hc : isBlank c with
    | true => exact .inl ⟨c, rfl, hc⟩
    | false => exact .inr (by simpa using hc)
  | c :: d :: rest =>
    have some_codes (text : List Char) (ne : text ≠ []) : codes text ≠ [] := by
      match text with
      | [] => exact absurd rfl ne
      | [_] => exact List.cons_ne_nil _ _
      | _ :: _ :: _ =>
        rw [codes]
        split <;> exact List.cons_ne_nil _ _
    rw [codes] at h
    split at h
    · next pair =>
      obtain rfl : rest = [] := by
        by_contra ne
        exact some_codes rest ne (by simpa using h)
      simp only [isLead, isTail, Bool.and_eq_true, decide_eq_true_eq] at pair
      have hc := isBlank_of_leads_le pair.1.1
      have hd := isBlank_of_leads_le (Nat.le_trans (Nat.le_add_right leads 34) pair.2.1)
      exact .inr (by simp [hc, hd])
    · exact absurd (by simpa using h) (some_codes (d :: rest) (List.cons_ne_nil _ _))

/-- Two conditions that a parser reads have the same description only if they are the same. -/
theorem describe_eq_iff (limit : DepthLimit) {mark : String} (hm : (codes mark.toList).length ≤ 1)
    {s s' : String} {t t' : Condition}
    (h : Parser.parse ⟨limit, .ofValue (.text mark)⟩ s = .ok t)
    (h' : Parser.parse ⟨limit, .ofValue (.text mark)⟩ s' = .ok t') :
    t.describe = t'.describe ↔ t = t' := by
  constructor
  · intro he
    have built := (parse_sound h).2.built (isNormal_normalize s.toList)
    have built' := (parse_sound h').2.built (isNormal_normalize s'.toList)
    exact built.eq_of_describe_eq (solid_of_codes hm) built' (congrArg String.toList he)
  · exact congrArg describe

theorem describe_eq_iff_similar :
    Parser.parse ⟨⟨1, "1"⟩, .ofValue (.text "%")⟩ "%a > b% == c" =
        .ok (attr (.text "%a > b%") (some .eq) (some (.text "c"))) ∧
      Parser.parse ⟨⟨1, "1"⟩, .ofValue (.text "%")⟩ "papi %a > b == c" =
        .ok (attr (.text "%a") (some .gt) (some (.text "b == c"))) ∧
      ((attr (.text "%a > b%") (some .eq) (some (.text "c"))).describe =
          (attr (.text "%a") (some .gt) (some (.text "b == c"))).describe ↔
        attr (.text "%a > b%") (some .eq) (some (.text "c")) =
          attr (.text "%a") (some .gt) (some (.text "b == c"))) := by
  have first : Parser.parse ⟨⟨1, "1"⟩, .ofValue (.text "%")⟩ "%a > b% == c" =
      .ok (attr (.text "%a > b%") (some .eq) (some (.text "c"))) := by decide +kernel
  have second : Parser.parse ⟨⟨1, "1"⟩, .ofValue (.text "%")⟩ "papi %a > b == c" =
      .ok (attr (.text "%a") (some .gt) (some (.text "b == c"))) := by decide +kernel
  exact ⟨first, second, describe_eq_iff _ (by decide) first second⟩

end Gatekeeper.Grammar
