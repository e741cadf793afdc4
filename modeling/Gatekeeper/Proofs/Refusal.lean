import Gatekeeper.Journal
import Gatekeeper.Proofs.Grammar

/-!
# Refusals

A parser whose delimiter is a text comes to an end with every text, which it accepts or refuses. Parsing
can fail of a delimiter of another kind, and of a condition that cannot be built; but what the parser
builds can be, so each part of the reader that does not look at the delimiter is conclusive at once. Any
other value than a text is refused if it can be written, and a fault if it cannot.
-/
namespace Gatekeeper.Parser

open Gatekeeper.Grammar Condition

/-- A reading that ends with its result or with a refusal. -/
def IsConclusive {α : Type} (r : Except ParseFailure α) : Prop :=
  ∀ fault, r ≠ .error (.raised fault)

theorem isConclusive_ok {α : Type} (a : α) : IsConclusive (.ok a) := by
  intro fault h
  cases h

theorem isConclusive_refuse {α : Type} (fragment : List Char) (cause : ParseCause) :
    IsConclusive (refuse fragment cause : Except ParseFailure α) := by
  intro fault h
  cases h

/-- A conclusive reading followed by one that is conclusive for each of its results. -/
theorem IsConclusive.bind {α β : Type} {r : Except ParseFailure α} {f : α → Except ParseFailure β}
    (h : IsConclusive r) (hf : ∀ a, IsConclusive (f a)) : IsConclusive (r >>= f) := by
  intro fault hr
  rcases (bind_eq_error_iff ..).1 hr with hr | ⟨a, -, hr⟩
  · exact h fault hr
  · exact hf a fault hr

theorem isConclusive_mapM {α β : Type} {f : α → Except ParseFailure β} {xs : List α}
    (h : ∀ x ∈ xs, IsConclusive (f x)) : IsConclusive (xs.mapM f) := by
  induction xs with
  | nil => exact isConclusive_ok []
  | cons x xs ih =>
    obtain ⟨hx, hxs⟩ := List.forall_mem_cons.1 h
    rw [List.mapM_cons]
    exact hx.bind fun y => (ih hxs).bind fun ys => isConclusive_ok (y :: ys)

/-- A conclusive reading in the two ways it can end. -/
theorem IsConclusive.ok_or_refused {α : Type} {r : Except ParseFailure α} (h : IsConclusive r) :
    (∃ a, r = .ok a) ∨ ∃ e, r = .error (.refused e) := by
  match r with
  | .ok a => exact .inl ⟨a, rfl⟩
  | .error (.refused e) => exact .inr ⟨e, rfl⟩
  | .error (.raised fault) => exact absurd rfl (h fault)

theorem isConclusive_asLeaf (text : List Char) {r : Except LeafError Condition}
    (h : ∀ m, r ≠ .error (.mismatch m)) : IsConclusive (asLeaf text r) := by
  match r with
  | .ok c => exact isConclusive_ok c
  | .error (.defect d) => exact isConclusive_refuse text (.leaf d)
  | .error (.mismatch m) => exact absurd rfl (h m)

/-- A defect of a leaf is no mismatch. -/
theorem mapError_defect_ne (r : Except Defect Condition) (m : Mismatch) :
    r.mapError LeafError.defect ≠ .error (.mismatch m) := by
  cases r <;> simp [Except.mapError]

theorem isConclusive_parsePermission (text body : List Char) :
    IsConclusive (parsePermission text body) :=
  isConclusive_asLeaf text (mapError_defect_ne _)

/-- A bare text without the characters that end a node is one. -/
theorem perm?_of_bare {text : List Char} (h : ¬(text.isEmpty || text.any endsNode) = true) :
    perm? (String.ofList text) (.bool false) = .ok (perm (String.ofList text) (.bool false)) := by
  rw [perm?_eq_ok_iff, isNode_iff]
  simpa using h

theorem isConclusive_listPieces (text inside : List Char) : IsConclusive (listPieces text inside) := by
  intro fault h
  rw [listPieces.eq_def] at h
  split at h
  · cases h
  · split at h
    · cases h
    · split at h <;> cases h

/-- A leaf is refused at once, or read as a permission, as an attribute or as a bare text. -/
theorem parseLeaf_cases (delimiter : Delimiter) (text : List Char) :
    (∃ cause ∈ [ParseCause.unknownFormat, .missingOperand],
        parseLeaf delimiter text = refuse text cause) ∨
      (∃ body, parseLeaf delimiter text = parsePermission text body) ∨
      (∃ body, parseLeaf delimiter text = parseAttribute delimiter text body) ∨
      parseLeaf delimiter text = parseBare delimiter text := by
  rw [parseLeaf.eq_def]
  split
  · exact .inl ⟨.unknownFormat, by simp, rfl⟩
  split
  · exact .inl ⟨.missingOperand, by simp, rfl⟩
  split
  · next body _ => exact .inr (.inl ⟨body, rfl⟩)
  split
  · next body _ => exact .inr (.inr (.inl ⟨body, rfl⟩))
  split
  · exact .inr (.inl ⟨text, rfl⟩)
  · exact .inr (.inr (.inr rfl))

section

variable (mark : List Char)

theorem readAttribute_ne_mismatch (expression : List Char) (m : Mismatch) :
    readAttribute (.ofMark mark) expression ≠ .error (.mismatch m) := by
  obtain ⟨token, rest, hc⟩ := Delimiter.exists_cut_eq_ok mark (Text.normalize expression)
  rw [readAttribute_of_cut hc]
  split <;> exact mapError_defect_ne _ m

theorem isConclusive_parseAttribute (text body : List Char) :
    IsConclusive (parseAttribute (.ofMark mark) text body) := by
  rw [parseAttribute]
  split
  · exact isConclusive_refuse text .strayed
  · exact isConclusive_asLeaf text (readAttribute_ne_mismatch mark body)

theorem isConclusive_parseBare (text : List Char) :
    IsConclusive (parseBare (.ofMark mark) text) := by
  rw [parseBare]
  by_cases h : Marked mark text
  · rw [opens_of_marked h]
    exact isConclusive_parseAttribute mark text text
  · rw [opens_of_unmarked h]
    show IsConclusive (if _ then _ else _)
    split
    · exact isConclusive_refuse text .unknownFormat
    · next bare =>
      rw [perm?_of_bare bare]
      exact isConclusive_ok _

theorem isConclusive_parseLeaf (text : List Char) :
    IsConclusive (parseLeaf (.ofMark mark) text) := by
  rcases parseLeaf_cases (.ofMark mark) text with ⟨cause, -, h⟩ | ⟨body, h⟩ | ⟨body, h⟩ | h
  · rw [h]
    exact isConclusive_refuse text cause
  · rw [h]
    exact isConclusive_parsePermission text body
  · rw [h]
    exact isConclusive_parseAttribute mark text body
  · rw [h]
    exact isConclusive_parseBare mark text

/-- With whatever number of levels, and on whatever text. -/
theorem isConclusive_parseWithin (limit : DepthLimit) (n : Nat) (s : List Char) :
    IsConclusive (parseWithin ⟨limit, .ofMark mark⟩ n s) := by
  induction n generalizing s with
  | zero => exact isConclusive_refuse s (.tooDeep limit.written)
  | succ n ih =>
    rw [parseWithin.eq_def]
    dsimp only
    split
    · exact isConclusive_refuse s .empty
    split
    · next mode inside _ =>
      rw [bind_group?]
      refine (isConclusive_listPieces _ inside).bind fun pieces => ?_
      exact (isConclusive_mapM fun piece _ => ih piece).bind fun cs => isConclusive_ok _
    split
    · next operand _ => exact (ih operand).bind fun c => isConclusive_ok _
    · exact isConclusive_parseLeaf mark _

end

variable {parser : Parser} {mark : String}

theorem isConclusive_parse (h : parser.delimiter = .ofValue (.text mark)) (s : String) :
    IsConclusive (parser.parse s) := by
  obtain ⟨limit, delimiter⟩ := parser
  obtain rfl : delimiter = .ofMark mark.toList := h.trans (Delimiter.ofValue_text mark)
  exact isConclusive_parseWithin mark.toList limit limit.levels s.toList

theorem parseValue_of_writable {e : Value} (writable : e.isWritable = true) (other : ∀ s, e ≠ .text s) :
    parser.parseValue e = .error (.refused ⟨e.shown, .notText⟩) := by
  rw [parseValue.eq_def]
  split
  · next s => exact absurd rfl (other s)
  · rw [Value.shown?, if_pos writable]
    rfl

/-- A value that cannot be written is no text, and no refusal can show it. -/
theorem parseValue_of_unwritable {e : Value} (unwritable : e.isWritable = false) :
    parser.parseValue e = .error (.raised .unwritable) := by
  rw [parseValue.eq_def]
  split
  · cases unwritable
  · rw [Value.shown?, if_neg (ne_true_of_eq_false unwritable)]
    rfl

theorem isConclusive_parseValue (h : parser.delimiter = .ofValue (.text mark)) {e : Value}
    (writable : e.isWritable = true) : IsConclusive (parser.parseValue e) := by
  by_cases text : ∃ s, e = .text s
  · obtain ⟨s, rfl⟩ := text
    exact isConclusive_parse h s
  · rw [parseValue_of_writable writable (not_exists.1 text)]
    intro fault he
    cases he

theorem attempt_of_unwritable {e : Value} (unwritable : e.isWritable = false) :
    (parser.attempt e).1 = .error .unwritable := by
  rw [attempt, parseValue_of_unwritable unwritable]

/-- What an attempt makes of an expression: its condition, or that there is none. -/
theorem attempt_eq (h : parser.delimiter = .ofValue (.text mark)) {e : Value}
    (writable : e.isWritable = true) : (parser.attempt e).1 = .ok (parser.parseValue e).toOption := by
  rw [attempt]
  rcases (isConclusive_parseValue h writable).ok_or_refused with ⟨c, hc⟩ | ⟨x, hx⟩
  · rw [hc]
    rfl
  · rw [hx]
    rfl

end Gatekeeper.Parser
