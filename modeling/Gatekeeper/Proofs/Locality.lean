import Gatekeeper.Proofs.Refusal

/-!
# Where a refusal lies

An expression is refused for one part of it, and the refusal names this part. It is found by going down
to the first member that is refused in each group and to the operand of each negation. The part is a
piece of the normal form, and it is refused for the same reason when it stands alone, unless it lies too
deep: then all the levels that there are lie around it.
-/
namespace Gatekeeper.ParseCause

/-- A cause that lies in the text that is refused, and neither in its absence nor in its place. -/
def isOwn : ParseCause → Bool
  | empty | tooDeep _ => false
  | _ => true

end Gatekeeper.ParseCause

namespace Gatekeeper.Parser

open Text Gatekeeper.Bracket Gatekeeper.Grammar Condition

/-! ## Refusals of a whole text -/

/-- A reading that is refused for its whole text only. -/
def RefusesWhole {α : Type} (text : List Char) (r : Except ParseFailure α) : Prop :=
  ∀ x, r = .error (.refused x) → x.fragment = String.ofList text ∧ x.cause.isOwn = true

theorem refusesWhole_ok {α : Type} (text : List Char) (a : α) : RefusesWhole text (.ok a) := by
  intro x h
  cases h

theorem refusesWhole_raised {α : Type} (text : List Char) (fault : Fault) :
    RefusesWhole text (.error (.raised fault) : Except ParseFailure α) := by
  intro x h
  cases h

theorem refusesWhole_refuse {α : Type} (text : List Char) {cause : ParseCause}
    (own : cause.isOwn = true) : RefusesWhole text (refuse text cause : Except ParseFailure α) := by
  rintro x ⟨⟩
  exact ⟨rfl, own⟩

theorem refusesWhole_asLeaf (text : List Char) (r : Except LeafError Condition) :
    RefusesWhole text (asLeaf text r) := by
  match r with
  | .ok c => exact refusesWhole_ok text c
  | .error (.defect d) => exact refusesWhole_refuse text rfl
  | .error (.mismatch m) => exact refusesWhole_raised text (.mismatch m)

theorem refusesWhole_parseAttribute (delimiter : Delimiter) (text body : List Char) :
    RefusesWhole text (parseAttribute delimiter text body) := by
  rw [parseAttribute]
  split
  · exact refusesWhole_refuse text rfl
  · exact refusesWhole_asLeaf text _

theorem refusesWhole_parseBare (delimiter : Delimiter) (text : List Char) :
    RefusesWhole text (parseBare delimiter text) := by
  rw [parseBare]
  split
  · exact refusesWhole_raised text _
  · exact refusesWhole_parseAttribute delimiter text text
  split
  · exact refusesWhole_refuse text rfl
  · next bare =>
    rw [perm?_of_bare bare]
    exact refusesWhole_ok text _

theorem refusesWhole_parseLeaf (delimiter : Delimiter) (text : List Char) :
    RefusesWhole text (parseLeaf delimiter text) := by
  rcases parseLeaf_cases delimiter text with ⟨cause, hc, h⟩ | ⟨body, h⟩ | ⟨body, h⟩ | h
  · rw [h]
    have own : ∀ cause ∈ [ParseCause.unknownFormat, .missingOperand], cause.isOwn = true := by decide
    exact refusesWhole_refuse text (own cause hc)
  · rw [h]
    exact refusesWhole_asLeaf text _
  · rw [h]
    exact refusesWhole_parseAttribute delimiter text body
  · rw [h]
    exact refusesWhole_parseBare delimiter text

/-- The list of a group is never refused for its content alone: this is balanced. -/
theorem refusesWhole_listPieces (text inside : List Char) :
    RefusesWhole text (listPieces text inside) := by
  rw [listPieces.eq_def]
  split
  · exact refusesWhole_refuse text rfl
  next n hn =>
  obtain ⟨pieces, hp⟩ := (exists_split_iff _).2 (isBalanced_of_closingFrom hn)
  split
  · exact refusesWhole_refuse text rfl
  · rw [hp]
    cases pieces with
    | nil => exact refusesWhole_refuse text rfl
    | cons piece pieces => exact refusesWhole_ok text _

/-- A normal text fails without any of its parts failing. -/
def FailsWhole (delimiter : Delimiter) (text : List Char) (e : ParseFailure) : Prop :=
  (∃ mode inside, afterGroup? text = some (mode, inside) ∧ listPieces text inside = .error e) ∨
    (afterGroup? text = none ∧ afterKeyword? ["not"] text = none ∧
      parseLeaf delimiter text = .error e)

theorem FailsWhole.fragment {delimiter : Delimiter} {text : List Char} {x : ParseError}
    (h : FailsWhole delimiter text (.refused x)) :
    x.fragment = String.ofList text ∧ x.cause.isOwn = true := by
  rcases h with ⟨-, inside, -, h⟩ | ⟨-, -, h⟩
  · exact refusesWhole_listPieces text inside x h
  · exact refusesWhole_parseLeaf delimiter text x h

/-- How one level fails: of nothing to read, of the whole text, of a member or of an operand. -/
theorem parseWithin_succ_eq_error_iff (parser : Parser) (n : Nat) (s : List Char) (e : ParseFailure) :
    parser.parseWithin (n + 1) s = .error e ↔
      (normalize s = [] ∧ e = .refused ⟨String.ofList s, .empty⟩) ∨ (normalize s ≠ [] ∧
        (FailsWhole parser.delimiter (normalize s) e ∨
          (∃ mode inside items, afterGroup? (normalize s) = some (mode, inside) ∧
            listPieces (normalize s) inside = .ok items ∧
            items.mapM (parser.parseWithin n) = .error e) ∨
          (afterGroup? (normalize s) = none ∧ ∃ operand,
            afterKeyword? ["not"] (normalize s) = some operand ∧
            parser.parseWithin n operand = .error e))) := by
  rw [parseWithin, FailsWhole]
  by_cases hs : normalize s = []
  · simp [hs, refuse, eq_comm]
  simp only [List.isEmpty_iff, hs, if_false, false_and, ne_eq, not_false_eq_true, true_and, false_or]
  cases afterGroup? (normalize s) with
  | some found =>
    obtain ⟨mode, inside⟩ := found
    simp only [bind_group?]
    simp [bind_eq_error_iff, map_eq_error_iff]
  | none => cases afterKeyword? ["not"] (normalize s) <;> simp [map_eq_error_iff]

/-! ## The way to the part -/

/-- The refusal `x` of a text lies `depth` levels below it, if `levels` are left to read it with. The
way goes through the operand of a negation and through the first member of a group that is refused. -/
inductive LiesAt (parser : Parser) (x : ParseError) : Nat → List Char → Nat → Prop where
  | here {levels : Nat} {text : List Char}
      (whole : normalize x.fragment.toList = normalize text) : LiesAt parser x levels text 0
  | operand {levels depth : Nat} {text back : List Char}
      (keyword : StartsWith ["not"] (normalize text) back)
      (refused : parser.parseWithin levels back = .error (.refused x))
      (below : LiesAt parser x levels back depth) : LiesAt parser x (levels + 1) text (depth + 1)
  | member {levels depth : Nat} {text : List Char} {mode : Mode} {word : String}
      {front blanks piece : List Char} {pieces before after : List (List Char)}
      (hw : word ∈ groupWords mode) (spelled : Spells word front)
      (hb : ∀ c ∈ blanks, isBlank c = true)
      (whole : normalize text = front ++ blanks ++ '[' :: ([';'].intercalate pieces ++ [']']))
      (cut : ∀ p ∈ pieces, IsPiece p) (place : listed pieces = before ++ piece :: after)
      (read : ∀ p ∈ before, ∃ c, parser.parseWithin levels (trim p) = .ok c)
      (refused : parser.parseWithin levels (trim piece) = .error (.refused x))
      (below : LiesAt parser x levels (trim piece) depth) :
      LiesAt parser x (levels + 1) text (depth + 1)

/-- The part that is refused is a piece of the text. -/
theorem LiesAt.isInfix {parser : Parser} {x : ParseError} {levels depth : Nat} {text : List Char}
    (h : LiesAt parser x levels text depth) :
    normalize x.fragment.toList <:+: normalize text := by
  induction h with
  | here whole => rw [whole]
  | operand keyword _ _ ih =>
    exact ih.trans ((isNormal_normalize _).normalize_within keyword.isInfix)
  | @member _ _ text _ _ front blanks piece pieces _ _ _ _ _ whole _ place _ _ _ ih =>
    have member : piece ∈ listed pieces := by simp [place]
    have member : piece ∈ pieces := (List.mem_filter.1 member).1
    have within : [';'].intercalate pieces <:+: normalize text :=
      ⟨front ++ blanks ++ ['['], [']'], by simp [whole]⟩
    have part := (isInfix_intercalate member).trans within
    rw [normalize_trim] at ih
    exact ih.trans ((isNormal_normalize text).normalize_within part)

/-- What lies as deep as there are levels is refused for this, and what does not is refused alone, too. -/
def Tells (parser : Parser) (x : ParseError) (levels depth : Nat) : Prop :=
  (x.cause = .tooDeep parser.limit.written → depth = levels) ∧
    (x.cause ≠ .tooDeep parser.limit.written → depth < levels ∧
      ∀ m, parser.parseWithin (m + 1) x.fragment.toList = .error (.refused x))

/-- One more level lies around a part of what is refused. -/
theorem Tells.succ {parser : Parser} {x : ParseError} {levels depth : Nat}
    (h : Tells parser x levels depth) : Tells parser x (levels + 1) (depth + 1) :=
  ⟨fun hc => congrArg (· + 1) (h.1 hc), fun hc => (h.2 hc).imp_left Nat.succ_lt_succ⟩

/-- What is refused as a whole does not need the levels that are left. -/
theorem tells_whole {parser : Parser} {x : ParseError} (n : Nat)
    (near : x.cause ≠ .tooDeep parser.limit.written)
    (alone : ∀ m, parser.parseWithin (m + 1) x.fragment.toList = .error (.refused x)) :
    Tells parser x (n + 1) 0 :=
  ⟨fun hc => absurd hc near, fun _ => ⟨Nat.succ_pos n, alone⟩⟩

/-- The way to what a reading with some levels is refused for. -/
theorem exists_liesAt {parser : Parser} {n : Nat} {s : List Char} {x : ParseError}
    (h : parser.parseWithin n s = .error (.refused x)) :
    ∃ depth, LiesAt parser x n s depth ∧ Tells parser x n depth := by
  induction n generalizing s with
  | zero =>
    obtain rfl : ⟨String.ofList s, .tooDeep parser.limit.written⟩ = x := by
      simpa [parseWithin, refuse] using h
    exact ⟨0, .here (by simp), fun _ => rfl, fun hc => absurd rfl hc⟩
  | succ n ih =>
    have hn := isNormal_normalize s
    rcases (parseWithin_succ_eq_error_iff parser n s _).1 h with ⟨blank, hx⟩ | ⟨ne, hx | hx | hx⟩
    · obtain rfl := ParseFailure.refused.inj hx
      refine ⟨0, .here (by simp), tells_whole n (by simp) fun m => ?_⟩
      rw [String.toList_ofList]
      exact (parseWithin_succ_eq_error_iff parser m s _).2 (.inl ⟨blank, rfl⟩)
    · obtain ⟨hf, own⟩ := hx.fragment
      have near : x.cause ≠ .tooDeep parser.limit.written := by
        intro hc
        rw [hc] at own
        cases own
      have whole : normalize x.fragment.toList = normalize s := by
        rw [hf, String.toList_ofList, hn]
      refine ⟨0, .here whole, tells_whole n near fun m => ?_⟩
      rw [parseWithin_succ_eq_error_iff, whole]
      exact .inr ⟨ne, .inl hx⟩
    · -- The pieces that are read are trimmed, so the first one that is refused is a trimmed one.
      obtain ⟨mode, inside, items, hg, hl, hm⟩ := hx
      obtain ⟨word, hw, front, blanks, spelled, hb, whole⟩ := (afterGroup?_eq_some_iff _ _ _).1 hg
      obtain ⟨-, pieces, rfl, cut, rfl⟩ := (listPieces_eq_ok_iff _ _ _).1 hl
      obtain ⟨items, item, rest, he, read, refused⟩ := (mapM_eq_error_iff _ _ _).1 hm
      obtain ⟨before, rest', place, rfl, hr⟩ := List.map_eq_append_iff.1 he
      obtain ⟨piece, after, rfl, rfl, rfl⟩ := List.map_eq_cons_iff.1 hr
      obtain ⟨depth, below, hd⟩ := ih refused
      exact ⟨depth + 1, .member hw spelled hb whole cut place
        (fun p hp => read (trim p) (List.mem_map_of_mem hp)) refused below, hd.succ⟩
    · obtain ⟨-, operand, hk, refused⟩ := hx
      obtain ⟨depth, below, hd⟩ := ih refused
      exact ⟨depth + 1, .operand (startsWith_not hk) refused below, hd.succ⟩

/-- A refusal names a part of the text, down the first members that are refused. Either all levels that
there are lie around the part, or it is refused for the same reason alone. -/
theorem parse_refused {parser : Parser} {s : String} {x : ParseError}
    (h : parser.parse s = .error (.refused x)) :
    normalize x.fragment.toList <:+: normalize s.toList ∧
      ∃ depth, LiesAt parser x parser.limit.levels s.toList depth ∧
        (x.cause = .tooDeep parser.limit.written → depth = parser.limit.levels) ∧
        (x.cause ≠ .tooDeep parser.limit.written →
          depth < parser.limit.levels ∧ parser.parse x.fragment = .error (.refused x)) := by
  obtain ⟨depth, way, deep, near⟩ := exists_liesAt h
  refine ⟨way.isInfix, depth, way, deep, fun hc => ?_⟩
  obtain ⟨less, alone⟩ := near hc
  obtain ⟨m, hm⟩ := Nat.exists_eq_add_one_of_ne_zero (Nat.ne_zero_of_lt less)
  refine ⟨less, ?_⟩
  rw [parse, hm]
  exact alone m

theorem parse_refused_nested :
    let parser (levels : Nat) : Parser := ⟨⟨levels, toString levels⟩, .ofValue (.text "%")⟩
    let s := "any[a; NOT  all[b; c  d ]; e f]"
    let alone : ParseError := ⟨"c d", .unknownFormat⟩
    let deep : ParseError := ⟨"b", .tooDeep "3"⟩
    (parser 4).parse s = .error (.refused alone) ∧ (parser 3).parse s = .error (.refused deep) ∧
      (normalize "c d".toList <:+: normalize s.toList ∧
        ∃ depth, LiesAt (parser 4) alone 4 s.toList depth ∧ depth < 4 ∧
          (parser 4).parse "c d" = .error (.refused alone)) ∧
      normalize "b".toList <:+: normalize s.toList ∧
        ∃ depth, LiesAt (parser 3) deep 3 s.toList depth ∧ depth = 3 := by
  intro parser s alone deep
  have hs : (parser 4).parse s = .error (.refused alone) := by decide +kernel
  have hs' : (parser 3).parse s = .error (.refused deep) := by decide +kernel
  obtain ⟨part, depth, way, -, near⟩ := parse_refused hs
  obtain ⟨part', depth', way', far, -⟩ := parse_refused hs'
  exact ⟨hs, hs', ⟨part, depth, way, near (by decide)⟩, part', depth', way', far (by decide)⟩

end Gatekeeper.Parser
