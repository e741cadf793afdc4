import Gatekeeper.Proofs.Description
import Gatekeeper.Proofs.Spacing
import Gatekeeper.Proofs.Sufficiency

/-!
# Reserved words

A keyword has no meaning without its operand, and to keep it from being read as a node it is refused
when it stands alone. A keyword with an operand is known by the forms of its letters, a keyword alone by
its lower case. The two agree but for three characters: these are forms of a letter, but lower case does
not make that letter of them, and a keyword with one of them is read as a node when it stands alone.
-/
namespace Gatekeeper.Text

/-- The forms of the letters of keywords that are no form of them in lower case. -/
def oddForms : List Char := ['\u0130', '\u0131', '\u017F']

/-- The forms of a letter are its two cases and the odd ones. -/
theorem toLower_eq_of_isFormOf {letter c : Char} (hl : letter ∈ letters)
    (h : isFormOf letter c = true) (plain : c ∉ oddForms) : c.toLower = letter := by
  have cases : letters.all fun letter => (forms letter).all fun c =>
      oddForms.contains c || c.toLower == letter := by decide +kernel
  simp only [List.all_eq_true, Bool.or_eq_true, List.contains_iff_mem, beq_iff_eq] at cases
  exact (cases letter hl c ((mem_forms_iff letter c).2 h)).resolve_left plain

theorem toLower_not_mem_letters {c : Char} (h : c ∈ oddForms) : c.toLower ∉ letters := by
  have odd : (oddForms.all fun c => !letters.contains c.toLower) = true := by decide
  simpa using List.all_eq_true.1 odd c h

theorem map_toLower_of_forms {word text : List Char} (hl : ∀ letter ∈ word, letter ∈ letters)
    (h : List.Forall₂ (fun letter c => isFormOf letter c = true) word text)
    (plain : ∀ c ∈ text, c ∉ oddForms) : text.map Char.toLower = word := by
  induction h with
  | nil => rfl
  | cons hc _ ih =>
    obtain ⟨hm, hw⟩ := List.forall_mem_cons.1 hl
    obtain ⟨hp, ht⟩ := List.forall_mem_cons.1 plain
    rw [List.map_cons, toLower_eq_of_isFormOf hm hc hp, ih hw ht]

end Gatekeeper.Text

namespace Gatekeeper.Parser

open Text Grammar Condition

/-- The words of the keywords that have a blank behind them. -/
def operandWords : List (List String) :=
  [["not"], ["permission", "perm"], ["placeholder", "papi"]]

/-- The parser takes a word for a keyword when an operand follows: one in brackets, or one behind a
blank. -/
def TakesOperand (word : List Char) : Prop :=
  (afterGroup? (word ++ "[x]".toList)).isSome ∨
    ∃ words ∈ operandWords, (afterKeyword? words (word ++ " x".toList)).isSome

theorem keywords_of_operandWords : ∀ words ∈ operandWords, (∀ w ∈ words, w ∈ keywords) ∧
    words.Pairwise fun w w' => ¬w.toList <+: w'.toList := by
  decide

theorem keywords_of_groupWords : ∀ mode ∈ [Mode.all, .any], ∀ w ∈ groupWords mode, w ∈ keywords := by
  decide

theorem keywords_cases : ∀ keyword ∈ keywords,
    (∃ mode ∈ [Mode.all, .any], keyword ∈ groupWords mode) ∨
      ∃ words ∈ operandWords, keyword ∈ words := by
  decide

/-- Two texts without the characters that end a node, each with one of these behind it. -/
theorem front_unique {front front' back back' : List Char} {c c' : Char}
    (h : ∀ d ∈ front, endsNode d = false) (h' : ∀ d ∈ front', endsNode d = false)
    (hc : endsNode c = true) (hc' : endsNode c' = true)
    (he : front ++ c :: back = front' ++ c' :: back') : front = front' := by
  have taken {text rest : List Char} {d : Char} (h : ∀ d ∈ text, endsNode d = false)
      (hd : endsNode d = true) : (text ++ d :: rest).takeWhile (!endsNode ·) = text :=
    (span_append (fun c hc => by simp [h c hc]) (by simp [hd])).1
  rw [← taken h hc, he, taken h' hc']

theorem endsNode_of_spells {word : String} {front : List Char} (hw : word ∈ keywords)
    (h : Spells word front) : ∀ c ∈ front, endsNode c = false := by
  intro c hm
  by_contra hc
  refine not_mem_of_spells hw h (c := c) ?_ hm
  rw [Bool.not_eq_false, endsNode] at hc
  simp only [endsWord, hc, Bool.true_or]

/-- A word that takes an operand is a keyword in some letter case. -/
theorem exists_keyword_of_takesOperand {word : List Char} (plain : ∀ c ∈ word, endsNode c = false)
    (h : TakesOperand word) : ∃ keyword ∈ keywords, Spells keyword word := by
  rcases h with h | ⟨words, hw, h⟩
  · obtain ⟨⟨mode, inside⟩, hg⟩ := Option.isSome_iff_exists.1 h
    obtain ⟨keyword, hm, front, blanks, hs, hb, he⟩ := (afterGroup?_eq_some_iff _ _ _).1 hg
    have hk := keywords_of_groupWords mode (by cases mode <;> decide) keyword hm
    have behind : ∃ c back, blanks ++ '[' :: inside = c :: back ∧ endsNode c = true := by
      cases blanks with
      | nil => exact ⟨'[', inside, rfl, by decide⟩
      | cons c blanks => exact ⟨c, _, rfl, by simp [endsNode, hb c (List.mem_cons_self ..)]⟩
    obtain ⟨c, back, hc, ends⟩ := behind
    rw [List.append_assoc, hc] at he
    obtain rfl := front_unique plain (endsNode_of_spells hk hs) (c := '[') (by decide) ends he
    exact ⟨keyword, hk, hs⟩
  · obtain ⟨body, ha⟩ := Option.isSome_iff_exists.1 h
    obtain ⟨known, apart⟩ := keywords_of_operandWords words hw
    obtain ⟨back, ⟨keyword, hm, front, c, hs, hc, he⟩, -⟩ :=
      (afterKeyword?_eq_some_iff known apart _ _).1 ha
    have hk := known keyword hm
    obtain rfl := front_unique plain (endsNode_of_spells hk hs) (c := ' ') (by decide)
      (by simp [endsNode, hc]) he
    exact ⟨keyword, hk, hs⟩

theorem takesOperand_of_spells {keyword : String} {word : List Char} (hk : keyword ∈ keywords)
    (h : Spells keyword word) : TakesOperand word := by
  rcases keywords_cases keyword hk with ⟨mode, -, hm⟩ | ⟨words, hw, hm⟩
  · refine .inl (Option.isSome_iff_exists.2 ⟨(mode, "x]".toList), ?_⟩)
    exact (afterGroup?_eq_some_iff _ _ _).2 ⟨keyword, hm, word, [], h, by simp, by simp⟩
  · obtain ⟨known, apart⟩ := keywords_of_operandWords words hw
    refine .inr ⟨words, hw, Option.isSome_iff_exists.2 ⟨trimStart "x".toList, ?_⟩⟩
    exact (afterKeyword?_eq_some_iff known apart _ _).2
      ⟨"x".toList, ⟨keyword, hm, word, ' ', h, by decide, rfl⟩, rfl⟩

/-- A keyword alone is known as one unless it has an odd form. -/
theorem isKeyword_iff_of_spells {keyword : String} {word : List Char} (hk : keyword ∈ keywords)
    (h : Spells keyword word) : isKeyword word = true ↔ ∀ c ∈ word, c ∉ oddForms := by
  constructor
  · intro hw c hc odd
    have each := mem_letters_of_keyword (List.contains_iff_mem.1 hw)
    rw [String.toList_ofList] at each
    exact toLower_not_mem_letters odd (each _ (List.mem_map_of_mem hc))
  · intro hp
    rw [isKeyword, map_toLower_of_forms (mem_letters_of_keyword hk) h hp, String.ofList_toList]
    exact List.contains_iff_mem.2 hk

/-- A text without the characters that end a node is read as a leaf. -/
theorem parse_of_isNode {parser : Parser} (levels : 0 < parser.limit.levels) {word : String}
    (h : IsNode word.toList) : parser.parse word = parseLeaf parser.delimiter word.toList := by
  obtain ⟨n, hn⟩ := Nat.exists_eq_succ_of_ne_zero levels.ne'
  have normal : IsNormal word.toList := isNormal_of_ink fun c hc => (h.2 c hc).1
  have group : afterGroup? word.toList = none := afterGroup?_of_not_mem fun hm => (h.2 _ hm).2.1 rfl
  have negated : afterKeyword? ["not"] word.toList = none :=
    (afterKeyword?_eq_none_iff (by decide) (by decide) normal).2 fun back hs =>
      not_isNode_of_startsWith hs h
  rw [parse, hn, parseWithin, normal]
  simp only [group, negated, List.isEmpty_iff, h.1, if_false]

/-- Such a leaf is a keyword alone, or it is read without one. -/
theorem parseLeaf_of_isNode (delimiter : Delimiter) {text : List Char} (h : IsNode text)
    (first : text.head? ≠ some '!') : parseLeaf delimiter text =
      if isKeyword text then refuse text .missingOperand else parseBare delimiter text := by
  have normal : IsNormal text := isNormal_of_ink fun c hc => (h.2 c hc).1
  have none_of (words : List String) (hk : ∀ w ∈ words, w ∈ keywords)
      (hp : words.Pairwise fun w w' => ¬w.toList <+: w'.toList) : afterKeyword? words text = none :=
    (afterKeyword?_eq_none_iff hk hp normal).2 fun back hs => not_isNode_of_startsWith hs h
  have brackets : (text.contains '[' || text.contains ']') = false := by
    simpa using ⟨fun hm => (h.2 _ hm).2.1 rfl, fun hm => (h.2 _ hm).2.2.1 rfl⟩
  rw [parseLeaf, brackets, none_of ["permission", "perm"] (by decide) (by decide),
    none_of ["placeholder", "papi"] (by decide) (by decide)]
  simp only [Bool.false_eq_true, if_false, first]

/-- A node that starts with the delimiter is an attribute, and all of it is the token if it has no
operator. Any other node stands for itself. -/
theorem parseBare_of_isNode (mark : List Char) {text : List Char} (h : IsNode text)
    (plain : ∀ op : Operator, ¬op.symbol.toList <:+: text) :
    (Marked mark text → parseBare (.ofMark mark) text =
      .ok (attr (.text (String.ofList text)) none none)) ∧
    (¬Marked mark text → parseBare (.ofMark mark) text =
      .ok (perm (String.ofList text) (.bool false))) := by
  have normal : IsNormal text := isNormal_of_ink fun c hc => (h.2 c hc).1
  constructor
  · intro marked
    obtain ⟨token, rest, hc⟩ := Delimiter.exists_cut_eq_ok mark text
    obtain ⟨rfl, ho⟩ := Delimiter.cut_sound hc
    have absent (op : Operator) : ¬op.symbol.toList <:+: rest := fun hi =>
      plain op (hi.trans (List.suffix_append token rest).isInfix)
    exact (parseBare_eq_ok_iff normal _).2
      (.inl ⟨marked, fun hm => (h.2 _ hm).2.2.2 rfl, .presence ho absent h.1⟩)
  · exact fun unmarked => (parseBare_eq_ok_iff normal _).2 (.inr ⟨unmarked, h, rfl⟩)

/-- A keyword has letters only, and no operator has one. -/
theorem not_symbol_of_spells {keyword : String} {word : List Char} (hk : keyword ∈ keywords)
    (h : Spells keyword word) (op : Operator) : ¬op.symbol.toList <:+: word := by
  have apart : (Operator.all.all fun op => letters.all fun letter => op.symbol.toList.all fun c =>
      !isFormOf letter c) = true := by decide +kernel
  simp only [List.all_eq_true, Bool.not_eq_true'] at apart
  intro hi
  obtain ⟨c, hc⟩ := List.exists_mem_of_ne_nil _ (symbol_toList_ne_nil op)
  obtain ⟨letter, hl, hf⟩ := exists_form_of_mem h (hi.subset hc)
  rw [apart op (by cases op <;> decide) letter (mem_letters_of_keyword hk letter hl) c hc] at hf
  cases hf

/-- What becomes of a keyword alone: the lower case of its letters shows what it is, or one of them is
an odd form and it is read as any other word. -/
theorem parse_reserved {limit delimiter : Value} {parser : Parser}
    (hp : ofValues limit delimiter = .ok parser) {word : String}
    (plain : ∀ c ∈ word.toList, endsNode c = false) (h : TakesOperand word.toList) :
    ((∀ c ∈ word.toList, c ∉ oddForms) →
      parser.parse word = .error (.refused ⟨word, .missingOperand⟩)) ∧
    ((∃ c ∈ word.toList, c ∈ oddForms) →
      (parser.delimiter.opens word.toList = .ok false →
        parser.parse word = .ok (.perm word (.bool false))) ∧
      (parser.delimiter.opens word.toList = .ok true →
        parser.parse word = .ok (.attr (.text word) none none)) ∧
      ∀ m, parser.delimiter.opens word.toList = .error m →
        parser.parse word = .error (.raised (.mismatch m))) := by
  obtain ⟨keyword, hk, hs⟩ := exists_keyword_of_takesOperand plain h
  have node : IsNode word.toList :=
    (isNode_iff _).2 ⟨ne_nil_of_spells hk hs, by simpa using plain⟩
  have first : word.toList.head? ≠ some '!' := fun hf =>
    not_mem_of_spells hk hs (c := '!') (by decide) (List.mem_of_mem_head? hf)
  obtain ⟨size, hl, rfl⟩ := (Settings.parser?_eq_ok_iff ⟨limit, .null, delimiter⟩ parser).1 hp
  rw [parse_of_isNode (DepthLimit.levels_pos hl) node, parseLeaf_of_isNode _ node first]
  constructor
  · intro even
    rw [if_pos ((isKeyword_iff_of_spells hk hs).2 even), refuse, String.ofList_toList]
  · rintro ⟨c, hc, odd⟩
    have alone : ¬isKeyword word.toList = true := fun hw =>
      (isKeyword_iff_of_spells hk hs).1 hw c hc odd
    rw [if_neg alone]
    cases usable : delimiter.delimits with
    | false =>
      rw [Delimiter.ofValue_eq_unusable usable]
      refine ⟨by simp [Delimiter.opens], by simp [Delimiter.opens], fun m hm => ?_⟩
      cases hm
      rfl
    | true =>
      obtain ⟨mark, hm⟩ := Delimiter.ofValue_eq_ofValue_text usable
      rw [hm, Delimiter.ofValue_text]
      obtain ⟨starts, bare⟩ :=
        parseBare_of_isNode mark.toList node (not_symbol_of_spells hk hs)
      rw [String.ofList_toList] at starts bare
      by_cases marked : Marked mark.toList word.toList
      · rw [opens_of_marked marked]
        exact ⟨by simp, fun _ => starts marked, by simp⟩
      · rw [opens_of_unmarked marked]
        exact ⟨fun _ => bare marked, by simp, by simp⟩

/-- A keyword alone in which the dotless letter takes the place of an `i`. -/
theorem parse_reserved_dotless :
    ∃ parser, ofValues (.int 32) (.text "%") = .ok parser ∧
      (∀ c ∈ "papı".toList, endsNode c = false) ∧ TakesOperand "papı".toList ∧
      parser.parse "papı" = .ok (.perm "papı" (.bool false)) := by
  have spelled : Spells "papi" "papı".toList := by decide
  exact ⟨_, Settings.parser?_default, forall_not_of_all (by decide),
    takesOperand_of_spells (by decide) spelled, by decide +kernel⟩

/-- A keyword alone in capitals, and one with the long letter. -/
theorem parse_reserved_permission :
    ∃ parser, ofValues (.int 32) (.text "%") = .ok parser ∧
      parser.parse "PERMISSION" = .error (.refused ⟨"PERMISSION", .missingOperand⟩) ∧
      parser.parse "permiſſion" = .ok (.perm "permiſſion" (.bool false)) := by
  have made := Settings.parser?_default
  have capitals : Spells "permission" "PERMISSION".toList := by decide
  have long : Spells "permission" "permiſſion".toList := by decide
  refine ⟨_, made, ?_, ?_⟩
  · exact (parse_reserved made (forall_not_of_all (by decide))
      (takesOperand_of_spells (by decide) capitals)).1 (forall_not_mem_of_all (by decide))
  · exact ((parse_reserved made (forall_not_of_all (by decide))
      (takesOperand_of_spells (by decide) long)).2 ⟨'ſ', by decide, by decide⟩).1 (by decide +kernel)

end Gatekeeper.Parser
