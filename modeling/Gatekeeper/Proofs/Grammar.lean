import Gatekeeper.Proofs.Keyword
import Gatekeeper.Proofs.Nesting
import Gatekeeper.Proofs.Outcome
import Gatekeeper.Proofs.Token

/-!
# The grammar of expressions

Which texts derive which conditions, as a relation that says nothing of scanning or of levels, and
that a parser accepts just these with as many levels as the condition is high. The alternatives are
tried in the order of the rules; a rule says so where a text of an earlier one could come to it. The
empty mark stands for a parser without delimiter.
-/
namespace Gatekeeper.Grammar

open Text Gatekeeper.Bracket Gatekeeper.Parser Condition

def IsNode (text : List Char) : Prop :=
  text ≠ [] ∧ ∀ c ∈ text, isBlank c = false ∧ c ≠ '[' ∧ c ≠ ']' ∧ c ≠ ';'

/-- A node, or one that must not be held. -/
inductive Permission : List Char → Condition → Prop where
  | held {node : List Char} (h : IsNode node) (first : node.head? ≠ some '!') :
      Permission node (perm (String.ofList node) (.bool false))
  | lacked {blanks node : List Char} (hb : ∀ c ∈ blanks, isBlank c = true) (h : IsNode node) :
      Permission ('!' :: (blanks ++ node)) (perm (String.ofList node) (.bool true))

/-- The text starts with the mark, if there is one. -/
def Marked (mark text : List Char) : Prop :=
  mark ≠ [] ∧ mark <+: text

inductive Leaf (mark : List Char) : List Char → Condition → Prop where
  | permission {text back : List Char} {t : Condition}
      (keyword : StartsWith ["permission", "perm"] text back) (h : Permission back t) :
      Leaf mark text t
  | placeholder {text back : List Char} {t : Condition}
      (keyword : StartsWith ["placeholder", "papi"] text back) (plain : ';' ∉ back)
      (h : Attribute mark back t) : Leaf mark text t
  | lacked {text : List Char} {t : Condition} (first : text.head? = some '!')
      (h : Permission text t) : Leaf mark text t
  | delimited {text : List Char} {t : Condition} (marked : Marked mark text)
      (keyword : ∀ back, ¬StartsWith ["permission", "perm", "placeholder", "papi"] text back)
      (first : text.head? ≠ some '!') (plain : ';' ∉ text) (h : Attribute mark text t) :
      Leaf mark text t
  | bare {text : List Char} (unmarked : ¬Marked mark text) (first : text.head? ≠ some '!')
      (h : IsNode text) :
      Leaf mark text (perm (String.ofList text) (.bool false))

/-- The pieces of a list that are not blank. -/
def listed (pieces : List (List Char)) : List (List Char) :=
  pieces.filter (·.any (!isBlank ·))

/-- The condition of a text. -/
inductive Derives (mark : List Char) : List Char → Condition → Prop where
  | group {mode : Mode} {word : String} {front blanks : List Char} {pieces : List (List Char)}
      {conditions : List Condition} (hw : word ∈ groupWords mode) (spelled : Spells word front)
      (hb : ∀ c ∈ blanks, isBlank c = true) (cut : ∀ piece ∈ pieces, IsPiece piece)
      (ne : listed pieces ≠ []) (length : (listed pieces).length = conditions.length)
      (each : ∀ piece c, (piece, c) ∈ (listed pieces).zip conditions →
        Derives mark (normalize piece) c) :
      Derives mark (front ++ blanks ++ '[' :: ([';'].intercalate pieces ++ [']']))
        (.group mode conditions)
  | not {text back : List Char} {t : Condition} (keyword : StartsWith ["not"] text back)
      (h : Derives mark (normalize back) t) : Derives mark text (.not t)
  | leaf {text : List Char} {t : Condition} (opening : '[' ∉ text) (closing : ']' ∉ text)
      (bare : String.ofList (lower text) ∉ keywords)
      (keyword : ∀ back, ¬StartsWith ["not"] text back) (h : Leaf mark text t) :
      Derives mark text t

/-! ## Leaves -/

theorem isNode_iff (text : List Char) :
    IsNode text ↔ text ≠ [] ∧ text.any endsNode = false := by
  simp [IsNode, endsNode, and_assoc]

theorem perm?_eq_ok_iff (node : List Char) (negate : Value) (t : Condition) :
    perm? (String.ofList node) negate = .ok t ↔
      IsNode node ∧ t = perm (String.ofList node) negate := by
  rw [isNode_iff, perm?, String.toList_ofList]
  by_cases hn : node = []
  · simp [hn]
  rw [if_neg (by simpa using hn)]
  split
  · next ha => simp [ha]
  · next ha =>
    rw [Except.ok.injEq, and_iff_right ⟨hn, by simpa using ha⟩]
    exact eq_comm

/-- The reader of permissions finds the node, with or without its exclamation mark. -/
theorem readPermission_eq_ok_iff {text : List Char} (hn : IsNormal text) (t : Condition) :
    readPermission text = .ok t ↔ Permission text t := by
  rw [readPermission, hn.trim_eq]
  split
  · next node =>
    rw [perm?_eq_ok_iff]
    constructor
    · rintro ⟨h, rfl⟩
      have hb : ∀ c ∈ node.takeWhile isBlank, isBlank c = true := fun c hc => List.mem_takeWhile_imp hc
      have lacked : Permission _ _ := .lacked hb h
      rwa [IsNormal.takeWhile_append_trim ['!'] hn] at lacked
    · intro h
      cases h with
      | held h first => exact absurd rfl first
      | lacked hb h =>
        have ht := trim_of_ink fun c hc => (h.2 c hc).1
        rw [trim_blanks_append hb, ht]
        exact ⟨h, rfl⟩
  · next first =>
    rw [perm?_eq_ok_iff]
    constructor
    · rintro ⟨h, rfl⟩
      refine .held h fun he => ?_
      obtain ⟨rest, rfl⟩ := List.head?_eq_some_iff.1 he
      exact first rest rfl
    · intro h
      cases h with
      | held h first => exact ⟨h, rfl⟩
      | lacked hb h => exact absurd rfl (first _)

theorem asLeaf_eq_ok_iff (text : List Char) (r : Except LeafError Condition) (t : Condition) :
    asLeaf text r = .ok t ↔ r = .ok t := by
  rcases r with (d | m) | c <;> simp [asLeaf, refuse]

theorem parsePermission_eq_ok_iff (text : List Char) {body : List Char} (hn : IsNormal body)
    (t : Condition) : parsePermission text body = .ok t ↔ Permission body t := by
  rw [parsePermission, asLeaf_eq_ok_iff, mapError_eq_ok_iff, readPermission_eq_ok_iff hn]

theorem parseAttribute_eq_ok_iff (mark text : List Char) {body : List Char} (hn : IsNormal body)
    (t : Condition) : parseAttribute (Delimiter.ofMark mark) text body = .ok t ↔
      ';' ∉ body ∧ Attribute mark body t := by
  rw [parseAttribute]
  split
  · next h => simp_all [refuse]
  · next h =>
    rw [asLeaf_eq_ok_iff, readAttribute_eq_ok_iff, hn, and_iff_right]
    simpa using h

theorem opens_of_marked {mark text : List Char} (h : Marked mark text) :
    (Delimiter.ofMark mark).opens text = .ok true := by
  rw [Delimiter.ofMark_of_ne_nil h.1, Delimiter.opens, List.isPrefixOf_iff_prefix.2 h.2]

theorem opens_of_unmarked {mark text : List Char} (h : ¬Marked mark text) :
    (Delimiter.ofMark mark).opens text = .ok false := by
  by_cases hm : mark = []
  · rw [hm]
    rfl
  · rw [Delimiter.ofMark_of_ne_nil hm, Delimiter.opens]
    have : ¬mark <+: text := fun hp => h ⟨hm, hp⟩
    rw [← List.isPrefixOf_iff_prefix, Bool.not_eq_true] at this
    rw [this]

/-- A text without keyword and exclamation mark is an attribute in delimiters or a node. -/
theorem parseBare_eq_ok_iff {mark text : List Char} (hn : IsNormal text) (t : Condition) :
    parseBare (Delimiter.ofMark mark) text = .ok t ↔
      (Marked mark text ∧ ';' ∉ text ∧ Attribute mark text t) ∨
      (¬Marked mark text ∧ IsNode text ∧ t = perm (String.ofList text) (.bool false)) := by
  rw [parseBare]
  by_cases h : Marked mark text
  · rw [opens_of_marked h]
    simp only [h, true_and, not_true_eq_false, false_and, or_false]
    exact parseAttribute_eq_ok_iff mark text hn t
  · rw [opens_of_unmarked h]
    simp only [h, false_and, not_false_eq_true, true_and, false_or]
    rw [← perm?_eq_ok_iff]
    split
    · next ha =>
      have : ¬IsNode text := by
        rw [isNode_iff]
        rintro ⟨hne, hany⟩
        simp [hne, hany] at ha
      rw [perm?_eq_ok_iff]
      simp [refuse, this]
    · rw [built, mapError_eq_ok_iff]

theorem afterKeyword?_eq_none_iff {words : List String} (hk : ∀ w ∈ words, w ∈ keywords)
    (hp : words.Pairwise fun w w' => ¬w.toList <+: w'.toList) {text : List Char}
    (hn : IsNormal text) :
    afterKeyword? words text = none ↔ ∀ back, ¬StartsWith words text back := by
  rw [Option.eq_none_iff_forall_ne_some]
  exact forall_congr' fun back => not_congr (afterKeyword?_normal_iff hk hp hn back)

theorem startsWith_not {s operand : List Char}
    (h : afterKeyword? ["not"] (normalize s) = some operand) :
    StartsWith ["not"] (normalize s) operand :=
  (afterKeyword?_normal_iff (by decide) (by decide) (isNormal_normalize s) operand).1 h

theorem startsWith_append_iff (words words' : List String) (text back : List Char) :
    StartsWith (words ++ words') text back ↔
      StartsWith words text back ∨ StartsWith words' text back := by
  simp only [StartsWith, List.mem_append, or_and_right, exists_or]

theorem not_isNode_of_startsWith {words : List String} {text back : List Char}
    (h : StartsWith words text back) : ¬IsNode text := by
  obtain ⟨-, -, front, c, -, hc, rfl⟩ := h
  intro hn
  have := (hn.2 c (by simp)).1
  rw [hc] at this
  cases this

theorem leafWords_keywords : ∀ w ∈ ["permission", "perm"] ++ ["placeholder", "papi"], w ∈ keywords := by
  decide

/-- Behind the keywords of leaves, the reader takes the first alternative that there is. -/
theorem parseLeaf_unfold {mark text : List Char} (opening : '[' ∉ text) (closing : ']' ∉ text)
    (bare : String.ofList (lower text) ∉ keywords) :
    parseLeaf (Delimiter.ofMark mark) text =
      match afterKeyword? ["permission", "perm"] text with
      | some body => parsePermission text body
      | none =>
        match afterKeyword? ["placeholder", "papi"] text with
        | some body => parseAttribute (Delimiter.ofMark mark) text body
        | none =>
          if text.head? = some '!' then parsePermission text text
          else parseBare (Delimiter.ofMark mark) text := by
  unfold parseLeaf
  exact (if_neg (by simp [opening, closing])).trans (if_neg (by rwa [isKeyword_iff]))

theorem parseLeaf_sound {mark text : List Char} (hn : IsNormal text) {t : Condition}
    (h : parseLeaf (Delimiter.ofMark mark) text = .ok t) : '[' ∉ text ∧ ']' ∉ text ∧
      String.ofList (lower text) ∉ keywords ∧ Leaf mark text t := by
  have hb : '[' ∉ text ∧ ']' ∉ text := by
    by_contra hb
    rw [parseLeaf, if_pos (by simpa [or_iff_not_imp_left] using hb)] at h
    cases h
  have hk : String.ofList (lower text) ∉ keywords := by
    rw [← isKeyword_iff]
    intro hk
    rw [parseLeaf, if_neg (by simp [hb]), if_pos hk] at h
    cases h
  refine ⟨hb.1, hb.2, hk, ?_⟩
  rw [parseLeaf_unfold hb.1 hb.2 hk] at h
  split at h
  · next body hs =>
    have keyword := (afterKeyword?_normal_iff (by decide) (by decide) hn body).1 hs
    exact .permission keyword ((parsePermission_eq_ok_iff text (keyword.isNormal hn) t).1 h)
  · next hs =>
    have hperm := (afterKeyword?_eq_none_iff (by decide) (by decide) hn).1 hs
    split at h
    · next body hs =>
      have keyword := (afterKeyword?_normal_iff (by decide) (by decide) hn body).1 hs
      obtain ⟨plain, ha⟩ := (parseAttribute_eq_ok_iff mark text (keyword.isNormal hn) t).1 h
      exact .placeholder keyword plain ha
    · next hs =>
      have hattr := (afterKeyword?_eq_none_iff (by decide) (by decide) hn).1 hs
      split at h
      · next first => exact .lacked first ((parsePermission_eq_ok_iff text hn t).1 h)
      · next first =>
        rcases (parseBare_eq_ok_iff hn t).1 h with ⟨marked, plain, ha⟩ | ⟨unmarked, hnode, rfl⟩
        · refine .delimited marked (fun back hs => ?_) first plain ha
          rcases (startsWith_append_iff ["permission", "perm"] ["placeholder", "papi"] text back).1 hs
            with hs | hs
          · exact hperm back hs
          · exact hattr back hs
        · exact .bare unmarked first hnode

theorem parseLeaf_complete {mark text : List Char} (hn : IsNormal text) {t : Condition}
    (opening : '[' ∉ text) (closing : ']' ∉ text)
    (bare : String.ofList (lower text) ∉ keywords) (h : Leaf mark text t) :
    parseLeaf (Delimiter.ofMark mark) text = .ok t := by
  rw [parseLeaf_unfold opening closing bare]
  have none_of
      (hs : ∀ back, ¬StartsWith (["permission", "perm"] ++ ["placeholder", "papi"]) text back) :
      afterKeyword? ["permission", "perm"] text = none ∧
        afterKeyword? ["placeholder", "papi"] text = none := by
    simp only [startsWith_append_iff, not_or, forall_and] at hs
    exact ⟨(afterKeyword?_eq_none_iff (by decide) (by decide) hn).2 hs.1,
      (afterKeyword?_eq_none_iff (by decide) (by decide) hn).2 hs.2⟩
  cases h with
  | permission keyword h =>
    rw [(afterKeyword?_normal_iff (by decide) (by decide) hn _).2 keyword]
    exact (parsePermission_eq_ok_iff text (keyword.isNormal hn) t).2 h
  | placeholder keyword plain h =>
    have hperm : afterKeyword? ["permission", "perm"] text = none :=
      (afterKeyword?_eq_none_iff (by decide) (by decide) hn).2 fun back hs =>
        hs.disjoint (by decide) (by decide) (by decide) keyword
    rw [hperm, (afterKeyword?_normal_iff (by decide) (by decide) hn _).2 keyword]
    exact (parseAttribute_eq_ok_iff mark text (keyword.isNormal hn) t).2 ⟨plain, h⟩
  | lacked first h =>
    obtain ⟨hperm, hattr⟩ := none_of fun back hs => hs.head_ne leafWords_keywords (by decide) first
    rw [hperm, hattr]
    simp only [if_pos first]
    exact (parsePermission_eq_ok_iff text hn t).2 h
  | delimited marked keyword first plain h =>
    obtain ⟨hperm, hattr⟩ := none_of keyword
    rw [hperm, hattr]
    simp only [if_neg first]
    exact (parseBare_eq_ok_iff hn t).2 (.inl ⟨marked, plain, h⟩)
  | bare unmarked first h =>
    obtain ⟨hperm, hattr⟩ := none_of fun back hs => not_isNode_of_startsWith hs h
    rw [hperm, hattr]
    simp only [if_neg first]
    exact (parseBare_eq_ok_iff hn _).2 (.inr ⟨unmarked, h, rfl⟩)

/-! ## Lists -/

theorem listed_map_trim (pieces : List (List Char)) :
    (pieces.map trim).filter (!·.isEmpty) = (listed pieces).map trim := by
  rw [List.filter_map, listed]
  congr 1
  refine List.filter_congr fun piece _ => ?_
  rw [Bool.eq_iff_iff, any_not_isBlank_iff, ne_eq, ← trim_eq_nil_iff]
  simp

/-- The list of a group is what stands between its two brackets, cut into pieces. -/
theorem listPieces_eq_ok_iff (text inside : List Char) (items : List (List Char)) :
    listPieces text inside = .ok items ↔ items ≠ [] ∧
      ∃ pieces, inside = [';'].intercalate pieces ++ [']'] ∧ (∀ p ∈ pieces, IsPiece p) ∧
        items = (listed pieces).map trim := by
  constructor
  · intro h
    rw [listPieces] at h
    split at h
    · cases h
    · next n hc =>
      obtain ⟨content, back, rfl, rfl, -⟩ := (closingFrom_eq_some_iff 0 n inside).1 hc
      split at h
      · cases h
      · next hlast =>
        obtain rfl : back = [] := by simpa using hlast
        rw [List.take_left, split] at h
        cases hp : piecesFrom 0 content with
        | error _ =>
          rw [hp] at h
          cases h
        | ok found =>
          have some_pieces : found ≠ [] := by
            rintro rfl
            exact piecesFrom_ne_nil 0 content hp
          obtain ⟨piece, pieces, rfl⟩ := List.exists_cons_of_ne_nil some_pieces
          obtain ⟨rfl, hb, hc, hpieces⟩ := (piecesFrom_eq_ok_iff 0 content piece pieces).1 hp
          rw [hp] at h
          simp only [Except.map, listed_map_trim] at h
          split at h
          · next he => cases he
          · cases h
          · next items' hne he =>
            obtain rfl := Except.ok.inj h
            obtain rfl := Except.ok.inj he
            exact ⟨hne, piece :: pieces, rfl,
              List.forall_mem_cons.2 ⟨⟨hb, hc⟩, hpieces⟩, rfl⟩
  · rintro ⟨ne, pieces, rfl, hp, rfl⟩
    have hpne : pieces ≠ [] := by
      rintro rfl
      exact ne rfl
    have hc : closingFrom 1 ([';'].intercalate pieces ++ [']']) =
        some ([';'].intercalate pieces).length :=
      (closingFrom_eq_some_iff 0 _ _).2 ⟨_, [], rfl, rfl, isBalanced_intercalate hp⟩
    rw [listPieces, hc]
    simp only [List.length_append, List.length_cons, List.length_nil, ne_eq, not_true_eq_false,
      if_false, List.take_left, split, piecesFrom_intercalate hpne hp, Except.map, listed_map_trim]

/-- The pieces of a list that is read are not blank, and there are some. -/
theorem pieces_of_listPieces {text inside : List Char} {pieces : List (List Char)}
    (h : listPieces text inside = .ok pieces) : pieces ≠ [] ∧ ∀ piece ∈ pieces, words piece ≠ [] := by
  obtain ⟨ne, cut, -, -, rfl⟩ := (listPieces_eq_ok_iff text inside pieces).1 h
  refine ⟨ne, List.forall_mem_map.2 fun piece hp => ?_⟩
  rw [words_trim, ← any_not_isBlank_iff]
  exact (List.mem_filter.1 hp).2

/-! ## Expressions -/

theorem Leaf.height_eq {mark text : List Char} {t : Condition} (h : Leaf mark text t) :
    t.height = 1 := by
  cases h with
  | permission _ h | lacked _ h => cases h <;> rfl
  | placeholder _ _ h | delimited _ _ _ _ h => cases h <;> rfl
  | bare => rfl

theorem heights_le_iff (cs : List Condition) (n : Nat) :
    heights cs ≤ n ↔ ∀ c ∈ cs, c.height ≤ n := by
  induction cs with
  | nil => simp [heights]
  | cons c cs ih => rw [heights, Nat.max_le, ih, List.forall_mem_cons]

theorem exists_mem_zip {α β : Type} {xs : List α} {ys : List β} (h : xs.length = ys.length) {y : β}
    (hy : y ∈ ys) : ∃ x, (x, y) ∈ xs.zip ys := by
  rw [← List.map_snd_zip h.ge] at hy
  obtain ⟨⟨x, _⟩, hm, rfl⟩ := List.mem_map.1 hy
  exact ⟨x, hm⟩

theorem height_pos (t : Condition) : 0 < t.height := by
  cases t <;> rw [height] <;> omega

theorem exists_succ_of_height_le {t : Condition} {n : Nat} (h : t.height ≤ n) :
    ∃ m, n = m + 1 := by
  have pos := height_pos t
  exact ⟨n - 1, by omega⟩

/-- What a parser makes of a list, one level down: a condition for each piece that is not blank. -/
theorem parseEach_eq_ok_iff (parser : Parser) (n : Nat) (pieces : List (List Char))
    (cs : List Condition) :
    (pieces.map trim).mapM (parser.parseWithin n) = .ok cs ↔
      pieces.length = cs.length ∧
        ∀ piece c, (piece, c) ∈ pieces.zip cs → parser.parseWithin n (trim piece) = .ok c := by
  rw [mapM_eq_ok_iff, List.forall₂_map_left_iff, List.forall₂_iff_zip]

theorem group?_of_ne_nil (mode : Mode) {members : List Condition} (h : members ≠ []) :
    group? mode members = .ok (.group mode members) := by
  rw [group?, if_neg (by simpa using h)]

/-- A group that is read has a member for each piece of its list. -/
theorem members_ne_nil {f : List Char → Except ParseFailure Condition} {pieces : List (List Char)}
    {members : List Condition} (ne : pieces ≠ []) (h : pieces.mapM f = .ok members) :
    members ≠ [] := by
  rintro rfl
  exact ne (List.forall₂_nil_right_iff.1 ((mapM_eq_ok_iff _ _ _).1 h))

/-- No group that the parser builds is without members. -/
theorem bind_group? (f : List Char → Except ParseFailure Condition) (text inside : List Char)
    (mode : Mode) :
    (do
      let pieces ← listPieces text inside
      built (group? mode (← pieces.mapM f))) =
    (do
      let pieces ← listPieces text inside
      return .group mode (← pieces.mapM f)) := by
  cases hl : listPieces text inside with
  | error e => rfl
  | ok pieces =>
    show pieces.mapM f >>= _ = pieces.mapM f >>= _
    cases hm : pieces.mapM f with
    | error e => rfl
    | ok members =>
      have ne := members_ne_nil (pieces_of_listPieces hl).1 hm
      exact congrArg built (group?_of_ne_nil mode ne)

/-- What the parser does with one level: the three alternatives, in the order in which it tries them. -/
theorem parseWithin_succ_eq_ok_iff (parser : Parser) (n : Nat) (s : List Char) (t : Condition) :
    parser.parseWithin (n + 1) s = .ok t ↔ normalize s ≠ [] ∧
      ((∃ mode inside items cs, afterGroup? (normalize s) = some (mode, inside) ∧
          listPieces (normalize s) inside = .ok items ∧
          items.mapM (parser.parseWithin n) = .ok cs ∧ t = .group mode cs) ∨
        (afterGroup? (normalize s) = none ∧
          ∃ operand c, afterKeyword? ["not"] (normalize s) = some operand ∧
            parser.parseWithin n operand = .ok c ∧ t = .not c) ∨
        (afterGroup? (normalize s) = none ∧ afterKeyword? ["not"] (normalize s) = none ∧
          parseLeaf parser.delimiter (normalize s) = .ok t)) := by
  rw [parseWithin]
  by_cases hs : normalize s = []
  · simp [hs, refuse]
  simp only [List.isEmpty_iff, hs, if_false, ne_eq, not_false_eq_true, true_and]
  match afterGroup? (normalize s) with
  | some (mode, inside) =>
    simp only [bind_group?]
    simp [bind_eq_ok_iff, map_eq_ok_iff]
  | none => cases afterKeyword? ["not"] (normalize s) <;> simp [map_eq_ok_iff]

/-- A condition that is read is no higher than the levels allow, and the grammar derives it. -/
theorem parseWithin_sound {limit : DepthLimit} {mark : List Char} {n : Nat} {s : List Char}
    {t : Condition} (h : parseWithin ⟨limit, .ofMark mark⟩ n s = .ok t) :
    t.height ≤ n ∧ Derives mark (normalize s) t := by
  induction n generalizing s t with
  | zero =>
    rw [parseWithin, refuse] at h
    cases h
  | succ n ih =>
    have hn := isNormal_normalize s
    obtain ⟨-, ⟨mode, inside, items, cs, hg, hl, hm, rfl⟩ | ⟨-, operand, c, hk, ho, rfl⟩ |
      ⟨-, hk, h⟩⟩ := (parseWithin_succ_eq_ok_iff _ n s t).1 h
    · obtain ⟨word, hw, front, blanks, hs, hb, he⟩ := (afterGroup?_eq_some_iff _ _ _).1 hg
      obtain ⟨ne, pieces, rfl, cut, rfl⟩ := (listPieces_eq_ok_iff _ _ _).1 hl
      obtain ⟨length, each⟩ := (parseEach_eq_ok_iff _ _ _ _).1 hm
      constructor
      · rw [height, Nat.add_comm, Nat.add_le_add_iff_right, heights_le_iff]
        intro c hc
        obtain ⟨piece, hpc⟩ := exists_mem_zip length hc
        exact (ih (each piece c hpc)).1
      · rw [he]
        refine .group hw hs hb cut (fun hnil => ne (by rw [hnil, List.map_nil])) length ?_
        intro piece c hpc
        have := (ih (each piece c hpc)).2
        rwa [normalize_trim] at this
    · obtain ⟨hc, hd⟩ := ih ho
      refine ⟨?_, .not (startsWith_not hk) hd⟩
      rw [height]
      omega
    · have keyword := (afterKeyword?_eq_none_iff (by decide) (by decide) hn).1 hk
      obtain ⟨opening, closing, bare, leaf⟩ := parseLeaf_sound hn h
      refine ⟨?_, .leaf opening closing bare keyword leaf⟩
      rw [leaf.height_eq]
      omega

theorem Leaf.ne_nil {mark text : List Char} {t : Condition} (h : Leaf mark text t) : text ≠ [] := by
  rintro rfl
  cases h with
  | permission keyword | placeholder keyword => exact keyword.ne_nil rfl
  | lacked first => cases first
  | delimited marked => exact marked.1 (List.prefix_nil.1 marked.2)
  | bare _ _ h => exact h.1 rfl

theorem Derives.ne_nil {mark text : List Char} {t : Condition} (h : Derives mark text t) :
    text ≠ [] := by
  cases h with
  | group => simp
  | not keyword => exact keyword.ne_nil
  | leaf _ _ _ _ h => exact h.ne_nil

theorem afterGroup?_of_not_mem {text : List Char} (h : '[' ∉ text) : afterGroup? text = none := by
  rw [Option.eq_none_iff_forall_ne_some]
  rintro ⟨mode, inside⟩ hg
  obtain ⟨-, -, front, blanks, -, -, rfl⟩ := (afterGroup?_eq_some_iff _ _ _).1 hg
  exact h (by simp)

theorem afterGroup?_of_startsWith {text back : List Char} (h : StartsWith ["not"] text back) :
    afterGroup? text = none := by
  rw [Option.eq_none_iff_forall_ne_some]
  rintro ⟨mode, inside⟩ hg
  obtain ⟨word, hw, front, blanks, hs, -, rfl⟩ := (afterGroup?_eq_some_iff _ _ _).1 hg
  obtain ⟨word', hw', front', c, hs', -, he⟩ := h
  rw [List.append_assoc] at he
  have hp : ∀ mode ∈ [Mode.all, .any], ∀ word ∈ groupWords mode, ∀ word' ∈ ["not"],
      word ∈ keywords ∧ word' ∈ keywords ∧
        ¬word.toList <+: word'.toList ∧ ¬word'.toList <+: word.toList := by decide
  obtain ⟨hk, hk', hn, hn'⟩ := hp mode (by cases mode <;> simp) word hw word' hw'
  rcases prefix_or_prefix_of_spells hk hk' hs hs' he with hp | hp
  · exact hn hp
  · exact hn' hp

/-- A condition that the grammar derives is read with as many levels as it is high. -/
theorem parseWithin_complete {limit : DepthLimit} {mark text : List Char} {t : Condition}
    (h : Derives mark text t) {n : Nat} {s : List Char} (hs : normalize s = text)
    (ht : t.height ≤ n) : parseWithin ⟨limit, .ofMark mark⟩ n s = .ok t := by
  induction h generalizing n s with
  | @group mode word front blanks pieces cs hw spelled hb cut ne length each ih =>
    obtain ⟨n, rfl⟩ := exists_succ_of_height_le ht
    rw [height, Nat.add_comm, Nat.add_le_add_iff_right, heights_le_iff] at ht
    have hg := (afterGroup?_eq_some_iff (normalize s) mode ([';'].intercalate pieces ++ [']'])).2
      ⟨word, hw, front, blanks, spelled, hb, hs⟩
    have hl := (listPieces_eq_ok_iff (normalize s) ([';'].intercalate pieces ++ [']']) _).2
      ⟨by simpa using ne, pieces, rfl, cut, rfl⟩
    have hm : ((listed pieces).map trim).mapM (parseWithin ⟨limit, .ofMark mark⟩ n) = .ok cs := by
      refine (parseEach_eq_ok_iff _ _ _ _).2 ⟨length, fun piece c hpc => ?_⟩
      exact ih piece c hpc (normalize_trim piece) (ht c (List.of_mem_zip hpc).2)
    exact (parseWithin_succ_eq_ok_iff _ n s _).2
      ⟨by rw [hs]; simp, .inl ⟨mode, _, _, cs, hg, hl, hm, rfl⟩⟩
  | @not text back c keyword _ ih =>
    obtain ⟨n, rfl⟩ := exists_succ_of_height_le ht
    rw [height, Nat.add_comm, Nat.add_le_add_iff_right] at ht
    subst hs
    have hk := (afterKeyword?_normal_iff (by decide) (by decide) (isNormal_normalize s) _).2 keyword
    exact (parseWithin_succ_eq_ok_iff _ n s _).2 ⟨keyword.ne_nil,
      .inr (.inl ⟨afterGroup?_of_startsWith keyword, back, c, hk, ih rfl ht, rfl⟩)⟩
  | leaf opening closing bare keyword leaf =>
    obtain ⟨n, rfl⟩ := exists_succ_of_height_le ht
    subst hs
    have hn := isNormal_normalize s
    have hk := (afterKeyword?_eq_none_iff (by decide) (by decide) hn).2 keyword
    exact (parseWithin_succ_eq_ok_iff _ n s _).2 ⟨leaf.ne_nil, .inr (.inr
      ⟨afterGroup?_of_not_mem opening, hk, parseLeaf_complete hn opening closing bare leaf⟩)⟩

/-- A normal text derives one condition at most. -/
theorem Derives.unique {mark text : List Char} (hn : IsNormal text) {t t' : Condition}
    (h : Derives mark text t) (h' : Derives mark text t') : t = t' := by
  let limit : DepthLimit := ⟨max t.height t'.height, ""⟩
  have ht : parseWithin ⟨limit, .ofMark mark⟩ limit.levels text = .ok t :=
    parseWithin_complete h hn (Nat.le_max_left ..)
  have ht' : parseWithin ⟨limit, .ofMark mark⟩ limit.levels text = .ok t' :=
    parseWithin_complete h' hn (Nat.le_max_right ..)
  exact Except.ok.inj (ht.symm.trans ht')

/-- A limit in range is the number of levels. -/
theorem ofValues_int {m : Int} (low : 1 ≤ m) (high : m ≤ DepthLimit.greatest) (delimiter : Value) :
    Parser.ofValues (.int m) delimiter = .ok ⟨⟨m.toNat, toString m⟩, .ofValue delimiter⟩ := by
  have pos : 0 < Number.Double.one := Nat.two_pow_pos 1074
  have unit : (0 : Int) < Number.Double.one := Int.natCast_pos.2 pos
  have least := Int.mul_le_mul_of_nonneg_right low (Int.le_of_lt unit)
  have greatest := Int.mul_le_mul_of_nonneg_right high (Int.le_of_lt unit)
  rw [Int.one_mul] at least
  rw [Parser.ofValues, DepthLimit.ofValue, if_pos ⟨least, greatest⟩,
    Int.mul_ediv_cancel m (Int.ne_of_gt unit)]
  · rfl
  · rfl

theorem parse_sound {limit : DepthLimit} {mark s : String} {t : Condition}
    (h : Parser.parse ⟨limit, .ofValue (.text mark)⟩ s = .ok t) :
    t.height ≤ limit.levels ∧ Derives mark.toList (normalize s.toList) t := by
  rw [Delimiter.ofValue_text] at h
  exact parseWithin_sound h

theorem parse_complete {limit : DepthLimit} {mark s : String} {t : Condition}
    (ht : t.height ≤ limit.levels) (h : Derives mark.toList (normalize s.toList) t) :
    Parser.parse ⟨limit, .ofValue (.text mark)⟩ s = .ok t := by
  rw [Delimiter.ofValue_text]
  exact parseWithin_complete h rfl ht

/-- A parser accepts just the conditions that the grammar derives from the normal form of a text and
that are no higher than its limit. -/
theorem parse_eq_ok_iff_derives (limit : DepthLimit) (mark s : String) (t : Condition) :
    Parser.parse ⟨limit, .ofValue (.text mark)⟩ s = .ok t ↔
      t.height ≤ limit.levels ∧ Derives mark.toList (normalize s.toList) t :=
  ⟨parse_sound, fun h => parse_complete h.1 h.2⟩

/-! ## Limits -/

theorem parse_mono {limit limit' : DepthLimit} (hl : limit'.levels ≤ limit.levels) {mark s : String}
    {c : Condition} (h : Parser.parse ⟨limit', .ofValue (.text mark)⟩ s = .ok c) :
    Parser.parse ⟨limit, .ofValue (.text mark)⟩ s = .ok c := by
  obtain ⟨hc, hd⟩ := parse_sound h
  exact parse_complete (hc.trans hl) hd

/-- A parser with a limit of `m` levels accepts the text as this condition. -/
def AcceptedWithin (m : Int) (mark s : String) (t : Condition) : Prop :=
  ∃ parser, Parser.ofValues (.int m) (.text mark) = .ok parser ∧ parser.parse s = .ok t

theorem acceptedWithin_iff_derives {m : Int} (low : 1 ≤ m) (high : m ≤ DepthLimit.greatest)
    (mark s : String) (t : Condition) :
    AcceptedWithin m mark s t ↔
      (t.height : Int) ≤ m ∧ Derives mark.toList (normalize s.toList) t := by
  have levels : (t.height : Int) ≤ m ↔ t.height ≤ m.toNat := by omega
  rw [AcceptedWithin, ofValues_int low high, levels]
  constructor
  · rintro ⟨parser, hp, h⟩
    obtain rfl := Except.ok.inj hp
    exact parse_sound h
  · rintro ⟨ht, h⟩
    exact ⟨_, rfl, parse_complete ht h⟩

/-- A limit keeps out what nests deeper and nothing else: a higher one accepts the same conditions and
more, and the height of a condition is all that it takes. -/
theorem acceptedWithin_iff_height {m : Int} (low : 1 ≤ m) (high : m ≤ DepthLimit.greatest)
    (mark s : String) (t : Condition) :
    (AcceptedWithin m mark s t ↔
      AcceptedWithin DepthLimit.greatest mark s t ∧ (t.height : Int) ≤ m) ∧
    (∀ m', m ≤ m' → m' ≤ DepthLimit.greatest → AcceptedWithin m mark s t →
      ∀ t', AcceptedWithin m' mark s t' ↔ t' = t) ∧
    (AcceptedWithin DepthLimit.greatest mark s t → AcceptedWithin t.height mark s t) := by
  have top : (1 : Int) ≤ DepthLimit.greatest := by decide
  refine ⟨?_, fun m' more high' h t' => ?_, fun h => ?_⟩
  · rw [acceptedWithin_iff_derives low high, acceptedWithin_iff_derives top (Int.le_refl _)]
    constructor
    · rintro ⟨ht, h⟩
      exact ⟨⟨by omega, h⟩, ht⟩
    · rintro ⟨⟨-, h⟩, ht⟩
      exact ⟨ht, h⟩
  · rw [acceptedWithin_iff_derives low high] at h
    rw [acceptedWithin_iff_derives (by omega) high']
    constructor
    · rintro ⟨-, h'⟩
      exact h'.unique (isNormal_normalize _) h.2
    · rintro rfl
      exact ⟨by omega, h.2⟩
  · rw [acceptedWithin_iff_derives top (Int.le_refl _)] at h
    have pos := height_pos t
    exact (acceptedWithin_iff_derives (by omega) h.1 mark s t).2 ⟨Int.le_refl _, h.2⟩

theorem acceptedWithin_iff_height_nested :
    let t : Condition := .not (.group .any [.perm "a" (.bool true), .not (.perm "b" (.bool false))])
    (1 : Int) ≤ 4 ∧ (4 : Int) ≤ DepthLimit.greatest ∧
      (AcceptedWithin 4 "%" "NOT any[!a; not b]" t ↔
        AcceptedWithin DepthLimit.greatest "%" "NOT any[!a; not b]" t ∧ (t.height : Int) ≤ 4) ∧
      AcceptedWithin 4 "%" "NOT any[!a; not b]" t ∧ ¬AcceptedWithin 3 "%" "NOT any[!a; not b]" t := by
  intro t
  have accepted : AcceptedWithin DepthLimit.greatest "%" "NOT any[!a; not b]" t := by
    have high : DepthLimit.greatest ≤ DepthLimit.greatest := Int.le_refl _
    have parsed : Parser.parse ⟨⟨128, "128"⟩, .ofValue (.text "%")⟩ "NOT any[!a; not b]" = .ok t := by
      decide +kernel
    exact ⟨_, ofValues_int (by decide) high _, parsed⟩
  have four := (acceptedWithin_iff_height (m := 4) (by decide) (by decide) "%" "NOT any[!a; not b]" t).1
  have three := (acceptedWithin_iff_height (m := 3) (by decide) (by decide) "%" "NOT any[!a; not b]" t).1
  refine ⟨by decide, by decide, four, four.2 ⟨accepted, by decide⟩, fun h => ?_⟩
  exact absurd (three.1 h).2 (by decide)

end Gatekeeper.Grammar
