import Gatekeeper.Proofs.Evaluation
import Gatekeeper.Proofs.Grammar
import Gatekeeper.Proofs.Transparency

/-!
# Composition

Expressions that count together and the one expression of their group. Every expression that is
accepted may be a piece of a list, where the layout around it does not matter, so the group has just
the conditions of its members. Deciding it differs from deciding the members one by one only in how
far a fault reaches.
-/
namespace Gatekeeper

namespace Grammar

open Text Gatekeeper.Bracket Gatekeeper.Parser Condition

/-! ## Expressions as pieces -/

theorem not_mem_of_startsWith {words : List String} {text back : List Char}
    (hk : ∀ w ∈ words, w ∈ keywords) (h : StartsWith words text back) {d : Char}
    (hd : endsWord d = true) (blank : isBlank d = false) (hb : d ∉ back) : d ∉ text := by
  obtain ⟨word, hw, front, c, hs, hc, rfl⟩ := h
  have hf := not_mem_of_spells (hk word hw) hs hd
  have hne : d ≠ c := by
    rintro rfl
    rw [hc] at blank
    cases blank
  simp [hf, hb, hne]

theorem Permission.semicolon_not_mem {text : List Char} {t : Condition} (h : Permission text t) :
    ';' ∉ text := by
  cases h with
  | held h => exact fun hm => (h.2 _ hm).2.2.2 rfl
  | @lacked blanks node hb h =>
    have hn : ';' ∉ node := fun hm => (h.2 _ hm).2.2.2 rfl
    have hb' : ';' ∉ blanks := fun hm => absurd (hb _ hm) (by decide)
    simp [hn, hb']

theorem Leaf.semicolon_not_mem {mark text : List Char} {t : Condition} (h : Leaf mark text t) :
    ';' ∉ text := by
  cases h with
  | permission keyword h =>
    exact not_mem_of_startsWith (by decide) keyword (by decide) (by decide) h.semicolon_not_mem
  | placeholder keyword plain =>
    exact not_mem_of_startsWith (by decide) keyword (by decide) (by decide) plain
  | lacked _ h => exact h.semicolon_not_mem
  | delimited _ _ _ plain => exact plain
  | bare _ _ h => exact fun hm => (h.2 _ hm).2.2.2 rfl

theorem isPiece_of_spells {word : String} {front : List Char} (hw : word ∈ keywords)
    (h : Spells word front) : IsPiece front := by
  refine isPiece_of_plain fun c hc => ⟨?_, ?_, ?_⟩
  all_goals
    rintro rfl
    exact not_mem_of_spells hw h (by decide) hc

theorem isPiece_of_blank {blanks : List Char} (h : ∀ c ∈ blanks, isBlank c = true) :
    IsPiece blanks := by
  refine isPiece_of_plain fun c hc => ⟨?_, ?_, ?_⟩
  all_goals
    rintro rfl
    exact absurd (h _ hc) (by decide)

/-- Layout does not matter for whether a text may be a piece. -/
theorem isPiece_normalize_iff (text : List Char) : IsPiece (normalize text) ↔ IsPiece text := by
  rw [← isPiece_ink_iff, ink_normalize, isPiece_ink_iff]

theorem keyword_of_mem_groupWords {mode : Mode} {word : String} (h : word ∈ groupWords mode) :
    word ∈ keywords := by
  have each : ∀ mode ∈ [Mode.all, .any], ∀ word ∈ groupWords mode, word ∈ keywords := by decide
  exact each mode (by cases mode <;> simp) word h

/-- Every text that derives a condition is balanced and has no semicolon outside of brackets. -/
theorem Derives.isPiece {mark text : List Char} {t : Condition} (h : Derives mark text t) :
    IsPiece text := by
  induction h with
  | group hw spelled hb cut =>
    have front := isPiece_of_spells (keyword_of_mem_groupWords hw) spelled
    exact isPiece_append (isPiece_append front (isPiece_of_blank hb))
      (isPiece_brackets (isBalanced_intercalate cut))
  | not keyword _ ih =>
    obtain ⟨word, hw, front, c, hs, hc, rfl⟩ := keyword
    have hk : ∀ w ∈ ["not"], w ∈ keywords := by decide
    have blank : IsPiece [c] := isPiece_of_blank (by simpa using hc)
    exact isPiece_append (isPiece_of_spells (hk word hw) hs)
      (isPiece_append blank ((isPiece_normalize_iff _).1 ih))
  | leaf opening closing _ _ h =>
    refine isPiece_of_plain fun c hc => ⟨?_, ?_, ?_⟩
    all_goals rintro rfl
    · exact opening hc
    · exact closing hc
    · exact h.semicolon_not_mem hc

/-! ## The expression of a group -/

theorem squeeze_intercalate (pieces : List (List Char)) :
    squeeze false ([';'].intercalate pieces ++ [']']) =
      [';'].intercalate (pieces.map (squeeze false)) ++ [']'] := by
  have separator : isBlank ';' = false := by decide
  have closing : isBlank ']' = false := by decide
  induction pieces with
  | nil => rfl
  | cons piece pieces ih =>
    cases pieces with
    | nil =>
      rw [List.map_singleton, List.intercalate_singleton, List.intercalate_singleton]
      exact squeeze_append_cons closing false piece []
    | cons next pieces =>
      rw [List.map_cons] at ih
      rw [List.map_cons, List.map_cons, List.intercalate_cons_cons, List.intercalate_cons_cons,
        List.append_assoc, List.append_assoc, List.singleton_append,
        squeeze_append_cons separator, ih]
      simp

theorem forall₂_spaced {R : List Char → Condition → Prop} {texts : List (List Char)}
    {cs : List Condition} (h : List.Forall₂ (fun text c => R (normalize text) c) texts cs) :
    List.Forall₂ (fun text c => R (normalize text) c) (spaced texts) cs := by
  cases h with
  | nil => exact .nil
  | cons hc h =>
    refine .cons hc (List.forall₂_map_left_iff.2 ?_)
    simpa only [normalize_cons_blank isBlank_space] using h

/-- The normal form of a group's expression has the squeezed pieces of its list. -/
theorem normalize_combined (mode : Mode) (texts : List (List Char)) :
    normalize (mode.name.toList ++ ' ' :: '[' :: ([';', ' '].intercalate texts ++ [']'])) =
      mode.name.toList ++ [' '] ++
        '[' :: ([';'].intercalate ((spaced texts).map (squeeze false)) ++ [']']) := by
  have opening : isBlank '[' = false := by decide
  have name : squeeze true (mode.name.toList ++ [' ']) = mode.name.toList ++ [' '] := by
    cases mode <;> rfl
  rw [← squeeze_eq_normalize, intercalate_spaced, ← squeeze_intercalate, ← name,
    ← squeeze_append_cons opening, List.append_assoc, List.singleton_append]
  rw [← List.cons_append, ← List.cons_append, ← List.append_assoc, List.getLast?_concat]
  rintro c ⟨⟩
  decide

theorem Derives.combined {mark : List Char} (mode : Mode) {texts : List (List Char)}
    {cs : List Condition} (ne : texts ≠ [])
    (h : List.Forall₂ (fun text c => Derives mark (normalize text) c) texts cs) :
    Derives mark
      (normalize (mode.name.toList ++ ' ' :: '[' :: ([';', ' '].intercalate texts ++ [']'])))
      (.group mode cs) := by
  rw [normalize_combined]
  have pieces : List.Forall₂ (fun piece c => Derives mark (normalize piece) c)
      ((spaced texts).map (squeeze false)) cs := by
    refine List.forall₂_map_left_iff.2 ?_
    simpa only [normalize_congr (words_squeeze _ _)] using forall₂_spaced h
  have whole : listed ((spaced texts).map (squeeze false)) = (spaced texts).map (squeeze false) := by
    have shown : ∀ piece ∈ (spaced texts).map (squeeze false), piece.any (!isBlank ·) = true := by
      refine ((List.forall₂_and_left _ _).1 (pieces.imp fun piece c hd => ⟨?_, hd⟩)).1
      rw [any_not_isBlank_iff, ne_eq, ← normalize_eq_nil_iff]
      exact hd.ne_nil
    exact List.filter_eq_self.2 shown
  have hw : mode.name ∈ groupWords mode := by cases mode <;> decide
  have spelled : Spells mode.name mode.name.toList := by
    cases mode <;> simp [Spells, Mode.name, isFormOf]
  refine .group hw spelled (by simp) ?_ ?_ ?_ ?_
  · refine ((List.forall₂_and_left _ _).1 (pieces.imp fun piece c hd => ⟨?_, hd⟩)).1
    exact (isPiece_normalize_iff piece).1 hd.isPiece
  · rw [whole]
    simpa using spaced_ne_nil ne
  · rw [whole]
    exact pieces.length_eq
  · rw [whole]
    exact fun piece c hz => (List.forall₂_iff_zip.1 pieces).2 hz

/-- The expression of a group, from those of its members. -/
def combine (mode : Mode) (expressions : List String) : String :=
  mode.name ++ " [" ++ "; ".intercalate expressions ++ "]"

/-- What a parser accepts in one level less may be the members of a group. -/
theorem parse_combine {limit limit' : DepthLimit} (hl : limit.levels = limit'.levels + 1)
    {mark : String} (mode : Mode) {es : List String} {cs : List Condition} (ne : es ≠ [])
    (h : List.Forall₂ (fun e c => Parser.parse ⟨limit', .ofValue (.text mark)⟩ e = .ok c) es cs) :
    Parser.parse ⟨limit, .ofValue (.text mark)⟩ (combine mode es) = .ok (.group mode cs) := by
  have text : (combine mode es).toList = mode.name.toList ++
      ' ' :: '[' :: ([';', ' '].intercalate (es.map String.toList) ++ [']']) := by
    simp [combine]
  have derived : List.Forall₂ (fun text c => Derives mark.toList (normalize text) c)
      (es.map String.toList) cs :=
    List.forall₂_map_left_iff.2 (h.imp fun _ _ hp => (parse_sound hp).2)
  refine parse_complete ?_ (text ▸ Derives.combined mode (by simpa using ne) derived)
  have heights : ∀ c ∈ cs, c.height ≤ limit'.levels :=
    ((List.forall₂_and_left _ _).1 (h.flip.imp fun _ _ hp => ⟨(parse_sound hp).1, hp⟩)).1
  rw [height, hl, Nat.add_comm, Nat.add_le_add_iff_right, heights_le_iff]
  exact heights

end Grammar

/-! ## Deciding a group and its members -/

namespace Reference

open Condition

variable {r : Reference}

theorem evaluate_of_parse {e : String} {c : Condition} (h : r.parser.parse e = .ok c)
    (subject : Subject) : r.evaluate subject (.text e) = r.judge subject c := by
  have hl : r.lookup (.text e) = .ok (some c) := by
    rw [lookup, Parser.attempt, Parser.parseValue, h]
  rw [evaluate, hl]
  rfl

theorem evaluate_each {es : List String} {cs : List Condition}
    (h : List.Forall₂ (fun e c => r.parser.parse e = .ok c) es cs) (subject : Subject) :
    each (r.evaluate subject) .all (es.map .text) = cs.allM (r.judge subject) ∧
      each (r.evaluate subject) .any (es.map .text) = cs.anyM (r.judge subject) := by
  induction h with
  | nil => exact ⟨rfl, rfl⟩
  | @cons e c es cs he _ ih =>
    rw [List.map_cons, each_cons, each_cons, evaluate_of_parse he, ih.1, ih.2, List.allM_cons,
      List.anyM_cons]
    match r.judge subject c with
    | .error fault | .ok true | .ok false => exact ⟨rfl, rfl⟩

theorem judge_of_ok {subject : Subject} {c : Condition} {answer : Bool}
    (h : (c.evaluate subject r.resolver).outcome = .ok answer) : r.judge subject c = .ok answer := by
  rw [judge, h]

theorem judge_eq_true_iff (r : Reference) (subject : Subject) (c : Condition) :
    r.judge subject c = .ok true ↔ (c.evaluate subject r.resolver).outcome = .ok true := by
  rw [judge]
  cases (c.evaluate subject r.resolver).outcome with
  | ok answer => rfl
  | error fault =>
    simp only [reduceCtorEq, iff_false]
    cases fault.message? <;> simp [Except.map]

/-- Whatever fault ends the evaluation, there is an answer if the fault can be told. -/
theorem exists_answer_of_isTold {subject : Subject} {c : Condition} (h : c.IsTold subject r.resolver) :
    ∃ answer, r.judge subject c = .ok answer := by
  rw [judge]
  cases ho : (c.evaluate subject r.resolver).outcome with
  | ok answer => exact ⟨answer, rfl⟩
  | error fault =>
    obtain ⟨message, told⟩ := h fault ho
    dsimp only
    rw [told]
    exact ⟨false, rfl⟩

/-- A fault of a member ends the list, as it ends the group. -/
theorem judge_all (r : Reference) (subject : Subject) (cs : List Condition) :
    r.judge subject (.group .all cs) = cs.allM (r.judge subject) := by
  induction cs with
  | nil => rfl
  | cons c cs ih =>
    rw [List.allM_cons, ← ih]
    simp only [judge, evaluate_group, outcome_evaluateEach_cons]
    cases (c.evaluate subject r.resolver).outcome with
    | ok answer => cases answer <;> rfl
    | error fault =>
      simp only [Except.bind]
      cases fault.message? <;> rfl

/-- Without a fault a group is decided as its members are. -/
theorem judge_any {subject : Subject} {cs : List Condition} {answer : Bool}
    (h : ((Condition.group .any cs).evaluate subject r.resolver).outcome = .ok answer) :
    cs.anyM (r.judge subject) = .ok answer := by
  rw [evaluate_group] at h
  induction cs with
  | nil => exact h
  | cons c cs ih =>
    rw [outcome_evaluateEach_cons] at h
    rw [List.anyM_cons, judge]
    cases hc : (c.evaluate subject r.resolver).outcome with
    | error fault =>
      rw [hc] at h
      cases h
    | ok first =>
      rw [hc] at h
      cases first with
      | true => exact h
      | false => exact ih h

/-- Members that are all answered give an answer together. -/
theorem exists_answers {subject : Subject} {cs : List Condition}
    (h : ∀ c ∈ cs, c.IsTold subject r.resolver) :
    (∃ answer, cs.allM (r.judge subject) = .ok answer) ∧
      ∃ answer, cs.anyM (r.judge subject) = .ok answer := by
  induction cs with
  | nil => exact ⟨⟨_, rfl⟩, _, rfl⟩
  | cons c cs ih =>
    obtain ⟨first, others⟩ := List.forall_mem_cons.1 h
    obtain ⟨all, any⟩ := ih others
    obtain ⟨answer, ha⟩ := exists_answer_of_isTold first
    rw [List.allM_cons, List.anyM_cons, ha]
    cases answer with
    | true => exact ⟨all, _, rfl⟩
    | false => exact ⟨⟨_, rfl⟩, any⟩

end Reference

/-- How the answer for a group agrees with the one for its members, by mode. There is an answer unless a
member has a fault that cannot be `told`. -/
structure Agrees (group members : Mode → Except Fault Bool) (told faultless : Prop) : Prop where
  all : group .all = members .all
  any : group .any = .ok true → members .any = .ok true
  same : faultless → ∃ answer, group .any = .ok answer ∧ members .any = .ok answer
  answered : told → ∀ mode, (∃ answer, group mode = .ok answer) ∧ ∃ answer, members mode = .ok answer

namespace Reference

open Grammar Condition

variable {r : Reference}

theorem agrees {es : List String} {cs : List Condition}
    (group : ∀ mode, r.parser.parse (combine mode es) = .ok (.group mode cs))
    (members : List.Forall₂ (fun e c => r.parser.parse e = .ok c) es cs) (subject : Subject) :
    Agrees (fun mode => r.evaluate subject (.text (combine mode es)))
      (fun mode => each (r.evaluate subject) mode (es.map .text))
      (∀ c ∈ cs, c.IsTold subject r.resolver) (Faultless subject r.resolver (.group .any cs)) := by
  obtain ⟨all, any⟩ := evaluate_each members subject
  constructor
  · rw [evaluate_of_parse (group .all), all, judge_all]
  · intro h
    rw [evaluate_of_parse (group .any)] at h
    rw [any]
    exact judge_any ((judge_eq_true_iff r subject _).1 h)
  · intro h
    obtain ⟨answer, ha⟩ := h.exists_answer
    refine ⟨answer, ?_, ?_⟩
    · rw [evaluate_of_parse (group .any), judge_of_ok ha]
    · rw [any, judge_any ha]
  · intro told mode
    refine ⟨?_, ?_⟩
    · rw [evaluate_of_parse (group mode)]
      exact exists_answer_of_isTold (isTold_group told mode)
    · obtain ⟨every, some⟩ := exists_answers told
      cases mode with
      | all => exact all ▸ every
      | any => exact any ▸ some

end Reference

/-- A parser with one level more accepts the group of what a parser accepts, and a manager decides the
two alike: in any case if all count, and up to faults if one is enough. -/
theorem combine_agrees {limit limit' : DepthLimit} (hl : limit.levels = limit'.levels + 1)
    {mark : String} {es : List String} {cs : List Condition} (ne : es ≠ [])
    (h : List.Forall₂ (fun e c => Parser.parse ⟨limit', .ofValue (.text mark)⟩ e = .ok c) es cs) :
    (∀ mode, Parser.parse ⟨limit, .ofValue (.text mark)⟩ (Grammar.combine mode es) =
      .ok (.group mode cs)) ∧
    ∀ {m : Manager}, m.Reachable → m.parser = ⟨limit, .ofValue (.text mark)⟩ → ∀ subject : Subject,
      Agrees (fun mode => (m.evaluate subject (.text (Grammar.combine mode es))).1)
        (fun mode => (m.evaluateEach subject mode (es.map .text)).1)
        (∀ c ∈ cs, c.IsTold subject m.resolver)
        (Condition.Faultless subject m.resolver (.group .any cs)) ∧
      ∀ name description,
        Agrees (fun mode => (m.evaluate subject (.text (Grammar.combine mode es))).1)
          (fun mode => (Gate.evaluate ⟨name, mode, es, description⟩ m subject).1)
          (∀ c ∈ cs, c.IsTold subject m.resolver)
          (Condition.Faultless subject m.resolver (.group .any cs)) := by
  have group := fun mode => Grammar.parse_combine hl mode ne h
  refine ⟨group, fun {m} hm hp subject => ?_⟩
  have members : List.Forall₂ (fun e c => m.parser.parse e = .ok c) es cs :=
    h.imp fun e c he => hp ▸ Grammar.parse_mono (by omega) he
  have ht := hm.tracks
  have agrees := Reference.agrees (r := ⟨m.parser, m.resolver⟩) (hp ▸ group) members subject
  have together : (fun mode => (m.evaluate subject (.text (Grammar.combine mode es))).1) = fun mode =>
      (⟨m.parser, m.resolver⟩ : Reference).evaluate subject (.text (Grammar.combine mode es)) :=
    funext fun mode => (ht.evaluate subject _).1
  have apart : (fun mode => (m.evaluateEach subject mode (es.map .text)).1) = fun mode =>
      Reference.each ((⟨m.parser, m.resolver⟩ : Reference).evaluate subject) mode (es.map .text) :=
    funext fun mode => (ht.askEach (fun h => h.evaluate subject) mode _).1
  rw [← together, ← apart] at agrees
  exact ⟨agrees, fun name description => agrees⟩

theorem combine_agrees_lacked :
    Parser.parse ⟨⟨2, "2"⟩, .ofValue (.text "%")⟩ (Grammar.combine .any ["!a", "%x% == 1"]) =
        .ok (.group .any [.perm "a" (.bool true), .attr (.text "%x%") (some .eq) (some (.text "1"))]) ∧
      ∃ m : Manager, m.Reachable ∧ ∃ answer,
        (m.evaluate ⟨fun _ => .ok true, none⟩
          (.text (Grammar.combine .any ["!a", "%x% == 1"]))).1 = .ok answer ∧
        (m.evaluateEach ⟨fun _ => .ok true, none⟩ .any [.text "!a", .text "%x% == 1"]).1 =
          .ok answer := by
  have first : Parser.parse ⟨⟨1, "1"⟩, .ofValue (.text "%")⟩ "!a" =
      .ok (.perm "a" (.bool true)) := by decide +kernel
  have second : Parser.parse ⟨⟨1, "1"⟩, .ofValue (.text "%")⟩ "%x% == 1" =
      .ok (.attr (.text "%x%") (some .eq) (some (.text "1"))) := by decide +kernel
  have levels : (⟨2, "2"⟩ : DepthLimit).levels = (⟨1, "1"⟩ : DepthLimit).levels + 1 := rfl
  obtain ⟨parsed, agrees⟩ := combine_agrees levels (by decide) (.cons first (.cons second .nil))
  have created : Manager.create none {} (some ⟨⟨2, "2"⟩, .ofValue (.text "%")⟩) = .ok _ := rfl
  have reachable := Manager.Reachable.created created
  have faultless : Condition.Faultless ⟨fun _ => .ok true, none⟩ none (.group .any
      [.perm "a" (.bool true), .attr (.text "%x%") (some .eq) (some (.text "1"))]) := by
    intro leaf hl
    have hl' : leaf ∈ [Condition.perm "a" (.bool true),
        .attr (.text "%x%") (some .eq) (some (.text "1"))] := hl
    rcases List.mem_pair.1 hl' with rfl | rfl <;> exact ⟨_, rfl⟩
  exact ⟨parsed .any, _, reachable, (agrees reachable rfl _).1.same faultless⟩

end Gatekeeper
