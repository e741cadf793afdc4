import Gatekeeper.Proofs.JsonShape
import Gatekeeper.Proofs.Nodes
import Gatekeeper.Proofs.Questions
import Gatekeeper.Proofs.Spacing
import Gatekeeper.Proofs.Sufficiency
import Gatekeeper.Subject.Assignment

/-!
# Assigned attributes

An assignment takes its token as it is given, without the blanks around it. An expression asks for the
normal form of the token that it names. The two are the same key just if the token is in normal form;
any other token is one that no expression asks for, and its assignment does not show.
-/
namespace Gatekeeper.Text

theorem isNormal_toList_iff (s : String) : IsNormal s.toList ↔ normalizeString s = s := by
  rw [IsNormal, normalizeString, ← String.toList_inj, String.toList_ofList]

/-- The normal form of a text keeps a character that is not blank at both of its ends, and takes no
other than blanks from between. -/
theorem exists_normalize_enclosed {c : Char} (h : isBlank c = false) (inside : List Char) :
    ∃ inside', normalize (c :: (inside ++ [c])) = c :: (inside' ++ [c]) ∧
      ∀ d ∈ inside', isBlank d = false → d ∈ inside := by
  have squeezed : normalize (c :: (inside ++ [c])) = c :: (squeeze false inside ++ [c]) := by
    rw [← squeeze_eq_normalize, squeeze_cons h, squeeze_append_cons h]
    · rfl
    · rw [← List.cons_append, List.getLast?_concat]
      simpa using h
  refine ⟨_, squeezed, fun d hd hb => ?_⟩
  have inks : ink (squeeze false inside) = ink inside := by
    have ends := ink_normalize (c :: (inside ++ [c]))
    rw [squeezed, ink_cons h, ink_cons h, ink_append, ink_append] at ends
    exact List.append_cancel_right (List.cons.inj ends).2
  have inked : d ∈ ink (squeeze false inside) := (mem_ink_iff d _).2 ⟨hd, hb⟩
  rw [inks] at inked
  exact ((mem_ink_iff d _).1 inked).1

end Gatekeeper.Text

namespace Gatekeeper

open Text

namespace Delimiter

/-- The mark ends the token where it comes again. -/
theorem opens_enclosed {c : Char} {inside : List Char} (once : c ∉ inside) :
    Opens [c] (c :: (inside ++ [c])) [] := by
  refine .delimited ⟨by simp, inside, rfl⟩ ?_
  rintro front hp ⟨-, inside', rfl⟩
  rcases List.prefix_concat_iff.1 (List.cons_prefix_cons.1 hp).2 with he | hp
  · exact congrArg (c :: ·) he
  · exact absurd (hp.subset (by simp)) once

end Delimiter

namespace Grammar

open Condition

theorem not_startsWith_percent {words : List String} (hk : ∀ w ∈ words, w ∈ Parser.keywords)
    (text back : List Char) : ¬Parser.StartsWith words ('%' :: text) back := by
  have noForm : ∀ letter ∈ letters, isFormOf letter '%' = false := forall_not_of_all (by decide)
  rintro ⟨word, hw, front, c, hs, -, he⟩
  obtain ⟨d, front, rfl⟩ := List.exists_cons_of_ne_nil (ne_nil_of_spells (hk word hw) hs)
  obtain ⟨rfl, -⟩ := List.cons.inj he
  obtain ⟨letter, hl, hf⟩ := exists_form_of_mem hs (List.mem_cons_self ..)
  rw [noForm letter (Parser.mem_letters_of_keyword (hk word hw) letter hl)] at hf
  cases hf

/-- A text between two percent signs, and without other signs, is a token that stands alone. -/
theorem derives_enclosed {inside : List Char} (plain : ∀ c ∈ "%[];".toList, c ∉ inside) :
    Derives ['%'] ('%' :: (inside ++ ['%']))
      (attr (.text (String.ofList ('%' :: (inside ++ ['%'])))) none none) := by
  have absent : ∀ c ∈ "[];".toList, c ∉ '%' :: (inside ++ ['%']) := by
    intro c hc hm
    have other : c ≠ '%' := by
      rintro rfl
      exact absurd hc (by decide)
    exact plain c (List.mem_cons_of_mem '%' hc) (by simpa [other] using hm)
  have token : Attribute ['%'] ('%' :: (inside ++ ['%']) ++ []) _ :=
    .presence (Delimiter.opens_enclosed (plain '%' (by decide)))
      (fun op hi => symbol_toList_ne_nil op (List.infix_nil.1 hi)) (by simp)
  rw [List.append_nil] at token
  have bare : String.ofList (lower ('%' :: (inside ++ ['%']))) ∉ Parser.keywords :=
    Parser.lower_not_mem_keywords (List.mem_cons_self ..) (by decide)
  exact .leaf (absent '[' (by decide)) (absent ']' (by decide)) bare
    (not_startsWith_percent (by decide) _)
    (.delimited ⟨by simp, List.prefix_append ['%'] _⟩ (not_startsWith_percent (by decide) _)
      (by simp) (absent ';' (by decide)) token)

/-- A token in percent signs is read as its normal form, alone. -/
theorem parse_token {limit : DepthLimit} (levels : 0 < limit.levels) {t : String}
    {inside : List Char} (ht : t.toList = '%' :: (inside ++ ['%']))
    (plain : ∀ c ∈ "%[];".toList, c ∉ inside) :
    Parser.parse ⟨limit, .ofValue (.text "%")⟩ t =
      .ok (.attr (.text (normalizeString t)) none none) := by
  obtain ⟨inside', normal, kept⟩ := exists_normalize_enclosed (c := '%') (by decide) inside
  have inked : ∀ c ∈ "%[];".toList, isBlank c = false := forall_not_of_all (by decide)
  refine parse_complete levels ?_
  rw [normalizeString, ht, normal]
  exact derives_enclosed fun c hc hm => plain c hc (kept c hm (inked c hc))

end Grammar

namespace Assignment

/-- The first equals sign divides. -/
theorem divide?_eq_some {token : List Char} (plain : '=' ∉ token) (ne : trim token ≠ [])
    (value : List Char) : divide? (token ++ '=' :: value) = some (trim token, trim value) := by
  have unequal : ∀ c ∈ token, (c != '=') = true := by
    intro c hc
    rw [bne_iff_ne]
    rintro rfl
    exact plain hc
  have ends : ∀ c ∈ ('=' :: value).head?, (c != '=') = false := by simp
  obtain ⟨front, back⟩ := span_append unequal ends
  rw [divide?, front, back]
  simp only [List.isEmpty_iff, ne, if_false]

/-- A text that assigns one attribute. -/
theorem table_assigned {t : String} (plain : '=' ∉ t.toList) (ne : trimString t ≠ "") (v : String) :
    table [.text (t ++ "=" ++ v)] = .ok [(.text (trimString t), .text (trimString v))] := by
  have divided : divide? (t ++ "=" ++ v).toList = some (trim t.toList, trim v.toList) := by
    have parts : (t ++ "=" ++ v).toList = t.toList ++ '=' :: v.toList := by simp
    rw [parts, divide?_eq_some plain]
    intro he
    exact ne (by rw [trimString, he])
  rw [table, List.mapM_cons, List.mapM_nil, read, divided]
  rfl

end Assignment

section

variable (name : Value) (permissions : List Scalar)

/-- A token that has no value in the table stands for itself. -/
theorem static_single (t v s : String) :
    Resolver.static (FixedSubject.toSubject ⟨name, permissions, [(.text t, .text v)]⟩) (.text s) =
      .ok (.text (if s = t then v else s)) := by
  have found : FixedSubject.valueOf ⟨name, permissions, [(.text t, .text v)]⟩ (.text s) =
      if s = t then .text v else .null := by
    rw [FixedSubject.valueOf, Value.find?, List.find?_cons]
    by_cases same : s = t
    · rw [if_pos same, (Value.same_text t s).2 same.symm]
      rfl
    · rw [if_neg same, eq_false_of_ne_true (mt (Value.same_text t s).1 (Ne.symm same))]
      rfl
  simp only [Resolver.static, FixedSubject.toSubject, Value.key?, Except.map, found]
  split <;> rfl

/-- The token counts as there just if it is the one in the table. -/
theorem evaluate_presence {t v : String} (shown : v ≠ "") (other : v ≠ t) (s : String) :
    ((Condition.attr (.text s) none none).evaluate
      (FixedSubject.toSubject ⟨name, permissions, [(.text t, .text v)]⟩) (some .static)).outcome =
        .ok (decide (s = t)) := by
  rw [Condition.evaluate, static_single]
  show Except.ok (isPresent (.text s) (.text (if s = t then v else s))) = _
  rw [isPresent, Value.equals_text, Value.equals_text]
  by_cases same : s = t
  · subst same
    simp [shown, other]
  · simp [same]

end

namespace Condition

mutual

theorem leaves_subset_nodes (c : Condition) : leaves c ⊆ nodes c := by
  match c with
  | perm .. | attr .. => exact List.Subset.refl _
  | group mode cs =>
    rw [leaves, nodes]
    exact List.subset_cons_of_subset _ (leavesEach_subset_nodesEach cs)
  | not c =>
    rw [leaves, nodes]
    exact List.subset_cons_of_subset _ (leaves_subset_nodes c)

theorem leavesEach_subset_nodesEach (cs : List Condition) : leavesEach cs ⊆ nodesEach cs := by
  match cs with
  | [] => exact List.Subset.refl _
  | c :: cs =>
    rw [leavesEach, nodesEach]
    exact List.append_subset.2 ⟨List.subset_append_of_subset_left _ (leaves_subset_nodes c),
      List.subset_append_of_subset_right _ (leavesEach_subset_nodesEach cs)⟩

end

end Condition

/-- An expression asks for tokens in normal form. -/
theorem exists_normal_of_asked {limit : DepthLimit} {mark s : String} {c : Condition}
    (h : Parser.parse ⟨limit, .ofValue (.text mark)⟩ s = .ok c) {subject : Subject}
    {resolver : Option Resolver} {token : Value}
    (asked : .attr token ∈ (c.evaluate subject resolver).asked) :
    ∃ text, IsNormal text ∧ token = .text (String.ofList text) := by
  obtain ⟨operator, expected, hl⟩ := Condition.occursIn_of_asked asked
  have formed := (Grammar.parse_sound h).2.isWellFormed (isNormal_normalize _) _
    (Condition.leaves_subset_nodes c hl)
  cases formed with
  | presence _ h | comparison _ h => exact ⟨_, h.normal, rfl⟩

/-- An expression has the same questions answered, whether a token out of normal form has a value or
not. -/
theorem evaluate_unasked {limit : DepthLimit} {mark s : String} {c : Condition}
    (h : Parser.parse ⟨limit, .ofValue (.text mark)⟩ s = .ok c) (name : Value)
    (permissions : List Scalar) {t : String} (odd : ¬IsNormal t.toList) (v : String) :
    c.evaluate (FixedSubject.toSubject ⟨name, permissions, [(.text t, .text v)]⟩) (some .static) =
      c.evaluate (FixedSubject.toSubject ⟨name, permissions, []⟩) (some .static) := by
  refine Condition.evaluate_congr rfl c fun q asked => ?_
  cases q with
  | perm node => rfl
  | attr token =>
    obtain ⟨text, normal, rfl⟩ := exists_normal_of_asked h asked
    have other : String.ofList text ≠ t := by
      rintro rfl
      rw [String.toList_ofList] at odd
      exact odd normal
    have unknown := static_single name permissions t v (String.ofList text)
    rw [if_neg other] at unknown
    exact congrArg some unknown

/-- An attribute that is assigned under a token in percent signs is there for an expression that names
the token just if the token is in normal form. If it is not, no expression sees the assignment. -/
theorem evaluate_assigned {m : Manager} (h : m.Reachable) {limit : Value}
    (made : Parser.ofValues limit (.text "%") = .ok m.parser) (static : m.resolver = some .static)
    {t v : String} {inside : List Char} (ht : t.toList = '%' :: (inside ++ ['%']))
    (plain : ∀ c ∈ "%=[];".toList, c ∉ inside) (shown : trimString v ≠ "")
    (other : trimString v ≠ t) :
    ∃ table, Assignment.table [.text (t ++ "=" ++ v)] = .ok table ∧ ∀ name permissions,
      (m.evaluate (FixedSubject.toSubject ⟨name, permissions, table⟩) (.text t)).1 =
        .ok (decide (normalizeString t = t)) ∧
      (normalizeString t ≠ t → ∀ e,
        (m.evaluate (FixedSubject.toSubject ⟨name, permissions, table⟩) e).1 =
          (m.evaluate (FixedSubject.toSubject ⟨name, permissions, []⟩) e).1) := by
  obtain ⟨size, hl, hp⟩ := (Settings.parser?_eq_ok_iff ⟨limit, .null, .text "%"⟩ m.parser).1 made
  have delimiter : m.parser.delimiter = .ofValue (.text "%") := by rw [hp]
  have trimmed : trimString t = t := by
    rw [← String.toList_inj, trimString, String.toList_ofList, ht, trim_cons (by decide),
      trimEnd_concat (by decide)]
  have unequal : '=' ∉ t.toList := by
    rw [ht]
    simpa using plain '=' (by decide)
  have assigned := Assignment.table_assigned unequal (by rw [trimmed]; rintro rfl; simp at ht) v
  rw [trimmed] at assigned
  refine ⟨_, assigned, fun name permissions => ⟨?_, fun odd e => ?_⟩⟩
  · have signs : "%[];".toList ⊆ "%=[];".toList := by decide
    have parsed : m.parser.parseValue (.text t) = _ :=
      hp ▸ Grammar.parse_token (DepthLimit.levels_pos hl) ht fun c hc => plain c (signs hc)
    have present := evaluate_presence name permissions shown other (normalizeString t)
    rw [Manager.evaluate_of_parsed h.tracks parsed, Reference.judge, static, present]
  · cases hc : m.parser.parseValue e with
    | error refusal =>
      rw [Manager.evaluate_of_unparsed h.tracks hc, Manager.evaluate_of_unparsed h.tracks hc]
    | ok c =>
      obtain ⟨s, rfl, parsed⟩ := Parser.exists_text_of_parseValue hc
      have same := evaluate_unasked (hp ▸ parsed) name permissions (mt (isNormal_toList_iff t).1 odd)
        (trimString v)
      rw [Manager.evaluate_of_parsed h.tracks hc, Manager.evaluate_of_parsed h.tracks hc,
        Reference.judge, Reference.judge, static, same]

/-- Two spaces within a token are one in an expression, and still two in an assignment. -/
theorem evaluate_assigned_spaced :
    ∃ m : Manager, m.Reachable ∧ Parser.ofValues (.int 32) (.text "%") = .ok m.parser ∧
      m.resolver = some .static ∧ "%a  b%".toList = '%' :: ("a  b".toList ++ ['%']) ∧
      (∀ c ∈ "%=[];".toList, c ∉ "a  b".toList) ∧ (∃ c ∈ "a  b".toList, isBlank c = false) ∧
      trimString "1" ≠ "" ∧ trimString "1" ≠ "%a  b%" ∧
      Assignment.table [.text ("%a  b%" ++ "=" ++ "1")] = .ok [(.text "%a  b%", .text "1")] ∧
      (m.evaluate (FixedSubject.toSubject ⟨.text "subject", [], [(.text "%a  b%", .text "1")]⟩)
        (.text "%a  b%")).1 = .ok false := by
  have created := Manager.create_default (some .static)
  exact ⟨_, .created created, Settings.parser?_default, rfl, rfl, forall_not_mem_of_all (by decide),
    ⟨'a', by decide, by decide⟩, by decide, by decide, by decide +kernel, by decide +kernel⟩

/-- An operator within the token does not matter, and neither do blanks around the value. -/
theorem evaluate_assigned_operator :
    ∃ m : Manager, ∃ table, m.Reachable ∧
      Parser.ofValues (.int 32) (.text "%") = .ok m.parser ∧ m.resolver = some .static ∧
      Assignment.table [.text ("%hp > max%" ++ "=" ++ " no ")] = .ok table ∧
      (m.evaluate (FixedSubject.toSubject ⟨.text "subject", [], table⟩) (.text "%hp > max%")).1 =
        .ok true := by
  have created := Manager.create_default (some .static)
  have token : "%hp > max%".toList = '%' :: ("hp > max".toList ++ ['%']) := rfl
  obtain ⟨table, assigned, answers⟩ := evaluate_assigned (.created created)
    Settings.parser?_default rfl token (forall_not_mem_of_all (by decide)) (v := " no ") (by decide)
    (by decide)
  have answer := (answers (.text "subject") []).1
  rw [show normalizeString "%hp > max%" = "%hp > max%" by decide +kernel] at answer
  exact ⟨_, table, .created created, Settings.parser?_default, rfl, assigned, answer⟩

end Gatekeeper
