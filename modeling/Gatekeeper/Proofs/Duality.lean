import Gatekeeper.Proofs.Evaluation
import Gatekeeper.Proofs.Grammar

/-!
# Duality

The dual of a condition exchanges the two kinds of groups and denies every leaf. It asks just the same
questions as the condition and comes to the opposite answer or to the same fault, and so does the denied
condition. A denied group may therefore be written as the other group of its denied members, and an
exclamation mark as a denied permission, wherever they stand.
-/
namespace Gatekeeper

def Mode.dual : Mode → Mode
  | all => any
  | any => all

namespace Evaluation

/-- A group that is turned around is the other group of what is turned around. -/
theorem negate_join (mode : Mode) (first rest : Evaluation) :
    (join mode first rest).negate = join mode.dual first.negate rest.negate := by
  obtain ⟨asked, outcome⟩ := first
  cases outcome with
  | error fault => rfl
  | ok answer => cases mode <;> cases answer <;> rfl

/-- The same questions, and the opposite answer or the same fault. -/
structure Opposes (e e' : Evaluation) : Prop where
  asked : e'.asked = e.asked
  answer : ∀ b, e'.outcome = .ok b ↔ e.outcome = .ok !b
  fault : ∀ fault, e'.outcome = .error fault ↔ e.outcome = .error fault

theorem opposes_negate (e : Evaluation) : e.Opposes e.negate :=
  ⟨rfl, e.outcome_negate_eq_ok_iff, e.outcome_negate_eq_error_iff⟩

end Evaluation

namespace Condition

mutual

def dual : Condition → Condition
  | perm node negate => perm node (.bool !negate.holds)
  | attr token operator expected => not (attr token operator expected)
  | group mode cs => group mode.dual (dualEach cs)
  | not c => not (dual c)

def dualEach : List Condition → List Condition
  | [] => []
  | c :: cs => dual c :: dualEach cs

end

/-! ## Evaluating the dual -/

theorem evaluate_perm_not (subject : Subject) (resolver : Option Resolver) (node : String)
    (negate : Value) :
    evaluate subject resolver (perm node (.bool !negate.holds)) =
      (evaluate subject resolver (perm node negate)).negate := by
  have holds (b : Bool) : (Value.bool b).holds = b := rfl
  simp only [evaluate, Evaluation.negate, holds]
  cases subject.holds node with
  | error fault => rfl
  | ok answer => cases answer <;> cases negate.holds <;> rfl

mutual

theorem evaluate_dual_eq (subject : Subject) (resolver : Option Resolver) (c : Condition) :
    evaluate subject resolver c.dual = (evaluate subject resolver c).negate := by
  match c with
  | perm node negate =>
    rw [dual]
    exact evaluate_perm_not subject resolver node negate
  | attr token operator expected => rw [dual, evaluate_not]
  | group mode cs =>
    rw [dual, evaluate_group, evaluate_group]
    exact evaluateEach_dualEach subject resolver mode cs
  | not c => rw [dual, evaluate_not, evaluate_not, evaluate_dual_eq subject resolver c]

theorem evaluateEach_dualEach (subject : Subject) (resolver : Option Resolver) (mode : Mode)
    (cs : List Condition) :
    evaluateEach subject resolver mode.dual (dualEach cs) =
      (evaluateEach subject resolver mode cs).negate := by
  match cs with
  | [] => cases mode <;> rfl
  | c :: cs =>
    rw [dualEach, evaluateEach_cons, evaluateEach_cons, evaluate_dual_eq subject resolver c,
      evaluateEach_dualEach subject resolver mode cs, Evaluation.negate_join]

end

/-! ## Interchangeable conditions -/

/-- No subject and no resolver tells the two conditions apart. -/
def Interchangeable (c c' : Condition) : Prop :=
  ∀ subject resolver, evaluate subject resolver c = evaluate subject resolver c'

/-- The second condition is the first one with `c'` in one place of `c`. -/
inductive Replaced (c c' : Condition) : Condition → Condition → Prop where
  | here : Replaced c c' c c'
  | member {mode : Mode} {d d' : Condition} (before after : List Condition)
      (h : Replaced c c' d d') :
      Replaced c c' (.group mode (before ++ d :: after)) (.group mode (before ++ d' :: after))
  | not {d d' : Condition} (h : Replaced c c' d d') : Replaced c c' (.not d) (.not d')

theorem evaluateEach_replaced {subject : Subject} {resolver : Option Resolver} {c c' : Condition}
    (h : evaluate subject resolver c = evaluate subject resolver c') (mode : Mode)
    (before after : List Condition) :
    evaluateEach subject resolver mode (before ++ c :: after) =
      evaluateEach subject resolver mode (before ++ c' :: after) := by
  induction before with
  | nil => rw [List.nil_append, List.nil_append, evaluateEach_cons, evaluateEach_cons, h]
  | cons d before ih =>
    rw [List.cons_append, List.cons_append, evaluateEach_cons, evaluateEach_cons, ih]

/-- What is interchangeable may be exchanged in any place. -/
theorem Interchangeable.replaced {c c' d d' : Condition} (h : Interchangeable c c')
    (place : Replaced c c' d d') : Interchangeable d d' := by
  intro subject resolver
  induction place with
  | here => exact h subject resolver
  | member before after _ ih =>
    rw [evaluate_group, evaluate_group]
    exact evaluateEach_replaced ih _ before after
  | not _ ih => rw [evaluate_not, evaluate_not, ih]

/-- A denied group is the other group of its denied members. -/
theorem interchangeable_not_group (mode : Mode) (cs : List Condition) :
    Interchangeable (.not (.group mode cs)) (.group mode.dual (cs.map .not)) := by
  intro subject resolver
  rw [evaluate_not, evaluate_group, evaluate_group]
  induction cs with
  | nil => cases mode <;> rfl
  | cons c cs ih =>
    rw [List.map_cons, evaluateEach_cons, evaluateEach_cons, evaluate_not, Evaluation.negate_join, ih]

theorem interchangeable_perm (node : String) :
    Interchangeable (.perm node (.bool true)) (.not (.perm node (.bool false))) := by
  intro subject resolver
  rw [evaluate_not]
  exact evaluate_perm_not subject resolver node (.bool false)

end Condition

namespace Grammar

open Text Gatekeeper.Parser Condition

/-! ## Denied permissions as texts -/

section

variable {mark node : List Char} (h : IsNode node)

include h

theorem IsNode.isNormal : IsNormal node :=
  isNormal_of_ink fun c hc => (h.2 c hc).1

theorem IsNode.isNormal_held : IsNormal ("permission".toList ++ ' ' :: node) :=
  IsNormal.append_space rfl (by decide) h.isNormal h.1

theorem derives_lacked : Derives mark ('!' :: node) (perm (String.ofList node) (.bool true)) := by
  have bare : String.ofList (lower ('!' :: node)) ∉ keywords :=
    lower_not_mem_keywords (List.mem_cons_self ..) (by decide)
  have keyword (back : List Char) : ¬StartsWith ["not"] ('!' :: node) back := fun hs =>
    hs.head_ne (by decide) (by decide) rfl
  have lacked : Permission ('!' :: ([] ++ node)) _ := .lacked (by simp) h
  refine .leaf ?_ ?_ bare keyword (.lacked rfl lacked)
  · simpa using fun hm => (h.2 _ hm).2.1 rfl
  · simpa using fun hm => (h.2 _ hm).2.2.1 rfl

variable (first : node.head? ≠ some '!')

include first

theorem derives_held :
    Derives mark ("permission".toList ++ ' ' :: node) (perm (String.ofList node) (.bool false)) := by
  have starts : StartsWith ["permission", "perm"] ("permission".toList ++ ' ' :: node) node :=
    ⟨"permission", by simp, _, ' ', by simp [Spells, isFormOf], isBlank_space, rfl⟩
  have bare : String.ofList (lower ("permission".toList ++ ' ' :: node)) ∉ keywords :=
    lower_not_mem_keywords (c := ' ') (by simp) (by decide)
  have keyword (back : List Char) :
      ¬StartsWith ["not"] ("permission".toList ++ ' ' :: node) back :=
    starts.disjoint (by decide) (by decide) (by decide)
  refine .leaf ?_ ?_ bare keyword (.permission starts (.held h first))
  · simpa using fun hm => (h.2 _ hm).2.1 rfl
  · simpa using fun hm => (h.2 _ hm).2.2.1 rfl

theorem derives_denied :
    Derives mark ("not".toList ++ ' ' :: ("permission".toList ++ ' ' :: node))
      (.not (perm (String.ofList node) (.bool false))) := by
  have starts : StartsWith ["not"] ("not".toList ++ ' ' :: ("permission".toList ++ ' ' :: node))
      ("permission".toList ++ ' ' :: node) :=
    ⟨"not", by simp, _, ' ', by simp [Spells, isFormOf], isBlank_space, rfl⟩
  refine .not starts ?_
  rw [h.isNormal_held]
  exact derives_held h first

end

/-- A node behind an exclamation mark is read as the permission that must not be held, and behind `not`
as the denied permission. -/
theorem parse_denials {limit : DepthLimit} (levels : 2 ≤ limit.levels) (mark : String) {node : String}
    (h : IsNode node.toList) (first : node.toList.head? ≠ some '!') :
    Parser.parse ⟨limit, .ofValue (.text mark)⟩ ("!" ++ node) = .ok (.perm node (.bool true)) ∧
      Parser.parse ⟨limit, .ofValue (.text mark)⟩ ("not permission " ++ node) =
        .ok (.not (.perm node (.bool false))) := by
  have lacked : Derives mark.toList _ _ := derives_lacked h
  have denied : Derives mark.toList _ _ := derives_denied h first
  rw [String.ofList_toList] at lacked denied
  constructor
  · have text : ("!" ++ node).toList = '!' :: node.toList := by simp
    have normal : IsNormal ('!' :: node.toList) :=
      isNormal_of_ink (List.forall_mem_cons.2 ⟨by decide, fun c hc => (h.2 c hc).1⟩)
    refine parse_complete (Nat.le_of_succ_le levels) ?_
    rwa [text, normal]
  · have text : ("not permission " ++ node).toList =
        "not".toList ++ ' ' :: ("permission".toList ++ ' ' :: node.toList) := by simp
    have normal : IsNormal ("not".toList ++ ' ' :: ("permission".toList ++ ' ' :: node.toList)) :=
      IsNormal.append_space rfl (by decide) h.isNormal_held (by simp)
    refine parse_complete levels ?_
    rwa [text, normal]

end Grammar

namespace Condition

open Grammar

/-- The dual of a condition and the denied condition ask what the condition asks, and answer the opposite
or fail alike. So a denied group is interchangeable with the other group of its denied members, and a node
behind an exclamation mark with the denied permission, in any place of a condition. -/
theorem evaluate_dual (c : Condition) :
    (∀ subject resolver,
      (c.evaluate subject resolver).Opposes (c.dual.evaluate subject resolver) ∧
      (c.evaluate subject resolver).Opposes ((Condition.not c).evaluate subject resolver)) ∧
    (∀ mode cs, Interchangeable (.not (.group mode cs)) (.group mode.dual (cs.map .not))) ∧
    (∀ (limit : DepthLimit) (mark node : String), 2 ≤ limit.levels → IsNode node.toList →
      node.toList.head? ≠ some '!' →
      ∃ lacked denied,
        Parser.parse ⟨limit, .ofValue (.text mark)⟩ ("!" ++ node) = .ok lacked ∧
        Parser.parse ⟨limit, .ofValue (.text mark)⟩ ("not permission " ++ node) = .ok denied ∧
        Interchangeable lacked denied) ∧
    ∀ d d' t t', Interchangeable d d' → Replaced d d' t t' → Interchangeable t t' := by
  refine ⟨fun subject resolver => ⟨?_, ?_⟩, interchangeable_not_group, ?_,
    fun d d' t t' h place => h.replaced place⟩
  · rw [evaluate_dual_eq]
    exact Evaluation.opposes_negate _
  · rw [evaluate_not]
    exact Evaluation.opposes_negate _
  · intro limit mark node levels h first
    obtain ⟨lacked, denied⟩ := parse_denials levels mark h first
    exact ⟨_, _, lacked, denied, interchangeable_perm node⟩

theorem evaluate_dual_within :
    let vip : Condition := .perm "vip" (.bool false)
    let level : Condition := .attr (.text "%level%") (some .ge) (some (.text "10"))
    IsNode "fly".toList ∧
      (∀ subject resolver,
        ((Condition.group .any [vip, level]).evaluate subject resolver).Opposes
          ((Condition.group .all [.perm "vip" (.bool true), .not level]).evaluate subject resolver)) ∧
      ∃ lacked denied,
        Parser.parse ⟨⟨2, "2"⟩, .ofValue (.text "%")⟩ "!fly" = .ok lacked ∧
        Parser.parse ⟨⟨2, "2"⟩, .ofValue (.text "%")⟩ "not permission fly" = .ok denied ∧
        Interchangeable (.group .any [vip, .not lacked]) (.group .any [vip, .not denied]) := by
  intro vip level
  have node : IsNode "fly".toList := (isNode_iff _).2 ⟨by decide, by decide⟩
  obtain ⟨duals, -, texts, places⟩ := evaluate_dual (.group .any [vip, level])
  obtain ⟨lacked, denied, hl, hd, same⟩ := texts ⟨2, "2"⟩ "%" "fly" (by decide) node (by decide)
  refine ⟨node, fun subject resolver => (duals subject resolver).1, lacked, denied, hl, hd, ?_⟩
  exact places lacked denied _ _ same (.member [vip] [] (.not .here))

end Condition

end Gatekeeper
