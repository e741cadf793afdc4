import Gatekeeper.Proofs.Evaluation
import Mathlib.Data.List.Forall2
import Mathlib.Data.List.Perm.Basic

/-!
# Completions

What an evaluation that stops early says of the leaves it has not asked. A completion of a condition
answers all its leaves, and those that a fault ends in either way. The answer of an evaluation is the
value of every completion, so it does not depend on the order in which members of groups stand.
-/
namespace Gatekeeper

namespace Mode

/-- The answer of a group from the answers of all its members. -/
def joins : Mode → List Bool → Bool
  | all, answers => answers.all id
  | any, answers => answers.any id

theorem joins_cons (mode : Mode) (answer : Bool) (answers : List Bool) :
    mode.joins (answer :: answers) =
      if answer = mode.decisive then answer else mode.joins answers := by
  cases mode <;> cases answer <;> simp [joins, decisive]

theorem joins_perm (mode : Mode) {answers answers' : List Bool} (h : answers.Perm answers') :
    mode.joins answers = mode.joins answers' := by
  rw [Bool.eq_iff_iff]
  cases mode <;> simp [joins, h.mem_iff]

end Mode

/-- What a condition becomes when every leaf is replaced by an answer. -/
inductive Formula where
  | answer (b : Bool)
  | group (mode : Mode) (members : List Formula)
  | not (f : Formula)

namespace Formula

mutual

/-- The value of the whole formula, to which every member of a group counts. -/
def value : Formula → Bool
  | answer b => b
  | group mode fs => mode.joins (values fs)
  | not f => !value f

def values : List Formula → List Bool
  | [] => []
  | f :: fs => value f :: values fs

end

theorem values_eq_map (fs : List Formula) : values fs = fs.map value := by
  induction fs with
  | nil => rfl
  | cons f fs ih => rw [values, ih, List.map_cons]

end Formula

namespace Condition

def isLeaf : Condition → Bool
  | perm .. | attr .. => true
  | group .. | not _ => false

mutual

/-- All leaves of a condition, from left to right. -/
def leaves : Condition → List Condition
  | group _ cs => leavesEach cs
  | not c => leaves c
  | leaf => [leaf]

def leavesEach : List Condition → List Condition
  | [] => []
  | c :: cs => leaves c ++ leavesEach cs

end

/-- The formulas that a condition may become: a leaf is replaced by its answer, and a leaf with a fault
by either answer, wherever it occurs. -/
inductive Completes (subject : Subject) (resolver : Option Resolver) : Condition → Formula → Prop where
  | leaf {c : Condition} {b : Bool} (hl : c.isLeaf = true)
      (h : c.Raises subject resolver ∨ (c.evaluate subject resolver).outcome = .ok b) :
      Completes subject resolver c (.answer b)
  | group {mode : Mode} {cs : List Condition} {fs : List Formula}
      (each : List.Forall₂ (Completes subject resolver) cs fs) :
      Completes subject resolver (.group mode cs) (.group mode fs)
  | not {c : Condition} {f : Formula} (h : Completes subject resolver c f) :
      Completes subject resolver (.not c) (.not f)

/-- Two conditions that differ at most in the order of the members of their groups, at any depth. -/
inductive Reordered : Condition → Condition → Prop where
  | refl (c : Condition) : Reordered c c
  | group {mode : Mode} {cs cs' cs'' : List Condition} (each : List.Forall₂ Reordered cs cs')
      (order : cs'.Perm cs'') : Reordered (.group mode cs) (.group mode cs'')
  | not {c c' : Condition} (h : Reordered c c') : Reordered (.not c) (.not c')

variable {subject : Subject} {resolver : Option Resolver}

theorem outcome_not_eq_ok_iff (c : Condition) (b : Bool) :
    (evaluate subject resolver (.not c)).outcome = .ok b ↔
      (evaluate subject resolver c).outcome = .ok !b := by
  rw [evaluate_not, Evaluation.outcome_negate_eq_ok_iff]

/-! ## Answers and completions -/

mutual

theorem exists_completes (subject : Subject) (resolver : Option Resolver) (c : Condition) :
    ∃ f, Completes subject resolver c f := by
  match c with
  | perm .. | attr .. =>
    cases ho : (evaluate subject resolver _).outcome with
    | ok b => exact ⟨.answer b, .leaf rfl (.inr ho)⟩
    | error fault => exact ⟨.answer false, .leaf rfl (.inl ⟨fault, ho⟩)⟩
  | group mode cs =>
    obtain ⟨fs, each⟩ := exists_completesEach subject resolver cs
    exact ⟨.group mode fs, .group each⟩
  | not c =>
    obtain ⟨f, hf⟩ := exists_completes subject resolver c
    exact ⟨.not f, .not hf⟩

theorem exists_completesEach (subject : Subject) (resolver : Option Resolver)
    (cs : List Condition) : ∃ fs, List.Forall₂ (Completes subject resolver) cs fs := by
  match cs with
  | [] => exact ⟨[], .nil⟩
  | c :: cs =>
    obtain ⟨f, hf⟩ := exists_completes subject resolver c
    obtain ⟨fs, each⟩ := exists_completesEach subject resolver cs
    exact ⟨f :: fs, .cons hf each⟩

end

mutual

/-- An answer is the value of every completion: what the evaluation passed over could not change it. -/
theorem value_of_outcome {b : Bool} {f : Formula} (c : Condition)
    (hf : Completes subject resolver c f)
    (h : (evaluate subject resolver c).outcome = .ok b) : f.value = b := by
  match c with
  | perm .. | attr .. =>
    cases hf with
    | leaf _ hb =>
      rcases hb with ⟨fault, hx⟩ | hb
      · rw [h] at hx
        cases hx
      · rw [h] at hb
        exact (Except.ok.inj hb).symm
  | group mode cs =>
    cases hf with
    | leaf hl => cases hl
    | group each =>
      rw [evaluate_group] at h
      exact joins_of_outcome mode cs each h
  | not c =>
    cases hf with
    | leaf hl => cases hl
    | not hf =>
      rw [Formula.value, value_of_outcome c hf ((outcome_not_eq_ok_iff c b).1 h), Bool.not_not]

theorem joins_of_outcome {b : Bool} {fs : List Formula} (mode : Mode) (cs : List Condition)
    (each : List.Forall₂ (Completes subject resolver) cs fs)
    (h : (evaluateEach subject resolver mode cs).outcome = .ok b) :
    mode.joins (Formula.values fs) = b := by
  match cs with
  | [] =>
    cases each
    rw [← Except.ok.inj h]
    cases mode <;> rfl
  | c :: cs =>
    cases each with
    | cons hf each =>
      rw [outcome_evaluateEach_cons] at h
      rw [Formula.values, Mode.joins_cons]
      cases ho : (evaluate subject resolver c).outcome with
      | error fault =>
        rw [ho] at h
        cases h
      | ok answer =>
        rw [ho, Except.bind] at h
        rw [value_of_outcome c hf ho]
        split
        · next decisive =>
          rw [if_pos decisive] at h
          exact Except.ok.inj h
        · next other =>
          rw [if_neg other] at h
          exact joins_of_outcome mode cs each h

end

/-! ## The order of members -/

mutual

/-- A completion of a condition gives one of the same value for any other order of members. -/
theorem Completes.reordered {c' : Condition} {f : Formula} (c : Condition) (h : Reordered c c')
    (hf : Completes subject resolver c f) :
    ∃ f', Completes subject resolver c' f' ∧ f'.value = f.value := by
  match c with
  | .perm .. | .attr .. =>
    cases h with
    | refl => exact ⟨f, hf, rfl⟩
  | .group mode cs =>
    cases h with
    | refl => exact ⟨f, hf, rfl⟩
    | group each order =>
      cases hf with
      | leaf hl => cases hl
      | group hfs =>
        obtain ⟨fs', hfs', same⟩ := Completes.reorderedEach cs each hfs
        obtain ⟨fs'', hfs'', order'⟩ := List.perm_comp_forall₂ order.symm hfs'
        refine ⟨.group mode fs'', .group hfs'', ?_⟩
        rw [Formula.value, Formula.value, ← same, Formula.values_eq_map, Formula.values_eq_map]
        exact mode.joins_perm (order'.map _)
  | .not c =>
    cases h with
    | refl => exact ⟨f, hf, rfl⟩
    | not h =>
      cases hf with
      | leaf hl => cases hl
      | not hf =>
        obtain ⟨f', hf', same⟩ := Completes.reordered c h hf
        exact ⟨.not f', .not hf', by rw [Formula.value, Formula.value, same]⟩

theorem Completes.reorderedEach {cs' : List Condition} {fs : List Formula} (cs : List Condition)
    (each : List.Forall₂ Reordered cs cs')
    (hfs : List.Forall₂ (Completes subject resolver) cs fs) :
    ∃ fs', List.Forall₂ (Completes subject resolver) cs' fs' ∧
      Formula.values fs' = Formula.values fs := by
  match cs with
  | [] =>
    cases each
    exact ⟨fs, hfs, rfl⟩
  | c :: cs =>
    cases each with
    | cons h each =>
      cases hfs with
      | cons hf hfs =>
        obtain ⟨f', hf', same⟩ := Completes.reordered c h hf
        obtain ⟨fs', hfs', sameEach⟩ := Completes.reorderedEach cs each hfs
        exact ⟨f' :: fs', .cons hf' hfs', by rw [Formula.values, Formula.values, same, sameEach]⟩

end

/-! ## Leaves -/

mutual

theorem visited_subset (c : Condition) : visited subject resolver c ⊆ leaves c := by
  match c with
  | perm .. | attr .. => exact List.Subset.refl _
  | group mode cs =>
    rw [visited, leaves]
    exact visitedEach_subset mode cs
  | not c =>
    rw [visited, leaves]
    exact visited_subset c

theorem visitedEach_subset (mode : Mode) (cs : List Condition) :
    visitedEach subject resolver mode cs ⊆ leavesEach cs := by
  match cs with
  | [] => exact List.Subset.refl _
  | c :: cs =>
    rw [visitedEach, leavesEach]
    refine List.append_subset.2 ⟨List.subset_append_of_subset_left _ (visited_subset c), ?_⟩
    refine List.subset_append_of_subset_right _ ?_
    split
    · exact List.nil_subset _
    · split
      · exact List.nil_subset _
      · exact visitedEach_subset mode cs

end

/-- An evaluation that answers gives the value that the whole formula has whatever the leaves with
faults would answer; it answers if there are none, and it never gives another answer when the members
of groups stand in another order. -/
theorem evaluate_settles (subject : Subject) (resolver : Option Resolver) (c : Condition) :
    (∀ b, (c.evaluate subject resolver).outcome = .ok b →
      (∃ f, c.Completes subject resolver f) ∧ ∀ f, c.Completes subject resolver f → f.value = b) ∧
    ((∀ leaf ∈ c.leaves, ¬leaf.Raises subject resolver) →
      ∃ b, (c.evaluate subject resolver).outcome = .ok b) ∧
    ∀ c', Reordered c c' → ∀ b b', (c.evaluate subject resolver).outcome = .ok b →
      (c'.evaluate subject resolver).outcome = .ok b' → b = b' := by
  refine ⟨fun b h => ⟨exists_completes subject resolver c, fun f hf => value_of_outcome c hf h⟩,
    fun calm => ?_, fun c' order b b' h h' => ?_⟩
  · cases ho : (c.evaluate subject resolver).outcome with
    | ok b => exact ⟨b, rfl⟩
    | error fault =>
      obtain ⟨leaf, hl, raises⟩ := (raises_iff_visited subject resolver c).1 ⟨fault, ho⟩
      exact absurd raises (calm leaf (visited_subset c hl))
  · obtain ⟨f, hf⟩ := exists_completes subject resolver c
    obtain ⟨f', hf', same⟩ := hf.reordered c order
    rw [← value_of_outcome c hf h, ← value_of_outcome c' hf' h', same]

theorem evaluate_settles_unasked :
    let subject : Subject :=
      ⟨fun node => if node = "vip" then .ok true else .error (.host "RuntimeError" "down"), none⟩
    let vip : Condition := .perm "vip" (.bool false)
    let down : Condition := .perm "down" (.bool false)
    let last : Condition := .group .any [.not vip, vip, down]
    let first : Condition := .group .any [vip, down, .not vip]
    down.Raises subject none ∧ Reordered last first ∧
      (last.evaluate subject none).outcome = .ok true ∧
      (first.evaluate subject none).outcome = .ok true ∧
      (∀ f, last.Completes subject none f → f.value = true) ∧
      (∀ b, (first.evaluate subject none).outcome = .ok b → true = b) ∧
      ∃ b, ((Condition.not vip).evaluate subject none).outcome = .ok b := by
  intro subject vip down last first
  have order : Reordered last first := by
    refine .group (List.forall₂_same.2 fun c _ => .refl c) ?_
    exact @List.perm_append_comm _ [.not vip] [vip, down]
  have answer : (last.evaluate subject none).outcome = .ok true := rfl
  have calm : ∀ leaf ∈ (Condition.not vip).leaves, ¬leaf.Raises subject none := by
    intro leaf hl
    obtain rfl := List.mem_singleton.1 hl
    rintro ⟨fault, hf⟩
    cases hf
  have settled := evaluate_settles subject none last
  exact ⟨⟨_, rfl⟩, order, answer, rfl, (settled.1 true answer).2,
    fun b => settled.2.2 first order true b answer, (evaluate_settles subject none (.not vip)).2.1 calm⟩

end Condition

end Gatekeeper
