import Gatekeeper.Proofs.Completion

/-!
# Questions

An evaluation learns nothing of its subject and its resolver but the answers to the questions that it
asks. Where others answer these alike, or fail alike, it takes the same course: the same questions in the
same order, and the same end. All that is asked stands in the condition, and without a resolver only
permissions are asked for.
-/
namespace Gatekeeper

namespace Question

/-- Two subjects, each with its resolver, answer a question alike or fail alike. -/
def SameAnswer (subject : Subject) (resolver : Option Resolver) (subject' : Subject)
    (resolver' : Option Resolver) : Question → Prop
  | perm node => subject'.holds node = subject.holds node
  | attr token =>
    resolver'.map (fun resolve => resolve subject' token) =
      resolver.map fun resolve => resolve subject token

/-- One of the leaves asks the question. -/
def OccursIn (leaves : List Condition) : Question → Prop
  | perm node => ∃ negate, Condition.perm node negate ∈ leaves
  | attr token => ∃ operator expected, Condition.attr token operator expected ∈ leaves

theorem OccursIn.mono {leaves leaves' : List Condition} (sub : leaves ⊆ leaves') {q : Question}
    (h : q.OccursIn leaves) : q.OccursIn leaves' := by
  cases q with
  | perm node =>
    obtain ⟨negate, hm⟩ := h
    exact ⟨negate, sub hm⟩
  | attr token =>
    obtain ⟨operator, expected, hm⟩ := h
    exact ⟨operator, expected, sub hm⟩

end Question

namespace Condition

variable {subject subject' : Subject} {resolver resolver' : Option Resolver}

/-! ## The same course -/

theorem evaluate_attr_congr (both : resolver'.isSome = resolver.isSome) (token : Value)
    (operator : Option Operator) (expected : Option Value)
    (same : ∀ q ∈ (evaluate subject resolver (attr token operator expected)).asked,
      q.SameAnswer subject resolver subject' resolver') :
    evaluate subject' resolver' (attr token operator expected) =
      evaluate subject resolver (attr token operator expected) := by
  match resolver, resolver' with
  | none, none => rfl
  | some resolve, some resolve' =>
    have answer : resolve' subject' token = resolve subject token :=
      Option.some.inj (same (.attr token) (List.mem_singleton_self _))
    rw [evaluate, evaluate]
    simp only [answer]

mutual

theorem evaluate_congr (both : resolver'.isSome = resolver.isSome) (c : Condition)
    (same : ∀ q ∈ (evaluate subject resolver c).asked,
      q.SameAnswer subject resolver subject' resolver') :
    evaluate subject' resolver' c = evaluate subject resolver c := by
  match c with
  | perm node negate =>
    have answer : subject'.holds node = subject.holds node :=
      same (.perm node) (List.mem_singleton_self _)
    rw [evaluate, evaluate, answer]
  | attr token operator expected => exact evaluate_attr_congr both token operator expected same
  | group mode cs =>
    rw [evaluate_group] at same
    rw [evaluate_group, evaluate_group]
    exact evaluateEach_congr both mode cs same
  | not c =>
    rw [evaluate_not] at same
    rw [evaluate_not, evaluate_not, evaluate_congr both c same]

/-- The members behind the first one count only if they are reached, and then what they ask is asked. -/
theorem evaluateEach_congr (both : resolver'.isSome = resolver.isSome) (mode : Mode)
    (cs : List Condition)
    (same : ∀ q ∈ (evaluateEach subject resolver mode cs).asked,
      q.SameAnswer subject resolver subject' resolver') :
    evaluateEach subject' resolver' mode cs = evaluateEach subject resolver mode cs := by
  match cs with
  | [] => rfl
  | c :: cs =>
    rw [evaluateEach_cons] at same
    rw [evaluateEach_cons, evaluateEach_cons]
    rcases (evaluate subject resolver c).join_cases mode with ends | ⟨-, goesOn⟩
    · rw [ends] at same
      rw [evaluate_congr both c same, ends, ends]
    · rw [goesOn] at same
      have first := evaluate_congr both c fun q hq => same q (List.mem_append_left _ hq)
      have rest := evaluateEach_congr both mode cs fun q hq => same q (List.mem_append_right _ hq)
      rw [first, rest]

end

/-! ## What is asked -/

mutual

/-- Every question is asked by a leaf. -/
theorem exists_leaf_of_asked (c : Condition) {q : Question}
    (h : q ∈ (evaluate subject resolver c).asked) :
    ∃ leaf ∈ leaves c, leaf.isLeaf = true ∧ q ∈ (evaluate subject resolver leaf).asked := by
  match c with
  | perm .. | attr .. => exact ⟨_, List.mem_singleton_self _, rfl, h⟩
  | group mode cs =>
    rw [evaluate_group] at h
    rw [leaves]
    exact exists_leaf_of_askedEach mode cs h
  | not c =>
    rw [evaluate_not] at h
    rw [leaves]
    exact exists_leaf_of_asked c h

theorem exists_leaf_of_askedEach (mode : Mode) (cs : List Condition) {q : Question}
    (h : q ∈ (evaluateEach subject resolver mode cs).asked) :
    ∃ leaf ∈ leavesEach cs, leaf.isLeaf = true ∧ q ∈ (evaluate subject resolver leaf).asked := by
  match cs with
  | [] => cases h
  | c :: cs =>
    have parts : q ∈ (evaluate subject resolver c).asked ∨
        q ∈ (evaluateEach subject resolver mode cs).asked := by
      rw [evaluateEach_cons] at h
      rcases (evaluate subject resolver c).join_cases mode with ends | ⟨-, goesOn⟩
      · rw [ends] at h
        exact .inl h
      · rw [goesOn] at h
        exact List.mem_append.1 h
    rcases parts with h | h
    · obtain ⟨leaf, hl, asks⟩ := exists_leaf_of_asked c h
      exact ⟨leaf, List.mem_append_left _ hl, asks⟩
    · obtain ⟨leaf, hl, asks⟩ := exists_leaf_of_askedEach mode cs h
      exact ⟨leaf, List.mem_append_right _ hl, asks⟩

end

theorem occursIn_of_asked {c : Condition} {q : Question}
    (h : q ∈ (evaluate subject resolver c).asked) : q.OccursIn c.leaves := by
  obtain ⟨leaf, hl, isLeaf, asks⟩ := exists_leaf_of_asked c h
  match leaf, isLeaf with
  | perm node negate, _ =>
    obtain rfl := List.mem_singleton.1 asks
    exact ⟨negate, hl⟩
  | attr token operator expected, _ =>
    match resolver with
    | none => cases asks
    | some resolve =>
      obtain rfl := List.mem_singleton.1 asks
      exact ⟨operator, expected, hl⟩

/-- Without a resolver no attribute is asked for. -/
theorem exists_perm_of_asked {c : Condition} {q : Question}
    (h : q ∈ (evaluate subject none c).asked) : ∃ node, q = .perm node := by
  obtain ⟨leaf, -, isLeaf, asks⟩ := exists_leaf_of_asked c h
  match leaf, isLeaf with
  | perm node negate, _ => exact ⟨node, List.mem_singleton.1 asks⟩
  | attr .., _ => cases asks

/-- A second evaluation in which all questions of the first one are answered alike is the first one over
again. Only what stands in the condition is asked, and without a resolver only permissions are, so that
these decide alone. -/
theorem evaluate_depends_on_asked (c : Condition) :
    (∀ subject resolver subject' resolver', resolver'.isSome = resolver.isSome →
      (∀ q ∈ (c.evaluate subject resolver).asked,
        q.SameAnswer subject resolver subject' resolver') →
      (c.evaluate subject' resolver').asked = (c.evaluate subject resolver).asked ∧
        (c.evaluate subject' resolver').outcome = (c.evaluate subject resolver).outcome) ∧
    (∀ subject resolver, ∀ q ∈ (c.evaluate subject resolver).asked, q.OccursIn c.leaves) ∧
    (∀ subject, ∀ q ∈ (c.evaluate subject none).asked, ∃ node, q = .perm node) ∧
    ∀ subject subject' : Subject,
      (∀ node, (Question.perm node).OccursIn c.leaves → subject'.holds node = subject.holds node) →
      c.evaluate subject' none = c.evaluate subject none := by
  refine ⟨fun subject resolver subject' resolver' both same => ?_,
    fun subject resolver q h => occursIn_of_asked h, fun subject q h => exists_perm_of_asked h,
    fun subject subject' same => ?_⟩
  · rw [evaluate_congr both c same]
    exact ⟨rfl, rfl⟩
  · refine evaluate_congr rfl c fun q h => ?_
    obtain ⟨node, rfl⟩ := exists_perm_of_asked h
    exact same node (occursIn_of_asked h)

theorem evaluate_depends_on_asked_unreached :
    let vip : Condition := .perm "vip" (.bool false)
    let level : Condition := .attr (.text "%level%") (some .ge) (some (.text "10"))
    let c : Condition := .group .any [.group .all [vip, level], .not level, .perm "staff" (.bool false)]
    let subject : Subject := ⟨fun node => .ok (node == "staff"), none⟩
    let subject' : Subject :=
      ⟨fun node => if node = "vip" then .ok false else .error (.host "RuntimeError" "down"), none⟩
    let low : Resolver := fun _ _ => .ok (.text "9")
    (some low).isSome = (some low).isSome ∧
      (∀ q ∈ (c.evaluate subject (some low)).asked,
        q.SameAnswer subject (some low) subject' (some low)) ∧
      (c.evaluate subject' (some low)).asked = [.perm "vip", .attr (.text "%level%")] ∧
      (c.evaluate subject' (some low)).outcome = .ok true ∧
      (∀ node, (Question.perm node).OccursIn vip.leaves → subject'.holds node = subject.holds node) ∧
      vip.evaluate subject' none = vip.evaluate subject none := by
  intro vip level c subject subject' low
  have asked : (c.evaluate subject (some low)).asked = [.perm "vip", .attr (.text "%level%")] := by
    decide +kernel
  have same : ∀ q ∈ (c.evaluate subject (some low)).asked,
      q.SameAnswer subject (some low) subject' (some low) := by
    rw [asked, List.forall_mem_cons, List.forall_mem_singleton]
    exact ⟨rfl, rfl⟩
  have answer : (c.evaluate subject (some low)).outcome = .ok true := by decide +kernel
  have held : ∀ node, (Question.perm node).OccursIn vip.leaves →
      subject'.holds node = subject.holds node := by
    rintro node ⟨negate, hm⟩
    obtain ⟨rfl, -⟩ := Condition.perm.inj (List.mem_singleton.1 hm)
    rfl
  obtain ⟨course, -⟩ := evaluate_depends_on_asked c
  obtain ⟨-, -, -, bare⟩ := evaluate_depends_on_asked vip
  obtain ⟨again, settled⟩ := course subject (some low) subject' (some low) rfl same
  exact ⟨rfl, same, again.trans asked, settled.trans answer, held, bare subject subject' held⟩

end Condition

end Gatekeeper
