import Gatekeeper.Condition.Evaluation
import Gatekeeper.Proofs.Outcome

/-!
# Evaluations

How the evaluation of a group comes from those of its members, which leaves an evaluation reaches, and
that an evaluation fails just when such a leaf has a fault. A fault that does not come from the host
application can always be told.
-/
namespace Gatekeeper

namespace Fault

/-- Who asks for the message gets it. -/
def IsTold (fault : Fault) : Prop :=
  ∃ message, fault.message? = .ok message

theorem isTold_of_plain? {v : Value} {fault : Fault} (h : v.plain? = .error fault) : fault.IsTold := by
  rw [Value.plain?] at h
  split at h
  · cases h
  · obtain rfl := Except.error.inj h
    exact ⟨_, rfl⟩

theorem isTold_of_number? {v : Value} {fault : Fault} (h : Operator.number? v = .error fault) :
    fault.IsTold := by
  rw [Operator.number?.eq_def] at h
  split at h
  · cases h
  · rcases (bind_eq_error_iff ..).1 h with hp | ⟨text, -, hn⟩
    · exact isTold_of_plain? hp
    · obtain ⟨numeral, -, rfl⟩ := (mapError_eq_error_iff ..).1 hn
      exact ⟨_, rfl⟩

theorem isTold_of_static {subject : Subject} {token : Value} {fault : Fault}
    (h : Resolver.static subject token = .error fault) : fault.IsTold := by
  rw [Resolver.static] at h
  split at h
  · cases h
  · rcases (bind_eq_error_iff ..).1 h with ht | ⟨v, -, h⟩
    · obtain ⟨m, -, rfl⟩ := (mapError_eq_error_iff ..).1 ht
      exact ⟨_, rfl⟩
    · split at h
      · cases h
      · rcases (bind_eq_error_iff ..).1 h with hp | ⟨text, -, h⟩
        · exact isTold_of_plain? hp
        · cases h

/-- What a comparison fails of can be told. -/
theorem isTold_of_compare {op : Operator} {left right : Value} {fault : Fault}
    (h : op.compare left right = .error fault) : fault.IsTold := by
  rcases (bind_eq_error_iff ..).1 h with hl | ⟨a, -, h⟩
  · exact isTold_of_number? hl
  · rcases (bind_eq_error_iff ..).1 h with hr | ⟨b, -, h⟩
    · exact isTold_of_number? hr
    · cases a <;> cases b <;> cases h

theorem isTold_of_decideAttribute {token actual : Value} {op : Option Operator}
    {expected : Option Value} {fault : Fault}
    (h : decideAttribute token op expected actual = .error fault) : fault.IsTold := by
  rw [decideAttribute.eq_def] at h
  dsimp only at h
  split at h
  · exact isTold_of_compare h
  · cases h

end Fault

namespace Evaluation

/-- The evaluation of a group from that of its first member and that of the members behind it. -/
def join (mode : Mode) (first rest : Evaluation) : Evaluation :=
  match first.outcome with
  | .error fault => ⟨first.asked, .error fault⟩
  | .ok answer =>
    if answer = mode.decisive then ⟨first.asked, .ok answer⟩ else rest.after first.asked

/-- A first member that is decisive or fails is all there is of the group, and any other one leaves it
to the members behind it. -/
theorem join_cases (mode : Mode) (first : Evaluation) :
    (∀ rest, join mode first rest = first) ∨
      (first.outcome = .ok (!mode.decisive) ∧
        ∀ rest, join mode first rest = rest.after first.asked) := by
  obtain ⟨asked, outcome⟩ := first
  cases outcome with
  | error fault => exact .inl fun rest => rfl
  | ok answer =>
    by_cases h : answer = mode.decisive
    · exact .inl fun rest => if_pos h
    · exact .inr ⟨congrArg Except.ok (Bool.eq_not_of_ne h), fun rest => if_neg h⟩

theorem outcome_join (mode : Mode) (first rest : Evaluation) :
    (join mode first rest).outcome =
      first.outcome.bind fun answer => if answer = mode.decisive then .ok answer else rest.outcome := by
  rw [join]
  split
  · next fault he => rw [he, Except.bind]
  · next answer he =>
    rw [he, Except.bind]
    split <;> rfl

theorem outcome_negate_eq_ok_iff (e : Evaluation) (b : Bool) :
    e.negate.outcome = .ok b ↔ e.outcome = .ok !b := by
  rw [negate]
  cases e.outcome with
  | error fault => simp [Except.map]
  | ok answer => cases answer <;> cases b <;> simp [Except.map]

theorem outcome_negate_eq_error_iff (e : Evaluation) (fault : Fault) :
    e.negate.outcome = .error fault ↔ e.outcome = .error fault := by
  rw [negate]
  cases e.outcome <;> simp [Except.map]

end Evaluation

namespace Condition

theorem evaluate_group (subject : Subject) (resolver : Option Resolver) (mode : Mode)
    (cs : List Condition) :
    evaluate subject resolver (group mode cs) = evaluateEach subject resolver mode cs := by
  rw [evaluate]

theorem evaluate_not (subject : Subject) (resolver : Option Resolver) (c : Condition) :
    evaluate subject resolver (not c) = (evaluate subject resolver c).negate := by
  rw [evaluate]

theorem evaluateEach_cons (subject : Subject) (resolver : Option Resolver) (mode : Mode)
    (c : Condition) (cs : List Condition) :
    evaluateEach subject resolver mode (c :: cs) =
      (evaluate subject resolver c).join mode (evaluateEach subject resolver mode cs) := by
  rw [evaluateEach]
  rfl

/-- A member that is decided otherwise leaves the group to the members behind it. -/
theorem outcome_evaluateEach_cons (subject : Subject) (resolver : Option Resolver) (mode : Mode)
    (c : Condition) (cs : List Condition) :
    (evaluateEach subject resolver mode (c :: cs)).outcome =
      (evaluate subject resolver c).outcome.bind fun answer =>
        if answer = mode.decisive then .ok answer
        else (evaluateEach subject resolver mode cs).outcome := by
  rw [evaluateEach_cons, Evaluation.outcome_join]

mutual

/-- The leaves that an evaluation decides, from left to right. -/
def visited (subject : Subject) (resolver : Option Resolver) : Condition → List Condition
  | group mode cs => visitedEach subject resolver mode cs
  | not c => visited subject resolver c
  | leaf => [leaf]

def visitedEach (subject : Subject) (resolver : Option Resolver) (mode : Mode) :
    List Condition → List Condition
  | [] => []
  | c :: cs =>
    visited subject resolver c ++
      match (evaluate subject resolver c).outcome with
      | .error _ => []
      | .ok answer => if answer = mode.decisive then [] else visitedEach subject resolver mode cs

end

mutual

/-- An evaluation fails with the fault of a leaf that it decides. -/
theorem exists_visited_fault {subject : Subject} {resolver : Option Resolver} {fault : Fault}
    (c : Condition) (h : (evaluate subject resolver c).outcome = .error fault) :
    ∃ leaf ∈ visited subject resolver c, (evaluate subject resolver leaf).outcome = .error fault := by
  match c with
  | perm .. | attr .. => exact ⟨_, List.mem_singleton_self _, h⟩
  | group mode cs =>
    rw [evaluate_group] at h
    rw [visited]
    exact exists_visitedEach_fault mode cs h
  | not c =>
    rw [evaluate_not, Evaluation.outcome_negate_eq_error_iff] at h
    rw [visited]
    exact exists_visited_fault c h

theorem exists_visitedEach_fault {subject : Subject} {resolver : Option Resolver} {fault : Fault}
    (mode : Mode) (cs : List Condition)
    (h : (evaluateEach subject resolver mode cs).outcome = .error fault) :
    ∃ leaf ∈ visitedEach subject resolver mode cs,
      (evaluate subject resolver leaf).outcome = .error fault := by
  match cs with
  | [] => cases h
  | c :: cs =>
    rw [outcome_evaluateEach_cons] at h
    rcases (bind_eq_error_iff ..).1 h with he | ⟨answer, he, h⟩
    · obtain ⟨leaf, hl, hf⟩ := exists_visited_fault c he
      exact ⟨leaf, List.mem_append_left _ hl, hf⟩
    · split at h
      · cases h
      · next ha =>
        obtain ⟨leaf, hl, hf⟩ := exists_visitedEach_fault mode cs h
        refine ⟨leaf, List.mem_append_right _ ?_, hf⟩
        rw [he]
        simpa only [if_neg ha] using hl

end

/-- No leaf that the evaluation decides has a fault. -/
def Faultless (subject : Subject) (resolver : Option Resolver) (c : Condition) : Prop :=
  ∀ leaf ∈ visited subject resolver c,
    ∃ answer, (evaluate subject resolver leaf).outcome = .ok answer

theorem Faultless.exists_answer {subject : Subject} {resolver : Option Resolver} {c : Condition}
    (h : Faultless subject resolver c) :
    ∃ answer, (evaluate subject resolver c).outcome = .ok answer := by
  match ho : (evaluate subject resolver c).outcome with
  | .ok answer => exact ⟨answer, rfl⟩
  | .error fault =>
    obtain ⟨leaf, hl, hf⟩ := exists_visited_fault c ho
    obtain ⟨answer, ha⟩ := h leaf hl
    rw [hf] at ha
    cases ha

/-- A fault ends the evaluation. -/
def Raises (subject : Subject) (resolver : Option Resolver) (c : Condition) : Prop :=
  ∃ fault, (c.evaluate subject resolver).outcome = .error fault

instance (subject : Subject) (resolver : Option Resolver) (c : Condition) :
    Decidable (c.Raises subject resolver) :=
  match h : (c.evaluate subject resolver).outcome with
  | .ok _ => isFalse fun ⟨_, hf⟩ => by
    rw [h] at hf
    cases hf
  | .error fault => isTrue ⟨fault, h⟩

/-- An answer turned around is an answer, and a fault is not. -/
theorem raises_not_iff (subject : Subject) (resolver : Option Resolver) (c : Condition) :
    (not c).Raises subject resolver ↔ c.Raises subject resolver := by
  simp only [Raises, evaluate_not, Evaluation.outcome_negate_eq_error_iff]

mutual

/-- The fault of a leaf that is decided ends the evaluation, however deep the leaf lies. -/
theorem raises_of_visited {subject : Subject} {resolver : Option Resolver} {leaf : Condition}
    (c : Condition) (hl : leaf ∈ visited subject resolver c) (h : leaf.Raises subject resolver) :
    c.Raises subject resolver := by
  match c with
  | perm .. | attr .. =>
    obtain rfl := List.mem_singleton.1 hl
    exact h
  | group mode cs =>
    rw [visited] at hl
    rw [Raises, evaluate_group]
    exact raises_of_visitedEach mode cs hl h
  | not c =>
    rw [visited] at hl
    exact (raises_not_iff subject resolver c).2 (raises_of_visited c hl h)

theorem raises_of_visitedEach {subject : Subject} {resolver : Option Resolver} {leaf : Condition}
    (mode : Mode) (cs : List Condition) (hl : leaf ∈ visitedEach subject resolver mode cs)
    (h : leaf.Raises subject resolver) :
    ∃ fault, (evaluateEach subject resolver mode cs).outcome = .error fault := by
  match cs with
  | [] => cases hl
  | c :: cs =>
    rw [visitedEach] at hl
    rw [outcome_evaluateEach_cons]
    rcases List.mem_append.1 hl with hl | hl
    · obtain ⟨fault, hf⟩ := raises_of_visited c hl h
      rw [hf]
      exact ⟨fault, rfl⟩
    · cases he : (evaluate subject resolver c).outcome with
      | error fault => exact ⟨fault, rfl⟩
      | ok answer =>
        simp only [he] at hl
        by_cases ha : answer = mode.decisive
        · rw [if_pos ha] at hl
          cases hl
        · rw [if_neg ha] at hl
          simp only [Except.bind, if_neg ha]
          exact raises_of_visitedEach mode cs hl h

end

/-- An evaluation fails just when a leaf that it decides fails. -/
theorem raises_iff_visited (subject : Subject) (resolver : Option Resolver) (c : Condition) :
    c.Raises subject resolver ↔
      ∃ leaf ∈ visited subject resolver c, leaf.Raises subject resolver := by
  constructor
  · rintro ⟨fault, hf⟩
    obtain ⟨leaf, hl, hf⟩ := exists_visited_fault c hf
    exact ⟨leaf, hl, fault, hf⟩
  · rintro ⟨leaf, hl, h⟩
    exact raises_of_visited c hl h

/-- Whatever fault ends the evaluation has a message. -/
def IsTold (subject : Subject) (resolver : Option Resolver) (c : Condition) : Prop :=
  ∀ fault, (c.evaluate subject resolver).outcome = .error fault → fault.IsTold

/-- A fault of a group is one of a member. -/
theorem exists_member_fault {subject : Subject} {resolver : Option Resolver} {mode : Mode}
    {cs : List Condition} {fault : Fault}
    (h : (evaluateEach subject resolver mode cs).outcome = .error fault) :
    ∃ c ∈ cs, (evaluate subject resolver c).outcome = .error fault := by
  induction cs with
  | nil => cases h
  | cons c cs ih =>
    rw [outcome_evaluateEach_cons] at h
    rcases (bind_eq_error_iff ..).1 h with he | ⟨answer, -, h⟩
    · exact ⟨c, List.mem_cons_self .., he⟩
    · split at h
      · cases h
      · obtain ⟨c', hc', hf⟩ := ih h
        exact ⟨c', List.mem_cons_of_mem _ hc', hf⟩

theorem isTold_group {subject : Subject} {resolver : Option Resolver} {cs : List Condition}
    (h : ∀ c ∈ cs, c.IsTold subject resolver) (mode : Mode) :
    (group mode cs).IsTold subject resolver := by
  intro fault hf
  rw [evaluate_group] at hf
  obtain ⟨c, hc, hf⟩ := exists_member_fault hf
  exact h c hc fault hf

/-- If the host application tells its faults, every fault of an evaluation is told. -/
theorem isTold_of_host {subject : Subject} {resolver : Option Resolver}
    (holds : ∀ node fault, subject.holds node = .error fault → fault.IsTold)
    (resolves : ∀ resolve, resolver = some resolve → ∀ token fault,
      resolve subject token = .error fault → fault.IsTold)
    (c : Condition) : c.IsTold subject resolver := by
  match c with
  | perm node negate =>
    intro fault h
    rw [evaluate] at h
    exact holds node fault ((map_eq_error_iff ..).1 h)
  | attr token op expected =>
    intro fault h
    rw [evaluate.eq_def] at h
    match resolver with
    | none => cases h
    | some resolve =>
      rcases (bind_eq_error_iff ..).1 h with ht | ⟨actual, -, h⟩
      · exact resolves resolve rfl token fault ht
      · exact Fault.isTold_of_decideAttribute h
  | group mode cs => exact isTold_group (fun c _ => isTold_of_host holds resolves c) mode
  | not c =>
    intro fault h
    rw [evaluate_not, Evaluation.outcome_negate_eq_error_iff] at h
    exact isTold_of_host holds resolves c fault h

end Condition

end Gatekeeper
