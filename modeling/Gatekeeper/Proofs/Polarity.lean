import Gatekeeper.Proofs.Questions
import Mathlib.Algebra.Ring.Parity

/-!
# Polarity

How the answer of a condition changes when its subject is granted one permission more. Every leaf on the
permission stands under some number of negations, its own exclamation mark counted. Where all these
numbers are even a grant can only help, and where all are odd it can only hurt, although the two
evaluations may stop at different members. Where there is no such leaf nothing changes at all. All of this
is about a resolver that finds the same attributes for both subjects.
-/
namespace Gatekeeper

namespace FixedSubject

/-- The second subject has the permissions of the first one and one more, and the same attributes. -/
structure Grants (p : String) (subject subject' : FixedSubject) : Prop where
  permissions : ∀ key, key ∈ subject'.permissions ↔ key ∈ subject.permissions ∨ key = .text p
  attributes : ∀ key, Value.find? subject'.attributes key = Value.find? subject.attributes key

theorem holds_text_iff (subject : FixedSubject) (node : String) :
    subject.holds (.text node) = true ↔ .text node ∈ subject.permissions := by
  simp only [holds, List.any_eq_true, Scalar.same_text_iff, exists_eq_right]

namespace Grants

variable {p : String} {subject subject' : FixedSubject} (h : Grants p subject subject')

include h

theorem holds_iff (node : String) :
    subject'.holds (.text node) = true ↔ subject.holds (.text node) = true ∨ node = p := by
  rw [holds_text_iff, holds_text_iff, h.permissions, Scalar.text.injEq]

theorem holds_eq {node : String} (other : node ≠ p) :
    subject'.holds (.text node) = subject.holds (.text node) := by
  rw [Bool.eq_iff_iff, h.holds_iff]
  simp [other]

/-- The resolver that reads a subject's attributes cannot tell the two apart. -/
theorem static (token : Value) :
    Resolver.static subject'.toSubject token = Resolver.static subject.toSubject token := by
  have values : subject'.valueOf = subject.valueOf := by
    funext key
    rw [valueOf, valueOf, h.attributes]
  simp only [Resolver.static, toSubject, values]

end Grants

end FixedSubject

/-! ## Answers that only rise -/

namespace Evaluation

/-- The second evaluation does not deny what the first one affirms. -/
def Below (e e' : Evaluation) : Prop :=
  e.outcome = .ok true → e'.outcome ≠ .ok false

theorem Below.refl (e : Evaluation) : e.Below e := by
  intro h h'
  rw [h] at h'
  cases h'

theorem Below.negate {e e' : Evaluation} (h : e.Below e') : e'.negate.Below e.negate := by
  intro denied affirmed
  rw [outcome_negate_eq_ok_iff] at denied affirmed
  exact h affirmed denied

theorem outcome_join_eq_ok_iff (mode : Mode) (first rest : Evaluation) (b : Bool) :
    (join mode first rest).outcome = .ok b ↔
      ∃ a, first.outcome = .ok a ∧ (if a = mode.decisive then .ok a else rest.outcome) = .ok b := by
  rw [outcome_join]
  cases first.outcome <;> simp [Except.bind]

/-- A group is not denied where it was affirmed, if that holds of its first member and of the others. -/
theorem Below.join (mode : Mode) {first first' rest rest' : Evaluation} (hf : first.Below first')
    (hr : rest.Below rest') : (first.join mode rest).Below (first'.join mode rest') := by
  intro affirmed denied
  obtain ⟨a, ha, affirmed⟩ := (outcome_join_eq_ok_iff mode first rest true).1 affirmed
  obtain ⟨a', ha', denied⟩ := (outcome_join_eq_ok_iff mode first' rest' false).1 denied
  have kept : ¬(a = true ∧ a' = false) := by
    rintro ⟨rfl, rfl⟩
    exact hf ha ha'
  -- What is left is settled by one of the first members, or both groups go on to the others.
  cases mode <;> cases a <;> cases a' <;> simp [Mode.decisive] at kept affirmed denied
  · exact hr affirmed denied
  · exact hr affirmed denied

/-- The second evaluation does not fall behind the first one where all numbers of negations are even, nor
the first one behind the second where all are odd. -/
structure Follows (numbers : List Nat) (e e' : Evaluation) : Prop where
  rises : (∀ n ∈ numbers, Even n) → e.Below e'
  falls : (∀ n ∈ numbers, Odd n) → e'.Below e

theorem Follows.refl (numbers : List Nat) (e : Evaluation) : Follows numbers e e :=
  ⟨fun _ => .refl e, fun _ => .refl e⟩

/-- One negation more exchanges the two directions. -/
theorem Follows.negate {numbers : List Nat} {e e' : Evaluation} (h : Follows numbers e e') :
    Follows (numbers.map (· + 1)) e.negate e'.negate := by
  constructor
  · intro even
    rw [List.forall_mem_map] at even
    exact (h.falls fun n hn => Nat.not_even_iff_odd.1 (Nat.even_add_one.1 (even n hn))).negate
  · intro odd
    rw [List.forall_mem_map] at odd
    exact (h.rises fun n hn => Nat.not_odd_iff_even.1 (Nat.odd_add_one.1 (odd n hn))).negate

theorem Follows.join (mode : Mode) {numbers numbers' : List Nat} {first first' rest rest' : Evaluation}
    (hf : Follows numbers first first') (hr : Follows numbers' rest rest') :
    Follows (numbers ++ numbers') (first.join mode rest) (first'.join mode rest') := by
  constructor
  · intro even
    obtain ⟨even, even'⟩ := List.forall_mem_append.1 even
    exact (hf.rises even).join mode (hr.rises even')
  · intro odd
    obtain ⟨odd, odd'⟩ := List.forall_mem_append.1 odd
    exact (hf.falls odd).join mode (hr.falls odd')

end Evaluation

namespace Condition

mutual

/-- Under how many negations each leaf on the permission stands, from left to right. -/
def negations (p : String) : Condition → List Nat
  | perm node negate => if node = p then [if negate.holds then 1 else 0] else []
  | attr .. => []
  | group _ cs => negationsEach p cs
  | not c => (negations p c).map (· + 1)

def negationsEach (p : String) : List Condition → List Nat
  | [] => []
  | c :: cs => negations p c ++ negationsEach p cs

end

mutual

theorem negations_ne_nil {p : String} {negate : Value} (c : Condition)
    (h : perm p negate ∈ leaves c) : negations p c ≠ [] := by
  match c with
  | perm node negate =>
    obtain ⟨rfl, -⟩ := Condition.perm.inj (List.mem_singleton.1 h)
    simp [negations]
  | attr .. => exact absurd (List.mem_singleton.1 h) (by simp)
  | group mode cs =>
    rw [leaves] at h
    rw [negations]
    exact negationsEach_ne_nil cs h
  | not c =>
    rw [leaves] at h
    rw [negations, ne_eq, List.map_eq_nil_iff]
    exact negations_ne_nil c h

theorem negationsEach_ne_nil {p : String} {negate : Value} (cs : List Condition)
    (h : perm p negate ∈ leavesEach cs) : negationsEach p cs ≠ [] := by
  match cs with
  | [] => cases h
  | c :: cs =>
    rw [leavesEach] at h
    rw [negationsEach, ne_eq, List.append_eq_nil_iff, not_and_or]
    exact (List.mem_append.1 h).imp (negations_ne_nil c) (negationsEach_ne_nil cs)

end

/-! ## Granting a permission -/

section

variable {p : String} {subject subject' : FixedSubject} {resolver : Option Resolver}

/-- The resolver finds the same values for the two subjects, as far as the leaves ask for them. -/
def SameAttributes (subject subject' : FixedSubject) (resolver : Option Resolver)
    (leaves : List Condition) : Prop :=
  ∀ token, (Question.attr token).OccursIn leaves →
    (Question.attr token).SameAnswer subject.toSubject resolver subject'.toSubject resolver

theorem SameAttributes.mono {leaves leaves' : List Condition} (sub : leaves' ⊆ leaves)
    (same : SameAttributes subject subject' resolver leaves) :
    SameAttributes subject subject' resolver leaves' :=
  fun token asked => same token (asked.mono sub)

variable (h : FixedSubject.Grants p subject subject')

include h

/-- A condition that does not ask for the permission is evaluated as before. -/
theorem evaluate_grant_eq {c : Condition}
    (same : SameAttributes subject subject' resolver (leaves c)) (other : negations p c = []) :
    evaluate subject'.toSubject resolver c = evaluate subject.toSubject resolver c := by
  refine evaluate_congr rfl c fun q asked => ?_
  match q, occursIn_of_asked asked with
  | .perm node, ⟨negate, hm⟩ =>
    have ne : node ≠ p := by
      rintro rfl
      exact negations_ne_nil c hm other
    exact congrArg Except.ok (h.holds_eq ne)
  | .attr token, asks => exact same token asks

theorem evaluate_perm_follows (node : String) (negate : Value)
    (same : SameAttributes subject subject' resolver (leaves (perm node negate))) :
    Evaluation.Follows (negations p (perm node negate))
      (evaluate subject.toSubject resolver (perm node negate))
      (evaluate subject'.toSubject resolver (perm node negate)) := by
  by_cases hp : node = p
  · subst hp
    have held : subject'.holds (.text node) = true := (h.holds_iff node).2 (.inr rfl)
    have answer : (evaluate subject'.toSubject resolver (perm node negate)).outcome =
        .ok (!negate.holds) := by
      rw [evaluate]
      simp [FixedSubject.toSubject, held, Except.map]
    rw [negations, if_pos rfl]
    cases negated : negate.holds with
    | false =>
      refine ⟨fun _ _ denied => ?_, fun odd => ?_⟩
      · rw [answer, negated] at denied
        cases denied
      · exact absurd (odd _ (List.mem_singleton_self _)) (by decide)
    | true =>
      refine ⟨fun even => ?_, fun _ affirmed => ?_⟩
      · exact absurd (even _ (List.mem_singleton_self _)) (by decide)
      · rw [answer, negated] at affirmed
        cases affirmed
  · rw [evaluate_grant_eq h same (if_neg hp)]
    exact .refl ..

end

mutual

theorem evaluate_follows {p : String} {subject subject' : FixedSubject} {resolver : Option Resolver}
    (h : FixedSubject.Grants p subject subject') (c : Condition)
    (same : SameAttributes subject subject' resolver (leaves c)) :
    Evaluation.Follows (negations p c) (evaluate subject.toSubject resolver c)
      (evaluate subject'.toSubject resolver c) := by
  match c with
  | perm node negate => exact evaluate_perm_follows h node negate same
  | attr token operator expected =>
    rw [evaluate_grant_eq h same (by rw [negations])]
    exact .refl ..
  | group mode cs =>
    rw [leaves] at same
    rw [evaluate_group, evaluate_group, negations]
    exact evaluateEach_follows h mode cs same
  | not c =>
    rw [leaves] at same
    rw [evaluate_not, evaluate_not, negations]
    exact (evaluate_follows h c same).negate

theorem evaluateEach_follows {p : String} {subject subject' : FixedSubject}
    {resolver : Option Resolver} (h : FixedSubject.Grants p subject subject') (mode : Mode)
    (cs : List Condition) (same : SameAttributes subject subject' resolver (leavesEach cs)) :
    Evaluation.Follows (negationsEach p cs) (evaluateEach subject.toSubject resolver mode cs)
      (evaluateEach subject'.toSubject resolver mode cs) := by
  match cs with
  | [] => exact .refl ..
  | c :: cs =>
    rw [leavesEach] at same
    rw [evaluateEach_cons, evaluateEach_cons, negationsEach]
    exact (evaluate_follows h c (same.mono (List.subset_append_left ..))).join mode
      (evaluateEach_follows h mode cs (same.mono (List.subset_append_right ..)))

end

/-- A subject that is granted a permission keeps what a condition affirms if all leaves on the permission
stand under even numbers of negations, and gains nothing if all stand under odd numbers. If there is none,
all is as before. That the resolver finds the same attributes for both subjects goes without saying for
the one that reads them from the subject. -/
theorem evaluate_grant {p : String} {subject subject' : FixedSubject}
    (h : FixedSubject.Grants p subject subject') (c : Condition) :
    (∀ token, Resolver.static subject'.toSubject token = Resolver.static subject.toSubject token) ∧
    ∀ resolver : Option Resolver,
      (∀ resolve ∈ resolver, ∀ token, (Question.attr token).OccursIn c.leaves →
        resolve subject'.toSubject token = resolve subject.toSubject token) →
      (∀ b b', (c.evaluate subject.toSubject resolver).outcome = .ok b →
        (c.evaluate subject'.toSubject resolver).outcome = .ok b' →
        ((∀ n ∈ c.negations p, Even n) → b = true → b' = true) ∧
        ((∀ n ∈ c.negations p, Odd n) → b' = true → b = true)) ∧
      (c.negations p = [] →
        c.evaluate subject'.toSubject resolver = c.evaluate subject.toSubject resolver) := by
  refine ⟨h.static, fun resolver attributes => ?_⟩
  have same : SameAttributes subject subject' resolver c.leaves := fun token asked =>
    Option.map_congr fun resolve hr => attributes resolve hr token asked
  refine ⟨fun b b' hb hb' => ?_, evaluate_grant_eq h same⟩
  have follows := evaluate_follows h c same
  constructor
  · rintro even rfl
    exact eq_true_of_ne_false fun denied => follows.rises even hb (denied ▸ hb')
  · rintro odd rfl
    exact eq_true_of_ne_false fun denied => follows.falls odd hb' (denied ▸ hb)

theorem evaluate_grant_vip :
    let subject : FixedSubject := ⟨.null, [.text "staff"], [(.text "%level%", .text "10")]⟩
    let subject' : FixedSubject :=
      ⟨.null, [.text "vip", .text "staff"], [(.text "%level%", .text "10")]⟩
    let lacks : Condition := .perm "vip" (.bool true)
    let level : Condition := .attr (.text "%level%") (some .ge) (some (.text "9"))
    let twice : Condition := .group .any [.not lacks, level]
    let once : Condition := .group .any [lacks, level]
    FixedSubject.Grants "vip" subject subject' ∧
      (∀ resolve ∈ some Resolver.static, ∀ token,
        resolve subject'.toSubject token = resolve subject.toSubject token) ∧
      (∀ n ∈ twice.negations "vip", Even n) ∧ (∀ n ∈ once.negations "vip", Odd n) ∧
      (twice.evaluate subject.toSubject (some Resolver.static)).outcome = .ok true ∧
      (twice.evaluate subject'.toSubject (some Resolver.static)).outcome = .ok true ∧
      (once.evaluate subject'.toSubject (some Resolver.static)).outcome = .ok true ∧
      (once.evaluate subject.toSubject (some Resolver.static)).outcome = .ok true ∧
      level.evaluate subject'.toSubject (some Resolver.static) =
        level.evaluate subject.toSubject (some Resolver.static) := by
  intro subject subject' lacks level twice once
  have grant : FixedSubject.Grants "vip" subject subject' :=
    ⟨fun key => by simp [subject, subject', or_comm], fun _ => rfl⟩
  have even : ∀ n ∈ twice.negations "vip", Even n := by decide
  have odd : ∀ n ∈ once.negations "vip", Odd n := by decide
  have attributes : ∀ resolve ∈ some Resolver.static, ∀ token,
      resolve subject'.toSubject token = resolve subject.toSubject token := by
    rintro resolve ⟨⟩
    exact (evaluate_grant grant level).1
  have asked (c : Condition) := (evaluate_grant grant c).2 (some Resolver.static)
    fun resolve hr token _ => attributes resolve hr token
  have before : (twice.evaluate subject.toSubject (some Resolver.static)).outcome = .ok true := by
    decide +kernel
  have after : (once.evaluate subject'.toSubject (some Resolver.static)).outcome = .ok true := by
    decide +kernel
  obtain ⟨kept, answer⟩ : ∃ kept,
      (twice.evaluate subject'.toSubject (some Resolver.static)).outcome = .ok kept :=
    ⟨_, rfl⟩
  obtain ⟨had, answer'⟩ : ∃ had,
      (once.evaluate subject.toSubject (some Resolver.static)).outcome = .ok had :=
    ⟨_, rfl⟩
  obtain rfl : kept = true := ((asked twice).1 true kept before answer).1 even rfl
  obtain rfl : had = true := ((asked once).1 had true answer' after).2 odd rfl
  exact ⟨grant, attributes, even, odd, before, answer, after, answer', (asked level).2 rfl⟩

/-- What is asked of the resolver cannot be left out: one that reads permissions may find another value
after a grant, and a condition may be lost whose only leaf on the permission is not negated, or that has
no such leaf. -/
theorem evaluate_grant_resolved :
    let subject : FixedSubject := ⟨.null, [], [(.text "%fee%", .text "1")]⟩
    let subject' : FixedSubject := ⟨.null, [.text "vip"], [(.text "%fee%", .text "1")]⟩
    let resolve : Resolver := fun subject _ =>
      (subject.holds "vip").map fun held => .text (if held then "0" else "1")
    let fee : Condition := .attr (.text "%fee%") (some .ge) (some (.text "1"))
    let paid : Condition := .group .any [.group .all [.perm "vip" (.bool false), fee], fee]
    FixedSubject.Grants "vip" subject subject' ∧ paid.negations "vip" = [0] ∧
      (paid.evaluate subject.toSubject (some resolve)).outcome = .ok true ∧
      (paid.evaluate subject'.toSubject (some resolve)).outcome = .ok false ∧
      fee.negations "vip" = [] ∧
      (fee.evaluate subject.toSubject (some resolve)).outcome = .ok true ∧
      (fee.evaluate subject'.toSubject (some resolve)).outcome = .ok false := by
  intro subject subject' resolve fee paid
  have grant : FixedSubject.Grants "vip" subject subject' :=
    ⟨fun key => by simp [subject, subject'], fun _ => rfl⟩
  refine ⟨grant, ?_⟩
  decide +kernel

end Condition

end Gatekeeper
