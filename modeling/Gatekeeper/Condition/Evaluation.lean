import Gatekeeper.Condition.Basic
import Gatekeeper.Subject.Basic
import Gatekeeper.Value.Equality

/-!
# Evaluation

A condition is decided by asking questions from left to right until the answer is settled. The
result of an evaluation is its outcome together with the questions that were asked, in order; a
question that fails ends the evaluation.
-/
namespace Gatekeeper

inductive Question where
  | perm (node : String)
  | attr (token : Value)
  deriving DecidableEq, Repr

structure Evaluation where
  asked : List Question
  outcome : Except Fault Bool

namespace Evaluation

/-- An outcome that takes no question. -/
def settled (b : Bool) : Evaluation := ⟨[], .ok b⟩

/-- Turn the answer around. -/
def negate (e : Evaluation) : Evaluation := ⟨e.asked, e.outcome.map (!·)⟩

/-- Ask the questions of another evaluation first. -/
def after (asked : List Question) (e : Evaluation) : Evaluation := ⟨asked ++ e.asked, e.outcome⟩

end Evaluation

/-- Whether a value shows that an attribute is there: it is neither empty nor the bare token. -/
def isPresent (token actual : Value) : Bool :=
  !actual.equals (.text "") && !actual.equals token

/-- Decide an attribute condition on the value of its token. -/
def decideAttribute (token : Value) (operator : Option Operator) (expected : Option Value)
    (actual : Value) : Except Fault Bool :=
  let actual := if actual == .null then .text "" else actual
  match operator, expected with
  | some op, some expected => op.compare actual expected
  | _, _ => .ok (isPresent token actual)

namespace Condition

mutual

/-- Decide a condition for a subject. Without a resolver no attribute is there. -/
def evaluate (subject : Subject) (resolver : Option Resolver) : Condition → Evaluation
  | perm node negate => ⟨[.perm node], (subject.holds node).map (· != negate.holds)⟩
  | attr token operator expected =>
    match resolver with
    | none => .settled false
    | some resolve =>
      ⟨[.attr token], resolve subject token >>= decideAttribute token operator expected⟩
  | group mode conditions => evaluateEach subject resolver mode conditions
  | not c => (evaluate subject resolver c).negate

/-- Decide the members of a group up to the first decisive one. -/
def evaluateEach (subject : Subject) (resolver : Option Resolver) (mode : Mode) :
    List Condition → Evaluation
  | [] => .settled (!mode.decisive)
  | c :: cs =>
    let first := evaluate subject resolver c
    match first.outcome with
    | .error fault => ⟨first.asked, .error fault⟩
    | .ok answer =>
      if answer = mode.decisive then ⟨first.asked, .ok answer⟩
      else (evaluateEach subject resolver mode cs).after first.asked

end

end Condition

end Gatekeeper
