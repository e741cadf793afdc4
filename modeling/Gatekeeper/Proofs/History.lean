import Gatekeeper.Configuration.Gate

/-!
# Histories

What a host application may ask of a manager, and what becomes of a manager that is asked one thing
after another. Whatever has happened, the cache holds for each expression what the parser in force
makes of it.
-/
namespace Gatekeeper

inductive Request where
  | evaluate (subject : Subject) (expression : Value)
  | evaluateEach (subject : Subject) (mode : Mode) (expressions : List Value)
  | isValid (expression : Value)
  | areValid (expressions : List Value)
  | describe (expression : Value)
  | lookup (expression : Value)
  | conditions (expressions : List Value)
  | clearCache
  | setResolver (resolver : Option Resolver)
  | updateSettings (settings : Settings)

inductive Answer where
  | decision (r : Except Fault Bool)
  | description (r : Except Fault (Option String))
  | condition (r : Except Fault (Option Condition))
  | conditions (r : Except Fault (List Condition))
  | done
  | updated (r : Except DepthLimit.Refusal Unit)

namespace Manager

/-- Do what is asked. -/
def perform (m : Manager) : Request → Answer × Manager
  | .evaluate subject e => (m.evaluate subject e).map .decision id
  | .evaluateEach subject mode es => (m.evaluateEach subject mode es).map .decision id
  | .isValid e => (m.isValid e).map .decision id
  | .areValid es => (m.areValid es).map .decision id
  | .describe e => (m.describe e).map .description id
  | .lookup e => (m.lookup e).map .condition id
  | .conditions es => (m.conditions es).map .conditions id
  | .clearCache => (.done, m.clearCache)
  | .setResolver resolver => (.done, m.setResolver resolver)
  | .updateSettings settings => (m.updateSettings settings).map .updated id

/-- Do all that is asked, in order. -/
def run (m : Manager) : List Request → List Answer × Manager
  | [] => ([], m)
  | q :: history =>
    let (answer, m) := m.perform q
    let (answers, m) := m.run history
    (answer :: answers, m)

/-- A new manager remembers nothing. Its parser is its own or the one that the settings call for. -/
theorem create_eq_ok_iff (resolver : Option Resolver) (settings : Settings) (parser? : Option Parser)
    (m : Manager) :
    create resolver settings parser? = .ok m ↔ ∃ parser,
      parser?.elim settings.parser? .ok = .ok parser ∧
        m = { settings, parser, resolver,
              journal := { log := [note .info "Initialized ConditionManager"] } } := by
  have same (x : Except DepthLimit.Refusal Parser) (f : Parser → Manager) :
      (x >>= fun parser => pure (f parser)) = .ok m ↔ ∃ parser, x = .ok parser ∧ m = f parser := by
    cases x <;> simp [bind, Except.bind, pure, Except.pure, eq_comm]
  cases parser? with
  | none => exact same settings.parser? _
  | some parser => exact same (.ok parser) _

/-- The managers that there may be. -/
inductive Reachable : Manager → Prop where
  | created {resolver : Option Resolver} {settings : Settings} {parser? : Option Parser}
      {m : Manager} (h : create resolver settings parser? = .ok m) : Reachable m
  | performed {m : Manager} (h : Reachable m) (q : Request) : Reachable (m.perform q).2

end Manager

end Gatekeeper
