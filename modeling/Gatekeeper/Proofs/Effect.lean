import Gatekeeper.Proofs.Evaluation
import Gatekeeper.Proofs.Transparency

/-!
# Effects

What looking an expression up and deciding a condition change of a manager, all of it at once. The
settings, the parser and the resolver stay as they are, and nothing that the cache holds is lost, also
where no result comes out.
-/
namespace Gatekeeper

/-- What there is to remember of an expression and its outcome; `keeps` says that refused expressions
are remembered too. -/
def Cache.entryOf (keeps : Bool) : Value → Option Condition → Cache
  | .text s, outcome => if outcome.isSome || keeps then [(s, outcome)] else []
  | _, _ => []

/-- What a look-up with a result adds to the cache. -/
def Cache.added (keeps : Bool) (e : Value) : Except Fault (Option Condition) → Cache
  | .ok outcome => entryOf keeps e outcome
  | .error _ => []

namespace Manager

variable {m : Manager} {e : Value}

theorem remember_keep (m : Manager) (keeps : Bool) (outcome : Option Condition)
    (h : outcome.isSome || keeps) :
    m.remember e outcome = { m with cache := m.cache ++ Cache.entryOf keeps e outcome } := by
  rw [remember.eq_def]
  split
  · rw [Cache.entryOf, if_pos h]
  · next hs =>
    rw [Cache.entryOf.eq_def]
    split
    · next s => exact absurd rfl (hs s)
    · rw [List.append_nil]

/-- Remember an outcome that there is to remember. -/
def store (m : Manager) (e : Value) : Option Condition → Manager
  | some c => (m.remember e (some c)).write [note .debug "Cached condition"]
  | none => if m.settings.cacheInvalid.holds then m.remember e none else m

/-- To keep an outcome is to count it, if it is a refusal, and to store it. -/
theorem keep_eq_store (m : Manager) (e : Value) (outcome : Option Condition) :
    m.keep e outcome = (if outcome.isNone then m.countParseFailure else m).store e outcome := by
  cases outcome <;> rfl

theorem store_eq (m : Manager) (e : Value) (outcome : Option Condition) :
    ∃ journal, m.store e outcome =
      { m with cache := m.cache ++ Cache.entryOf m.settings.cacheInvalid.holds e outcome, journal } := by
  cases outcome with
  | some c =>
    rw [store, remember_keep m m.settings.cacheInvalid.holds (some c) rfl]
    exact ⟨_, rfl⟩
  | none =>
    rw [store]
    split
    · next hk =>
      rw [remember_keep m m.settings.cacheInvalid.holds none hk]
      exact ⟨m.journal, rfl⟩
    · next hk =>
      have nothing : Cache.entryOf m.settings.cacheInvalid.holds e none = [] := by
        rw [Cache.entryOf.eq_def]
        split
        · have off : m.settings.cacheInvalid.holds = false := eq_false_of_ne_true hk
          rw [off]
          rfl
        · rfl
      rw [nothing, List.append_nil]
      exact ⟨m.journal, rfl⟩

/-- What is kept of an outcome. -/
theorem keep_eq (m : Manager) (e : Value) (outcome : Option Condition) :
    ∃ journal, m.keep e outcome =
      { m with
        cache := m.cache ++ Cache.entryOf m.settings.cacheInvalid.holds e outcome
        statistics.parseFailures :=
          m.statistics.parseFailures + if outcome.isNone then 1 else 0
        journal } := by
  obtain ⟨journal, h⟩ := store_eq (if outcome.isNone then m.countParseFailure else m) e outcome
  rw [keep_eq_store, h]
  cases outcome <;> exact ⟨journal, rfl⟩

theorem lookup_hit {outcome : Option Condition} (h : m.cached? e = some outcome) :
    m.lookup e = (.ok outcome, m.countHit) := by
  rw [lookup, h]

/-- A miss is counted, and what the parser makes of the expression is kept, unless it is a fault. -/
theorem lookup_miss (h : m.cached? e = none) :
    ∃ journal, m.lookup e = ((m.parser.attempt e).1,
      { m with
        cache := m.cache ++ Cache.added m.settings.cacheInvalid.holds e (m.parser.attempt e).1
        statistics.misses := m.statistics.misses + 1
        statistics.parseFailures := m.statistics.parseFailures +
          if (m.parser.attempt e).1 = .ok none then 1 else 0
        journal }) := by
  rw [lookup, h]
  dsimp only
  rw [learn, show m.countMiss.parser = m.parser from rfl]
  obtain ⟨result, log⟩ := m.parser.attempt e
  cases result with
  | error fault =>
    refine ⟨m.journal.write log, ?_⟩
    simp [Cache.added, countMiss, write]
  | ok outcome =>
    obtain ⟨journal, hk⟩ := keep_eq (m.countMiss.write log) e outcome
    refine ⟨journal, ?_⟩
    dsimp only
    rw [hk]
    cases outcome <;> simp [Cache.added, countMiss, write]

/-- Looking up: a hit changes nothing but its count, and a miss comes with what there is to remember.
Either way the result is what the parser makes of the expression. -/
theorem lookup_cases (ht : Tracks m ⟨m.parser, m.resolver⟩) (e : Value) :
    (m.cached? e ≠ none ∧ m.lookup e = ((m.parser.attempt e).1, m.countHit)) ∨
    (m.cached? e = none ∧ ∃ journal, m.lookup e = ((m.parser.attempt e).1,
      { m with
        cache := m.cache ++ Cache.added m.settings.cacheInvalid.holds e (m.parser.attempt e).1
        statistics.misses := m.statistics.misses + 1
        statistics.parseFailures := m.statistics.parseFailures +
          if (m.parser.attempt e).1 = .ok none then 1 else 0
        journal })) := by
  cases hc : m.cached? e with
  | none => exact .inr ⟨rfl, lookup_miss hc⟩
  | some outcome =>
    have ha : (m.parser.attempt e).1 = .ok outcome := ht.cached? hc
    rw [ha]
    exact .inl ⟨Option.some_ne_none _, lookup_hit hc⟩

/-- A fault is counted as an error and decides against the subject, or another one goes on. -/
theorem judge_eq (m : Manager) (subject : Subject) (e : Value) (c : Condition) :
    ∃ journal, m.judge subject e c =
      (Reference.judge ⟨m.parser, m.resolver⟩ subject c,
        { m with
          statistics.evaluationErrors := m.statistics.evaluationErrors +
            if c.Raises subject m.resolver then 1 else 0
          journal }) := by
  rw [judge, Reference.judge]
  cases ho : (c.evaluate subject m.resolver).outcome with
  | ok answer =>
    have answered : ¬c.Raises subject m.resolver := by
      rintro ⟨fault, hf⟩
      rw [ho] at hf
      cases hf
    rw [if_neg answered]
    exact ⟨_, rfl⟩
  | error fault =>
    rw [if_pos ⟨fault, ho⟩]
    dsimp only
    cases fault.message? <;> exact ⟨_, rfl⟩

theorem evaluate_of_lookup {c : Condition} {m' : Manager}
    (h : m.lookup e = (.ok (some c), m')) (subject : Subject) :
    m.evaluate subject e = m'.judge subject e c := by
  rw [evaluate, h]

end Manager

end Gatekeeper
