import Gatekeeper.Proofs.History
import Mathlib.Data.List.ReduceOption

/-!
# The cache does not show

A reference that remembers nothing: it parses every expression anew. A manager gives the same answers
whatever it is asked, since its cache holds for each expression what the parser in force makes of it.
That is what every operation preserves.
-/
namespace Gatekeeper

/-- A manager without a cache: the parser in force and the installed resolver. -/
structure Reference where
  parser : Parser
  resolver : Option Resolver

namespace Reference

def create (resolver : Option Resolver) (settings : Settings) (parser? : Option Parser) :
    Except DepthLimit.Refusal Reference :=
  match parser? with
  | some parser => .ok ⟨parser, resolver⟩
  | none => settings.parser?.map (⟨·, resolver⟩)

/-- What the parser makes of an expression. -/
def lookup (r : Reference) (expression : Value) : Except Fault (Option Condition) :=
  (r.parser.attempt expression).1

/-- A fault decides against the subject, but asking for its message may end in another one. -/
def judge (r : Reference) (subject : Subject) (c : Condition) : Except Fault Bool :=
  match (c.evaluate subject r.resolver).outcome with
  | .ok answer => .ok answer
  | .error fault => fault.message?.map fun _ => false

def evaluate (r : Reference) (subject : Subject) (expression : Value) : Except Fault Bool := do
  match ← r.lookup expression with
  | some c => r.judge subject c
  | none => return false

def isValid (r : Reference) (expression : Value) : Except Fault Bool :=
  return (← r.lookup expression).isSome

/-- Whether every expression is answered with yes, or at least one. -/
def each (answer : Value → Except Fault Bool) : Mode → List Value → Except Fault Bool
  | .all, es => es.allM answer
  | .any, es => es.anyM answer

/-- The conditions of several expressions without those that are refused. -/
def conditions (r : Reference) (expressions : List Value) : Except Fault (List Condition) :=
  return (← expressions.mapM r.lookup).reduceOption

def perform (r : Reference) : Request → Answer × Reference
  | .evaluate subject e => (.decision (r.evaluate subject e), r)
  | .evaluateEach subject mode es => (.decision (each (r.evaluate subject) mode es), r)
  | .isValid e => (.decision (r.isValid e), r)
  | .areValid es => (.decision (each r.isValid .all es), r)
  | .describe e => (.description (return (← r.lookup e).map Condition.describe), r)
  | .lookup e => (.condition (r.lookup e), r)
  | .conditions es => (.conditions (r.conditions es), r)
  | .clearCache => (.done, r)
  | .setResolver resolver => (.done, { r with resolver })
  | .updateSettings settings =>
    match settings.parser? with
    | .ok parser => (.updated (.ok ()), { r with parser })
    | .error refusal => (.updated (.error refusal), r)

def run (r : Reference) : List Request → List Answer × Reference
  | [] => ([], r)
  | q :: history =>
    let (answer, r) := r.perform q
    let (answers, r) := r.run history
    (answer :: answers, r)

/-- The first answer that is decisive for the mode settles a list. -/
theorem each_cons (answer : Value → Except Fault Bool) (mode : Mode) (e : Value)
    (es : List Value) :
    each answer mode (e :: es) = (answer e).bind fun b =>
      if b = mode.decisive then .ok b else each answer mode es := by
  cases mode <;> simp only [each, List.allM_cons, List.anyM_cons, bind]
  all_goals
    congr
    funext b
    cases b <;> rfl

theorem conditions_cons (r : Reference) (e : Value) (es : List Value) :
    r.conditions (e :: es) = (r.lookup e).bind fun c? =>
      (r.conditions es).map (c?.toList ++ ·) := by
  rw [conditions, List.mapM_cons, conditions]
  cases r.lookup e with
  | error => rfl
  | ok c? => 
    cases es.mapM r.lookup with
    | error => rfl
    | ok cs => cases c? <;> rfl

end Reference

theorem Cache.lookup_eq_none_iff (cache : Cache) (s : String) :
    List.lookup s cache = none ↔ s ∉ cache.map Prod.fst := by
  rw [List.lookup_eq_none_iff, List.mem_map]
  constructor
  · rintro h ⟨p, hp, rfl⟩
    simpa using h p hp
  · rintro h p hp
    exact bne_iff_ne.2 fun he => h ⟨p, hp, he.symm⟩

/-- The cache holds for each expression what the parser makes of it. -/
def Cache.Faithful (parser : Parser) (cache : Cache) : Prop :=
  ∀ s outcome, (s, outcome) ∈ cache → (parser.attempt (.text s)).1 = .ok outcome

theorem Cache.Faithful.cached? {parser : Parser} {m : Manager} (h : Cache.Faithful parser m.cache)
    {e : Value} {outcome : Option Condition} (hc : m.cached? e = some outcome) :
    (parser.attempt e).1 = .ok outcome := by
  rw [Manager.cached?.eq_def] at hc
  split at hc
  · next s =>
    obtain ⟨front, back, hm, -⟩ := List.lookup_eq_some_iff.1 hc
    exact h s outcome (by rw [hm]; simp)
  · cases hc

/-- A manager that stands where a reference stands. -/
structure Tracks (m : Manager) (r : Reference) : Prop where
  parser : m.parser = r.parser
  resolver : m.resolver = r.resolver
  cache : Cache.Faithful r.parser m.cache

namespace Tracks

variable {m : Manager} {r : Reference}

theorem cached? (h : Tracks m r) {e : Value} {outcome : Option Condition}
    (hc : m.cached? e = some outcome) : r.lookup e = .ok outcome :=
  h.cache.cached? hc

theorem write (h : Tracks m r) (records : List Record) : Tracks (m.write records) r :=
  ⟨h.parser, h.resolver, h.cache⟩

theorem remember (h : Tracks m r) {e : Value} {outcome : Option Condition}
    (he : r.lookup e = .ok outcome) : Tracks (m.remember e outcome) r := by
  rw [Manager.remember.eq_def]
  split
  · next s =>
    refine ⟨h.parser, h.resolver, fun s' outcome' hm => ?_⟩
    rcases List.mem_append.1 hm with hm | hm
    · exact h.cache s' outcome' hm
    · obtain ⟨rfl, rfl⟩ := Prod.mk.inj (List.mem_singleton.1 hm)
      exact he
  · exact h

theorem keep (h : Tracks m r) {e : Value} {outcome : Option Condition}
    (he : r.lookup e = .ok outcome) : Tracks (m.keep e outcome) r := by
  cases outcome with
  | some c => exact (h.remember he).write _
  | none =>
    have counted : Tracks m.countParseFailure r := ⟨h.parser, h.resolver, h.cache⟩
    rw [Manager.keep]
    split
    · exact counted.remember he
    · exact counted

theorem learn (h : Tracks m r) (e : Value) :
    (m.learn e).1 = r.lookup e ∧ Tracks (m.learn e).2 r := by
  have counted : Tracks m.countMiss r := ⟨h.parser, h.resolver, h.cache⟩
  rw [Manager.learn, counted.parser]
  split
  · next x log ha =>
    exact ⟨by rw [Reference.lookup, ha], counted.write log⟩
  · next outcome log ha =>
    have he : r.lookup e = .ok outcome := by rw [Reference.lookup, ha]
    exact ⟨he.symm, (counted.write log).keep he⟩

/-- What is looked up is what the parser makes of the expression, whether it is remembered or not. -/
theorem lookup (h : Tracks m r) (e : Value) :
    (m.lookup e).1 = r.lookup e ∧ Tracks (m.lookup e).2 r := by
  rw [Manager.lookup]
  split
  · next outcome hc =>
    exact ⟨(h.cached? hc).symm, h.parser, h.resolver, h.cache⟩
  · exact h.learn e

theorem judge (h : Tracks m r) (subject : Subject) (e : Value) (c : Condition) :
    (m.judge subject e c).1 = r.judge subject c ∧ Tracks (m.judge subject e c).2 r := by
  rw [Reference.judge, ← h.resolver, Manager.judge]
  cases (c.evaluate subject m.resolver).outcome with
  | ok answer => exact ⟨rfl, h.parser, h.resolver, h.cache⟩
  | error fault =>
    dsimp only
    cases fault.message? with
    | ok message => exact ⟨rfl, h.parser, h.resolver, h.cache⟩
    | error asking => exact ⟨rfl, h.parser, h.resolver, h.cache⟩

theorem evaluate (h : Tracks m r) (subject : Subject) (e : Value) :
    (m.evaluate subject e).1 = r.evaluate subject e ∧ Tracks (m.evaluate subject e).2 r := by
  obtain ⟨hl, ht⟩ := h.lookup e
  rw [Manager.evaluate, Reference.evaluate, ← hl]
  split
  · next hm =>
    rw [hm] at ht ⊢
    exact ⟨rfl, ht⟩
  · next hm =>
    rw [hm] at ht ⊢
    exact ⟨rfl, ht⟩
  · next c m' hm =>
    rw [hm] at ht ⊢
    exact ht.judge subject e c

theorem isValid (h : Tracks m r) (e : Value) :
    (m.isValid e).1 = r.isValid e ∧ Tracks (m.isValid e).2 r := by
  obtain ⟨hl, ht⟩ := h.lookup e
  rw [Reference.isValid, ← hl]
  refine ⟨?_, ht⟩
  show (m.lookup e).1.map _ = _
  cases (m.lookup e).1 <;> rfl

theorem describe (h : Tracks m r) (e : Value) :
    (m.describe e).1 = (return (← r.lookup e).map Condition.describe) ∧
      Tracks (m.describe e).2 r := by
  obtain ⟨hl, ht⟩ := h.lookup e
  rw [← hl]
  refine ⟨?_, ht⟩
  show (m.lookup e).1.map _ = _
  cases (m.lookup e).1 <;> rfl

/-- A question about each expression of a list is answered as the reference answers it. -/
theorem askEach {ask : Manager → Value → Except Fault Bool × Manager}
    {answer : Value → Except Fault Bool}
    (hask : ∀ {m}, Tracks m r → ∀ e, (ask m e).1 = answer e ∧ Tracks (ask m e).2 r)
    (h : Tracks m r) (mode : Mode) (es : List Value) :
    (Manager.askEach ask mode m es).1 = Reference.each answer mode es ∧
      Tracks (Manager.askEach ask mode m es).2 r := by
  induction es generalizing m with
  | nil => cases mode <;> exact ⟨rfl, h⟩
  | cons e es ih =>
    obtain ⟨ha, ht⟩ := hask h e
    rw [Manager.askEach, Reference.each_cons, ← ha]
    match hm : ask m e with
    | (.error x, m') =>
      rw [hm] at ht
      exact ⟨rfl, ht⟩
    | (.ok b, m') =>
      rw [hm] at ht
      simp only [Except.bind]
      split
      · exact ⟨rfl, ht⟩
      · exact ih ht

theorem conditions (h : Tracks m r) (es : List Value) :
    (m.conditions es).1 = r.conditions es ∧ Tracks (m.conditions es).2 r := by
  induction es generalizing m with
  | nil => exact ⟨rfl, h⟩
  | cons e es ih =>
    obtain ⟨hl, ht⟩ := h.lookup e
    rw [Manager.conditions, Reference.conditions_cons, ← hl]
    match hm : m.lookup e with
    | (.error x, m') =>
      rw [hm] at ht
      exact ⟨rfl, ht⟩
    | (.ok c?, m') =>
      rw [hm] at ht
      obtain ⟨hc, ht'⟩ := ih ht
      exact ⟨congrArg (Except.map _) hc, ht'⟩

/-- Settings that are refused leave the parser and what the cache holds of it. -/
theorem updateSettings (h : Tracks m r) (settings : Settings) :
    (m.perform (.updateSettings settings)).1 = (r.perform (.updateSettings settings)).1 ∧
      Tracks (m.perform (.updateSettings settings)).2 (r.perform (.updateSettings settings)).2 := by
  rw [Manager.perform, Manager.updateSettings, Reference.perform]
  cases settings.parser? with
  | ok parser => exact ⟨rfl, rfl, h.resolver, fun _ _ hm => absurd hm List.not_mem_nil⟩
  | error refusal => exact ⟨rfl, h.parser, h.resolver, h.cache⟩

/-- One step: manager and reference answer alike and stand alike afterwards. -/
theorem perform (h : Tracks m r) (q : Request) :
    (m.perform q).1 = (r.perform q).1 ∧ Tracks (m.perform q).2 (r.perform q).2 := by
  cases q with
  | evaluate subject e =>
    obtain ⟨ha, ht⟩ := h.evaluate subject e
    exact ⟨congrArg Answer.decision ha, ht⟩
  | evaluateEach subject mode es =>
    obtain ⟨ha, ht⟩ := h.askEach (fun h => h.evaluate subject) mode es
    exact ⟨congrArg Answer.decision ha, ht⟩
  | isValid e =>
    obtain ⟨ha, ht⟩ := h.isValid e
    exact ⟨congrArg Answer.decision ha, ht⟩
  | areValid es =>
    obtain ⟨ha, ht⟩ := h.askEach (fun h => h.isValid) .all es
    exact ⟨congrArg Answer.decision ha, ht⟩
  | describe e =>
    obtain ⟨ha, ht⟩ := h.describe e
    exact ⟨congrArg Answer.description ha, ht⟩
  | lookup e =>
    obtain ⟨ha, ht⟩ := h.lookup e
    exact ⟨congrArg Answer.condition ha, ht⟩
  | conditions es =>
    obtain ⟨ha, ht⟩ := h.conditions es
    exact ⟨congrArg Answer.conditions ha, ht⟩
  | clearCache => exact ⟨rfl, h.parser, h.resolver, fun _ _ hm => absurd hm List.not_mem_nil⟩
  | setResolver resolver => exact ⟨rfl, h.parser, rfl, h.cache⟩
  | updateSettings settings => exact h.updateSettings settings

theorem run (h : Tracks m r) (history : List Request) :
    (m.run history).1 = (r.run history).1 ∧ Tracks (m.run history).2 (r.run history).2 := by
  induction history generalizing m r with
  | nil => exact ⟨rfl, h⟩
  | cons q history ih =>
    obtain ⟨ha, ht⟩ := h.perform q
    obtain ⟨has, ht'⟩ := ih ht
    exact ⟨congrArg₂ List.cons ha has, ht'⟩

theorem create {resolver : Option Resolver} {settings : Settings} {parser? : Option Parser}
    (h : Manager.create resolver settings parser? = .ok m) :
    ∃ r, Reference.create resolver settings parser? = .ok r ∧ Tracks m r := by
  obtain ⟨parser, hp, rfl⟩ := (Manager.create_eq_ok_iff ..).1 h
  refine ⟨⟨parser, resolver⟩, ?_, rfl, rfl, fun _ _ hm => absurd hm List.not_mem_nil⟩
  cases parser? with
  | some own =>
    obtain rfl := Except.ok.inj hp
    rfl
  | none =>
    have hp : settings.parser? = .ok parser := hp
    rw [Reference.create, hp]
    rfl

theorem self (h : Tracks m r) : Tracks m ⟨m.parser, m.resolver⟩ :=
  ⟨rfl, rfl, h.parser ▸ h.cache⟩

end Tracks

/-- Every manager that there may be stands where a reference stands. -/
theorem Manager.Reachable.tracks {m : Manager} (h : m.Reachable) :
    Tracks m ⟨m.parser, m.resolver⟩ := by
  induction h with
  | created h =>
    obtain ⟨r, -, ht⟩ := Tracks.create h
    exact ht.self
  | performed _ q ih => exact (ih.perform q).2.self

/-- Whatever a manager is asked, it answers as the reference does, and its cache holds what the parser
in force makes of the expressions. -/
theorem run_eq_reference {resolver : Option Resolver} {settings : Settings}
    {parser? : Option Parser} {m : Manager}
    (h : Manager.create resolver settings parser? = .ok m) (history : List Request) :
    ∃ r, Reference.create resolver settings parser? = .ok r ∧
      (m.run history).1 = (r.run history).1 ∧
      (m.run history).2.parser = (r.run history).2.parser ∧
      Cache.Faithful (m.run history).2.parser (m.run history).2.cache := by
  obtain ⟨r, hr, ht⟩ := Tracks.create h
  obtain ⟨answers, ht'⟩ := ht.run history
  exact ⟨r, hr, answers, ht'.parser, ht'.parser ▸ ht'.cache⟩

theorem run_eq_reference_reload :
    ∃ m, Manager.create none {} (some ⟨⟨32, "32"⟩, .mark ['%']⟩) = .ok m ∧
      ∃ r, Reference.create none {} (some ⟨⟨32, "32"⟩, .mark ['%']⟩) = .ok r ∧
        (m.run [.lookup (.text "%a%"), .isValid (.text "any ["),
          .updateSettings { delimiter := .text "" }, .lookup (.text "%a%")]).1 =
        (r.run [.lookup (.text "%a%"), .isValid (.text "any ["),
          .updateSettings { delimiter := .text "" }, .lookup (.text "%a%")]).1 := by
  refine ⟨_, rfl, ?_⟩
  have created : Manager.create none {} (some ⟨⟨32, "32"⟩, .mark ['%']⟩) = .ok _ := rfl
  obtain ⟨r, hr, answers, -⟩ := run_eq_reference created _
  exact ⟨r, hr, answers⟩

end Gatekeeper
