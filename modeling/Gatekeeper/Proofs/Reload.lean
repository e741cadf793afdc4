import Gatekeeper.Proofs.Sufficiency

/-!
# New settings for a manager

A manager that takes new settings forgets its cache and stands where a new manager with these settings
stands. Settings whose limit is out of range are refused, as they are for a new manager, and nothing
that the manager answers changes. It shows them nevertheless from then on, and goes by them in what it
remembers.
-/
namespace Gatekeeper

/-- The settings are in force: the manager answers like a new one, and goes on counting. -/
structure Reloaded (m : Manager) (settings : Settings) (m' : Manager) : Prop where
  shown : m'.settings = settings
  limit : DepthLimit.ofValue settings.maxDepth = .ok m'.parser.limit
  delimiter : m'.parser.delimiter = .ofValue settings.delimiter
  cache : m'.cache = []
  resolver : m'.resolver = m.resolver
  statistics : m'.statistics = m.statistics
  answers : ∃ new, Manager.create m.resolver settings none = .ok new ∧
    ∀ history, (m'.run history).1 = (new.run history).1

/-- The settings show, and the manager remembers by them, but they are not in force: it answers as
before. -/
structure Misled (m : Manager) (settings : Settings) (refusal : DepthLimit.Refusal) (m' : Manager) :
    Prop where
  shown : m'.settings = settings
  limit : DepthLimit.ofValue settings.maxDepth = .error refusal
  parser : m'.parser = m.parser
  cache : m'.cache = m.cache
  resolver : m'.resolver = m.resolver
  statistics : m'.statistics = m.statistics
  refused : Manager.create m.resolver settings none = .error refusal
  remembers : ∀ e outcome, m.cached? e = none → (m.parser.attempt e).1 = .ok outcome →
    (m'.lookup e).2.cache = m.cache ++ Cache.entryOf settings.cacheInvalid.holds e outcome
  answers : ∀ history, (m'.run history).1 = (m.run history).1

/-- Managers that stand where one reference stands answer alike. -/
theorem Tracks.run_eq {m m' : Manager} {r : Reference} (h : Tracks m r) (h' : Tracks m' r)
    (history : List Request) : (m'.run history).1 = (m.run history).1 := by
  rw [(h'.run history).1, (h.run history).1]

theorem Settings.parser?_eq_error_iff (settings : Settings) (refusal : DepthLimit.Refusal) :
    settings.parser? = .error refusal ↔ DepthLimit.ofValue settings.maxDepth = .error refusal := by
  rw [parser?, Parser.ofValues]
  cases DepthLimit.ofValue settings.maxDepth <;> simp [bind, Except.bind, pure, Except.pure]

namespace Manager

variable {m : Manager} {settings : Settings}

theorem updateSettings_of_ok {parser : Parser} (hp : settings.parser? = .ok parser) :
    ∃ journal, m.updateSettings settings =
      (.ok (), { m with settings, parser, cache := [], journal }) := by
  rw [updateSettings, hp]
  exact ⟨_, rfl⟩

theorem updateSettings_of_error {refusal : DepthLimit.Refusal}
    (hp : settings.parser? = .error refusal) :
    ∃ journal, m.updateSettings settings = (.error refusal, { m with settings, journal }) := by
  rw [updateSettings, hp]
  exact ⟨_, rfl⟩

theorem reloaded {parser : Parser} (hp : settings.parser? = .ok parser) :
    (m.updateSettings settings).1 = .ok () ∧ Reloaded m settings (m.updateSettings settings).2 := by
  obtain ⟨journal, step⟩ := updateSettings_of_ok (m := m) hp
  have tracks : Tracks { m with settings, parser, cache := [], journal } ⟨parser, m.resolver⟩ :=
    ⟨rfl, rfl, fun _ _ hm => absurd hm List.not_mem_nil⟩
  have created := (create_eq_ok_iff m.resolver settings none _).2 ⟨parser, hp, rfl⟩
  obtain ⟨limit, hl, rfl⟩ := (settings.parser?_eq_ok_iff parser).1 hp
  rw [step]
  exact ⟨rfl, rfl, hl, rfl, rfl, rfl, rfl, _, created,
    (Reachable.created created).tracks.run_eq tracks⟩

theorem misled (h : Tracks m ⟨m.parser, m.resolver⟩) {refusal : DepthLimit.Refusal}
    (hp : settings.parser? = .error refusal) :
    (m.updateSettings settings).1 = .error refusal ∧
      Misled m settings refusal (m.updateSettings settings).2 := by
  obtain ⟨journal, step⟩ := updateSettings_of_error (m := m) hp
  have tracks : Tracks { m with settings, journal } ⟨m.parser, m.resolver⟩ := ⟨rfl, rfl, h.cache⟩
  have refused : create m.resolver settings none = .error refusal := by
    rw [create, hp]
    rfl
  have remembers (e : Value) (outcome : Option Condition) (new : m.cached? e = none)
      (outcome_eq : (m.parser.attempt e).1 = .ok outcome) :
      (lookup { m with settings, journal } e).2.cache =
        m.cache ++ Cache.entryOf settings.cacheInvalid.holds e outcome := by
    have untouched : cached? { m with settings, journal } e = none := new
    obtain ⟨journal', miss⟩ := lookup_miss untouched
    rw [miss]
    show m.cache ++ Cache.added _ e (m.parser.attempt e).1 = _
    rw [outcome_eq]
    rfl
  rw [step]
  exact ⟨rfl, rfl, (settings.parser?_eq_error_iff refusal).1 hp, rfl, rfl, rfl, rfl, refused,
    remembers, h.run_eq tracks⟩

end Manager

/-- A manager that is given settings has them in force when it returns. If it refuses them it shows them
all the same, but nothing that it answers changes. -/
theorem updateSettings_settles {m : Manager} (h : m.Reachable) (settings : Settings) :
    ((m.updateSettings settings).1 = .ok () →
      Reloaded m settings (m.updateSettings settings).2) ∧
    ∀ refusal, (m.updateSettings settings).1 = .error refusal →
      Misled m settings refusal (m.updateSettings settings).2 := by
  cases hp : settings.parser? with
  | ok parser =>
    obtain ⟨returns, reloaded⟩ := Manager.reloaded (m := m) hp
    rw [returns]
    exact ⟨fun _ => reloaded, by simp⟩
  | error refusal =>
    obtain ⟨raises, misled⟩ := Manager.misled h.tracks hp
    rw [raises]
    refine ⟨by simp, fun other same => ?_⟩
    cases same
    exact misled

/-- A limit that is too great is shown after it was refused, and with it came the order to forget what
is refused. -/
theorem updateSettings_settles_refused :
    ∃ m : Manager, ∃ settings : Settings, ∃ refusal, m.Reachable ∧
      (m.updateSettings settings).1 = .error refusal ∧
      m.settings.maxDepth = .int 32 ∧ (m.updateSettings settings).2.settings.maxDepth = .int 500 ∧
      (m.isValid (.text "[")).2.cache = [("[", none)] ∧
      ((m.updateSettings settings).2.isValid (.text "[")).2.cache = [] := by
  have created := Manager.create_default none
  have refused : (Settings.parser? { maxDepth := .int 500, cacheInvalid := .bool false }) =
      .error (.outOfRange "500") := by decide +kernel
  obtain ⟨raises, misled⟩ := Manager.misled (Manager.Reachable.created created).tracks refused
  exact ⟨_, _, _, .created created, raises, rfl, congrArg Settings.maxDepth misled.shown,
    by decide +kernel, by decide +kernel⟩

/-- A manager with something to forget is given a delimiter, and then a limit that is no number. -/
theorem updateSettings_settles_twice :
    ∃ m : Manager, m.Reachable ∧ m.cache ≠ [] ∧
      (m.updateSettings { delimiter := .text "$" }).1 = .ok () ∧
      Reloaded m { delimiter := .text "$" } (m.updateSettings { delimiter := .text "$" }).2 ∧
      ∃ refusal, (m.updateSettings { maxDepth := .null }).1 = .error refusal ∧
        Misled m { maxDepth := .null } refusal (m.updateSettings { maxDepth := .null }).2 := by
  have created := Manager.create_default none
  have reachable := (Manager.Reachable.created created).performed (.isValid (.text "a"))
  have taken : Settings.parser? { delimiter := .text "$" } = .ok _ :=
    Grammar.ofValues_int (m := 32) (by decide) (by decide) (.text "$")
  have refused : Settings.parser? { maxDepth := .null } =
      .error (.mismatch (.incomparable "<=" "int" "NoneType")) := by decide +kernel
  obtain ⟨returns, -⟩ := Manager.reloaded taken
  obtain ⟨raises, -⟩ := Manager.misled reachable.tracks refused
  exact ⟨_, reachable, by decide +kernel, returns, (updateSettings_settles reachable _).1 returns, _,
    raises, (updateSettings_settles reachable _).2 _ raises⟩

end Gatekeeper
