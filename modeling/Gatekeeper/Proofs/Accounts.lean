import Gatekeeper.Proofs.Ledger

/-!
# Accounts

The counts and the cache of a manager against the ledger of its history. What one look-up preserves is
said once; requests that look up several expressions and whole histories follow by induction.
-/
namespace Gatekeeper

open Lookup

/-- A manager whose counts and whose cache agree with a ledger. -/
structure Balanced (m : Manager) (l : Ledger) : Prop where
  tracks : Tracks m l.reference
  keeps : m.settings.cacheInvalid.holds = l.keeps
  lookups : m.statistics.hits + m.statistics.misses = l.lookups.length
  misses : m.statistics.misses = l.misses.length
  parseFailures : m.statistics.parseFailures = l.misses.countP (·.result = .ok none)
  evaluationErrors : m.statistics.evaluationErrors = l.lookups.countP (·.raised)
  keys : m.cache.map Prod.fst = ((Lookup.misses l.present).filterMap key?).reverse

namespace Balanced

variable {m : Manager} {l : Ledger}

/-- What the ledger says of a hit is what the cache says. -/
theorem isHit_iff (h : Balanced m l) (k : Lookup) :
    k.isHit l.present = true ↔ m.cached? k.expression ≠ none := by
  rw [Manager.cached?.eq_def]
  split
  · next s he =>
    rw [isHit_of_mem he, ne_eq, Cache.lookup_eq_none_iff, h.keys, List.mem_reverse, mem_keys_misses_iff,
      not_not]
  · next hs =>
    rw [isHit.eq_def]
    split
    · next s he => exact absurd he (hs s)
    · simp

theorem map_fst_added (k : Lookup) :
    (Cache.added k.keeps k.expression k.result).map Prod.fst = k.key?.toList := by
  obtain ⟨e, result, keeps, raised⟩ := k
  rw [key?.eq_def]
  dsimp only
  split
  · rw [Cache.added, Cache.entryOf]
    split <;> rfl
  · next other =>
    rw [Cache.added.eq_def]
    split
    · next outcome =>
      rw [Cache.entryOf.eq_def]
      split
      · next s => exact absurd rfl (other s outcome rfl)
      · rfl
    · rfl

/-- One look-up, with the fault that may end the evaluation after it. -/
theorem record (h : Balanced m l) (subject? : Option Subject) (e : Value) (journal : Journal) :
    Balanced
      { (m.lookup e).2 with
        statistics.evaluationErrors := (m.lookup e).2.statistics.evaluationErrors +
          if l.reference.raises subject? e then 1 else 0
        journal }
      (l.record subject? e) := by
  have result : (m.parser.attempt e).1 = l.reference.lookup e := by
    rw [Reference.lookup, h.tracks.parser]
  obtain ⟨-, ht⟩ := h.tracks.lookup e
  have found := h.isHit_iff (l.entry subject? e)
  have errors : m.statistics.evaluationErrors + (if l.reference.raises subject? e then 1 else 0) =
      (l.record subject? e).lookups.countP (·.raised) := by
    show _ = (l.entry subject? e :: l.lookups).countP (·.raised)
    rw [List.countP_cons, h.evaluationErrors]
    rfl
  rcases Manager.lookup_cases h.tracks.self e with ⟨hc, hl⟩ | ⟨hc, journal', hl⟩
  · have hit : (l.entry subject? e).isHit l.present = true := found.2 hc
    have page : Lookup.misses (l.record subject? e).present = Lookup.misses l.present := if_pos hit
    have misses : (l.record subject? e).misses = l.misses := by
      rw [Ledger.misses, List.flatMap_cons, page]
      rfl
    rw [hl] at ht ⊢
    refine ⟨⟨ht.parser, ht.resolver, ht.cache⟩, h.keeps, ?_, ?_, ?_, errors, ?_⟩
    · have := h.lookups
      show m.statistics.hits + 1 + m.statistics.misses = l.lookups.length + 1
      omega
    · rw [misses]
      exact h.misses
    · rw [misses]
      exact h.parseFailures
    · rw [page]
      exact h.keys
  · have miss : ¬(l.entry subject? e).isHit l.present = true := by
      rw [found, not_not]
      exact hc
    have page : Lookup.misses (l.record subject? e).present =
        l.entry subject? e :: Lookup.misses l.present := if_neg miss
    have misses : (l.record subject? e).misses = l.entry subject? e :: l.misses := by
      rw [Ledger.misses, List.flatMap_cons, page]
      rfl
    rw [hl, result] at ht
    rw [hl, result]
    refine ⟨⟨ht.parser, ht.resolver, ht.cache⟩, h.keeps, ?_, ?_, ?_, errors, ?_⟩
    · have := h.lookups
      show m.statistics.hits + (m.statistics.misses + 1) = l.lookups.length + 1
      omega
    · rw [misses]
      exact congrArg (· + 1) h.misses
    · rw [misses, List.countP_cons, ← h.parseFailures]
      by_cases refused : l.reference.lookup e = .ok none <;> simp [Ledger.entry, refused]
    · have kept := map_fst_added (l.entry subject? e)
      rw [page, List.map_append, h.keys, h.keeps]
      refine (congrArg _ kept).trans ?_
      cases hk : (l.entry subject? e).key? with
      | none =>
        rw [List.filterMap_cons_none hk]
        exact List.append_nil _
      | some s =>
        rw [List.filterMap_cons_some hk, List.reverse_cons]
        rfl

theorem lookup (h : Balanced m l) (e : Value) : Balanced (m.lookup e).2 (l.record none e) :=
  h.record none e (m.lookup e).2.journal

theorem evaluate (h : Balanced m l) (subject : Subject) (e : Value) :
    Balanced (m.evaluate subject e).2 (l.record (some subject) e) := by
  obtain ⟨hr, ht⟩ := h.tracks.lookup e
  have hl : m.lookup e = (l.reference.lookup e, (m.lookup e).2) := Prod.ext hr rfl
  have recorded := h.record (some subject) e
  match hc : l.reference.lookup e with
  | .error fault =>
    have ended : m.evaluate subject e = (.error fault, (m.lookup e).2) := by
      rw [Manager.evaluate, hl, hc]
    have calm : l.reference.raises (some subject) e = false := by
      simp [Reference.raises, hc]
    specialize recorded (m.lookup e).2.journal
    rw [calm] at recorded
    rw [ended]
    exact recorded
  | .ok none =>
    have decided : m.evaluate subject e = (.ok false, (m.lookup e).2) := by
      rw [Manager.evaluate, hl, hc]
    have calm : l.reference.raises (some subject) e = false := by
      simp [Reference.raises, hc]
    specialize recorded (m.lookup e).2.journal
    rw [calm] at recorded
    rw [decided]
    exact recorded
  | .ok (some c) =>
    rw [hc] at hl
    have raises : l.reference.raises (some subject) e =
        decide (c.Raises subject (m.lookup e).2.resolver) := by
      simp [Reference.raises, hc, ht.resolver]
    obtain ⟨journal, hj⟩ := Manager.judge_eq (m.lookup e).2 subject e c
    specialize recorded journal
    rw [raises] at recorded
    rw [Manager.evaluate_of_lookup hl, hj]
    simpa only [decide_eq_true_eq] using recorded

/-- Asking about each expression of a list in turn, up to the one after which no more is asked. -/
theorem askEach {ask : Manager → Value → Except Fault Bool × Manager} {subject? : Option Subject}
    {mode : Mode} {r : Reference} {answer : Value → Except Fault Bool}
    (step : ∀ {m l}, Balanced m l → l.reference = r → ∀ e,
      (ask m e).1 = answer e ∧ Balanced (ask m e).2 (l.record subject? e))
    (h : Balanced m l) (hr : l.reference = r) (es : List Value) :
    Balanced (Manager.askEach ask mode m es).2
      ((upTo (fun e => mode.ends (answer e)) es).foldl (Ledger.record · subject?) l) := by
  induction es generalizing m l with
  | nil => exact h
  | cons e es ih =>
    obtain ⟨ha, recorded⟩ := step h hr e
    rw [Manager.askEach, show ask m e = (answer e, (ask m e).2) from Prod.ext ha rfl, upTo_cons]
    cases answer e with
    | error fault => exact recorded
    | ok b =>
      by_cases decisive : b = mode.decisive
      · obtain rfl := decisive
        have ends : mode.ends (.ok mode.decisive) = true := beq_self_eq_true _
        simp only [ends, if_true]
        exact recorded
      · have goes : mode.ends (.ok b) = false := beq_eq_false_iff_ne.2 decisive
        simp only [goes, decisive, if_false, Bool.false_eq_true]
        exact ih recorded hr

theorem conditions (h : Balanced m l) {r : Reference} (hr : l.reference = r) (es : List Value) :
    Balanced (m.conditions es).2
      ((upTo (fun e => !(r.lookup e).isOk) es).foldl (Ledger.record · none) l) := by
  induction es generalizing m l with
  | nil => exact h
  | cons e es ih =>
    have hl : m.lookup e = (r.lookup e, (m.lookup e).2) :=
      Prod.ext (hr ▸ (h.tracks.lookup e).1) rfl
    rw [Manager.conditions, hl, upTo_cons]
    cases r.lookup e with
    | error fault => exact h.lookup e
    | ok outcome => exact ih (h.lookup e) hr

theorem evaluateEach (h : Balanced m l) (subject : Subject) (mode : Mode) (es : List Value) :
    Balanced (m.evaluateEach subject mode es).2 (l.perform (.evaluateEach subject mode es)) :=
  askEach (fun h hr e => ⟨hr ▸ (h.tracks.evaluate subject e).1, h.evaluate subject e⟩) h rfl es

theorem areValid (h : Balanced m l) (es : List Value) :
    Balanced (m.areValid es).2 (l.perform (.areValid es)) :=
  askEach (fun h hr e => ⟨hr ▸ (h.tracks.isValid e).1, h.lookup e⟩) h rfl es

/-- A reset of the cache turns the page. -/
theorem clear (h : Balanced m l) {m' : Manager} {l' : Ledger} (tracks : Tracks m' l'.reference)
    (keeps : m'.settings.cacheInvalid.holds = l'.keeps) (statistics : m'.statistics = m.statistics)
    (cache : m'.cache = []) (present : l'.present = []) (past : l'.past = l.present :: l.past) :
    Balanced m' l' := by
  have lookups : l'.lookups = l.lookups := by
    rw [Ledger.lookups, present, past]
    rfl
  have misses : l'.misses = l.misses := by
    rw [Ledger.misses, present, past]
    rfl
  refine ⟨tracks, keeps, ?_, ?_, ?_, ?_, ?_⟩
  · rw [statistics, lookups, h.lookups]
  · rw [statistics, misses, h.misses]
  · rw [statistics, misses, h.parseFailures]
  · rw [statistics, lookups, h.evaluationErrors]
  · rw [cache, present]
    rfl

theorem updateSettings (h : Balanced m l) (settings : Settings) :
    Balanced (m.perform (.updateSettings settings)).2 (l.perform (.updateSettings settings)) := by
  have ht := (h.tracks.perform (.updateSettings settings)).2
  rw [Reference.perform, Manager.perform, Manager.updateSettings] at ht
  rw [Ledger.perform, Manager.perform, Manager.updateSettings]
  cases hp : settings.parser? with
  | ok parser =>
    rw [hp] at ht
    exact h.clear ht rfl rfl rfl rfl rfl
  | error refusal =>
    rw [hp] at ht
    exact ⟨ht, rfl, h.lookups, h.misses, h.parseFailures, h.evaluationErrors, h.keys⟩

/-- One step: the manager and its ledger agree after whatever request. -/
theorem perform (h : Balanced m l) (q : Request) : Balanced (m.perform q).2 (l.perform q) := by
  cases q with
  | evaluate subject e => exact h.evaluate subject e
  | evaluateEach subject mode es => exact h.evaluateEach subject mode es
  | isValid e | describe e | lookup e => exact h.lookup e
  | areValid es => exact h.areValid es
  | conditions es => exact h.conditions rfl es
  | clearCache => exact h.clear (h.tracks.perform .clearCache).2 h.keeps rfl rfl rfl rfl
  | setResolver resolver =>
    exact ⟨(h.tracks.perform (.setResolver resolver)).2, h.keeps, h.lookups, h.misses,
      h.parseFailures, h.evaluationErrors, h.keys⟩
  | updateSettings settings => exact h.updateSettings settings

theorem run (h : Balanced m l) (history : List Request) :
    Balanced (m.run history).2 (l.run history) := by
  induction history generalizing m l with
  | nil => exact h
  | cons q history ih => exact ih (h.perform q)

theorem start {resolver : Option Resolver} {settings : Settings} {parser? : Option Parser}
    (h : Manager.create resolver settings parser? = .ok m) : Balanced m (Ledger.start m) := by
  obtain ⟨r, -, ht⟩ := Tracks.create h
  obtain ⟨parser, -, rfl⟩ := (Manager.create_eq_ok_iff ..).1 h
  exact ⟨ht.self, rfl, rfl, rfl, rfl, rfl, rfl⟩

end Balanced

/-- What the counts and the cache of a manager say of the ledger of its history. -/
structure Accounts (m : Manager) (l : Ledger) : Prop where
  lookups : m.statistics.hits + m.statistics.misses = l.lookups.length
  misses : m.statistics.misses = l.misses.length
  parseFailures : m.statistics.parseFailures = l.misses.countP (·.result = .ok none)
  evaluationErrors : m.statistics.evaluationErrors = l.lookups.countP (·.raised)
  /-- Since the last reset the texts that are accepted, and the others while they are remembered, are
  the keys of the cache. -/
  mem_keys : ∀ s, s ∈ m.cache.map Prod.fst ↔ ∃ k ∈ l.present, k.expression = .text s ∧ k.IsKept
  nodup_keys : (m.cache.map Prod.fst).Nodup
  size : m.cache.length = (l.present.filterMap key?).dedup.length
  /-- Each key is that of one miss since the last reset. -/
  once : ∀ s ∈ m.cache.map Prod.fst, (Lookup.misses l.present).countP (·.key? == some s) = 1
  /-- The other misses are refused expressions that are not remembered, and faults. -/
  others : ∀ k ∈ Lookup.misses l.present, k.key? = none → (∃ fault, k.result = .error fault) ∨
    k.result = .ok none ∧ ∀ s, k.expression = .text s → k.keeps = false

theorem Balanced.accounts {m : Manager} {l : Ledger} (h : Balanced m l) (current : l.IsCurrent) :
    Accounts m l := by
  have keys (s : String) : s ∈ m.cache.map Prod.fst ↔ s ∈ l.present.filterMap key? := by
    rw [h.keys, List.mem_reverse, mem_keys_misses_iff]
  have nodup : (m.cache.map Prod.fst).Nodup := by
    rw [h.keys, List.nodup_reverse]
    exact nodup_keys_misses l.present
  refine ⟨h.lookups, h.misses, h.parseFailures, h.evaluationErrors, ?_, nodup, ?_, ?_, ?_⟩
  · intro s
    rw [keys, List.mem_filterMap]
    exact exists_congr fun k => and_congr_right fun _ => key?_eq_some_iff k s
  · have same : (m.cache.map Prod.fst).Perm (l.present.filterMap key?).dedup := by
      rw [List.perm_ext_iff_of_nodup nodup (List.nodup_dedup _)]
      exact fun s => (keys s).trans List.mem_dedup.symm
    rw [← same.length_eq, List.length_map]
  · intro s hs
    rw [h.keys, List.mem_reverse] at hs
    rw [← List.count_filterMap]
    exact List.count_eq_one_of_mem (nodup_keys_misses l.present) hs
  · intro k hk forgotten
    exact current.forgotten (mem_of_mem_misses hk) forgotten

/-- As long as no settings are refused, those in force say whether refused expressions are remembered,
and a miss on a key of the cache is the one that the key is of. -/
theorem Accounts.steady {m : Manager} {l : Ledger} (h : Accounts m l) (current : l.IsCurrent)
    (steady : l.IsSteady) {s : String} (hs : s ∈ m.cache.map Prod.fst) {k : Lookup}
    (hk : k ∈ Lookup.misses l.present) (he : k.expression = .text s) : k.key? = some s := by
  obtain ⟨k', hk', he', kept⟩ := (h.mem_keys s).1 hs
  have here := mem_of_mem_misses hk
  have result : k.result = k'.result := by rw [current k here, current k' hk', he, he']
  have keeps : k.keeps = k'.keeps := (steady k here).trans (steady k' hk').symm
  exact (key?_eq_some_iff k s).2 ⟨he, by rwa [IsKept, result, keeps]⟩

/-- Counts and cache of a manager after any history, against the ledger of the history. Only values that
cannot be written are looked up without a result. If no settings have been refused since the page at hand
was empty, those in force are the ones by which it has been remembered. -/
theorem run_accounts {resolver : Option Resolver} {settings : Settings} {parser? : Option Parser}
    {m : Manager} (h : Manager.create resolver settings parser? = .ok m) {mark : String}
    (hd : m.parser.delimiter = .ofValue (.text mark)) {history : List Request}
    (texts : ∀ settings, .updateSettings settings ∈ history →
      ∃ mark, settings.delimiter = .text mark) :
    Accounts (m.run history).2 ((Ledger.start m).run history) ∧
      (∀ k ∈ ((Ledger.start m).run history).lookups, ∀ fault, k.result = .error fault →
        k.expression.isWritable = false) ∧
      ∀ before after, history = before ++ after → ((Ledger.start m).run before).present = [] →
        (∀ settings, .updateSettings settings ∈ after → ∃ parser, settings.parser? = .ok parser) →
        (∀ k ∈ ((Ledger.start m).run history).present,
          k.keeps = (m.run history).2.settings.cacheInvalid.holds) ∧
        ∀ s ∈ (m.run history).2.cache.map Prod.fst,
          ∀ k ∈ Lookup.misses ((Ledger.start m).run history).present,
            k.expression = .text s → k.key? = some s := by
  have balanced := (Balanced.start h).run history
  have current : ((Ledger.start m).run history).IsCurrent :=
    Ledger.IsCurrent.run (fun _ hk => absurd hk List.not_mem_nil) history
  have marked : ((Ledger.start m).run history).IsMarked :=
    Ledger.IsMarked.run ⟨⟨mark, hd⟩, fun _ hk => absurd hk List.not_mem_nil⟩ texts
  refine ⟨balanced.accounts current, marked.faults, fun before after parts fresh accepted => ?_⟩
  have steady : ((Ledger.start m).run history).IsSteady := by
    have empty : ((Ledger.start m).run before).IsSteady := fun k hk => by
      rw [fresh] at hk
      cases hk
    have joined : (Ledger.start m).run history = ((Ledger.start m).run before).run after := by
      rw [parts, Ledger.run, List.foldl_append]
      rfl
    rw [joined]
    exact empty.run accepted
  refine ⟨fun k hk => (steady k hk).trans balanced.keeps.symm, fun s hs k hk he => ?_⟩
  exact (balanced.accounts current).steady current steady hs hk he

theorem run_accounts_reload :
    ∃ m history, Manager.create none {} (some ⟨⟨32, "32"⟩, .ofValue (.text "%")⟩) = .ok m ∧
      history = [.lookup (.text "a"), .updateSettings { maxDepth := .int 500 },
        .areValid [.text "any [", .int 1], .clearCache, .isValid (.text "any ["),
        .evaluate ⟨fun _ => .ok true, none⟩ (.text "a")] ∧
      Accounts (m.run history).2 ((Ledger.start m).run history) ∧
      ∀ k ∈ ((Ledger.start m).run history).present,
        k.keeps = (m.run history).2.settings.cacheInvalid.holds := by
  let before : List Request := [.lookup (.text "a"), .updateSettings { maxDepth := .int 500 },
    .areValid [.text "any [", .int 1], .clearCache]
  let after : List Request := [.isValid (.text "any ["),
    .evaluate ⟨fun _ => .ok true, none⟩ (.text "a")]
  have created : Manager.create none {} (some ⟨⟨32, "32"⟩, .ofValue (.text "%")⟩) = .ok _ := rfl
  have texts (settings : Settings) (hm : .updateSettings settings ∈ before ++ after) :
      ∃ mark, settings.delimiter = .text mark := by
    obtain rfl : settings = { maxDepth := .int 500 } := by simpa [before, after] using hm
    exact ⟨"%", rfl⟩
  have accepted (settings : Settings) (hm : .updateSettings settings ∈ after) :
      ∃ parser, settings.parser? = .ok parser := by
    simp [after] at hm
  have delimiter : (Parser.mk ⟨32, "32"⟩ (.ofValue (.text "%"))).delimiter = .ofValue (.text "%") := rfl
  obtain ⟨accounts, -, steady⟩ := run_accounts created delimiter texts
  exact ⟨_, before ++ after, created, rfl, accounts, (steady before after rfl rfl accepted).1⟩

/-- Settings that are refused leave a refused expression among the keys when it should not be there, and
let one key come from two misses. A value that cannot be written is looked up and not refused, and nothing
behind it is looked up. -/
theorem run_accounts_refused :
    ∃ m off : Manager, Manager.create none {} (some ⟨⟨32, "32"⟩, .ofValue (.text "%")⟩) = .ok m ∧
      off = (m.run [.updateSettings { cacheInvalid := .bool false }]).2 ∧
      (m.lookup (.text "any [")).1 = .ok none ∧
      (∃ after, after = (m.run [.lookup (.text "any ["),
          .updateSettings { maxDepth := .int 500, cacheInvalid := .bool false }]).2 ∧
        after.settings.cacheInvalid.holds = false ∧ after.cache.map Prod.fst = ["any ["]) ∧
      (∃ after, after = (off.run [.lookup (.text "any ["), .updateSettings { maxDepth := .int 500 },
          .lookup (.text "any [")]).2 ∧
        off.statistics.misses = 0 ∧ after.statistics.misses = 2 ∧
        after.cache.map Prod.fst = ["any ["]) ∧
      ∃ after, after = (m.run [.evaluateEach ⟨fun _ => .ok true, none⟩ .any
          [.int (Nat.pow 10 5000), .text "a"]]).2 ∧
        after.statistics = { misses := 1 } ∧ after.cache = [] := by
  have created : Manager.create none {} (some ⟨⟨32, "32"⟩, .ofValue (.text "%")⟩) = .ok _ := rfl
  exact ⟨_, _, created, rfl, by decide +kernel, ⟨_, rfl, by decide +kernel⟩,
    ⟨_, rfl, by decide +kernel⟩, _, rfl, by decide +kernel⟩

end Gatekeeper
