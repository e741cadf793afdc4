import Gatekeeper.Proofs.Composition
import Gatekeeper.Proofs.Effect
import Gatekeeper.Proofs.Refusal

/-!
# In doubt against the subject

A manager whose parser has a text for its delimiter answers whatever it is asked about a value that can
be written, and it decides for a subject only if the expression is accepted and its condition is true. A
fault anywhere in the evaluation decides against the subject, is counted once, and leaves nothing else
behind. Two faults go through: that of showing a refused value that cannot be written, and that of asking
the host application for the message of a fault that it does not tell.
-/
namespace Gatekeeper

/-- What becomes of a manager that decides an accepted expression when a fault ends the evaluation:
beyond the count of the fault it shows the look-up of the expression and nothing else. -/
structure FaultCounted (m : Manager) (e : Value) (c : Condition) (m' : Manager) : Prop where
  settings : m'.settings = m.settings
  parser : m'.parser = m.parser
  resolver : m'.resolver = m.resolver
  cache : m'.cache = m.cache ∨ ∃ s, e = .text s ∧ m.cached? e = none ∧
    m'.cache = m.cache ++ [(s, some c)]
  lookups : m'.statistics.hits = m.statistics.hits + 1 ∧ m'.statistics.misses = m.statistics.misses ∨
    m'.statistics.hits = m.statistics.hits ∧ m'.statistics.misses = m.statistics.misses + 1
  parseFailures : m'.statistics.parseFailures = m.statistics.parseFailures
  evaluationErrors : m'.statistics.evaluationErrors = m.statistics.evaluationErrors + 1

theorem Parser.exists_text_of_parseValue {parser : Parser} {e : Value} {c : Condition}
    (h : parser.parseValue e = .ok c) : ∃ s, e = .text s ∧ parser.parse s = .ok c := by
  rw [parseValue.eq_def] at h
  split at h
  · next s => exact ⟨s, rfl, h⟩
  · obtain ⟨shown, -, refused⟩ := (bind_eq_ok_iff ..).1 h
    cases refused

theorem Parser.attempt_eq_some_iff (parser : Parser) (e : Value) (c : Condition) :
    (parser.attempt e).1 = .ok (some c) ↔ parser.parseValue e = .ok c := by
  rw [attempt]
  cases parser.parseValue e with
  | ok c' => simp
  | error x => cases x <;> simp

namespace Manager

/-- Whatever expression that can be written it is asked about, the manager has an answer: its parser
accepts the expression or refuses it, and a fault that can be told is an answer, too. -/
structure Answers (m : Manager) : Prop where
  parse : ∀ s, (∃ c, m.parser.parse s = .ok c) ∨ ∃ e, m.parser.parse s = .error (.refused e)
  lookup : ∀ e, e.isWritable = true → ∃ outcome, (m.lookup e).1 = .ok outcome
  isValid : ∀ e, e.isWritable = true → ∃ valid, (m.isValid e).1 = .ok valid
  describe : ∀ e, e.isWritable = true → ∃ text, (m.describe e).1 = .ok text
  evaluate : ∀ subject e, e.isWritable = true →
    (∀ c, m.parser.parseValue e = .ok c → c.IsTold subject m.resolver) →
    ∃ answer, (m.evaluate subject e).1 = .ok answer

/-- Asked about an expression, the manager has no answer, but a fault comes out of it. -/
structure Fails (m : Manager) (e : Value) (fault : Fault) : Prop where
  parse : m.parser.parseValue e = .error (.raised fault)
  lookup : (m.lookup e).1 = .error fault
  isValid : (m.isValid e).1 = .error fault
  describe : (m.describe e).1 = .error fault
  evaluate : ∀ subject, (m.evaluate subject e).1 = .error fault

variable {m : Manager} {mark : String}

theorem isValid_eq (ht : Tracks m ⟨m.parser, m.resolver⟩) (e : Value) :
    (m.isValid e).1 = (m.parser.attempt e).1.map Option.isSome :=
  congrArg (Except.map Option.isSome) (ht.lookup e).1

theorem describe_eq (ht : Tracks m ⟨m.parser, m.resolver⟩) (e : Value) :
    (m.describe e).1 = (m.parser.attempt e).1.map (·.map Condition.describe) :=
  congrArg (Except.map (Option.map Condition.describe)) (ht.lookup e).1

theorem evaluate_eq (ht : Tracks m ⟨m.parser, m.resolver⟩) (subject : Subject) (e : Value) :
    (m.evaluate subject e).1 = (m.parser.attempt e).1.bind fun c? =>
      c?.elim (.ok false) (Reference.judge ⟨m.parser, m.resolver⟩ subject) := by
  rw [(ht.evaluate subject e).1, Reference.evaluate, Reference.lookup]
  cases (m.parser.attempt e).1 with
  | ok c? => cases c? <;> rfl
  | error fault => rfl

theorem evaluate_of_parsed (ht : Tracks m ⟨m.parser, m.resolver⟩) {e : Value} {c : Condition}
    (hp : m.parser.parseValue e = .ok c) (subject : Subject) :
    (m.evaluate subject e).1 = Reference.judge ⟨m.parser, m.resolver⟩ subject c := by
  rw [evaluate_eq ht, (Parser.attempt_eq_some_iff ..).2 hp]
  rfl

/-- What is not accepted is decided without the subject. -/
theorem evaluate_of_unparsed (ht : Tracks m ⟨m.parser, m.resolver⟩) {e : Value} {x : ParseFailure}
    (hp : m.parser.parseValue e = .error x) (subject : Subject) :
    (m.evaluate subject e).1 = (m.parser.attempt e).1.map fun _ => false := by
  rw [evaluate_eq ht, Parser.attempt, hp]
  cases x <;> rfl

/-- A manager decides for a subject just if the expression is accepted and its condition is true. -/
theorem evaluate_eq_true_iff (ht : Tracks m ⟨m.parser, m.resolver⟩) (subject : Subject) (e : Value) :
    (m.evaluate subject e).1 = .ok true ↔ ∃ c, m.parser.parseValue e = .ok c ∧
      (c.evaluate subject m.resolver).outcome = .ok true := by
  cases hp : m.parser.parseValue e with
  | error x =>
    rw [evaluate_of_unparsed ht hp]
    cases (m.parser.attempt e).1 <;> simp [Except.map]
  | ok c =>
    rw [evaluate_of_parsed ht hp, Reference.judge_eq_true_iff]
    simp

/-- A fault of the evaluation is counted, and the manager stays as the look-up leaves it. -/
theorem faultCounted (ht : Tracks m ⟨m.parser, m.resolver⟩) {subject : Subject} {e : Value}
    {c : Condition} (hp : m.parser.parseValue e = .ok c) (hr : c.Raises subject m.resolver) :
    FaultCounted m e c (m.evaluate subject e).2 := by
  obtain ⟨s, rfl, -⟩ := Parser.exists_text_of_parseValue hp
  have accepted := (Parser.attempt_eq_some_iff ..).2 hp
  rcases lookup_cases ht (.text s) with ⟨-, hl⟩ | ⟨hc, journal, hl⟩
  · rw [accepted] at hl
    obtain ⟨journal, hj⟩ := judge_eq m.countHit subject (.text s) c
    rw [evaluate_of_lookup hl, hj]
    exact ⟨rfl, rfl, rfl, .inl rfl, .inl ⟨rfl, rfl⟩, rfl, congrArg _ (if_pos hr)⟩
  · rw [accepted] at hl
    rw [evaluate_of_lookup hl]
    obtain ⟨journal', hj⟩ := judge_eq _ subject (.text s) c
    rw [hj]
    exact ⟨rfl, rfl, rfl, .inr ⟨s, rfl, hc, rfl⟩, .inr ⟨rfl, rfl⟩, rfl, congrArg _ (if_pos hr)⟩

theorem Reachable.answers (h : m.Reachable) (hd : m.parser.delimiter = .ofValue (.text mark)) :
    m.Answers where
  parse s := (Parser.isConclusive_parse hd s).ok_or_refused
  lookup e writable := ⟨_, (h.tracks.lookup e).1.trans (Parser.attempt_eq hd writable)⟩
  isValid e writable := by
    rw [isValid_eq h.tracks, Parser.attempt_eq hd writable]
    exact ⟨_, rfl⟩
  describe e writable := by
    rw [describe_eq h.tracks, Parser.attempt_eq hd writable]
    exact ⟨_, rfl⟩
  evaluate subject e writable told := by
    cases hp : m.parser.parseValue e with
    | error x =>
      rw [evaluate_of_unparsed h.tracks hp, Parser.attempt_eq hd writable]
      exact ⟨_, rfl⟩
    | ok c =>
      rw [evaluate_of_parsed h.tracks hp]
      exact Reference.exists_answer_of_isTold (told c hp)

/-- What the cache holds has been accepted or refused, so a fault is never hidden by it. -/
theorem Reachable.fails (h : m.Reachable) {e : Value} {fault : Fault}
    (hx : m.parser.parseValue e = .error (.raised fault)) : m.Fails e fault := by
  have ha : (m.parser.attempt e).1 = .error fault := by rw [Parser.attempt, hx]
  refine ⟨hx, (h.tracks.lookup e).1.trans ha, ?_, ?_, fun subject => ?_⟩
  · rw [isValid_eq h.tracks, ha]
    rfl
  · rw [describe_eq h.tracks, ha]
    rfl
  · rw [evaluate_eq h.tracks, ha]
    rfl

end Manager

/-- Whatever has happened to it, a manager decides for a subject only if an accepted expression is true
of it, and counts a fault of a leaf, which decides against the subject. It answers unless the fault of a
leaf cannot be told or the value that it is asked about cannot be written. -/
theorem evaluate_fails_closed {m : Manager} (h : m.Reachable) {mark : String}
    (hd : m.parser.delimiter = .ofValue (.text mark)) (subject : Subject) (e : Value) :
    m.Answers ∧ (e.isWritable = false → m.Fails e .unwritable) ∧
    ((m.evaluate subject e).1 = .ok true ↔ ∃ c, m.parser.parseValue e = .ok c ∧
      (c.evaluate subject m.resolver).outcome = .ok true) ∧
    ∀ c, m.parser.parseValue e = .ok c →
      (c.Raises subject m.resolver ∨
        ∃ leaf ∈ c.visited subject m.resolver, leaf.Raises subject m.resolver) →
      FaultCounted m e c (m.evaluate subject e).2 ∧
      ∃ fault, (c.evaluate subject m.resolver).outcome = .error fault ∧
        (∀ message, fault.message? = .ok message → (m.evaluate subject e).1 = .ok false) ∧
        ∀ asking, fault.message? = .error asking → (m.evaluate subject e).1 = .error asking := by
  have ht := h.tracks
  refine ⟨h.answers hd, fun unwritable => h.fails (Parser.parseValue_of_unwritable unwritable),
    Manager.evaluate_eq_true_iff ht subject e, fun c hp hr => ?_⟩
  rw [← Condition.raises_iff_visited, or_self] at hr
  obtain ⟨fault, hf⟩ := hr
  have decided : (m.evaluate subject e).1 = fault.message?.map fun _ => false := by
    rw [Manager.evaluate_of_parsed ht hp, Reference.judge, hf]
  refine ⟨Manager.faultCounted ht hp ⟨fault, hf⟩, fault, hf, fun message told => ?_,
    fun asking untold => ?_⟩
  · rw [decided, told]
    rfl
  · rw [decided, untold]
    rfl

theorem evaluate_fails_closed_not :
    ∃ m : Manager, ∃ subject : Subject, m.Reachable ∧ m.parser.delimiter = .ofValue (.text "%") ∧
      m.parser.parseValue (.text "not vip") = .ok (.not (.perm "vip" (.bool false))) ∧
      (Condition.perm "vip" (.bool false)).Raises subject m.resolver ∧
      FaultCounted m (.text "not vip") (.not (.perm "vip" (.bool false)))
        (m.evaluate subject (.text "not vip")).2 ∧
      (m.evaluate subject (.text "not vip")).1 = .ok false := by
  let subject : Subject := ⟨fun _ => .error (.host "RuntimeError" "down"), none⟩
  have created : Manager.create none {} (some ⟨⟨32, "32"⟩, .ofValue (.text "%")⟩) = .ok _ := rfl
  have reachable := Manager.Reachable.created created
  have parsed : Parser.parseValue ⟨⟨32, "32"⟩, .ofValue (.text "%")⟩ (.text "not vip") =
      .ok (.not (.perm "vip" (.bool false))) := by decide +kernel
  have raises : (Condition.perm "vip" (.bool false)).Raises subject none := ⟨_, rfl⟩
  have delimiter : (Parser.mk ⟨32, "32"⟩ (.ofValue (.text "%"))).delimiter = .ofValue (.text "%") := rfl
  obtain ⟨-, -, -, failed⟩ := evaluate_fails_closed reachable delimiter subject (.text "not vip")
  obtain ⟨counted, fault, hf, told, -⟩ := failed _ parsed (.inr ⟨_, List.mem_singleton_self _, raises⟩)
  have down : Except.error (Fault.host "RuntimeError" "down") = .error fault := hf
  obtain rfl := Except.error.inj down
  exact ⟨_, subject, reachable, delimiter, parsed, raises, counted, told "down" rfl⟩

theorem Value.isWritable_pow_ten {k : Nat} (h : Number.digitLimit ≤ k) :
    (Value.int (Nat.pow 10 k)).isWritable = false := by
  have long {limit : Nat} (h : limit ≤ k) : Nat.pow 10 limit ≤ Nat.pow 10 k :=
    Nat.pow_le_pow_right (by decide) h
  rw [isWritable, Scalar.isWritable, Number.Whole.isWritable, Int.natAbs_natCast]
  exact decide_eq_false (Nat.not_lt.2 (long h))

/-- A number of more digits than are ever written takes the place of an expression, and of the message
of a fault. -/
theorem evaluate_fails_closed_unwritable :
    ∃ m : Manager, ∃ subject : Subject, m.Reachable ∧ m.parser.delimiter = .ofValue (.text "%") ∧
      (m.evaluate subject (.int (Nat.pow 10 5000))).1 = .error .unwritable ∧
      (m.isValid (.int (Nat.pow 10 5000))).1 = .error .unwritable ∧
      (m.describe (.int (Nat.pow 10 5000))).1 = .error .unwritable ∧
      (m.lookup (.int (Nat.pow 10 5000))).1 = .error .unwritable ∧
      (m.evaluate subject (.text "vip")).1 = .error .unwritable := by
  have created : Manager.create none {} (some ⟨⟨32, "32"⟩, .ofValue (.text "%")⟩) = .ok _ := rfl
  have unwritable := Value.isWritable_pow_ten (k := 5000) (by decide)
  let subject : Subject := ⟨fun _ => .error (.mute "Exception" .unwritable), none⟩
  have fails := (Manager.Reachable.created created).fails (Parser.parseValue_of_unwritable unwritable)
  refine ⟨_, subject, .created created, rfl, ?_, ?_, ?_, ?_, by decide +kernel⟩
  · exact fails.evaluate subject
  · exact fails.isValid
  · exact fails.describe
  · exact fails.lookup

end Gatekeeper
