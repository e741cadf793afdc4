import Gatekeeper.Cli.Run
import Gatekeeper.Proofs.Accounts
import Gatekeeper.Proofs.Loading

/-!
# What a check reports

What is printed about the gates of a configuration, said without a manager: each expression is read
and decided anew. One manager does all of the work, and nothing that it remembers shows. So one gate
alone has the line that it has among the others.
-/
namespace Gatekeeper

namespace Reference

variable {r : Reference} {mark : String}

/-- The condition of an expression, if the parser accepts it. -/
def condition? (r : Reference) (e : Value) : Option Condition :=
  (r.parser.parseValue e).toOption

/-- A condition holds if it is decided without a fault. -/
def holds (r : Reference) (subject : Subject) (c : Condition) : Bool :=
  match (c.evaluate subject r.resolver).outcome with
  | .ok answer => answer
  | .error _ => false

/-- Whether an expression is accepted and decides for a subject. -/
def grants (r : Reference) (subject : Subject) (e : String) : Bool :=
  (r.condition? (.text e)).any (r.holds subject)

/-- Whether the parser refuses an expression. -/
def refuses (r : Reference) (e : String) : Bool :=
  (r.condition? (.text e)).isNone

theorem lookup_eq (h : r.parser.delimiter = .ofValue (.text mark)) (e : String) :
    r.lookup (.text e) = .ok (r.condition? (.text e)) :=
  Parser.attempt_eq h rfl

theorem isValid_eq (h : r.parser.delimiter = .ofValue (.text mark)) (e : String) :
    r.isValid (.text e) = .ok (!r.refuses e) := by
  rw [isValid, lookup_eq h, refuses]
  cases r.condition? (.text e) <;> rfl

theorem judge_eq {subject : Subject} {c : Condition} (told : c.IsTold subject r.resolver) :
    r.judge subject c = .ok (r.holds subject c) := by
  rw [judge, holds]
  cases ho : (c.evaluate subject r.resolver).outcome with
  | ok answer => rfl
  | error fault =>
    obtain ⟨message, hm⟩ := told fault ho
    dsimp only
    rw [hm]
    rfl

theorem evaluate_eq (h : r.parser.delimiter = .ofValue (.text mark)) {subject : Subject}
    (told : ∀ c : Condition, c.IsTold subject r.resolver) (e : String) :
    r.evaluate subject (.text e) = .ok (r.grants subject e) := by
  rw [evaluate, lookup_eq h, grants]
  cases r.condition? (.text e) with
  | none => rfl
  | some c => exact judge_eq (told c)

end Reference

namespace Gate

/-- Whether every expression of a gate decides for a subject, or at least one. -/
def passes (r : Reference) (subject : Subject) (gate : Gate) : Bool :=
  match gate.mode with
  | .all => gate.conditions.all (r.grants subject)
  | .any => gate.conditions.any (r.grants subject)

theorem each_eq {r : Reference} {mark : String} (h : r.parser.delimiter = .ofValue (.text mark))
    {subject : Subject} (told : ∀ c : Condition, c.IsTold subject r.resolver) (gate : Gate) :
    Reference.each (r.evaluate subject) gate.mode (gate.conditions.map .text) =
      .ok (gate.passes r subject) := by
  obtain ⟨name, mode, conditions, description⟩ := gate
  rw [passes]
  dsimp only
  induction conditions with
  | nil => cases mode <;> rfl
  | cons e es ih =>
    rw [List.map_cons, Reference.each_cons, Reference.evaluate_eq h told, Except.bind, ih]
    cases mode <;> cases he : r.grants subject e <;> simp [Mode.decisive, he]

/-- A manager decides a gate as it is decided without one. -/
theorem evaluate_eq {r : Reference} {mark : String} (hd : r.parser.delimiter = .ofValue (.text mark))
    {m : Manager} (h : Tracks m r) {subject : Subject}
    (told : ∀ c : Condition, c.IsTold subject r.resolver) (gate : Gate) :
    (gate.evaluate m subject).1 = .ok (gate.passes r subject) ∧
      Tracks (gate.evaluate m subject).2 r := by
  rw [← each_eq hd told]
  exact h.askEach (fun h => h.evaluate subject) gate.mode (gate.conditions.map .text)

end Gate

namespace Configuration

/-- The expressions of gates that are refused, under the names of the gates that have any. -/
def refused (r : Reference) (gates : List (Scalar × Gate)) : List (Scalar × List String) :=
  (gates.map fun entry => (entry.1, entry.2.conditions.filter r.refuses)).filter (!·.2.isEmpty)

theorem refused_cons (r : Reference) (name : Scalar) (gate : Gate) (gates : List (Scalar × Gate)) :
    refused r ((name, gate) :: gates) =
      if (gate.conditions.filter r.refuses).isEmpty then refused r gates
      else (name, gate.conditions.filter r.refuses) :: refused r gates := by
  rw [refused, List.map_cons, List.filter_cons]
  cases (gate.conditions.filter r.refuses).isEmpty <;> rfl

variable {r : Reference} {mark : String} {m : Manager}

theorem invalidIn_eq (hd : r.parser.delimiter = .ofValue (.text mark)) (h : Tracks m r)
    (es : List String) :
    (invalidIn m es).1 = .ok (es.filter r.refuses) ∧ Tracks (invalidIn m es).2 r := by
  induction es generalizing m with
  | nil => exact ⟨rfl, h⟩
  | cons e es ih =>
    obtain ⟨ha, ht⟩ := h.isValid (.text e)
    rw [Reference.isValid_eq hd] at ha
    obtain ⟨hr, ht'⟩ := ih ht
    rw [invalidIn, show m.isValid (.text e) = (.ok (!r.refuses e), (m.isValid (.text e)).2) from
      Prod.ext ha rfl]
    refine ⟨?_, ht'⟩
    dsimp only
    rw [hr, List.filter_cons]
    cases r.refuses e <;> rfl

theorem invalidGates_eq (hd : r.parser.delimiter = .ofValue (.text mark)) (h : Tracks m r)
    (gates : List (Scalar × Gate)) :
    (invalidGates m gates).1 = .ok (refused r gates) ∧ Tracks (invalidGates m gates).2 r := by
  induction gates generalizing m with
  | nil => exact ⟨rfl, h⟩
  | cons entry gates ih =>
    obtain ⟨name, gate⟩ := entry
    obtain ⟨ha, ht⟩ := invalidIn_eq hd h gate.conditions
    obtain ⟨hr, ht'⟩ := ih ht
    rw [invalidGates, show invalidIn m gate.conditions =
      (.ok (gate.conditions.filter r.refuses), (invalidIn m gate.conditions).2) from Prod.ext ha rfl]
    refine ⟨?_, ht'⟩
    dsimp only
    rw [hr, refused_cons]
    rfl

end Configuration

namespace Cli

open Gatekeeper.Configuration

/-- The line about a gate. -/
def verdict (r : Reference) (subject : Subject) (entry : Scalar × Gate) : String :=
  entry.1.plain ++ ": " ++ if entry.2.passes r subject then "pass" else "fail"

/-- The line about an expression of a gate that is refused. -/
def warning (name : Scalar) (e : String) : String :=
  "warning: gate " ++ name.plain ++ ": invalid expression: " ++ e

/-- The lines about all expressions of gates that are refused, in order. -/
def warnings (r : Reference) (gates : List (Scalar × Gate)) : List String :=
  gates.flatMap fun entry => (entry.2.conditions.filter r.refuses).map (warning entry.1)

/-- Lines that are those of log records. -/
def AreRecords (lines : List String) : Prop :=
  ∃ records : List Record, lines = records.flatMap recordLines

/-- A console with some more results and messages. -/
structure Adds (console : Console) (results messages : List String) (console' : Console) : Prop where
  results : console'.results = console.results ++ results
  messages : console'.messages = console.messages ++ messages

variable {r : Reference} {mark : String} {m : Manager} {subject : Subject}

theorem AreRecords.append {lines lines' : List String} (h : AreRecords lines)
    (h' : AreRecords lines') : AreRecords (lines ++ lines') := by
  obtain ⟨records, rfl⟩ := h
  obtain ⟨records', rfl⟩ := h'
  exact ⟨records ++ records', by rw [List.flatMap_append]⟩

theorem Adds.trans {console console' console'' : Console}
    {results results' messages messages' : List String}
    (h : Adds console results messages console') (h' : Adds console' results' messages' console'') :
    Adds console (results ++ results') (messages ++ messages') console'' where
  results := by rw [h'.results, h.results, List.append_assoc]
  messages := by rw [h'.messages, h.messages, List.append_assoc]

theorem Adds.print (console : Console) (line : String) : Adds console [line] [] (console.print line) :=
  ⟨rfl, (List.append_nil _).symm⟩

theorem Adds.warn (console : Console) (lines : List String) :
    Adds console [] lines (lines.foldl Console.warn console) := by
  induction lines generalizing console with
  | nil => exact ⟨(List.append_nil _).symm, (List.append_nil _).symm⟩
  | cons line lines ih =>
    have first : Adds console [] [line] (console.warn line) := ⟨(List.append_nil _).symm, rfl⟩
    exact first.trans (ih (console.warn line))

/-- To hear a manager is to write records, and it leaves the manager where it stands. -/
theorem tracks_hear (h : Tracks m r) (console : Console) :
    Tracks (console.hear m).2 r ∧
      ∃ lines, AreRecords lines ∧ Adds console [] lines (console.hear m).1 :=
  ⟨⟨h.parser, h.resolver, h.cache⟩, _, ⟨_, rfl⟩, (List.append_nil _).symm, rfl⟩

theorem warnings_eq (r : Reference) (gates : List (Scalar × Gate)) :
    warnings r gates = (refused r gates).flatMap fun bad => bad.2.map (warning bad.1) := by
  induction gates with
  | nil => rfl
  | cons entry gates ih =>
    rw [warnings, List.flatMap_cons, ← warnings, ih, refused_cons]
    cases entry.2.conditions.filter r.refuses <;> rfl

theorem warnings_eq_nil_iff (r : Reference) (gates : List (Scalar × Gate)) :
    warnings r gates = [] ↔ refused r gates = [] := by
  rw [warnings_eq, List.flatMap_eq_nil_iff]
  constructor
  · intro h
    refine List.eq_nil_iff_forall_not_mem.2 fun bad hm => ?_
    have none := List.map_eq_nil_iff.1 (h bad hm)
    simp [refused, none] at hm
  · intro h
    simp [h]

/-- All warnings are written, if the names of the gates can be. -/
theorem warnEach_eq (console : Console) {bad : List (Scalar × List String)}
    (writable : ∀ entry ∈ bad, entry.1.isWritable = true) :
    (warnEach console bad).1 = .ok () ∧
      Adds console [] (bad.flatMap fun entry => entry.2.map (warning entry.1))
        (warnEach console bad).2 := by
  induction bad generalizing console with
  | nil => exact ⟨rfl, (List.append_nil _).symm, (List.append_nil _).symm⟩
  | cons entry bad ih =>
    obtain ⟨first, others⟩ := List.forall_mem_cons.1 writable
    rw [warnEach, if_pos first]
    obtain ⟨done, adds⟩ := ih _ others
    exact ⟨done, (Adds.warn console _).trans adds⟩

/-- Each gate has its line, whatever the manager has been asked before. -/
theorem judgeGates_eq (hd : r.parser.delimiter = .ofValue (.text mark)) (h : Tracks m r)
    (told : ∀ c : Condition, c.IsTold subject r.resolver) (code : Nat) (console : Console) {gates : List (Scalar × Gate)}
    (writable : ∀ entry ∈ gates, entry.1.isWritable = true) :
    (judgeGates subject code m console gates).1 = .ok code ∧
      ∃ lines, AreRecords lines ∧
        Adds console (gates.map (verdict r subject)) lines
          (judgeGates subject code m console gates).2 := by
  induction gates generalizing m console with
  | nil => exact ⟨rfl, [], ⟨[], rfl⟩, (List.append_nil _).symm, (List.append_nil _).symm⟩
  | cons entry gates ih =>
    obtain ⟨name, gate⟩ := entry
    obtain ⟨first, others⟩ := List.forall_mem_cons.1 writable
    obtain ⟨ha, ht⟩ := gate.evaluate_eq hd h told
    obtain ⟨ht', lines, records, heard⟩ := tracks_hear ht console
    obtain ⟨done, lines', records', adds⟩ := ih ht'
      ((console.hear (gate.evaluate m subject).2).1.print (verdict r subject (name, gate))) others
    have judged : judgeGates subject code m console ((name, gate) :: gates) =
        judgeGates subject code (console.hear (gate.evaluate m subject).2).2
          ((console.hear (gate.evaluate m subject).2).1.print (verdict r subject (name, gate)))
          gates := by
      rw [judgeGates, show gate.evaluate m subject =
        (.ok (gate.passes r subject), (gate.evaluate m subject).2) from Prod.ext ha rfl]
      dsimp only
      rw [if_pos first]
      rfl
    rw [judged]
    refine ⟨done, _, records.append records', ?_⟩
    simpa using (heard.trans (Adds.print _ _)).trans adds

/-- What is reported of gates: their lines in order, between the warnings and the code. -/
structure Judged (r : Reference) (subject : Subject) (gates : List (Scalar × Gate)) (console : Console)
    (ending : Ending) : Prop where
  code : ending.1 = .ok (if warnings r gates = [] then 0 else 1)
  results : ending.2.results = console.results ++ gates.map (verdict r subject)
  messages : ∃ before after, AreRecords before ∧ AreRecords after ∧
    ending.2.messages = console.messages ++ before ++ warnings r gates ++ after

theorem checkGates_eq (hd : r.parser.delimiter = .ofValue (.text mark)) (h : Tracks m r)
    (told : ∀ c : Condition, c.IsTold subject r.resolver) (console : Console) {c : Configuration}
    (writable : ∀ entry ∈ c.gates, entry.1.isWritable = true) :
    Judged r subject c.gates console (checkGates subject m console c) := by
  obtain ⟨hi, ht⟩ := invalidGates_eq hd h c.gates
  obtain ⟨ht', lines, records, heard⟩ := tracks_hear ht console
  have named : ∀ bad ∈ refused r c.gates, bad.1.isWritable = true := by
    intro bad hm
    obtain ⟨entry, he, rfl⟩ := List.mem_map.1 (List.mem_filter.1 hm).1
    exact writable entry he
  obtain ⟨warned, warns⟩ := warnEach_eq (console.hear (invalidGates m c.gates).2).1 named
  rw [← warnings_eq] at warns
  obtain ⟨done, lines', records', adds⟩ := judgeGates_eq hd ht' told
    (if (refused r c.gates).isEmpty then 0 else 1)
    (warnEach (console.hear (invalidGates m c.gates).2).1 (refused r c.gates)).2 writable
  have all := (heard.trans warns).trans adds
  have checked : checkGates subject m console c =
      judgeGates subject (if (refused r c.gates).isEmpty then 0 else 1)
        (console.hear (invalidGates m c.gates).2).2
        (warnEach (console.hear (invalidGates m c.gates).2).1 (refused r c.gates)).2 c.gates := by
    rw [checkGates, invalidExpressions, show invalidGates m c.gates =
      (.ok (refused r c.gates), (invalidGates m c.gates).2) from Prod.ext hi rfl]
    dsimp only
    rw [show warnEach _ (refused r c.gates) = (.ok (), _) from Prod.ext warned rfl]
  rw [checked]
  refine ⟨?_, by simpa using all.results, lines, lines', records, records', ?_⟩
  · rw [done]
    simp only [List.isEmpty_iff, warnings_eq_nil_iff]
  · simpa using all.messages

/-! ## The subject and the manager of a command line -/

namespace Profile

/-- How a profile resolves attributes. -/
def resolver? (profile : Profile) : Option Resolver :=
  if profile.noAttributes then none else some Resolver.static

theorem manager_eq (profile : Profile) {settings : Settings} {parser : Parser}
    (hp : settings.parser? = .ok parser) :
    ∃ m, profile.manager settings = .ok m ∧ Tracks m ⟨parser, profile.resolver?⟩ := by
  obtain ⟨m, created⟩ : ∃ m, Manager.create profile.resolver? settings none = .ok m :=
    ⟨_, (Manager.create_eq_ok_iff ..).2 ⟨parser, hp, rfl⟩⟩
  obtain ⟨r, hr, ht⟩ := Tracks.create created
  have made : Reference.create profile.resolver? settings none = .ok ⟨parser, profile.resolver?⟩ := by
    rw [Reference.create, hp]
    rfl
  obtain rfl := Except.ok.inj (hr.symm.trans made)
  exact ⟨m, (mapError_eq_ok_iff ..).2 created, ht⟩

theorem exists_permissions {permissions : List Value} (h : ∀ v ∈ permissions, ∃ node, v = .text node) :
    ∃ keys, FixedSubject.permissionsOf (.list permissions) = .ok keys := by
  rcases mapM_cases Value.key? permissions with ⟨keys, hk⟩ | ⟨e, -, v, hm, hv⟩
  · exact ⟨_, (bind_eq_ok_iff ..).2 ⟨permissions, rfl, (bind_eq_ok_iff ..).2 ⟨keys, hk, rfl⟩⟩⟩
  · obtain ⟨node, rfl⟩ := h v hm
    cases hv

theorem exists_fixed (name : Value) {permissions : List Value}
    (h : ∀ v ∈ permissions, ∃ node, v = .text node) (attributes : List (Scalar × Value)) :
    ∃ subject, FixedSubject.ofValues name (.list permissions) (.map attributes) = .ok subject := by
  obtain ⟨keys, hk⟩ := exists_permissions h
  have table : FixedSubject.attributesOf (.map attributes) = .ok attributes := rfl
  rw [FixedSubject.ofValues, hk, table]
  split <;> split <;> exact ⟨_, rfl⟩

/-- Nodes describe a subject, unless one of the assignments is none. -/
theorem subject_cases {profile : Profile} (h : ∀ v ∈ profile.permissions, ∃ node, v = .text node) :
    (∃ subject, profile.subject = .ok subject) ∨
      ∃ e, profile.subject = .error (.assignment e) ∧
        ∃ v ∈ profile.assignments, Assignment.read v = .error e := by
  rcases mapM_cases Assignment.read profile.assignments with ⟨pairs, hp⟩ | ⟨e, he, hv⟩
  · left
    have table : ∃ attributes, Assignment.table profile.assignments = .ok attributes :=
      ⟨_, (bind_eq_ok_iff ..).2 ⟨pairs, hp, rfl⟩⟩
    obtain ⟨attributes, ha⟩ := table
    obtain ⟨subject, hs⟩ := exists_fixed profile.name h attributes
    exact ⟨_, (bind_eq_ok_iff ..).2 ⟨attributes, (mapError_eq_ok_iff ..).2 ha,
      (bind_eq_ok_iff ..).2 ⟨subject, (mapError_eq_ok_iff ..).2 hs, rfl⟩⟩⟩
  · right
    refine ⟨e, ?_, hv⟩
    rw [Profile.subject, Assignment.table, he]
    rfl

/-- A subject of a command line has no faults of its own, and what becomes of its attributes can be
told. -/
theorem isTold {profile : Profile} {subject : Subject} (hs : profile.subject = .ok subject)
    (c : Condition) : c.IsTold subject profile.resolver? := by
  obtain ⟨attributes, -, hs⟩ := (bind_eq_ok_iff ..).1 hs
  obtain ⟨fixed, -, made⟩ := (bind_eq_ok_iff ..).1 hs
  obtain rfl : fixed.toSubject = subject := Except.ok.inj made
  refine Condition.isTold_of_host (fun node fault h => ?_) (fun resolve hr token fault h => ?_) c
  · cases h
  · rw [resolver?] at hr
    split at hr
    · cases hr
    · obtain rfl := Option.some.inj hr
      exact Fault.isTold_of_static h

end Profile

/-- The records that are shown first count among those before the warnings. -/
theorem Judged.after {gates : List (Scalar × Gate)} {console console' : Console} {lines : List String}
    {ending : Ending} (h : Judged r subject gates console' ending) (records : AreRecords lines)
    (adds : Adds console [] lines console') : Judged r subject gates console ending where
  code := h.code
  results := by rw [h.results, adds.results, List.append_nil]
  messages := by
    obtain ⟨before, later, hb, hl, messages⟩ := h.messages
    refine ⟨lines ++ before, later, records.append hb, hl, ?_⟩
    rw [messages, adds.messages]
    simp only [List.append_assoc]

/-- Whatever gates an option leaves, their names can be written. -/
theorem isWritable_of_gatesFor? {c : Configuration} {names : List String} (named : c.IsNamed names)
    {gate : Value} {gates : List (Scalar × Gate)} (selected : gatesFor? gate c = some gates) :
    ∀ entry ∈ gates, entry.1.isWritable = true := by
  have all : ∀ entry ∈ c.gates, entry.1.isWritable = true := fun _ => named.isWritable
  rw [gatesFor?.eq_def] at selected
  split at selected
  · split at selected
    · exact Option.some.inj selected ▸ all
    · obtain ⟨one, -, rfl⟩ := Option.map_eq_some_iff.1 selected
      exact List.forall_mem_singleton.2 rfl
  · exact Option.some.inj selected ▸ all

/-- The gates that are selected of a configuration that is loaded are judged. -/
theorem judged_check {files : Files} (options : Options) {path : String} {c : Configuration}
    (load : Configuration.load true files path = .ok c)
    (ending : (Path.ofString path).ending = ".json")
    (usable : c.settings.delimiter.delimits = true) {parser : Parser}
    (hp : c.settings.parser? = .ok parser) (hs : options.profile.subject = .ok subject)
    {gates : List (Scalar × Gate)} (selected : gatesFor? options.gate c = some gates)
    (console : Console) :
    Judged ⟨parser, options.profile.resolver?⟩ subject gates console
      (check files options path console) := by
  obtain ⟨names, named⟩ := Configuration.isNamed_of_load ending load
  obtain ⟨limit, -, made⟩ := (Settings.parser?_eq_ok_iff ..).1 hp
  obtain ⟨mark, delimiter⟩ := Delimiter.ofValue_eq_ofValue_text usable
  have hd : parser.delimiter = .ofValue (.text mark) := by rw [made, delimiter]
  obtain ⟨m, hm, ht⟩ := options.profile.manager_eq hp
  obtain ⟨ht', lines, records, heard⟩ := tracks_hear ht console
  have judged := checkGates_eq hd ht' (options.profile.isTold hs) (console.hear m).1 (c := { c with gates })
    (isWritable_of_gatesFor? named selected)
  rw [check, load]
  dsimp only
  rw [hm]
  dsimp only
  rw [hs, selected]
  exact judged.after records heard

end Cli

end Gatekeeper
