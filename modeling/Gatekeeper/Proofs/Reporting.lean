import Gatekeeper.Proofs.GateReport

/-!
# What becomes a message

Data that has the shape of a configuration is accepted or refused with a message, and a manager with
accepted settings decides its gates. So a check of such data ends with a code. Other data may end the
check without one, as do a list in the place of the whole and JSON that is nested too deep.
-/
namespace Gatekeeper

namespace Value

/-- Whether a value is a number; truth values count as numbers. -/
def isNumber : Value → Bool
  | .bool _ | .int _ | .float _ => true
  | _ => false

/-- Whether a value has members: a text, a list or a map. -/
def isSequence : Value → Bool
  | .text _ | .list _ | .map _ => true
  | _ => false

def isScalar : Value → Bool
  | .scalar _ => true
  | _ => false

/-- Whether a value will do as a delimiter or is too long for one. A list and a map will do if they
are empty; those of one member pass for delimiters although they are none. -/
def isMark : Value → Bool
  | .text _ => true
  | .list items => items.length != 1
  | .map entries => entries.length != 1
  | _ => false

theorem members?_of_isSequence {v : Value} (h : v.isSequence = true) :
    ∃ members, v.members? = .ok members := by
  rw [isSequence.eq_def] at h
  split at h <;> first | exact ⟨_, rfl⟩ | cases h

/-- What passes for a delimiter by its shape and its length can be held against a text. -/
theorem size?_of_isMark {v : Value} (h : v.isMark = true) :
    ∃ n, v.size? = .ok n ∧ (n ≤ 1 → v.delimits = true) := by
  rw [isMark.eq_def] at h
  split at h
  · exact ⟨_, rfl, fun _ => rfl⟩
  · next items =>
    refine ⟨items.length, rfl, fun short => ?_⟩
    cases items <;> simp_all [delimits, holds]
  · next entries =>
    refine ⟨entries.length, by simp [size?, members?, opened, Except.map], fun short => ?_⟩
    cases entries <;> simp_all [delimits, holds]
  · cases h

end Value

namespace DepthLimit

theorem Refusal.isMismatch_ofScalar (s : Scalar) : (Refusal.ofScalar s).isMismatch = false := by
  rw [ofScalar]
  split <;> rfl

/-- A number is a limit, or it is out of range. -/
theorem ofValue_cases {v : Value} (h : v.isNumber = true) :
    (∃ limit, ofValue v = .ok limit) ∨ ∃ r, ofValue v = .error r ∧ r.isMismatch = false := by
  have placed {s : Scalar} {n : Int} (hs : s.position? = some n) :
      (∃ limit, ofValue (.scalar s) = .ok limit) ∨
        ∃ r, ofValue (.scalar s) = .error r ∧ r.isMismatch = false := by
    rw [ofValue.eq_def]
    dsimp only
    rw [hs]
    dsimp only
    split
    · exact .inl ⟨_, rfl⟩
    · exact .inr ⟨_, rfl, Refusal.isMismatch_ofScalar s⟩
  rw [Value.isNumber.eq_def] at h
  split at h
  · exact placed rfl
  · exact placed rfl
  · next x =>
    cases hx : (Scalar.float x).position? with
    | some n => exact placed hx
    | none =>
      rw [ofValue.eq_def]
      dsimp only
      rw [hx]
      exact .inr ⟨_, rfl, Refusal.isMismatch_ofScalar _⟩
  · cases h

end DepthLimit

namespace Settings

/-- Whether data has the shape of settings: a map, in which the limit is a number and the delimiter
will do or is too long. -/
def isShaped : Value → Bool
  | .map entries =>
    (entryOr entries "max_depth" (.int DepthLimit.default)).isNumber &&
      (entryOr entries "attribute_delimiter" (.text "%")).isMark
  | _ => false

/-- Data of this shape is refused for what it says, or it gives a delimiter that can be used. -/
theorem ofValue_cases {data : Value} (h : isShaped data = true) :
    (∃ settings, ofValue data = .ok settings ∧ settings.delimiter.delimits = true) ∨
      ∃ e, ofValue data = .error e ∧ e.isMismatch = false := by
  rw [isShaped.eq_def] at h
  split at h
  · next entries =>
    obtain ⟨number, mark⟩ := Bool.and_eq_true_iff.1 h
    obtain ⟨n, size, usable⟩ := Value.size?_of_isMark mark
    have unfolded : ofValue (.map entries) = check _ := rfl
    rw [unfolded, check]
    dsimp only
    rcases DepthLimit.ofValue_cases number with ⟨limit, hl⟩ | ⟨r, hr, reported⟩
    · rw [hl, size]
      by_cases short : n ≤ 1
      · refine .inl ⟨_, if_pos short, usable short⟩
      · right
        dsimp only [Except.mapError, bind, Except.bind]
        rw [if_neg short]
        split <;> exact ⟨_, rfl, rfl⟩
    · rw [hr]
      exact .inr ⟨_, rfl, reported⟩
  · cases h

end Settings

namespace Gate

/-- Whether data has the shape of a gate: a list of conditions, or a map in which the conditions have
members and the mode is no container. -/
def isShaped : Value → Bool
  | .list _ => true
  | .map entries =>
    (field entries "conditions" (.list [])).isSequence &&
      (field entries "mode" (.text Mode.all.name)).isScalar
  | _ => false

/-- A mode that is no container is one of the two, or it is named in a message. -/
theorem modeOf_cases {v : Value} (h : v.isScalar = true) :
    (∃ mode, modeOf v = .ok mode) ∨ ∃ e, modeOf v = .error e ∧ e.isMismatch = false := by
  have unknown : (unknownMode v).isMismatch = false := by
    rw [unknownMode]
    split <;> rfl
  rw [Value.isScalar.eq_def] at h
  split at h
  · next s =>
    rw [modeOf]
    simp only [Value.opened, Value.key?, Except.mapError, bind, Except.bind]
    cases [Mode.all, Mode.any].find? fun mode => s == .text mode.name with
    | some mode => exact .inl ⟨mode, rfl⟩
    | none => exact .inr ⟨_, rfl, unknown⟩
  · cases h

theorem build_cases (name : Value) (conditions : List Value) {mode : Value}
    (h : mode.isScalar = true) (description : Value) :
    (∃ gate, build name conditions mode description = .ok gate) ∨
      ∃ e, build name conditions mode description = .error e ∧ e.isMismatch = false := by
  rw [build]
  split
  · exact .inr ⟨_, rfl, rfl⟩
  · split
    · rcases modeOf_cases h with ⟨known, hk⟩ | ⟨e, he, reported⟩
      · exact .inl ⟨_, (bind_eq_ok_iff ..).2 ⟨known, hk, rfl⟩⟩
      · rw [he]
        exact .inr ⟨e, rfl, reported⟩
    · exact .inr ⟨_, rfl, rfl⟩

/-- Data of this shape is a gate, or it is refused for what it says. -/
theorem ofValue_cases (name : Value) {data : Value} (h : isShaped data = true) :
    (∃ gate, ofValue name data = .ok gate) ∨
      ∃ e, ofValue name data = .error e ∧ e.isMismatch = false := by
  rw [isShaped.eq_def] at h
  split at h
  · exact build_cases name _ rfl _
  · next entries =>
    obtain ⟨sequence, mode⟩ := Bool.and_eq_true_iff.1 h
    obtain ⟨members, hm⟩ := Value.members?_of_isSequence sequence
    have built : ofValue name (.map entries) =
        ((field entries "conditions" (.list [])).members?.mapError .mismatch).bind fun conditions =>
          build name conditions (field entries "mode" (.text Mode.all.name))
            (field entries "description" .null) := rfl
    rw [built, hm]
    exact build_cases name members mode _
  · cases h

end Gate

namespace Configuration

/-- Whether data has the shape of gates: a map with the shape of a gate under each name. -/
def areShaped : Value → Bool
  | .map items => items.all fun item => Gate.isShaped item.2
  | _ => false

/-- Whether data has the shape of a configuration. -/
def isShaped : Value → Bool
  | .map entries =>
    Settings.isShaped (section? entries "engine") && areShaped (section? entries "gates")
  | _ => false

/-- Whether the content of a file has the shape of a configuration, or is refused before its shape
matters. Data that is nested too deep is not. -/
def isShapedContent (content : List UInt8) : Bool :=
  match (textOf content).toOption.map Json.read with
  | some (.ok data) => isShaped (given data)
  | some (.error (.tooDeep _)) => false
  | some (.error _) | none => true

theorem entryOf_cases {item : Scalar × Value} (h : Gate.isShaped item.2 = true) :
    (∃ entry, entryOf item = .ok entry) ∨ ∃ e, entryOf item = .error e ∧ e.isMismatch = false := by
  rw [entryOf]
  rcases Gate.ofValue_cases (.scalar item.1) h with ⟨gate, hg⟩ | ⟨e, he, reported⟩
  · rw [hg]
    exact .inl ⟨_, rfl⟩
  · rw [he]
    exact .inr ⟨_, rfl, reported⟩

/-- Data of this shape is a configuration whose delimiter can be used, or it is refused for what it
says. -/
theorem ofValue_cases {data : Value} (h : isShaped data = true) :
    (∃ c, ofValue data = .ok c ∧ c.settings.delimiter.delimits = true) ∨
      ∃ e, ofValue data = .error e ∧ e.isMismatch = false := by
  rw [isShaped.eq_def] at h
  split at h
  · next entries =>
    obtain ⟨engine, gates⟩ := Bool.and_eq_true_iff.1 h
    rw [areShaped.eq_def] at gates
    split at gates
    · next items listed =>
      have found : (section? entries "gates").entries? "items" = .ok items := by rw [listed]; rfl
      have read : ofValue (.map entries) = do
          let settings ← (Settings.ofValue (section? entries "engine")).mapError .settings
          return ⟨settings, ← items.mapM entryOf⟩ := by
        rw [ofValue_eq, show Value.entries? "get" (.map entries) = .ok entries from rfl]
        simp only [found, Except.mapError, bind, Except.bind]
      rw [read]
      rcases Settings.ofValue_cases engine with ⟨settings, hs, usable⟩ | ⟨e, he, reported⟩
      · rw [hs]
        rcases mapM_cases entryOf items with ⟨made, hm⟩ | ⟨e, he, item, hm, hv⟩
        · rw [hm]
          exact .inl ⟨_, rfl, usable⟩
        · rw [he]
          refine .inr ⟨e, rfl, ?_⟩
          have fits := List.all_eq_true.1 gates item hm
          rcases entryOf_cases fits with ⟨entry, made⟩ | ⟨e', he', reported⟩
          · cases hv.symm.trans made
          · obtain rfl := Except.error.inj (hv.symm.trans he')
            exact reported
      · rw [he]
        exact .inr ⟨_, rfl, reported⟩
    · cases gates
  · cases h

/-- A file of this shape is a configuration whose delimiter can be used, or there is a message that
says why it is none. -/
theorem load_cases {files : Files} {path : String} (ending : (Path.ofString path).ending = ".json")
    (shaped : ∀ content, files (Path.ofString path) = .ok content → isShapedContent content = true) :
    (∃ c, load true files path = .ok c ∧ c.settings.delimiter.delimits = true) ∨
      ∃ e, load true files path = .error e ∧ (Cli.Failure.load e).isReported = true := by
  rw [load_eq ending]
  cases file : files (Path.ofString path) with
  | error e => exact .inr ⟨.file e, rfl, rfl⟩
  | ok content =>
    have fits := shaped content file
    rw [isShapedContent] at fits
    cases ht : textOf content with
    | error e =>
      refine .inr ⟨e, by simp only [ht, Except.mapError, bind, Except.bind], ?_⟩
      rw [textOf] at ht
      split at ht
      · cases ht
      · obtain rfl := Except.error.inj ht
        rfl
    | ok text =>
      simp only [Except.mapError, bind, Except.bind, ht]
      rw [ht] at fits
      cases hd : Json.read text with
      | error e =>
        refine .inr ⟨.json e, rfl, ?_⟩
        cases e with
        | tooDeep container => simp [Except.toOption, hd] at fits
        | malformed | tooManyDigits => rfl
      | ok data =>
        simp only [Except.toOption, hd, Option.map_some] at fits
        rcases ofValue_cases fits with ⟨c, hc, usable⟩ | ⟨e, he, reported⟩
        · exact .inl ⟨c, by simp only [hc], usable⟩
        · refine .inr ⟨.configuration e, by simp only [he], ?_⟩
          rw [Cli.Failure.isReported, reported]
          rfl

end Configuration

namespace Cli

/-- Nodes and assignments that are texts, of whatever form. -/
structure Profile.IsTextual (profile : Profile) : Prop where
  permissions : ∀ v ∈ profile.permissions, ∃ node, v = .text node
  assignments : ∀ v ∈ profile.assignments, ∃ s, v = .text s

variable {files : Files} {path : String} {console : Console}

theorem judgeGates_code {subject : Subject} {code code' : Nat} {m : Manager}
    {gates : List (Scalar × Gate)}
    (h : (judgeGates subject code m console gates).1 = .ok code') : code' = code := by
  induction gates generalizing m console with
  | nil => exact (Except.ok.inj h).symm
  | cons entry gates ih =>
    rw [judgeGates] at h
    dsimp only at h
    split at h
    · cases h
    · split at h
      · exact ih h
      · cases h

theorem checkGates_code {subject : Subject} {code : Nat} {m : Manager} {c : Configuration}
    (h : (checkGates subject m console c).1 = .ok code) : code ≤ 1 := by
  rw [checkGates] at h
  dsimp only at h
  split at h
  · cases h
  · split at h
    · cases h
    · rw [judgeGates_code h]
      split <;> decide

theorem check_code {options : Options} {code : Nat}
    (h : (check files options path console).1 = .ok code) : code ≤ 1 := by
  rw [check] at h
  split at h
  · cases h
  · split at h
    · cases h
    · dsimp only at h
      split at h
      · cases h
      · exact (Except.ok.inj h).ge
      · exact checkGates_code h

theorem report_ok {ending : Ending} {code : Nat} (h : ending.1 = .ok code) :
    (report ending).1 = .ok code := by
  obtain ⟨outcome, console⟩ := ending
  obtain rfl := h
  rfl

theorem report_error {ending : Ending} {e : Failure} (h : ending.1 = .error e) :
    (report ending).1 = if e.isReported then .ok 2 else .error e := by
  obtain ⟨outcome, console⟩ := ending
  obtain rfl := h
  rw [report]
  split <;> rfl

theorem report_code {ending : Ending} (below : ∀ code, ending.1 = .ok code → code ≤ 1) {code : Nat}
    (h : (report ending).1 = .ok code) : code ≤ 2 := by
  cases outcome : ending.1 with
  | ok code' =>
    obtain rfl := Except.ok.inj ((report_ok outcome).symm.trans h)
    exact (below _ outcome).trans one_le_two
  | error e =>
    rw [report_error outcome] at h
    split at h
    · exact (Except.ok.inj h).ge
    · cases h

/-- A configuration with a delimiter that can be used is checked, or a message says what is wrong with
an assignment. -/
theorem exists_code {options : Options} {c : Configuration}
    (load : Configuration.load true files path = .ok c)
    (ending : (Path.ofString path).ending = ".json")
    (usable : c.settings.delimiter.delimits = true) (textual : options.profile.IsTextual)
    (console : Console) : ∃ code, (report (check files options path console)).1 = .ok code := by
  obtain ⟨parser, hp⟩ := Configuration.parser?_of_load ending load
  obtain ⟨m, hm, -⟩ := options.profile.manager_eq hp
  rcases options.profile.subject_cases textual.permissions with
    ⟨subject, hs⟩ | ⟨e, he, v, assigned, hv⟩
  · cases selected : gatesFor? options.gate c with
    | none =>
      refine ⟨1, report_ok ?_⟩
      simp only [check, load, hm, hs, selected]
    | some gates =>
      have judged := judged_check options load ending usable hp hs selected console
      exact ⟨_, report_ok judged.code⟩
  · have failed : (check files options path console).1 = .error (.assignment e) := by
      simp only [check, load, hm, he]
    refine ⟨2, ?_⟩
    obtain ⟨s, rfl⟩ := textual.assignments v assigned
    rw [Assignment.read] at hv
    split at hv
    · cases hv
    · obtain rfl := Except.error.inj hv
      exact report_error failed

/-- A command line that checks a file does nothing else. -/
theorem run_eq_report_check {texts : List String} {invocation : Invocation}
    (h : Invocation.ofTexts texts = .ok invocation) (task : invocation.task = .check path) :
    run files texts = report
      (check files invocation.options path { verbose := invocation.options.verbose }) := by
  rw [run, h]
  dsimp only
  rw [Invocation.perform, task]

/-- What a failure to load a file is turned into. -/
theorem check_of_load_error {e : LoadError} (load : Configuration.load true files path = .error e)
    (options : Options) (console : Console) :
    report (check files options path console) =
      if (Failure.load e).isReported then (.ok 2, console.warn ("Error: " ++ e.message))
      else (.error (.load e), console) := by
  rw [check, load]
  rfl

/-- A check ends with one of three codes, if it ends with a code. It does if nodes and assignments are
texts and the file has the shape of a configuration or none that matters; if such a file is refused, the
code and the one message say so. Data that holds and is no map ends the check without a code. -/
theorem run_check (files : Files) {texts : List String} {invocation : Invocation}
    (h : Invocation.ofTexts texts = .ok invocation) (task : invocation.task = .check path)
    (ending : (Path.ofString path).ending = ".json") :
    (∀ code, (run files texts).1 = .ok code → code ≤ 2) ∧
    ((∀ content, files (Path.ofString path) = .ok content →
        Configuration.isShapedContent content = true) →
      (invocation.options.profile.IsTextual → ∃ code, (run files texts).1 = .ok code) ∧
      ∀ e, Configuration.load true files path = .error e →
        (run files texts).1 = .ok 2 ∧ (run files texts).2.results = [] ∧
          (run files texts).2.messages = ["Error: " ++ e.message]) ∧
    ∀ content text data, files (Path.ofString path) = .ok content →
      Configuration.textOf content = .ok text → Json.read text = .ok data →
      data.holds = true → (∀ entries, data ≠ .map entries) →
      (run files texts).1 =
        .error (.load (.configuration (.mismatch (.noMember data.kind "get")))) := by
  rw [run_eq_report_check h task]
  refine ⟨fun code => report_code fun code => check_code, fun shaped => ?_, ?_⟩
  · rcases Configuration.load_cases ending shaped with ⟨c, load, usable⟩ | ⟨e, load, reported⟩
    · refine ⟨fun textual => exists_code load ending usable textual _, fun e refused => ?_⟩
      cases load.symm.trans refused
    · rw [check_of_load_error load, if_pos reported]
      refine ⟨fun _ => ⟨2, rfl⟩, fun e' refused => ?_⟩
      obtain rfl := Except.error.inj (load.symm.trans refused)
      exact ⟨rfl, rfl, rfl⟩
  · intro content text data file ht hd holds other
    have load : Configuration.load true files path =
        .error (.configuration (.mismatch (.noMember data.kind "get"))) := by
      rw [Configuration.load_of_read ending file ht hd, Configuration.given, if_pos holds]
      cases Json.isDocument_of_read hd with
      | scalar => rfl
      | list => rfl
      | map => exact absurd rfl (other _)
    rw [check_of_load_error load]
    rfl

/-- A gate under the empty name has the shape of a gate. -/
theorem run_check_unnamed :
    ∃ files : Files, (∃ e, Configuration.load true files "gates.json" = .error e) ∧
      (∃ code, (run files ["check", "gates.json", "-p", "fly"]).1 = .ok code ∧ code ≤ 2) ∧
      (run files ["check", "gates.json", "-p", "fly"]).1 = .ok 2 ∧
      (run files ["check", "gates.json", "-p", "fly"]).2.messages =
        ["Error: Gate name must not be empty"] := by
  let content : List UInt8 := "\x7b\"gates\":\x7b\"\":[\"fly\"]\x7d\x7d".toList.map Char.toUInt8
  let options : Options := { profile := { permissions := [.text "fly"] } }
  have read : Invocation.ofTexts ["check", "gates.json", "-p", "fly"] =
    .ok ⟨options, .check "gates.json"⟩ := rfl
  have ending : (Path.ofString "gates.json").ending = ".json" := by decide +kernel
  have load : Configuration.load true (fun _ => .ok content) "gates.json" =
    .error (.configuration (.gate .unnamed)) := by decide +kernel
  have textual : options.profile.IsTextual := ⟨by simp [options], by simp [options]⟩
  have shaped : Configuration.isShapedContent content = true := by decide +kernel
  obtain ⟨below, reported, -⟩ := run_check (fun _ => .ok content) read rfl ending
  obtain ⟨answered, refused⟩ := reported fun other same => Except.ok.inj same ▸ shaped
  obtain ⟨code, hc⟩ := answered textual
  obtain ⟨two, -, messages⟩ := refused _ load
  exact ⟨_, ⟨_, load⟩, ⟨code, hc, below code hc⟩, two, messages⟩

theorem run_check_list :
    (run (fun _ => .ok ("[1]".toList.map Char.toUInt8)) ["check", "list.json"]).1 =
      .error (.load (.configuration (.mismatch (.noMember "list" "get")))) := by
  decide +kernel

end Cli

end Gatekeeper
