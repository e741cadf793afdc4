import Gatekeeper.Proofs.FailClosed
import Gatekeeper.Proofs.Rounding

/-!
# What checked settings are good for

Settings that are accepted give a parser, and with it a manager. Whether the manager answers whatever
it is asked is up to the delimiter: it does if there is none or if the delimiter is a text. The check
looks at the length alone, so a list or a map of one member passes it, and the first bare node that is
looked up shows that it is no text.
-/
namespace Gatekeeper

open Grammar

/-- Whether a value can be held against a text: a text can, and a value that does not hold means that
there is no delimiter. -/
def Value.delimits : Value → Bool
  | .text _ => true
  | v => !v.holds

namespace Delimiter

theorem ofValue_eq_ofValue_text {v : Value} (h : v.delimits = true) :
    ∃ mark, ofValue v = ofValue (.text mark) := by
  rw [Value.delimits.eq_def] at h
  split at h
  · next mark => exact ⟨mark, rfl⟩
  · have off : v.holds = false := by simpa using h
    refine ⟨"", ?_⟩
    simp [ofValue, off, Value.holds, Scalar.holds]

theorem ofValue_eq_unusable {v : Value} (h : v.delimits = false) : ofValue v = unusable v.kind := by
  rw [Value.delimits.eq_def] at h
  split at h
  · cases h
  · next other =>
    have on : v.holds = true := by simpa using h
    rw [ofValue, if_pos on]
    exact other

end Delimiter

/-- A limit that is accepted leaves at least one level. -/
theorem DepthLimit.levels_pos {v : Value} {limit : DepthLimit} (h : ofValue v = .ok limit) :
    0 < limit.levels := by
  have unit : (0 : Int) < Number.Double.one := Int.natCast_pos.2 Number.Double.one_pos
  have whole {n : Int} (low : (Number.Double.one : Int) ≤ n) : 0 < (n / Number.Double.one).toNat := by
    have one : 1 ≤ n / Number.Double.one := (Int.le_ediv_iff_mul_le unit).2 (by rwa [Int.one_mul])
    omega
  rw [ofValue.eq_def] at h
  split at h
  · split at h
    · dsimp only at h
      split at h
      · next inRange =>
        obtain rfl := Except.ok.inj h
        exact whole inRange.1
      · cases h
    all_goals cases h
  · cases h

namespace Settings

/-- The check is of the limit and of the length of the delimiter. -/
theorem check_eq_ok_iff (settings settings' : Settings) :
    check settings = .ok settings' ↔ settings' = settings ∧
      (∃ limit, DepthLimit.ofValue settings.maxDepth = .ok limit) ∧
      ∃ size, settings.delimiter.size? = .ok size ∧ size ≤ 1 := by
  rw [check]
  simp only [bind_eq_ok_iff, mapError_eq_ok_iff]
  constructor
  · rintro ⟨limit, hl, size, hs, h⟩
    split at h
    · next short => exact ⟨(Except.ok.inj h).symm, ⟨limit, hl⟩, size, hs, short⟩
    · split at h <;> cases h
  · rintro ⟨rfl, ⟨limit, hl⟩, size, hs, short⟩
    refine ⟨limit, hl, size, hs, ?_⟩
    rw [if_pos short]
    rfl

theorem parser?_eq_ok_iff (settings : Settings) (parser : Parser) :
    settings.parser? = .ok parser ↔ ∃ limit, DepthLimit.ofValue settings.maxDepth = .ok limit ∧
      parser = ⟨limit, .ofValue settings.delimiter⟩ := by
  rw [parser?, Parser.ofValues]
  simp only [bind_eq_ok_iff]
  refine exists_congr fun limit => and_congr_right fun _ => ?_
  exact ⟨fun h => (Except.ok.inj h).symm, fun h => congrArg _ h.symm⟩

/-- The settings that apply when nothing is said. -/
theorem parser?_default : parser? {} = .ok ⟨⟨32, "32"⟩, .ofValue (.text "%")⟩ :=
  ofValues_int (m := 32) (by decide) (by decide) (.text "%")

theorem parser?_of_ofValue {data : Value} {settings : Settings} (h : ofValue data = .ok settings) :
    ∃ parser, settings.parser? = .ok parser := by
  obtain ⟨entries, -, h⟩ := (bind_eq_ok_iff ..).1 h
  obtain ⟨rfl, ⟨limit, hl⟩, -⟩ := (check_eq_ok_iff ..).1 h
  exact ⟨_, (parser?_eq_ok_iff ..).2 ⟨limit, hl, rfl⟩⟩

/-- Data that says nothing but a short delimiter. -/
theorem ofValue_delimiter (v : Value) {n : Nat} (hn : v.size? = .ok n) (short : n ≤ 1) :
    ofValue (.map [(.text "attribute_delimiter", v)]) = .ok { delimiter := v } := by
  obtain ⟨limit, hl, -⟩ := (parser?_eq_ok_iff {} _).1 parser?_default
  refine (bind_eq_ok_iff ..).2 ⟨[(.text "attribute_delimiter", v)], rfl, ?_⟩
  rw [check_eq_ok_iff]
  exact ⟨rfl, ⟨limit, hl⟩, n, hn, short⟩

end Settings

/-- A manager of which no more is said than its resolver. -/
theorem Manager.create_default (resolver : Option Resolver) :
    create resolver {} none = .ok {
      settings := {}
      parser := ⟨⟨32, "32"⟩, .ofValue (.text "%")⟩
      resolver
      journal := { log := [note .info "Initialized ConditionManager"] } } :=
  (create_eq_ok_iff ..).2 ⟨_, Settings.parser?_default, rfl⟩

namespace Parser

/-- A delimiter that is no text shows at the first bare node. -/
theorem parse_node_unusable (parser : Parser) {kind : String} (levels : 0 < parser.limit.levels)
    (h : parser.delimiter = .unusable kind) :
    parser.parse "fly" = .error (.raised (.mismatch (.notDelimiter kind))) := by
  obtain ⟨n, hn⟩ := Nat.exists_eq_succ_of_ne_zero levels.ne'
  have normal : Text.normalize "fly".toList = "fly".toList := by decide
  have group : afterGroup? "fly".toList = none := by decide
  have negated : afterKeyword? ["not"] "fly".toList = none := by decide
  have leaf : parseLeaf (.unusable kind) "fly".toList =
      .error (.raised (.mismatch (.notDelimiter kind))) := by
    rw [parseLeaf]
    rfl
  simp only [parse, hn, parseWithin, normal, group, negated, h]
  exact leaf

end Parser

/-- From settings that are accepted a manager can be made, and any manager can be given them. With a
delimiter that can be held against a text the manager answers whatever it is asked; with any other one
it fails at the first bare node. -/
theorem accepted_settings {data : Value} {settings : Settings}
    (h : Settings.ofValue data = .ok settings) :
    ∃ parser, settings.parser? = .ok parser ∧
      (∀ resolver, ∃ m, Manager.create resolver settings none = .ok m ∧ m.parser = parser) ∧
      (∀ m : Manager, (m.updateSettings settings).1 = .ok () ∧
        (m.updateSettings settings).2.parser = parser) ∧
      ∀ m : Manager, m.Reachable → m.parser = parser →
        (settings.delimiter.delimits = true → m.Answers) ∧
        (settings.delimiter.delimits = false →
          m.Fails (.text "fly") (.mismatch (.notDelimiter settings.delimiter.kind))) := by
  obtain ⟨parser, hp⟩ := Settings.parser?_of_ofValue h
  obtain ⟨limit, hl, rfl⟩ := (Settings.parser?_eq_ok_iff ..).1 hp
  refine ⟨_, hp, fun resolver => ?_, fun m => ?_,
    fun m reachable hm => ⟨fun usable => ?_, fun other => ?_⟩⟩
  · exact ⟨_, (Manager.create_eq_ok_iff ..).2 ⟨_, hp, rfl⟩, rfl⟩
  · rw [Manager.updateSettings, hp]
    exact ⟨rfl, rfl⟩
  · obtain ⟨mark, hd⟩ := Delimiter.ofValue_eq_ofValue_text usable
    exact reachable.answers (by rw [hm, hd])
  · refine reachable.fails (Parser.parse_node_unusable _ ?_ ?_)
    · rw [hm]
      exact DepthLimit.levels_pos hl
    · rw [hm]
      exact Delimiter.ofValue_eq_unusable other

theorem accepted_settings_text :
    ∃ settings m, Settings.ofValue (.map [(.text "attribute_delimiter", .text "#")]) = .ok settings ∧
      Manager.create none settings none = .ok m ∧ m.Answers := by
  have accepted := Settings.ofValue_delimiter (.text "#") (n := 1) (by decide) le_rfl
  obtain ⟨parser, -, made, -, asked⟩ := accepted_settings accepted
  obtain ⟨m, created, hm⟩ := made none
  exact ⟨_, m, accepted, created, (asked m (.created created) hm).1 rfl⟩

theorem accepted_settings_list :
    ∃ settings m, Settings.ofValue (.map [(.text "attribute_delimiter", .list [.text "%"])]) =
        .ok settings ∧
      Manager.create none settings none = .ok m ∧
      (m.isValid (.text "fly")).1 = .error (.mismatch (.notDelimiter "list")) := by
  have accepted := Settings.ofValue_delimiter (.list [.text "%"]) rfl le_rfl
  obtain ⟨parser, hp⟩ := Settings.parser?_of_ofValue accepted
  obtain ⟨limit, hl, rfl⟩ := (Settings.parser?_eq_ok_iff ..).1 hp
  have created := (Manager.create_eq_ok_iff none _ none _).2 ⟨_, hp, rfl⟩
  have unread := Parser.parse_node_unusable ⟨limit, .unusable "list"⟩
    (DepthLimit.levels_pos hl) rfl
  have fails := (Manager.Reachable.created created).fails (e := .text "fly") unread
  exact ⟨_, _, accepted, created, fails.isValid⟩

end Gatekeeper
