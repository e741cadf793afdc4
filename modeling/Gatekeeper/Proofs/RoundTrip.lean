import Gatekeeper.Proofs.JsonData
import Gatekeeper.Proofs.Loading
import Gatekeeper.Proofs.Sufficiency

/-!
# Configurations come back

A configuration gives data in one form only, whatever the form of the data it was made from. From this
data the same configuration is made again, gate by gate and in the same order.
-/
namespace Gatekeeper

open Grammar

/-- Settings that are accepted are accepted again. -/
theorem Settings.ofValue_toValue {data : Value} {settings : Settings}
    (h : ofValue data = .ok settings) : ofValue settings.toValue = .ok settings := by
  obtain ⟨entries, -, h⟩ := (bind_eq_ok_iff ..).1 h
  obtain ⟨rfl, -⟩ := (check_eq_ok_iff ..).1 h
  exact h

/-- Settings from readable data have readable data. -/
theorem Settings.isReadable_toValue {levels : Nat} {data : Value} {settings : Settings}
    (h : Json.IsReadable (levels + 1) data) (hs : ofValue data = .ok settings) :
    Json.IsReadable (levels + 1) settings.toValue := by
  obtain ⟨entries, he, hs⟩ := (bind_eq_ok_iff ..).1 hs
  obtain rfl := h.eq_map ((mapError_eq_ok_iff ..).1 he)
  obtain ⟨rfl, -⟩ := (check_eq_ok_iff ..).1 hs
  have number : Json.IsReadable levels (.int DepthLimit.default) :=
    .scalar (by decide +kernel : Number.Whole.isWritable DepthLimit.default = true)
  have truth : Json.IsReadable levels (.bool true) := .scalar trivial
  have sign : Json.IsReadable levels (.text "%") :=
    Json.isReadable_text (Json.areWhole_of_plain (by decide)) levels
  have mark := h.find?_getD sign (.text "attribute_delimiter")
  have invalid := h.find?_getD truth (.text "cache_invalid_expressions")
  have limit := h.find?_getD number (.text "max_depth")
  exact ((Json.isReadable_empty.cons mark (by decide) (by simp)).cons invalid (by decide)
    (by simp)).cons limit (by decide) (by simp)

namespace Gate

theorem modeOf_name (mode : Mode) : modeOf (.text mode.name) = .ok mode := by
  cases mode <;> rfl

/-- The data of a gate has its conditions as texts, its mode by name, and its description if there is
one. -/
theorem ofValue_toValue_eq (gate : Gate) (name : Value) :
    ofValue name gate.toValue = build name (gate.conditions.map .text) (.text gate.mode.name)
      gate.description := by
  rw [toValue]
  by_cases hd : gate.description = .null
  · rw [if_pos (beq_iff_eq.2 hd), hd]
    rfl
  · rw [if_neg (fun he => hd (beq_iff_eq.1 he))]
    rfl

/-- A gate that is accepted is accepted again. -/
theorem ofValue_toValue {name data : Value} {gate : Gate} (h : ofValue name data = .ok gate) :
    ofValue name gate.toValue = .ok gate := by
  obtain ⟨holds, rfl⟩ := kept_of_ofValue h
  have writable : (gate.conditions.map Value.text).all Value.isWritable = true := by
    simp [Value.isWritable, Scalar.isWritable]
  have plain : (gate.conditions.map Value.text).map Value.plain = gate.conditions := by
    simp [Value.plain, Scalar.plain, Function.comp_def]
  rw [ofValue_toValue_eq, build, if_neg (by rw [writable]; decide), if_pos holds, modeOf_name, plain]
  rfl

section

variable {levels : Nat}

theorem isReadable_toValue_of_kept {name description : Value} {mode : Mode} {conditions : List Value}
    (hc : ∀ condition ∈ conditions, Json.AreWhole condition.plain.toList)
    (hd : Json.IsReadable (levels + 1) description) :
    Json.IsReadable (levels + 2)
      (Gate.mk name mode (conditions.map Value.plain) description).toValue := by
  have texts : Json.IsReadable (levels + 1) (.list ((conditions.map Value.plain).map .text)) := by
    refine .list ?_
    rw [List.map_map]
    exact List.forall_mem_map.2 fun condition hm => Json.isReadable_text (hc condition hm) _
  have word : Json.IsReadable (levels + 1) (.text mode.name) :=
    Json.isReadable_text (Json.areWhole_of_plain (by cases mode <;> decide)) _
  rw [toValue]
  split
  · exact (Json.isReadable_empty.cons texts (by decide) (by simp)).cons word (by decide) (by simp)
  · exact ((Json.isReadable_empty.cons hd (by decide) (by simp)).cons texts (by decide)
      (by simp)).cons word (by decide) (by simp)

/-- A gate from readable data has readable data. -/
theorem isReadable_toValue {name data : Value} {gate : Gate} (h : Json.IsReadable (levels + 2) data)
    (hg : ofValue name data = .ok gate) : Json.IsReadable (levels + 2) gate.toValue := by
  have none : Json.IsReadable (levels + 1) .null := .scalar trivial
  rw [ofValue.eq_def, h.opened] at hg
  split at hg
  · next items =>
    obtain ⟨-, mode, rfl⟩ := kept_of_build hg
    have texts := h.members rfl
    exact isReadable_toValue_of_kept (fun v hv => (texts v hv).plain) none
  · obtain ⟨entries, he, hg⟩ := (bind_eq_ok_iff ..).1 hg
    obtain ⟨conditions, hc, hg⟩ := (bind_eq_ok_iff ..).1 hg
    obtain ⟨-, mode, rfl⟩ := kept_of_build hg
    obtain rfl := h.eq_map ((mapError_eq_ok_iff ..).1 he)
    have empty : Json.IsReadable (levels + 1) (.list []) := .list (List.forall_mem_nil _)
    have texts := (h.find?_getD empty (.text "conditions")).members ((mapError_eq_ok_iff ..).1 hc)
    exact isReadable_toValue_of_kept (fun v hv => (texts v hv).plain)
      (h.find?_getD none (.text "description"))

end

end Gate

namespace Configuration

/-- Gates that are none are in the data as none. -/
theorem section?_gates (v : Value) (gates : List (Scalar × Value)) :
    Configuration.section? [(.text "engine", v), (.text "gates", .map gates)] "gates" = .map gates := by
  cases gates <;> rfl

/-- A configuration comes back from its data. -/
theorem ofValue_toValue {data : Value} {c : Configuration} (h : ofValue data = .ok c) :
    ofValue c.toValue = .ok c := by
  obtain ⟨entries, items, -, hs, -, hg⟩ := (ofValue_eq_ok_iff data c).1 h
  have again : List.Forall₂ (fun item entry => entry.1 = item.1 ∧
      Gate.ofValue (.scalar item.1) item.2 = .ok entry.2)
      (c.gates.map fun entry => (entry.1, entry.2.toValue)) c.gates := by
    rw [List.forall₂_map_left_iff, List.forall₂_same]
    intro entry hm
    obtain ⟨item, hz⟩ := exists_mem_zip hg.length_eq hm
    obtain ⟨hn, hd⟩ := List.forall₂_zip hg hz
    rw [← hn] at hd
    exact ⟨rfl, Gate.ofValue_toValue hd⟩
  refine (ofValue_eq_ok_iff c.toValue c).2 ⟨_, _, rfl, Settings.ofValue_toValue hs, ?_, again⟩
  rw [section?_gates]
  rfl

section

variable {levels : Nat}

theorem isReadable_section {entries : List (Scalar × Value)}
    (h : Json.IsReadable (levels + 2) (.map entries)) (key : String) :
    Json.IsReadable (levels + 1) (section? entries key) := by
  rw [section?.eq_def]
  split
  · next v found =>
    split
    · exact h.find? found
    · exact Json.isReadable_empty
  · exact Json.isReadable_empty

/-- A configuration from readable data has readable data. -/
theorem isReadable_toValue {data : Value} {c : Configuration}
    (h : Json.IsReadable (levels + 4) data) (hc : ofValue data = .ok c) :
    Json.IsReadable (levels + 4) c.toValue := by
  obtain ⟨entries, items, he, hs, hi, hg⟩ := (ofValue_eq_ok_iff data c).1 hc
  obtain rfl := h.eq_map he
  have settings := Settings.isReadable_toValue (isReadable_section h "engine") hs
  have listed := isReadable_section h "gates"
  rw [listed.eq_map hi] at listed
  have names : (c.gates.map fun entry => (entry.1, entry.2.toValue)).map Prod.fst =
      items.map Prod.fst := by
    rw [← keys_gates hg, List.map_map]
    rfl
  have gates := listed.of_keys names <| List.forall_mem_map.2 fun entry hm => by
    obtain ⟨item, hz⟩ := exists_mem_zip hg.length_eq hm
    obtain ⟨-, hd⟩ := List.forall₂_zip hg hz
    cases listed with
    | map _ _ h => exact Gate.isReadable_toValue (h item (List.of_mem_zip hz).1) hd
  exact (Json.isReadable_empty.cons gates (by decide) (by simp)).cons settings (by decide) (by simp)

end

/-- The text of a file that holds plain characters. -/
theorem textOf_of_plain {text : String} (h : Text.ArePlain text.toList) :
    textOf (Text.Utf8.bytesOf text.toList) = .ok text := by
  rw [textOf, Text.Utf8.decode_of_plain h]
  dsimp only
  rw [Text.Utf8.withLineFeeds_of_plain h, Text.ofCharacters_of_plain h, String.ofList_toList]

theorem arePlain_of_toJson {c : Configuration} {indent : Json.Indent} (h : indent.IsPlain)
    {text : String} (written : c.toJson indent = .ok text) : Text.ArePlain text.toList := by
  rw [toJson] at written
  split at written
  · cases written
  · obtain rfl := Except.ok.inj written
    exact Json.arePlain_writeAt h 0 c.toValue

/-- Loading a plain JSON text makes the configuration of what it is read as. -/
theorem load_json {yamlAvailable : Bool} {files : Files} {path text : String} {c : Configuration}
    (ending : (Path.ofString path).ending = ".json") (plain : Text.ArePlain text.toList)
    (file : files (Path.ofString path) = .ok (Text.Utf8.bytesOf text.toList))
    (reads : Json.read text = .ok c.toValue) (again : ofValue c.toValue = .ok c) :
    load yamlAvailable files path = .ok c := by
  have holds : c.toValue.holds = true := rfl
  rw [load_of_read ending file (textOf_of_plain plain) reads, given, if_pos holds]
  exact (mapError_eq_ok_iff ..).2 again

/-- Data that JSON text gives back is given back by the text of the configuration. -/
theorem exists_toJson {c : Configuration} (h : Json.IsReadable Json.depthLimit c.toValue)
    {indent : Json.Indent} (blanks : ∀ unit ∈ indent, ∃ n, unit.toList = List.replicate n ' ') :
    ∃ text, c.toJson indent = .ok text ∧ Json.read text = .ok c.toValue :=
  ⟨_, by rw [toJson, Json.obstacle?_eq_none indent h],
    Json.read_write (Json.isBlank_of_blanks blanks) h⟩

/-- A configuration comes back from its data, which is the same again. If reading undoes writing, it
also comes back from a file that holds its JSON text, with any number of blanks for an indent; and
that is so for all data that JSON text gives back at all. -/
theorem round_trip {data : Value} {c : Configuration} (h : ofValue data = .ok c) :
    ofValue c.toValue = .ok c ∧ (ofValue c.toValue).map toValue = .ok c.toValue ∧
      ∀ v, v = .null ∨ (∃ n, v = .int n) → ∀ indent, Json.Indent.ofValue v = .ok indent →
        (Json.IsReadable Json.depthLimit data →
          ∃ text, c.toJson indent = .ok text ∧ Json.read text = .ok c.toValue) ∧
        ∀ text, c.toJson indent = .ok text → Json.read text = .ok c.toValue →
          ∃ content, Text.Utf8.encode text.toList = .ok content ∧
            ∀ yamlAvailable files path, (Path.ofString path).ending = ".json" →
              files (Path.ofString path) = .ok content → load yamlAvailable files path = .ok c := by
  have again := ofValue_toValue h
  refine ⟨again, by rw [again]; rfl, fun v hv indent hi => ?_⟩
  have blanks := Json.blanks_of_ofValue hv hi
  refine ⟨fun readable => ?_, fun text written reads => ?_⟩
  · have deep : Json.depthLimit = 985 + 4 := rfl
    rw [deep] at readable
    exact exists_toJson (isReadable_toValue readable h) blanks
  · have plain := arePlain_of_toJson (Json.isPlain_of_blanks blanks) written
    refine ⟨_, Text.Utf8.encode_of_plain plain, fun yamlAvailable files path ending file => ?_⟩
    exact load_json ending plain file reads again

/-- A bare list, and a gate with nothing but an empty description. -/
theorem round_trip_bare :
    ∃ data c text content, ofValue data = .ok c ∧ Json.IsReadable Json.depthLimit data ∧
      c.gates.length = 2 ∧ Json.Indent.ofValue (.int 1) = .ok (some " ") ∧
      c.toJson (some " ") = .ok text ∧ Json.read text = .ok c.toValue ∧ ofValue c.toValue = .ok c ∧
      Text.Utf8.encode text.toList = .ok content ∧
      load false (fun _ => .ok content) "gates.json" = .ok c := by
  let g : Value := .list [.text "a", .int 1]
  let h : Value := .map [(.text "mode", .text "any"), (.text "description", .text "")]
  let data : Value := .map [(.text "gates", .map [(.text "g", g), (.text "h", h)])]
  let c : Configuration := ⟨{}, [(.text "g", ⟨.text "g", .all, ["a", "1"], .null⟩),
    (.text "h", ⟨.text "h", .any, [], .text ""⟩)]⟩
  have made : ofValue data = .ok c := by decide +kernel
  have word {s : String} (plain : Text.ArePlain s.toList) (levels : Nat) :
      Json.IsReadable levels (.text s) :=
    Json.isReadable_text (Json.areWhole_of_plain plain) levels
  have number (levels : Nat) : Json.IsReadable levels (.int 1) :=
    .scalar (by decide +kernel : Number.Whole.isWritable 1 = true)
  have first : Json.IsReadable 987 g :=
    .list (List.forall_mem_cons.2 ⟨word (by decide) _, List.forall_mem_singleton.2 (number _)⟩)
  have second : Json.IsReadable 987 h :=
    (Json.isReadable_empty.cons (word (by decide) _) (by decide) (by simp)).cons (word (by decide) _)
      (by decide) (by simp)
  have gates : Json.IsReadable 988 (.map [(.text "g", g), (.text "h", h)]) :=
    (Json.isReadable_empty.cons second (by decide) (by simp)).cons first (by decide) (by simp)
  have readable : Json.IsReadable 989 data := Json.isReadable_empty.cons gates (by decide) (by simp)
  have indent : Json.Indent.ofValue (.int 1) = .ok (some " ") := by decide +kernel
  have ending : (Path.ofString "gates.json").ending = ".json" := by decide +kernel
  obtain ⟨again, -, json⟩ := round_trip made
  obtain ⟨written, load⟩ := json (.int 1) (.inr ⟨1, rfl⟩) _ indent
  obtain ⟨text, written, reads⟩ := written readable
  obtain ⟨content, encoded, loads⟩ := load text written reads
  exact ⟨data, c, text, content, made, readable, rfl, indent, written, reads, again, encoded,
    loads false (fun _ => .ok content) "gates.json" ending rfl⟩

end Configuration

end Gatekeeper
