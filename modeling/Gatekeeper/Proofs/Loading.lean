import Gatekeeper.Configuration.Load
import Gatekeeper.Proofs.JsonShape
import Gatekeeper.Proofs.Sufficiency

/-!
# Loading a JSON file

The way from the bytes of a file to a configuration, step by step: the text, the data that it writes,
the settings and the gates. The gates that come out stand under different names.
-/
namespace Gatekeeper

open Grammar

deriving instance DecidableEq for Settings, Gate, Configuration

namespace Gate

/-- What a gate keeps of what it is built from. -/
theorem kept_of_build {name mode description : Value} {conditions : List Value} {gate : Gate}
    (h : build name conditions mode description = .ok gate) :
    name.holds = true ∧ ∃ mode, gate = ⟨name, mode, conditions.map Value.plain, description⟩ := by
  rw [build] at h
  split at h
  · cases h
  · split at h
    · next holds =>
      obtain ⟨mode, -, h⟩ := (bind_eq_ok_iff ..).1 h
      exact ⟨holds, mode, (Except.ok.inj h).symm⟩
    · cases h

theorem kept_of_ofValue {name data : Value} {gate : Gate} (h : ofValue name data = .ok gate) :
    name.holds = true ∧ gate.name = name := by
  rw [ofValue.eq_def] at h
  split at h
  · obtain ⟨holds, mode, rfl⟩ := kept_of_build h
    exact ⟨holds, rfl⟩
  · obtain ⟨entries, -, h⟩ := (bind_eq_ok_iff ..).1 h
    obtain ⟨conditions, -, h⟩ := (bind_eq_ok_iff ..).1 h
    obtain ⟨holds, mode, rfl⟩ := kept_of_build h
    exact ⟨holds, rfl⟩

end Gate

namespace Configuration

/-- The gate that an entry of the data gives, under the key of the entry. -/
def entryOf (item : Scalar × Value) : Except ConfigurationError (Scalar × Gate) := do
  return (item.1, ← (Gate.ofValue (.scalar item.1) item.2).mapError .gate)

theorem entryOf_eq_ok_iff (item : Scalar × Value) (entry : Scalar × Gate) :
    entryOf item = .ok entry ↔
      entry.1 = item.1 ∧ Gate.ofValue (.scalar item.1) item.2 = .ok entry.2 := by
  rw [entryOf, bind_eq_ok_iff]
  simp only [mapError_eq_ok_iff]
  constructor
  · rintro ⟨gate, hg, h⟩
    obtain rfl := Except.ok.inj h
    exact ⟨rfl, hg⟩
  · rintro ⟨hn, hg⟩
    exact ⟨entry.2, hg, by rw [← hn]; rfl⟩

/-- The entries of a map of gates, if it is one, give the gates one by one. -/
theorem ofValue_eq (data : Value) : ofValue data = do
    let entries ← (data.entries? "get").mapError .mismatch
    let settings ← (Settings.ofValue (section? entries "engine")).mapError .settings
    let items ← ((section? entries "gates").entries? "items").mapError .mismatch
    return ⟨settings, ← items.mapM entryOf⟩ :=
  rfl

/-- A configuration is made of its settings and, one by one, of its gates. -/
theorem ofValue_eq_ok_iff (data : Value) (c : Configuration) :
    ofValue data = .ok c ↔ ∃ entries items, data.entries? "get" = .ok entries ∧
      Settings.ofValue (section? entries "engine") = .ok c.settings ∧
      (section? entries "gates").entries? "items" = .ok items ∧
      List.Forall₂ (fun item entry => entry.1 = item.1 ∧
        Gate.ofValue (.scalar item.1) item.2 = .ok entry.2) items c.gates := by
  rw [ofValue_eq]
  simp only [bind_eq_ok_iff, mapError_eq_ok_iff, mapM_eq_ok_iff, entryOf_eq_ok_iff]
  constructor
  · rintro ⟨entries, he, settings, hs, items, hi, gates, hg, h⟩
    obtain rfl := Except.ok.inj h
    exact ⟨entries, items, he, hs, hi, hg⟩
  · rintro ⟨entries, items, he, hs, hi, hg⟩
    exact ⟨entries, he, c.settings, hs, items, hi, c.gates, hg, rfl⟩

/-- The gates stand under the keys of their data. -/
theorem keys_gates {items : List (Scalar × Value)} {gates : List (Scalar × Gate)}
    (h : List.Forall₂ (fun item entry => entry.1 = item.1 ∧
      Gate.ofValue (.scalar item.1) item.2 = .ok entry.2) items gates) :
    gates.map Prod.fst = items.map Prod.fst := by
  have each := h.imp fun _ _ h => h.1
  rw [← List.forall₂_eq_eq_eq, List.forall₂_map_left_iff, List.forall₂_map_right_iff]
  exact each.flip

/-- The data that stands for a configuration: data that does not hold is that of the default one. -/
def given (data : Value) : Value :=
  if data.holds then data else .map []

/-- The four steps from a JSON file to a configuration. -/
theorem load_eq {path : String} (ending : (Path.ofString path).ending = ".json")
    (yamlAvailable : Bool) (files : Files) :
    load yamlAvailable files path = (do
      let content ← (files (Path.ofString path)).mapError .file
      let text ← textOf content
      let data ← (Json.read text).mapError .json
      (ofValue (given data)).mapError .configuration) := by
  have read (content : List UInt8) : dataOf yamlAvailable ".json" content =
      (textOf content).bind fun text => (Json.read text).mapError .json := by
    rw [dataOf, if_pos (by decide)]
    rfl
  simp only [load, ending, read, given, bind, Except.bind]
  cases files (Path.ofString path) with
  | error e => rfl
  | ok content =>
    dsimp only [Except.mapError]
    cases textOf content <;> rfl

/-- What a JSON file is loaded as, if it is there and has a text that is JSON. -/
theorem load_of_read {yamlAvailable : Bool} {files : Files} {path text : String} {data : Value}
    {content : List UInt8} (ending : (Path.ofString path).ending = ".json")
    (file : files (Path.ofString path) = .ok content) (ht : textOf content = .ok text)
    (hd : Json.read text = .ok data) :
    load yamlAvailable files path = (ofValue (given data)).mapError .configuration := by
  rw [load_eq ending, file]
  simp only [Except.mapError, bind, Except.bind, ht, hd]

/-- A JSON file that is loaded has a text that is JSON. -/
theorem read_of_load {yamlAvailable : Bool} {files : Files} {path : String} {c : Configuration}
    (ending : (Path.ofString path).ending = ".json") (h : load yamlAvailable files path = .ok c) :
    ∃ content text data, files (Path.ofString path) = .ok content ∧ textOf content = .ok text ∧
      Json.read text = .ok data ∧ ofValue (given data) = .ok c := by
  rw [load_eq ending] at h
  simp only [bind_eq_ok_iff, mapError_eq_ok_iff] at h
  obtain ⟨content, file, text, ht, data, hd, h⟩ := h
  exact ⟨content, text, data, file, ht, hd, h⟩

theorem isDocument_given {data : Value} (h : Json.IsDocument data) : Json.IsDocument (given data) := by
  rw [given]
  split
  · exact h
  · exact Json.isDocument_empty

theorem isDocument_section {entries : List (Scalar × Value)} (h : Json.IsDocument (.map entries))
    (key : String) : Json.IsDocument (section? entries key) := by
  rw [section?.eq_def]
  split
  · next v found =>
    split
    · exact h.find? found
    · exact Json.isDocument_empty
  · exact Json.isDocument_empty

/-- A configuration whose gates stand under different names, none of them empty. -/
structure IsNamed (c : Configuration) (names : List String) : Prop where
  keys : c.gates.map Prod.fst = names.map .text
  nodup : names.Nodup
  nonempty : ∀ name ∈ names, name ≠ ""

theorem exists_isNamed {data : Value} (h : Json.IsDocument data) {c : Configuration}
    (hc : ofValue data = .ok c) : ∃ names, c.IsNamed names := by
  obtain ⟨entries, items, he, -, hi, hg⟩ := (ofValue_eq_ok_iff data c).1 hc
  obtain rfl := h.eq_map he
  have listed := isDocument_section h "gates"
  rw [listed.eq_map hi] at listed
  cases listed with
  | @map _ names keys nodup _ =>
    have same : c.gates.map Prod.fst = names.map .text := (keys_gates hg).trans keys
    refine ⟨names, same, nodup, ?_⟩
    rintro name hm rfl
    have key : Scalar.text "" ∈ c.gates.map Prod.fst := by
      rw [same]
      exact List.mem_map_of_mem hm
    obtain ⟨entry, he, key⟩ := List.mem_map.1 key
    obtain ⟨item, hz⟩ := exists_mem_zip hg.length_eq he
    obtain ⟨hn, hd⟩ := List.forall₂_zip hg hz
    obtain ⟨holds, -⟩ := Gate.kept_of_ofValue hd
    rw [← hn, key] at holds
    cases holds

theorem isNamed_of_load {yamlAvailable : Bool} {files : Files} {path : String} {c : Configuration}
    (ending : (Path.ofString path).ending = ".json") (h : load yamlAvailable files path = .ok c) :
    ∃ names, c.IsNamed names := by
  obtain ⟨content, text, data, -, -, read, built⟩ := read_of_load ending h
  exact exists_isNamed (isDocument_given (Json.isDocument_of_read read)) built

theorem parser?_of_load {yamlAvailable : Bool} {files : Files} {path : String} {c : Configuration}
    (ending : (Path.ofString path).ending = ".json") (h : load yamlAvailable files path = .ok c) :
    ∃ parser, c.settings.parser? = .ok parser := by
  obtain ⟨content, text, data, -, -, -, built⟩ := read_of_load ending h
  obtain ⟨entries, items, -, settings, -⟩ := (ofValue_eq_ok_iff _ c).1 built
  exact Settings.parser?_of_ofValue settings

namespace IsNamed

variable {c : Configuration} {names : List String} {entry : Scalar × Gate}

theorem exists_text (h : c.IsNamed names) (hm : entry ∈ c.gates) :
    ∃ name, entry.1 = .text name ∧ name ≠ "" := by
  have key := List.mem_map_of_mem (f := Prod.fst) hm
  rw [h.keys] at key
  obtain ⟨name, hn, he⟩ := List.mem_map.1 key
  exact ⟨name, he.symm, h.nonempty name hn⟩

theorem isWritable (h : c.IsNamed names) (hm : entry ∈ c.gates) : entry.1.isWritable = true := by
  obtain ⟨name, hn, -⟩ := h.exists_text hm
  rw [hn]
  rfl

end IsNamed

end Configuration

end Gatekeeper
