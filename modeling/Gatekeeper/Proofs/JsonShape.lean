import Gatekeeper.Proofs.Outcome
import Gatekeeper.Proofs.JsonNumber
import Gatekeeper.Value.Equality
import Mathlib.Data.List.Nodup

/-!
# What is read from JSON

Whatever JSON text says, the value that is read from it is a tree of scalars, lists, and maps under
texts that are all different: of entries with one key the last one is kept, in the place of the first.
-/
namespace Gatekeeper

namespace Value

theorem same_text (s t : String) : Scalar.same (.text s) (.text t) = true ↔ s = t := by
  rw [Scalar.same_text_iff, Scalar.text.injEq]

variable {entries : List (Scalar × Value)}

theorem exists_names (texts : ∀ entry ∈ entries, ∃ s, entry.1 = .text s) :
    ∃ names : List String, entries.map Prod.fst = names.map .text := by
  induction entries with
  | nil => exact ⟨[], rfl⟩
  | cons entry entries ih =>
    obtain ⟨⟨s, hs⟩, others⟩ := List.forall_mem_cons.1 texts
    obtain ⟨names, hn⟩ := ih others
    exact ⟨s :: names, by rw [List.map_cons, List.map_cons, hs, hn]⟩

/-- To put a value under a name keeps the names, or it adds the name at the end. -/
theorem keys_insert {names : List String} (h : entries.map Prod.fst = names.map .text) (s : String)
    (v : Value) : (insert entries (.text s) v).map Prod.fst =
      (if s ∈ names then names else names ++ [s]).map .text := by
  induction entries generalizing names with
  | nil =>
    obtain rfl : names = [] := List.map_eq_nil_iff.1 h.symm
    rfl
  | cons entry entries ih =>
    obtain ⟨t, rest, rfl, ht, hr⟩ := List.map_eq_cons_iff.1 h.symm
    rw [insert]
    by_cases same : t = s
    · subst same
      simp [← ht, same_text, hr]
    · rw [if_neg (by rwa [← ht, same_text]), List.map_cons, ih hr.symm, ← ht]
      by_cases known : s ∈ rest
      · rw [if_pos known, if_pos (List.mem_cons_of_mem t known), List.map_cons]
      · rw [if_neg known, if_neg (by simp [known, Ne.symm same]), List.cons_append, List.map_cons]

theorem mem_insert {key : Scalar} {v : Value} {entry : Scalar × Value}
    (h : entry ∈ insert entries key v) : entry ∈ entries ∨ entry.2 = v := by
  induction entries with
  | nil => exact .inr (by rw [List.mem_singleton.1 h])
  | cons first entries ih =>
    rw [insert] at h
    split at h
    · rcases List.mem_cons.1 h with rfl | h
      · exact .inr rfl
      · exact .inl (List.mem_cons_of_mem _ h)
    · rcases List.mem_cons.1 h with rfl | h
      · exact .inl (List.mem_cons_self ..)
      · exact (ih h).imp_left (List.mem_cons_of_mem _)

end Value

namespace Json

/-- A scalar that JSON has a form for. -/
def IsPlainScalar : Scalar → Prop
  | .null | .bool _ | .int _ | .float _ | .text _ => True
  | .unordered _ | .moment .. | .octets _ => False

/-- Data as it is read from JSON. -/
inductive IsDocument : Value → Prop where
  | scalar {s : Scalar} (h : IsPlainScalar s) : IsDocument (.scalar s)
  | list {items : List Value} (h : ∀ v ∈ items, IsDocument v) : IsDocument (.list items)
  | map {entries : List (Scalar × Value)} {names : List String}
      (keys : entries.map Prod.fst = names.map .text) (nodup : names.Nodup)
      (h : ∀ entry ∈ entries, IsDocument entry.2) : IsDocument (.map entries)

theorem isDocument_empty : IsDocument (.map []) :=
  .map (List.map_nil (f := Scalar.text)).symm List.nodup_nil (List.forall_mem_nil _)

theorem IsDocument.insert {entries : List (Scalar × Value)} (h : IsDocument (.map entries)) (s : String)
    {v : Value} (hv : IsDocument v) : IsDocument (.map (Value.insert entries (.text s) v)) := by
  cases h with
  | map keys nodup h =>
    refine .map (Value.keys_insert keys s v) ?_ ?_
    · split
      · exact nodup
      · next new =>
        rw [← List.concat_eq_append]
        exact List.Nodup.concat new nodup
    · intro entry hm
      rcases Value.mem_insert hm with old | he
      · exact h entry old
      · rwa [he]

/-- A map from entries under names, whether these are different or not. -/
theorem isDocument_ofEntries {entries : List (Scalar × Value)}
    (texts : ∀ entry ∈ entries, ∃ s, entry.1 = .text s) (h : ∀ entry ∈ entries, IsDocument entry.2) :
    IsDocument (.ofEntries entries) := by
  refine List.foldlRecOn (motive := fun known => IsDocument (.map known)) entries _
    isDocument_empty fun known hk entry hm => ?_
  obtain ⟨s, hs⟩ := texts entry hm
  rw [hs]
  exact hk.insert s (h entry hm)

theorem isPlainScalar_of_numberOf {negative : Bool} {whole text rest : List Char} {s : Scalar}
    (h : numberOf negative whole text = .ok (some (s, rest))) : IsPlainScalar s := by
  rw [numberOf] at h
  split at h
  · cases h
  · dsimp only at h
    split at h
    · split at h
      · cases h
      · cases h
        trivial
    · cases h
      trivial
    · cases h
      trivial

theorem isPlainScalar_of_readScalar {text rest : List Char} {s : Scalar}
    (h : readScalar text = .ok (s, rest)) : IsPlainScalar s := by
  rw [readScalar] at h
  split at h
  · next name s' found =>
    cases h
    have named : ∀ name ∈ names, IsPlainScalar name.2 := by simp [names, IsPlainScalar]
    exact named _ (List.mem_of_find?_eq_some found)
  · obtain ⟨number?, hn, h⟩ := (bind_eq_ok_iff ..).1 h
    cases number? with
    | none => cases h
    | some read =>
      cases h
      by_cases minus : ∃ more, text = '-' :: more
      · obtain ⟨more, rfl⟩ := minus
        rw [readNumber_minus] at hn
        exact isPlainScalar_of_numberOf hn
      · rw [readNumber_of_ne (not_exists.1 minus)] at hn
        exact isPlainScalar_of_numberOf hn

/-- Whatever the budget: a value is a document, items are documents, and entries are documents under
names. -/
theorem isDocument_of_readWithin (budget : Nat) :
    (∀ {levels text v rest}, readValue budget levels text = .ok (v, rest) → IsDocument v) ∧
    (∀ {levels text items rest}, readItems budget levels text = .ok (items, rest) →
      ∀ v ∈ items, IsDocument v) ∧
    ∀ {levels text entries rest}, readEntries budget levels text = .ok (entries, rest) →
      (∀ entry ∈ entries, ∃ s, entry.1 = .text s) ∧ ∀ entry ∈ entries, IsDocument entry.2 := by
  induction budget with
  | zero => exact ⟨nofun, nofun, nofun⟩
  | succ budget ih =>
    obtain ⟨value, items, entries⟩ := ih
    refine ⟨?_, ?_, ?_⟩
    · intro levels text v rest h
      rw [readValue.eq_def] at h
      dsimp only at h
      split at h
      · obtain ⟨⟨s, after⟩, -, h⟩ := (bind_eq_ok_iff ..).1 h
        cases h
        exact .scalar trivial
      · split at h
        · cases h
        · cases h
          exact .list (List.forall_mem_nil _)
        · obtain ⟨⟨read, after⟩, hr, h⟩ := (bind_eq_ok_iff ..).1 h
          cases h
          exact .list (items hr)
      · split at h
        · cases h
        · cases h
          exact isDocument_empty
        · obtain ⟨⟨read, after⟩, hr, h⟩ := (bind_eq_ok_iff ..).1 h
          cases h
          exact isDocument_ofEntries (entries hr).1 (entries hr).2
      · obtain ⟨⟨s, after⟩, hs, h⟩ := (bind_eq_ok_iff ..).1 h
        cases h
        exact .scalar (isPlainScalar_of_readScalar hs)
    · intro levels text read rest h
      rw [readItems.eq_def] at h
      obtain ⟨⟨item, after⟩, hi, h⟩ := (bind_eq_ok_iff ..).1 h
      dsimp only at h
      split at h
      · cases h
        exact List.forall_mem_singleton.2 (value hi)
      · obtain ⟨⟨more, after'⟩, hm, h⟩ := (bind_eq_ok_iff ..).1 h
        cases h
        exact List.forall_mem_cons.2 ⟨value hi, items hm⟩
      · cases h
    · intro levels text read rest h
      rw [readEntries.eq_def] at h
      dsimp only at h
      split at h
      · obtain ⟨⟨name, after⟩, -, h⟩ := (bind_eq_ok_iff ..).1 h
        dsimp only at h
        split at h
        · obtain ⟨⟨v, after'⟩, hv, h⟩ := (bind_eq_ok_iff ..).1 h
          dsimp only at h
          split at h
          · cases h
            exact ⟨List.forall_mem_singleton.2 ⟨name, rfl⟩, List.forall_mem_singleton.2 (value hv)⟩
          · obtain ⟨⟨more, after''⟩, hm, h⟩ := (bind_eq_ok_iff ..).1 h
            cases h
            obtain ⟨texts, documents⟩ := entries hm
            exact ⟨List.forall_mem_cons.2 ⟨⟨name, rfl⟩, texts⟩,
              List.forall_mem_cons.2 ⟨value hv, documents⟩⟩
          · cases h
        · cases h
      · cases h

theorem isDocument_of_read {text : String} {v : Value} (h : read text = .ok v) : IsDocument v := by
  have h := (mapError_eq_ok_iff ..).1 h
  rw [readAll.eq_def] at h
  split at h
  · cases h
  · obtain ⟨⟨read, after⟩, hr, h⟩ := (bind_eq_ok_iff ..).1 h
    dsimp only at h
    split at h
    · cases h
      exact (isDocument_of_readWithin _).1 hr
    · cases h

/-! ## Documents -/

namespace IsDocument

variable {v : Value}

theorem opened (h : IsDocument v) : v.opened = v := by
  cases h <;> rfl

/-- A document with entries is a map. -/
theorem eq_map (h : IsDocument v) {member : String} {entries : List (Scalar × Value)}
    (he : v.entries? member = .ok entries) : v = .map entries := by
  rw [Value.entries?, h.opened] at he
  cases h with
  | scalar | list => cases he
  | map => rw [Except.ok.inj he]

theorem find? {entries : List (Scalar × Value)} (h : IsDocument (.map entries)) {key : Scalar}
    (hf : Value.find? entries key = some v) : IsDocument v := by
  obtain ⟨entry, found, rfl⟩ := Option.map_eq_some_iff.1 hf
  cases h with
  | map _ _ h => exact h entry (List.mem_of_find?_eq_some found)

end IsDocument

end Json

end Gatekeeper
