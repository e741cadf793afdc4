import Gatekeeper.Proofs.JsonReading
import Gatekeeper.Value.Mismatch

/-!
# Parts of JSON data

The parts of data that JSON text gives back are such data again, and so is the text that the data is
shown by.
-/
namespace Gatekeeper.Json

open Text Number

/-! ## Whole texts -/

theorem areWhole_of_plain {text : List Char} (h : ArePlain text) : AreWhole text :=
  ⟨text, (ofCharacters_of_plain h).symm⟩

theorem AreWhole.append {front back : List Char} (hf : AreWhole front) (hb : AreWhole back) :
    AreWhole (front ++ back) := by
  obtain ⟨front, rfl⟩ := hf
  obtain ⟨back, rfl⟩ := hb
  exact ⟨front ++ back, (List.flatMap_append ..).symm⟩

theorem areWhole_flatMap {α : Type} {f : α → List Char} {xs : List α}
    (h : ∀ x ∈ xs, AreWhole (f x)) : AreWhole (xs.flatMap f) := by
  induction xs with
  | nil => exact ⟨[], rfl⟩
  | cons x xs ih =>
    obtain ⟨first, rest⟩ := List.forall_mem_cons.1 h
    exact first.append (ih rest)

theorem areWhole_intercalate {separator : List Char} (h : AreWhole separator)
    {members : List (List Char)} (hm : ∀ member ∈ members, AreWhole member) :
    AreWhole (separator.intercalate members) := by
  induction members with
  | nil => exact ⟨[], rfl⟩
  | cons member members ih =>
    obtain ⟨first, rest⟩ := List.forall_mem_cons.1 hm
    cases members with
    | nil => simpa using first
    | cons next members =>
      rw [List.intercalate_cons_cons]
      exact (first.append h).append (ih rest)

theorem areWhole_ofCode (c : Char) : AreWhole (ofCode c.toNat) :=
  ⟨[c], (List.flatMap_singleton ..).symm⟩

theorem areWhole_showCode (quote c : Char) : AreWhole (showCode quote c.toNat) := by
  have escaped {text : List Char} (h : ArePlain text) : AreWhole ('\\' :: text) :=
    areWhole_of_plain (arePlain_cons.2 ⟨by decide, h⟩)
  have number (mark : Char) (hm : IsPlain mark) (width : Nat) :
      AreWhole ('\\' :: mark :: hex width c.toNat) :=
    escaped (arePlain_cons.2 ⟨hm, arePlain_hex width _⟩)
  rw [showCode]
  split
  · exact (areWhole_of_plain (by decide : ArePlain ['\\'])).append (areWhole_ofCode c)
  split
  · exact escaped (by decide)
  split
  · exact escaped (by decide)
  split
  · exact escaped (by decide)
  split
  · exact areWhole_ofCode c
  split
  · exact number 'x' (by decide) 2
  split
  · exact number 'u' (by decide) 4
  · exact number 'U' (by decide) 8

theorem AreWhole.forall_codes {text : List Char} (h : AreWhole text) :
    ∀ n ∈ codes text, ∃ c : Char, n = c.toNat := by
  obtain ⟨chars, rfl⟩ := h
  rw [codes_ofCharacters]
  exact List.forall_mem_map.2 fun c _ => ⟨c, rfl⟩

theorem areWhole_quoted {s : String} (h : AreWhole s.toList) : AreWhole (quoted s).toList := by
  have mark : ArePlain [quoteFor s.toList] := by
    rw [quoteFor]
    split <;> decide
  have inner : AreWhole ((codes s.toList).flatMap (showCode (quoteFor s.toList))) := by
    refine areWhole_flatMap fun n hn => ?_
    obtain ⟨c, rfl⟩ := h.forall_codes n hn
    exact areWhole_showCode _ c
  rw [quoted, String.toList_ofList]
  exact (areWhole_of_plain mark).append (inner.append (areWhole_of_plain mark))

/-! ## Shown values -/

theorem IsReadableScalar.plain {s : Scalar} (h : IsReadableScalar s) : AreWhole s.plain.toList := by
  cases s with
  | null => exact areWhole_of_plain (by decide)
  | bool b => cases b <;> exact areWhole_of_plain (by decide)
  | int n => exact areWhole_of_plain (arePlain_writeScalar (.int n))
  | float x =>
    cases x with
    | nan => exact areWhole_of_plain (by decide)
    | infinity negative => cases negative <;> exact areWhole_of_plain (by decide)
    | finite negative units =>
      exact areWhole_of_plain (arePlain_writeScalar (.float (.finite negative units)))
  | text t => exact h
  | moment | octets | unordered => exact h.elim

theorem IsReadableScalar.shown {s : Scalar} (h : IsReadableScalar s) : AreWhole s.shown.toList := by
  cases s with
  | text t => exact areWhole_quoted h
  | moment | octets | unordered => exact h.elim
  | null | bool | int | float => exact h.plain

theorem shownItems_eq_map (around : List (Nat × String)) (items : List Value) :
    Value.shownItems around items = items.map (Value.shownWithin around) := by
  induction items with
  | nil => rw [Value.shownItems, List.map_nil]
  | cons v items ih => rw [Value.shownItems, ih, List.map_cons]

theorem shownEntries_eq_map (around : List (Nat × String)) (entries : List (Scalar × Value)) :
    Value.shownEntries around entries =
      entries.map fun entry => entry.1.shown ++ ": " ++ entry.2.shownWithin around := by
  induction entries with
  | nil => rw [Value.shownEntries, List.map_nil]
  | cons entry entries ih => rw [Value.shownEntries, ih, List.map_cons]

theorem areWhole_enclosed {opening closing : String} (ho : ArePlain opening.toList)
    (hc : ArePlain closing.toList) {members : List String}
    (hm : ∀ member ∈ members, AreWhole member.toList) :
    AreWhole (opening ++ ", ".intercalate members ++ closing).toList := by
  rw [String.toList_append, String.toList_append, String.toList_intercalate]
  refine ((areWhole_of_plain ho).append ?_).append (areWhole_of_plain hc)
  exact areWhole_intercalate (areWhole_of_plain (by decide)) (List.forall_mem_map.2 hm)

theorem IsReadable.shownWithin {levels : Nat} {v : Value} (h : IsReadable levels v)
    (around : List (Nat × String)) : AreWhole (v.shownWithin around).toList := by
  induction h with
  | scalar h =>
    rw [Value.shownWithin]
    exact h.shown
  | list _ ih =>
    rw [Value.shownWithin, shownItems_eq_map]
    exact areWhole_enclosed (by decide) (by decide) (List.forall_mem_map.2 ih)
  | map keys _ _ ih =>
    rw [Value.shownWithin, shownEntries_eq_map]
    refine areWhole_enclosed (by decide) (by decide) (List.forall_mem_map.2 fun entry he => ?_)
    obtain ⟨s, hs, whole⟩ := keys entry he
    rw [String.toList_append, String.toList_append, hs]
    exact ((areWhole_quoted whole).append (areWhole_of_plain (by decide))).append (ih entry he)

/-- The plain text of data that JSON text gives back. -/
theorem IsReadable.plain {levels : Nat} {v : Value} (h : IsReadable levels v) :
    AreWhole v.plain.toList := by
  cases h with
  | scalar h => exact h.plain
  | list h => exact (IsReadable.list h).shownWithin []
  | map keys nodup h => exact (IsReadable.map keys nodup h).shownWithin []

/-! ## Parts -/

theorem IsReadable.mono {levels levels' : Nat} {v : Value} (h : IsReadable levels v)
    (hl : levels ≤ levels') : IsReadable levels' v := by
  induction h generalizing levels' with
  | scalar h => exact .scalar h
  | list _ ih =>
    obtain ⟨more, rfl⟩ := Nat.exists_eq_add_one_of_ne_zero (Nat.ne_zero_of_lt hl)
    exact .list fun v hv => ih v hv (Nat.le_of_succ_le_succ hl)
  | map keys nodup _ ih =>
    obtain ⟨more, rfl⟩ := Nat.exists_eq_add_one_of_ne_zero (Nat.ne_zero_of_lt hl)
    exact .map keys nodup fun entry he => ih entry he (Nat.le_of_succ_le_succ hl)

theorem isReadable_text {s : String} (h : AreWhole s.toList) (levels : Nat) :
    IsReadable levels (.text s) :=
  .scalar h

theorem IsReadable.opened {levels : Nat} {v : Value} (h : IsReadable levels v) : v.opened = v :=
  h.isDocument.opened

/-- The members of readable data are readable. -/
theorem IsReadable.members {levels : Nat} {v : Value} (h : IsReadable levels v) {members : List Value}
    (hm : v.members? = .ok members) : ∀ member ∈ members, IsReadable levels member := by
  rw [Value.members?, h.opened] at hm
  cases h with
  | @scalar _ s h =>
    cases s with
    | text t =>
      obtain rfl := Except.ok.inj hm
      refine List.forall_mem_map.2 fun n hn => isReadable_text ?_ _
      obtain ⟨c, rfl⟩ := AreWhole.forall_codes h n hn
      rw [String.toList_ofList]
      exact areWhole_ofCode c
    | octets => exact h.elim
    | null | bool | int | float | moment | unordered => cases hm
  | list h =>
    obtain rfl := Except.ok.inj hm
    exact fun v hv => (h v hv).mono (Nat.le_succ _)
  | map keys nodup h =>
    obtain rfl := Except.ok.inj hm
    refine List.forall_mem_map.2 fun entry he => ?_
    obtain ⟨s, hs, whole⟩ := keys entry he
    rw [hs]
    exact isReadable_text whole _

/-- Data with entries is a map. -/
theorem IsReadable.eq_map {levels : Nat} {v : Value} (h : IsReadable levels v) {member : String}
    {entries : List (Scalar × Value)} (he : v.entries? member = .ok entries) : v = .map entries :=
  h.isDocument.eq_map he

section

variable {levels : Nat} {entries : List (Scalar × Value)}

theorem IsReadable.find? (h : IsReadable (levels + 1) (.map entries)) {key : Scalar} {v : Value}
    (hf : Value.find? entries key = some v) : IsReadable levels v := by
  obtain ⟨entry, found, rfl⟩ := Option.map_eq_some_iff.1 hf
  cases h with
  | map _ _ h => exact h entry (List.mem_of_find?_eq_some found)

theorem IsReadable.find?_getD (h : IsReadable (levels + 1) (.map entries)) {v : Value}
    (hv : IsReadable levels v) (key : Scalar) :
    IsReadable levels ((Value.find? entries key).getD v) := by
  cases found : Value.find? entries key with
  | none => exact hv
  | some w => exact h.find? found

theorem isReadable_empty : IsReadable (levels + 1) (.map []) :=
  .map (List.forall_mem_nil _) List.nodup_nil (List.forall_mem_nil _)

/-- A map with one more entry in front. -/
theorem IsReadable.cons (h : IsReadable (levels + 1) (.map entries)) {name : String} {v : Value}
    (hv : IsReadable levels v) (plain : ArePlain name.toList)
    (fresh : .text name ∉ entries.map Prod.fst) :
    IsReadable (levels + 1) (.map ((.text name, v) :: entries)) := by
  cases h with
  | map keys nodup h =>
    refine .map (List.forall_mem_cons.2 ⟨⟨name, rfl, areWhole_of_plain plain⟩, keys⟩) ?_
      (List.forall_mem_cons.2 ⟨hv, h⟩)
    rw [List.map_cons]
    exact List.nodup_cons.2 ⟨fresh, nodup⟩

/-- A map with the same keys and other values. -/
theorem IsReadable.of_keys (h : IsReadable (levels + 1) (.map entries)) {entries' : List (Scalar × Value)}
    (same : entries'.map Prod.fst = entries.map Prod.fst)
    (hv : ∀ entry ∈ entries', IsReadable levels entry.2) :
    IsReadable (levels + 1) (.map entries') := by
  cases h with
  | map keys nodup _ =>
    refine .map (fun entry' hm => ?_) (by rwa [same]) hv
    have key : entry'.1 ∈ entries.map Prod.fst := same ▸ List.mem_map_of_mem hm
    obtain ⟨entry, he, hk⟩ := List.mem_map.1 key
    rw [← hk]
    exact keys entry he

end

end Gatekeeper.Json
