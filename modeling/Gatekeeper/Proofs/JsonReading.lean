import Gatekeeper.Proofs.JsonEscape
import Gatekeeper.Proofs.JsonDouble
import Gatekeeper.Proofs.JsonShape

/-!
# JSON is read back

Data that JSON has a form for comes back from its JSON text, in every layout that puts blanks before
the members: texts that stand for characters, whole numbers that are not too long, doubles, lists, and
maps from texts, no deeper than reading goes.
-/
namespace Gatekeeper.Json

open Number

/-- A scalar that JSON text gives back. -/
def IsReadableScalar : Scalar → Prop
  | .null | .bool _ => True
  | .int n => Whole.isWritable n = true
  | .float (.finite _ units) => Double.IsDouble units
  | .float _ => True
  | .text s => IsWhole s
  | .unordered _ | .moment .. | .octets _ => False

/-- Data with containers at most so many levels deep that JSON text gives back. -/
inductive IsReadable : Nat → Value → Prop where
  | scalar {levels : Nat} {s : Scalar} (h : IsReadableScalar s) : IsReadable levels (.scalar s)
  | list {levels : Nat} {items : List Value} (h : ∀ v ∈ items, IsReadable levels v) :
      IsReadable (levels + 1) (.list items)
  | map {levels : Nat} {entries : List (Scalar × Value)}
      (keys : ∀ entry ∈ entries, ∃ s, entry.1 = .text s ∧ IsWhole s)
      (nodup : (entries.map Prod.fst).Nodup) (h : ∀ entry ∈ entries, IsReadable levels entry.2) :
      IsReadable (levels + 1) (.map entries)

theorem IsReadable.isDocument {levels : Nat} {v : Value} (h : IsReadable levels v) : IsDocument v := by
  induction h with
  | @scalar _ s h => cases s <;> first | exact h.elim | exact .scalar trivial
  | list _ ih => exact .list ih
  | @map _ entries keys nodup _ ih =>
    obtain ⟨names, hn⟩ := Value.exists_names fun entry he => (keys entry he).imp fun _ hs => hs.1
    exact .map hn (List.Nodup.of_map Scalar.text (hn ▸ nodup)) ih

theorem obstacle?_eq_none (indent : Indent) {levels : Nat} {v : Value} (h : IsReadable levels v) :
    obstacle? indent v = none := by
  induction h with
  | @scalar _ s h =>
    rw [obstacle?]
    cases s with
    | int n =>
      have writable : Whole.isWritable n = true := h
      rw [scalarObstacle?, if_pos writable]
    | moment | octets => exact h.elim
    | null | bool | float | text | unordered => rfl
  | @list _ items _ ih =>
    rw [obstacle?]
    clear * - ih
    induction items with
    | nil => rfl
    | cons v items step =>
      obtain ⟨first, others⟩ := List.forall_mem_cons.1 ih
      rw [itemsObstacle?, first]
      exact step others
  | @map _ entries keys _ _ ih =>
    rw [obstacle?]
    clear * - keys ih
    induction entries with
    | nil => rfl
    | cons entry entries step =>
      obtain ⟨first, others⟩ := List.forall_mem_cons.1 ih
      obtain ⟨⟨s, hs, -⟩, rest⟩ := List.forall_mem_cons.1 keys
      obtain ⟨k, v⟩ := entry
      obtain rfl : k = .text s := hs
      rw [entriesObstacle?, first]
      exact step rest others

/-! ## Scalars -/

/-- The marks that start or close what is no bare scalar, the blanks, and the byte order mark. -/
def marks : List Char :=
  ['"', '[', ']', '\x7b', '\x7d', ' ', '\t', '\n', '\r', '\uFEFF']

theorem not_mem_marks {c : Char} (h : c.isDigit = true) : c ∉ marks := by
  simp only [marks, List.mem_cons, List.not_mem_nil, or_false]
  rintro (rfl | rfl | rfl | rfl | rfl | rfl | rfl | rfl | rfl | rfl) <;> cases h

/-- A text that starts with a bare scalar. -/
def StartsBare (text : List Char) : Prop :=
  ∃ c more, text = c :: more ∧ c ∉ marks

/-- A scalar that is no text is written without quotes and read up to its end. -/
theorem readScalar_writeScalar {s : Scalar} (h : IsReadableScalar s) (bare : ∀ t, s ≠ .text t) :
    StartsBare (writeScalar s).toList ∧
      ∀ rest, IsEnd rest → readScalar ((writeScalar s).toList ++ rest) = .ok (s, rest) := by
  have number {text : List Char} (hn : readNumber text = .ok (some (s, []))) :
      StartsBare text ∧ ∀ rest, IsEnd rest → readScalar (text ++ rest) = .ok (s, rest) := by
    refine ⟨?_, fun rest hr => readScalar_number hr hn⟩
    obtain ⟨c, more, hc, rfl | rfl⟩ := start_of_readNumber hn
    · exact ⟨c, more, rfl, not_mem_marks hc⟩
    · exact ⟨_, _, rfl, by decide⟩
  have name (word : String) (hw : (word, s) ∈ names) (start : StartsBare word.toList) :
      StartsBare word.toList ∧ ∀ rest, IsEnd rest → readScalar (word.toList ++ rest) = .ok (s, rest) :=
    ⟨start, fun rest _ => readScalar_name hw rest⟩
  cases s with
  | null => exact name "null" (by decide) ⟨_, _, rfl, by decide⟩
  | bool b =>
    cases b with
    | true => exact name "true" (by decide) ⟨_, _, rfl, by decide⟩
    | false => exact name "false" (by decide) ⟨_, _, rfl, by decide⟩
  | int n => exact number (readNumber_int h)
  | float x =>
    cases x with
    | nan => exact name "NaN" (by decide) ⟨_, _, rfl, by decide⟩
    | infinity negative =>
      cases negative with
      | true => exact name "-Infinity" (by decide) ⟨_, _, rfl, by decide⟩
      | false => exact name "Infinity" (by decide) ⟨_, _, rfl, by decide⟩
    | finite negative units =>
      have written : (writeScalar (.float (.finite negative units))).toList =
          Double.finiteText negative units := String.toList_ofList
      rw [written]
      exact number (readNumber_finiteText h negative)
  | text t => exact absurd rfl (bare t)
  | moment | octets | unordered => exact h.elim

theorem readValue_bare {text : List Char} (start : StartsBare text) {s : Scalar} {rest : List Char}
    (h : readScalar text = .ok (s, rest)) (budget levels : Nat) :
    readValue (budget + 1) levels text = .ok (.scalar s, rest) := by
  obtain ⟨c, more, rfl, hc⟩ := start
  have other {mark : Char} (hm : mark ∈ marks) (rest : List Char) : c :: more ≠ mark :: rest :=
    fun he => hc ((List.cons.inj he).1 ▸ hm)
  rw [readValue, h]
  · rfl
  · exact other (by decide)
  · exact other (by decide)
  · exact other (by decide)

theorem readValue_writeScalar {s : Scalar} (h : IsReadableScalar s) {rest : List Char}
    (hr : IsEnd rest) (budget levels : Nat) :
    readValue (budget + 1) levels ((writeScalar s).toList ++ rest) = .ok (.scalar s, rest) := by
  by_cases text : ∃ t, s = .text t
  · obtain ⟨t, rfl⟩ := text
    obtain ⟨inner, written, reads⟩ := readText_writeText h
    rw [writeScalar, written, List.cons_append, readValue, reads]
    rfl
  · obtain ⟨⟨c, more, written, hc⟩, reads⟩ := readScalar_writeScalar h (not_exists.1 text)
    have start : StartsBare ((writeScalar s).toList ++ rest) := by
      rw [written]
      exact ⟨c, more ++ rest, rfl, hc⟩
    exact readValue_bare start (reads rest hr) budget levels

/-! ## Layout -/

/-- A layout that puts blanks before members. -/
def Indent.IsBlank (indent : Indent) : Prop :=
  ∀ unit ∈ indent, ∀ c ∈ unit.toList, isSpace c = true

/-- A text that starts with no blank, does not close anything, and has no byte order mark. -/
def Starts (text : List Char) : Prop :=
  ∃ c more, text = c :: more ∧ isSpace c = false ∧ c ∉ [']', '\x7d', '\uFEFF']

theorem Starts.skipSpace {text : List Char} (h : Starts text) (rest : List Char) :
    skipSpace (text ++ rest) = text ++ rest := by
  obtain ⟨c, more, rfl, hc, -⟩ := h
  exact List.dropWhile_cons_of_neg (by simp [hc])

theorem StartsBare.starts {text : List Char} (h : StartsBare text) : Starts text := by
  obtain ⟨c, more, rfl, hc⟩ := h
  simp only [marks, List.mem_cons, List.not_mem_nil, or_false, not_or] at hc
  exact ⟨c, more, rfl, by simp [isSpace, hc], by simp [hc]⟩

theorem Starts.ne {text : List Char} (h : Starts text) {c : Char} (hc : c ∈ [']', '\x7d', '\uFEFF'])
    (more : List Char) : text ≠ c :: more := by
  rintro rfl
  obtain ⟨d, more', he, -, mark⟩ := h
  exact mark ((List.cons.inj he).1 ▸ hc)

theorem Starts.append {text : List Char} (h : Starts text) (rest : List Char) : Starts (text ++ rest) := by
  obtain ⟨c, more, rfl, hc⟩ := h
  exact ⟨c, more ++ rest, rfl, hc⟩

theorem skipSpace_append {front : List Char} (h : ∀ c ∈ front, isSpace c = true) (rest : List Char) :
    skipSpace (front ++ rest) = skipSpace rest :=
  List.dropWhile_append_of_pos h

section

variable {indent : Indent} (blank : indent.IsBlank) (level : Nat)

include blank in
theorem isSpace_of_mem_newline {unit : String} (hu : unit ∈ indent) :
    ∀ c ∈ (newline unit level).toList, isSpace c = true := by
  intro c hc
  rw [newline, String.toList_append, String.toList_join, List.mem_append] at hc
  rcases hc with hc | hc
  · obtain rfl := List.mem_singleton.1 hc
    rfl
  · obtain ⟨s, hs, hc⟩ := List.mem_flatMap.1 hc
    rw [List.eq_of_mem_replicate hs] at hc
    exact blank unit hu c hc

include blank in
theorem isSpace_of_mem_gap : ∀ c ∈ gap indent level, isSpace c = true := by
  cases indent with
  | none => exact fun c hc => absurd hc List.not_mem_nil
  | some unit => exact isSpace_of_mem_newline blank level rfl

include blank in
theorem isSpace_of_mem_pause : ∀ c ∈ pause indent level, isSpace c = true := by
  cases indent with
  | none => exact List.forall_mem_singleton.2 rfl
  | some unit => exact isSpace_of_mem_newline blank level rfl

theorem isEnd_gap_append {c : Char} (hc : c ∈ ends) (rest : List Char) :
    IsEnd (gap indent level ++ c :: rest) := by
  cases indent with
  | none => exact isEnd_cons hc rest
  | some unit =>
    rw [gap, newline, String.toList_append, List.append_assoc]
    exact isEnd_cons (show '\n' ∈ ends by decide) _

end

/-! ## Values -/

/-- A value that is read up to its end, however it is laid out within others. -/
def ReadsAt (indent : Indent) (levels : Nat) (v : Value) : Prop :=
  ∀ level, Starts (writeAt indent level v).toList ∧ ∀ rest budget, IsEnd rest →
    2 * (writeAt indent level v).toList.length ≤ budget →
    readValue budget levels ((writeAt indent level v).toList ++ rest) = .ok (v, rest)

/-- The members of a container, without its brackets. -/
def inner (indent : Indent) (level : Nat) (members : List String) : List Char :=
  (',' :: pause indent level).intercalate (members.map String.toList)

theorem inner_cons_cons (indent : Indent) (level : Nat) (first second : String) (members : List String) :
    inner indent level (first :: second :: members) =
      first.toList ++ ',' :: (pause indent level ++ inner indent level (second :: members)) := by
  rw [inner, List.map_cons, List.map_cons, List.intercalate_cons_cons, List.append_assoc]
  rfl

theorem inner_singleton (indent : Indent) (level : Nat) (member : String) :
    inner indent level [member] = member.toList := by
  simp [inner]

section

variable {indent : Indent} (blank : indent.IsBlank) {levels : Nat}

theorem starts_inner {level : Nat} {first : String} (h : Starts first.toList) (members : List String) :
    Starts (inner indent level (first :: members)) := by
  obtain ⟨c, more, hc, mark⟩ := h
  cases members with
  | nil => exact ⟨c, more, by rw [inner_singleton, hc], mark⟩
  | cons second members => exact ⟨c, _, by rw [inner_cons_cons, hc]; rfl, mark⟩

theorem writeItems_eq_map (indent : Indent) (level : Nat) (items : List Value) :
    writeItems indent level items = items.map (writeAt indent level) := by
  induction items with
  | nil => rw [writeItems, List.map_nil]
  | cons v items ih => rw [writeItems, ih, List.map_cons]

/-- A name of an entry with its value, as they are written. -/
def writeEntry (indent : Indent) (level : Nat) (entry : Scalar × Value) : String :=
  writeKey entry.1 ++ ": " ++ writeAt indent level entry.2

theorem writeEntries_eq_map (indent : Indent) (level : Nat) (entries : List (Scalar × Value)) :
    writeEntries indent level entries = entries.map (writeEntry indent level) := by
  induction entries with
  | nil => rw [writeEntries, List.map_nil]
  | cons entry entries ih => rw [writeEntries, ih, List.map_cons, writeEntry]

theorem readItems_last {v : Value} (h : ReadsAt indent levels v) (level : Nat)
    {behind rest : List Char} (he : IsEnd behind) (hs : skipSpace behind = ']' :: rest) {budget : Nat}
    (enough : 2 * (writeAt indent level v).toList.length ≤ budget) :
    readItems (budget + 1) levels ((writeAt indent level v).toList ++ behind) = .ok ([v], rest) := by
  rw [readItems, (h level).2 behind budget he enough]
  simp only [bind, Except.bind, hs]
  rfl

theorem readItems_next {v : Value} (h : ReadsAt indent levels v) (level : Nat)
    {follows rest : List Char} {items : List Value} {budget : Nat}
    (hf : readItems budget levels (skipSpace follows) = .ok (items, rest))
    (enough : 2 * (writeAt indent level v).toList.length ≤ budget) :
    readItems (budget + 1) levels ((writeAt indent level v).toList ++ ',' :: follows) =
      .ok (v :: items, rest) := by
  have comma : skipSpace (',' :: follows) = ',' :: follows := rfl
  rw [readItems, (h level).2 _ budget (isEnd_cons (by decide) follows) enough]
  simp only [bind, Except.bind, comma, hf]
  rfl

include blank in
/-- Written items are read one by one, up to the closing bracket. -/
theorem readItems_inner (level : Nat) {v : Value} {items : List Value}
    (reads : ∀ v' ∈ v :: items, ReadsAt indent levels v') {behind rest : List Char}
    (he : IsEnd behind) (hs : skipSpace behind = ']' :: rest) {budget : Nat}
    (enough : 2 * (inner indent level ((v :: items).map (writeAt indent level))).length < budget) :
    readItems budget levels (inner indent level ((v :: items).map (writeAt indent level)) ++ behind) =
      .ok (v :: items, rest) := by
  obtain ⟨budget, rfl⟩ : ∃ b, budget = b + 1 := ⟨budget - 1, by omega⟩
  induction items generalizing v budget with
  | nil =>
    rw [List.map_singleton, inner_singleton] at enough ⊢
    exact readItems_last (reads v (List.mem_singleton_self v)) level he hs (by omega)
  | cons w items ih =>
    obtain ⟨here, later⟩ := List.forall_mem_cons.1 reads
    have start : Starts (inner indent level ((w :: items).map (writeAt indent level))) :=
      starts_inner (later w (List.mem_cons_self ..) level).1 _
    have others := ih later
    rw [List.map_cons, List.map_cons, inner_cons_cons, ← List.map_cons] at enough ⊢
    generalize inner indent level ((w :: items).map (writeAt indent level)) = text at *
    rw [List.length_append, List.length_cons, List.length_append] at enough
    obtain ⟨budget, rfl⟩ : ∃ b, budget = b + 1 := ⟨budget - 1, by omega⟩
    rw [List.append_assoc, List.cons_append, List.append_assoc]
    refine readItems_next here level ?_ (by omega)
    rw [skipSpace_append (isSpace_of_mem_pause blank level), start.skipSpace]
    exact others budget (by omega)

theorem length_lt_writeEntry (indent : Indent) (level : Nat) (k : Scalar) (v : Value) :
    (writeAt indent level v).toList.length < (writeEntry indent level (k, v)).toList.length := by
  rw [writeEntry, String.toList_append, String.toList_append, List.length_append, List.length_append]
  exact Nat.lt_add_of_pos_left (by simp)

/-- A written entry has its name between quotes in front. -/
theorem writeEntry_append {s : String} (h : IsWhole s) :
    ∃ name, (∀ level v rest, (writeEntry indent level (.text s, v)).toList ++ rest =
        '"' :: (name ++ ':' :: ' ' :: ((writeAt indent level v).toList ++ rest))) ∧
      ∀ rest, readText (name ++ rest) = .ok (s, rest) := by
  obtain ⟨name, written, reads⟩ := readText_writeText h
  refine ⟨name, fun level v rest => ?_, reads⟩
  rw [writeEntry, writeKey, String.toList_append, String.toList_append, written]
  simp

theorem starts_writeEntry {entry : Scalar × Value} (h : ∃ s, entry.1 = .text s ∧ IsWhole s)
    (level : Nat) : Starts (writeEntry indent level entry).toList := by
  obtain ⟨k, v⟩ := entry
  obtain ⟨s, rfl, whole⟩ := h
  obtain ⟨name, written, -⟩ := writeEntry_append whole
  have start := written level v []
  rw [List.append_nil] at start
  exact ⟨_, _, start, rfl, by decide⟩

section

variable {s : String} (hs : IsWhole s) {v : Value} (h : ReadsAt indent levels v)

include hs h in
theorem readEntries_last (level : Nat) {behind rest : List Char} (he : IsEnd behind)
    (hb : skipSpace behind = '\x7d' :: rest) {budget : Nat}
    (enough : 2 * (writeEntry indent level (.text s, v)).toList.length ≤ budget) :
    readEntries (budget + 1) levels ((writeEntry indent level (.text s, v)).toList ++ behind) =
      .ok ([(.text s, v)], rest) := by
  obtain ⟨name, written, names⟩ := writeEntry_append hs
  obtain ⟨start, read⟩ := h level
  have shorter := length_lt_writeEntry indent level (.text s) v
  have colon (rest : List Char) : skipSpace (':' :: rest) = ':' :: rest := rfl
  have space (rest : List Char) : skipSpace (' ' :: rest) = skipSpace rest := rfl
  rw [written, readEntries, names]
  simp only [bind, Except.bind, colon, space, start.skipSpace, read behind budget he (by omega), hb]
  rfl

include hs h in
theorem readEntries_next (level : Nat) {follows rest : List Char} {entries : List (Scalar × Value)}
    {budget : Nat} (hf : readEntries budget levels (skipSpace follows) = .ok (entries, rest))
    (enough : 2 * (writeEntry indent level (.text s, v)).toList.length ≤ budget) :
    readEntries (budget + 1) levels ((writeEntry indent level (.text s, v)).toList ++ ',' :: follows) =
      .ok ((.text s, v) :: entries, rest) := by
  obtain ⟨name, written, names⟩ := writeEntry_append hs
  obtain ⟨start, read⟩ := h level
  have shorter := length_lt_writeEntry indent level (.text s) v
  have colon (rest : List Char) : skipSpace (':' :: rest) = ':' :: rest := rfl
  have space (rest : List Char) : skipSpace (' ' :: rest) = skipSpace rest := rfl
  have comma : skipSpace (',' :: follows) = ',' :: follows := rfl
  rw [written, readEntries, names]
  simp only [bind, Except.bind, colon, space, start.skipSpace, comma, hf,
    read _ budget (isEnd_cons (show ',' ∈ ends by decide) follows) (by omega)]
  rfl

end

include blank in
/-- Written entries are read one by one, up to the closing bracket. -/
theorem readEntries_inner (level : Nat) {entry : Scalar × Value} {entries : List (Scalar × Value)}
    (keys : ∀ entry' ∈ entry :: entries, ∃ s, entry'.1 = .text s ∧ IsWhole s)
    (reads : ∀ entry' ∈ entry :: entries, ReadsAt indent levels entry'.2) {behind rest : List Char}
    (he : IsEnd behind) (hs : skipSpace behind = '\x7d' :: rest) {budget : Nat}
    (enough : 2 * (inner indent level ((entry :: entries).map (writeEntry indent level))).length <
      budget) :
    readEntries budget levels
        (inner indent level ((entry :: entries).map (writeEntry indent level)) ++ behind) =
      .ok (entry :: entries, rest) := by
  obtain ⟨budget, rfl⟩ : ∃ b, budget = b + 1 := ⟨budget - 1, by omega⟩
  induction entries generalizing entry budget with
  | nil =>
    obtain ⟨k, v⟩ := entry
    obtain ⟨⟨s, rfl, whole⟩, -⟩ := List.forall_mem_cons.1 keys
    have here : ReadsAt indent levels v := reads _ (List.mem_singleton_self _)
    rw [List.map_singleton, inner_singleton] at enough ⊢
    exact readEntries_last whole here level he hs (by omega)
  | cons second entries ih =>
    obtain ⟨k, v⟩ := entry
    obtain ⟨⟨s, rfl, whole⟩, others⟩ := List.forall_mem_cons.1 keys
    have here : ReadsAt indent levels v := reads _ (List.mem_cons_self ..)
    have later := (List.forall_mem_cons.1 reads).2
    have start : Starts (inner indent level ((second :: entries).map (writeEntry indent level))) :=
      starts_inner (starts_writeEntry (others _ (List.mem_cons_self ..)) level) _
    have rest := ih others later
    rw [List.map_cons, List.map_cons, inner_cons_cons, ← List.map_cons] at enough ⊢
    generalize inner indent level ((second :: entries).map (writeEntry indent level)) = text at *
    rw [List.length_append, List.length_cons, List.length_append] at enough
    obtain ⟨budget, rfl⟩ : ∃ b, budget = b + 1 := ⟨budget - 1, by omega⟩
    rw [List.append_assoc, List.cons_append, List.append_assoc]
    refine readEntries_next whole here level ?_ (by omega)
    rw [skipSpace_append (isSpace_of_mem_pause blank level), start.skipSpace]
    exact rest budget (by omega)

/-! ## Whole values -/

theorem insert_of_not_mem {known : List (Scalar × Value)} {s : String}
    (texts : ∀ entry ∈ known, ∃ t, entry.1 = .text t) (new : .text s ∉ known.map Prod.fst) (v : Value) :
    Value.insert known (.text s) v = known ++ [(.text s, v)] := by
  induction known with
  | nil => rfl
  | cons entry known ih =>
    obtain ⟨⟨t, ht⟩, others⟩ := List.forall_mem_cons.1 texts
    rw [List.map_cons, List.mem_cons, not_or] at new
    have other : ¬entry.1.same (.text s) = true := by
      rw [ht, Value.same_text]
      rintro rfl
      exact new.1 ht.symm
    rw [Value.insert, if_neg other, ih others new.2]
    rfl

/-- Entries under different texts are a map as they are. -/
theorem ofEntries_of_nodup {entries : List (Scalar × Value)}
    (keys : ∀ entry ∈ entries, ∃ s, entry.1 = .text s) (nodup : (entries.map Prod.fst).Nodup) :
    Value.ofEntries entries = .map entries := by
  have fold (known : List (Scalar × Value)) (texts : ∀ entry ∈ known, ∃ s, entry.1 = .text s)
      (apart : ((known ++ entries).map Prod.fst).Nodup) :
      entries.foldl (fun known entry => Value.insert known entry.1 entry.2) known =
        known ++ entries := by
    clear nodup
    induction entries generalizing known with
    | nil => exact (List.append_nil _).symm
    | cons entry entries ih =>
      obtain ⟨k, v⟩ := entry
      obtain ⟨⟨s, rfl⟩, others⟩ := List.forall_mem_cons.1 keys
      have new : .text s ∉ known.map Prod.fst := by
        rw [List.map_append, List.map_cons] at apart
        exact fun h => (List.nodup_append.1 apart).2.2 _ h _ (List.mem_cons_self ..) rfl
      have more : ∀ entry ∈ known ++ [(.text s, v)], ∃ s, entry.1 = .text s :=
        List.forall_mem_append.2 ⟨texts, List.forall_mem_singleton.2 ⟨s, rfl⟩⟩
      rw [List.foldl_cons, insert_of_not_mem texts new, ih others _ more (by simpa using apart),
        List.append_assoc]
      rfl
  rw [Value.ofEntries, fold [] (fun _ h => absurd h List.not_mem_nil) nodup, List.nil_append]

section

variable {opening closing : String} {o c : Char} (ho : opening.toList = [o]) (hc : closing.toList = [c])
  {members : List String}

include ho hc in
theorem toList_enclose_inner (indent : Indent) (level : Nat) (ne : members ≠ []) :
    (enclose indent level opening closing members).toList =
      o :: (gap indent (level + 1) ++
        (inner indent (level + 1) members ++ (gap indent level ++ [c]))) := by
  rw [toList_enclose _ _ _ _ ne, ho, hc]
  simp only [inner, List.append_assoc, List.cons_append, List.nil_append]

include ho hc in
theorem length_inner_lt (indent : Indent) (level : Nat) (ne : members ≠ []) :
    (inner indent (level + 1) members).length + 2 ≤
      (enclose indent level opening closing members).toList.length := by
  rw [toList_enclose_inner ho hc _ _ ne]
  simp only [List.length_cons, List.length_append, List.length_nil]
  omega

include ho hc in
theorem starts_enclose (indent : Indent) (level : Nat) (space : isSpace o = false)
    (mark : o ∉ [']', '\x7d', '\uFEFF']) (members : List String) :
    Starts (enclose indent level opening closing members).toList := by
  by_cases ne : members = []
  · rw [ne, toList_enclose_nil, ho]
    exact ⟨_, _, rfl, space, mark⟩
  · rw [toList_enclose_inner ho hc _ _ ne]
    exact ⟨_, _, rfl, space, mark⟩

include blank ho hc in
/-- What is left of a container behind its opening bracket, and what behind its members. -/
theorem enclose_append (level : Nat) (mark : c ∈ [']', '\x7d']) (ne : members ≠ [])
    (start : Starts (inner indent (level + 1) members)) (rest : List Char) :
    ∃ inside behind, (enclose indent level opening closing members).toList ++ rest = o :: inside ∧
      skipSpace inside = inner indent (level + 1) members ++ behind ∧
      IsEnd behind ∧ skipSpace behind = c :: rest := by
  have front := isSpace_of_mem_gap blank (level + 1)
  have last := isSpace_of_mem_gap blank level
  have both : c ∈ ends ∧ isSpace c = false := by
    simp only [List.mem_cons, List.not_mem_nil, or_false] at mark
    rcases mark with rfl | rfl <;> decide
  refine ⟨gap indent (level + 1) ++
    (inner indent (level + 1) members ++ (gap indent level ++ c :: rest)),
    gap indent level ++ c :: rest, ?_, ?_, isEnd_gap_append level both.1 rest, ?_⟩
  · rw [toList_enclose_inner ho hc _ _ ne]
    simp only [List.cons_append, List.append_assoc, List.nil_append]
  · rw [skipSpace_append front, start.skipSpace]
  · rw [skipSpace_append last]
    exact List.dropWhile_cons_of_neg (by simp [both.2])

end

theorem readValue_list {budget levels : Nat} {rest : List Char} (start : Starts (skipSpace rest))
    {items : List Value} {after : List Char}
    (h : readItems budget levels (skipSpace rest) = .ok (items, after)) :
    readValue (budget + 1) (levels + 1) ('[' :: rest) = .ok (.list items, after) := by
  rw [readValue.eq_5 _ _ _ (start.ne (by decide)), h]
  rfl

theorem readValue_map {budget levels : Nat} {rest : List Char} (start : Starts (skipSpace rest))
    {entries : List (Scalar × Value)} {after : List Char}
    (h : readEntries budget levels (skipSpace rest) = .ok (entries, after)) :
    readValue (budget + 1) (levels + 1) ('\x7b' :: rest) = .ok (.ofEntries entries, after) := by
  rw [readValue.eq_8 _ _ _ (start.ne (by decide)), h]
  rfl

theorem readsAt_scalar {s : Scalar} (h : IsReadableScalar s) : ReadsAt indent levels (.scalar s) := by
  intro level
  have start : Starts (writeScalar s).toList := by
    by_cases text : ∃ t, s = .text t
    · obtain ⟨t, rfl⟩ := text
      obtain ⟨inner, written, -⟩ := readText_writeText h
      exact ⟨_, _, written, rfl, by decide⟩
    · exact (readScalar_writeScalar h (not_exists.1 text)).1.starts
  rw [writeAt]
  refine ⟨start, fun rest budget hr enough => ?_⟩
  obtain ⟨c, more, hc, -⟩ := start
  rw [hc, List.length_cons] at enough
  obtain ⟨budget, rfl⟩ : ∃ b, budget = b + 1 := ⟨budget - 1, by omega⟩
  exact readValue_writeScalar h hr budget levels

include blank in
theorem readsAt_list {items : List Value} (h : ∀ v ∈ items, ReadsAt indent levels v) :
    ReadsAt indent (levels + 1) (.list items) := by
  intro level
  have opening : "[".toList = ['['] := rfl
  have closing : "]".toList = [']'] := rfl
  rw [writeAt, writeItems_eq_map]
  refine ⟨starts_enclose opening closing indent level rfl (by decide) _, fun rest budget _ enough => ?_⟩
  cases items with
  | nil =>
    rw [List.map_nil, toList_enclose_nil, opening, closing] at enough ⊢
    obtain ⟨budget, rfl⟩ : ∃ b, budget = b + 1 := ⟨budget - 1, by simp at enough; omega⟩
    rfl
  | cons v items =>
    have ne : (v :: items).map (writeAt indent (level + 1)) ≠ [] := List.cons_ne_nil _ _
    have start : Starts (inner indent (level + 1) ((v :: items).map (writeAt indent (level + 1)))) :=
      starts_inner (h v (List.mem_cons_self ..) (level + 1)).1 _
    have shorter := length_inner_lt opening closing indent level ne
    obtain ⟨inside, behind, written, skipped, he, hs⟩ :=
      enclose_append blank opening closing level (by decide) ne start rest
    obtain ⟨budget, rfl⟩ : ∃ b, budget = b + 1 := ⟨budget - 1, by omega⟩
    have read := readItems_inner blank (level + 1) h he hs (show _ < budget by omega)
    rw [written]
    rw [← skipped] at read
    refine readValue_list ?_ read
    rw [skipped]
    exact start.append _

include blank in
theorem readsAt_map {entries : List (Scalar × Value)}
    (keys : ∀ entry ∈ entries, ∃ s, entry.1 = .text s ∧ IsWhole s)
    (nodup : (entries.map Prod.fst).Nodup) (h : ∀ entry ∈ entries, ReadsAt indent levels entry.2) :
    ReadsAt indent (levels + 1) (.map entries) := by
  intro level
  have opening : "\x7b".toList = ['\x7b'] := rfl
  have closing : "\x7d".toList = ['\x7d'] := rfl
  rw [writeAt, writeEntries_eq_map]
  refine ⟨starts_enclose opening closing indent level rfl (by decide) _, fun rest budget _ enough => ?_⟩
  cases entries with
  | nil =>
    rw [List.map_nil, toList_enclose_nil, opening, closing] at enough ⊢
    obtain ⟨budget, rfl⟩ : ∃ b, budget = b + 1 := ⟨budget - 1, by simp at enough; omega⟩
    rfl
  | cons entry entries =>
    have ne : (entry :: entries).map (writeEntry indent (level + 1)) ≠ [] := List.cons_ne_nil _ _
    have start : Starts (inner indent (level + 1)
        ((entry :: entries).map (writeEntry indent (level + 1)))) :=
      starts_inner (starts_writeEntry (keys entry (List.mem_cons_self ..)) (level + 1)) _
    have shorter := length_inner_lt opening closing indent level ne
    obtain ⟨inside, behind, written, skipped, he, hs⟩ :=
      enclose_append blank opening closing level (by decide) ne start rest
    obtain ⟨budget, rfl⟩ : ∃ b, budget = b + 1 := ⟨budget - 1, by omega⟩
    have read := readEntries_inner blank (level + 1) keys h he hs (show _ < budget by omega)
    rw [written, ← ofEntries_of_nodup (fun entry he => (keys entry he).imp fun _ hs => hs.1) nodup]
    rw [← skipped] at read
    refine readValue_map ?_ read
    rw [skipped]
    exact start.append _

include blank in
theorem readsAt_of_isReadable {v : Value} (h : IsReadable levels v) : ReadsAt indent levels v := by
  induction h with
  | scalar h => exact readsAt_scalar h
  | list _ ih => exact readsAt_list blank ih
  | map keys nodup _ ih => exact readsAt_map blank keys nodup ih

end

theorem isBlank_of_blanks {indent : Indent}
    (h : ∀ unit ∈ indent, ∃ n, unit.toList = List.replicate n ' ') : indent.IsBlank := by
  intro unit hu c hc
  obtain ⟨n, hn⟩ := h unit hu
  rw [hn] at hc
  rw [List.eq_of_mem_replicate hc]
  rfl

/-- JSON data comes back from its text. -/
theorem read_write {indent : Indent} (blank : indent.IsBlank) {v : Value}
    (h : IsReadable depthLimit v) : read (write indent v) = .ok v := by
  obtain ⟨start, reads⟩ := readsAt_of_isReadable blank h 0
  have whole := reads [] (2 * (writeAt indent 0 v).toList.length + 2) isEnd_nil (Nat.le_add_right ..)
  have skipped := start.skipSpace []
  rw [List.append_nil] at whole skipped
  have all : readAll (write indent v).toList = .ok v := by
    rw [readAll, write, skipped, whole]
    · rfl
    · exact start.ne (by decide)
  rw [read, all]
  rfl

end Gatekeeper.Json
