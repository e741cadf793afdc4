import Gatekeeper.Json.Writer
import Gatekeeper.Proofs.Ascii

/-!
# JSON text is plain

Whatever the value, its JSON text has characters of ASCII only, and among them no carriage return, if
the indent has no others. So a file holds it as it is.
-/
namespace Gatekeeper.Json

open Text Number

/-! ## Digits -/

theorem exists_digit_of_mem {b n : Nat} (hb : 1 < b) {c : Char} (h : c ∈ Nat.toDigits b n) :
    ∃ d < b, c = d.digitChar := by
  induction n using Nat.strongRecOn with
  | _ n ih =>
    rw [Nat.toDigits_eq_if hb] at h
    split at h
    · next small => exact ⟨n, small, List.mem_singleton.1 h⟩
    · next large =>
      rcases List.mem_append.1 h with h | h
      · exact ih (n / b) (Nat.div_lt_self (by omega) hb) h
      · exact ⟨n % b, Nat.mod_lt n (by omega), List.mem_singleton.1 h⟩

theorem isPlain_digitChar {d : Nat} (h : d < 16) : IsPlain d.digitChar := by
  have all : ∀ d < 16, IsPlain d.digitChar := by decide
  exact all d h

theorem arePlain_toDigits {b : Nat} (hb : 1 < b) (small : b ≤ 16) (n : Nat) :
    ArePlain (Nat.toDigits b n) := by
  intro c hc
  obtain ⟨d, hd, rfl⟩ := exists_digit_of_mem hb hc
  exact isPlain_digitChar (Nat.lt_of_lt_of_le hd small)

theorem arePlain_replicate (n : Nat) {c : Char} (h : IsPlain c) : ArePlain (List.replicate n c) := by
  intro d hd
  rw [List.eq_of_mem_replicate hd]
  exact h

/-! ## Texts -/

theorem arePlain_hex (width n : Nat) : ArePlain (hex width n) :=
  arePlain_append.2 ⟨arePlain_replicate _ (by decide), arePlain_toDigits (by decide) (by decide) n⟩

theorem arePlain_writeUnit (n : Nat) : ArePlain (writeUnit n) := by
  rw [writeUnit, arePlain_cons, arePlain_cons]
  exact ⟨by decide, by decide, arePlain_hex 4 n⟩

theorem arePlain_writeCode (n : Nat) : ArePlain (writeCode n) := by
  rw [writeCode.eq_def]
  split
  · next letter hs =>
    have all : ∀ p ∈ shortEscapes, IsPlain p.2 := by decide
    rw [arePlain_cons, arePlain_cons]
    exact ⟨by decide, all _ (List.mem_of_find?_eq_some hs), arePlain_nil⟩
  · split
    · next low high =>
      have number : (Char.ofNat n).toNat = n := toNat_ofNat (Or.inl (by omega))
      have plain : IsPlain (Char.ofNat n) := by
        refine ⟨by omega, fun he => ?_⟩
        have : n = 13 := by rw [← number, he]; rfl
        omega
      have alone : ofCode n = [Char.ofNat n] := by rw [← plain.ofCode, number]
      rw [alone]
      exact arePlain_cons.2 ⟨plain, arePlain_nil⟩
    · split
      · exact arePlain_writeUnit n
      · exact arePlain_append.2 ⟨arePlain_writeUnit _, arePlain_writeUnit _⟩

theorem arePlain_writeText (s : String) : ArePlain (writeText s).toList := by
  rw [writeText, String.toList_ofList, arePlain_cons, arePlain_append]
  refine ⟨by decide, fun c hc => ?_, by decide⟩
  obtain ⟨n, -, hn⟩ := List.mem_flatMap.1 hc
  exact arePlain_writeCode n c hn

/-! ## Numbers -/

theorem arePlain_exponentText (exponent : Int) : ArePlain (Double.exponentText exponent) := by
  rw [Double.exponentText, arePlain_cons, arePlain_append]
  refine ⟨?_, arePlain_replicate _ (by decide), arePlain_toDigits (by decide) (by decide) _⟩
  split <;> decide

theorem arePlain_positional {digits : List Char} (h : ArePlain digits) (point : Int) :
    ArePlain (Double.positional digits point) := by
  have zeros (n : Nat) : ArePlain (List.replicate n '0') := arePlain_replicate n (by decide)
  unfold Double.positional
  split
  · rw [arePlain_cons, arePlain_cons, arePlain_append]
    exact ⟨by decide, by decide, zeros _, h⟩
  split
  · have front : ArePlain (digits.take point.toNat) := fun c hc => h c (List.mem_of_mem_take hc)
    have back : ArePlain (digits.drop point.toNat) := fun c hc => h c (List.mem_of_mem_drop hc)
    dsimp only
    rw [arePlain_append, arePlain_append, arePlain_cons]
    refine ⟨⟨front, zeros _⟩, by decide, ?_⟩
    split
    · decide
    · exact back
  · refine arePlain_append.2 ⟨?_, arePlain_cons.2 ⟨by decide, arePlain_exponentText _⟩⟩
    split
    · obtain ⟨hd, hr⟩ := arePlain_cons.1 h
      exact arePlain_cons.2 ⟨hd, arePlain_cons.2 ⟨by decide, hr⟩⟩
    · exact h

theorem arePlain_significant (digits : Nat) (exponent : Int) :
    ArePlain (Double.significant digits exponent).1 := by
  have all := @arePlain_toDigits 10 (by decide) (by decide) digits
  intro c hc
  rw [Double.significant, List.mem_reverse] at hc
  exact all c (List.mem_reverse.1 ((List.dropWhile_sublist _).subset hc))

theorem arePlain_finiteText (negative : Bool) (units : Nat) :
    ArePlain (Double.finiteText negative units) := by
  rw [Double.finiteText]
  generalize Double.shortest units = digits
  have positional := arePlain_positional (arePlain_significant digits.1 digits.2)
    (Double.significant digits.1 digits.2).2
  by_cases zero : units = 0
  · cases negative <;> simp only [zero, if_true] <;> decide
  · cases negative with
    | true =>
      simp only [zero, if_true, if_false]
      exact arePlain_cons.2 ⟨by decide, positional⟩
    | false =>
      simp only [zero, if_false, Bool.false_eq_true]
      exact positional

theorem arePlain_writeDouble (x : Double) : ArePlain (writeDouble x).toList := by
  match x with
  | .nan => decide
  | .infinity negative => cases negative <;> decide
  | .finite negative units =>
    rw [writeDouble, Double.text, String.toList_ofList]
    · exact arePlain_finiteText negative units
    · rintro ⟨⟩
    · rintro _ ⟨⟩

theorem toList_toString_int (n : Int) :
    (toString n).toList = if n < 0 then '-' :: Nat.toDigits 10 n.natAbs else Nat.toDigits 10 n.natAbs := by
  rw [Int.toString_eq_repr, Int.repr.eq_def]
  cases n with
  | ofNat n =>
    rw [if_neg (by simp)]
    exact Nat.toList_repr
  | negSucc n =>
    rw [if_pos (Int.negSucc_lt_zero n)]
    simp [String.toList_append]

theorem arePlain_writeScalar (s : Scalar) : ArePlain (writeScalar s).toList := by
  match s with
  | .null => decide
  | .bool b => cases b <;> decide
  | .int n =>
    have digits := @arePlain_toDigits 10 (by decide) (by decide) n.natAbs
    rw [writeScalar, toList_toString_int]
    split
    · exact arePlain_cons.2 ⟨by decide, digits⟩
    · exact digits
  | .float x => exact arePlain_writeDouble x
  | .unordered _ => exact arePlain_writeDouble .nan
  | .text s => exact arePlain_writeText s
  | .moment .. | .octets _ => exact arePlain_writeText _

/-! ## Values -/

/-- What a layout puts between a bracket and the member next to it. -/
def gap (indent : Indent) (level : Nat) : List Char :=
  match indent with
  | none => []
  | some unit => (newline unit level).toList

/-- What it puts behind the comma between two members. -/
def pause (indent : Indent) (level : Nat) : List Char :=
  match indent with
  | none => [' ']
  | some unit => (newline unit level).toList

theorem toList_enclose_nil (indent : Indent) (level : Nat) (opening closing : String) :
    (enclose indent level opening closing []).toList = opening.toList ++ closing.toList := by
  rw [enclose.eq_def, if_pos List.isEmpty_nil, String.toList_append]

/-- Members between brackets, in any layout. -/
theorem toList_enclose (indent : Indent) (level : Nat) (opening closing : String)
    {members : List String} (ne : members ≠ []) :
    (enclose indent level opening closing members).toList =
      opening.toList ++ gap indent (level + 1) ++
        (',' :: pause indent (level + 1)).intercalate (members.map String.toList) ++
        gap indent level ++ closing.toList := by
  have full : ¬members.isEmpty = true := by simpa using ne
  rw [enclose.eq_def, if_neg full]
  cases indent with
  | none => simp [gap, pause, String.toList_append, String.toList_intercalate]
  | some unit => simp [gap, pause, String.toList_append, String.toList_intercalate]

/-- A layout of plain characters. -/
def Indent.IsPlain (indent : Indent) : Prop :=
  ∀ unit ∈ indent, ArePlain unit.toList

variable {indent : Indent}

theorem arePlain_newline {unit : String} (h : ArePlain unit.toList) (level : Nat) :
    ArePlain (newline unit level).toList := by
  rw [newline, String.toList_append, String.toList_join, arePlain_append]
  refine ⟨by decide, fun c hc => ?_⟩
  obtain ⟨s, hs, hc⟩ := List.mem_flatMap.1 hc
  rw [List.eq_of_mem_replicate hs] at hc
  exact h c hc

theorem arePlain_gap (h : indent.IsPlain) (level : Nat) : ArePlain (gap indent level) := by
  cases indent with
  | none => exact arePlain_nil
  | some unit => exact arePlain_newline (h unit rfl) level

theorem arePlain_pause (h : indent.IsPlain) (level : Nat) : ArePlain (pause indent level) := by
  cases indent with
  | none => exact (by decide : ArePlain [' '])
  | some unit => exact arePlain_newline (h unit rfl) level

theorem arePlain_enclose (h : indent.IsPlain) (level : Nat) {opening closing : String}
    (ho : ArePlain opening.toList) (hc : ArePlain closing.toList) {members : List String}
    (hm : ∀ member ∈ members, ArePlain member.toList) :
    ArePlain (enclose indent level opening closing members).toList := by
  by_cases ne : members = []
  · rw [ne, toList_enclose_nil]
    exact arePlain_append.2 ⟨ho, hc⟩
  · have separator : ArePlain (',' :: pause indent (level + 1)) :=
      arePlain_cons.2 ⟨by decide, arePlain_pause h _⟩
    have joined := separator.intercalate (List.forall_mem_map.2 hm)
    rw [toList_enclose _ _ _ _ ne]
    simp only [arePlain_append]
    exact ⟨⟨⟨⟨ho, arePlain_gap h _⟩, joined⟩, arePlain_gap h _⟩, hc⟩

theorem arePlain_writeKey (k : Scalar) : ArePlain (writeKey k).toList := by
  cases k <;> exact arePlain_writeText _

mutual

/-- JSON text is plain in every layout that is. -/
theorem arePlain_writeAt (h : indent.IsPlain) (level : Nat) (v : Value) :
    ArePlain (writeAt indent level v).toList := by
  match v with
  | .scalar s =>
    rw [writeAt]
    exact arePlain_writeScalar s
  | .list items =>
    rw [writeAt]
    exact arePlain_enclose h level (by decide) (by decide) (arePlain_writeItems h (level + 1) items)
  | .map entries =>
    rw [writeAt]
    exact arePlain_enclose h level (by decide) (by decide) (arePlain_writeEntries h (level + 1) entries)
  | .pair first second =>
    rw [writeAt]
    refine arePlain_enclose h level (by decide) (by decide) (List.forall_mem_cons.2 ⟨?_, ?_⟩)
    · exact arePlain_writeAt h (level + 1) first
    · exact List.forall_mem_singleton.2 (arePlain_writeAt h (level + 1) second)
  | .set members =>
    rw [writeAt]
    refine arePlain_enclose h level (by decide) (by decide) (List.forall_mem_map.2 ?_)
    exact fun s _ => arePlain_writeScalar s
  | .shared _ v =>
    rw [writeAt]
    exact arePlain_writeAt h level v
  | .again _ =>
    rw [writeAt]
    exact arePlain_writeScalar .null

theorem arePlain_writeItems (h : indent.IsPlain) (level : Nat) (items : List Value) :
    ∀ member ∈ writeItems indent level items, ArePlain member.toList := by
  match items with
  | [] =>
    rw [writeItems]
    exact fun _ hm => absurd hm List.not_mem_nil
  | v :: items =>
    rw [writeItems]
    exact List.forall_mem_cons.2 ⟨arePlain_writeAt h level v, arePlain_writeItems h level items⟩

theorem arePlain_writeEntries (h : indent.IsPlain) (level : Nat) (entries : List (Scalar × Value)) :
    ∀ member ∈ writeEntries indent level entries, ArePlain member.toList := by
  match entries with
  | [] =>
    rw [writeEntries]
    exact fun _ hm => absurd hm List.not_mem_nil
  | (k, v) :: entries =>
    rw [writeEntries]
    refine List.forall_mem_cons.2 ⟨?_, arePlain_writeEntries h level entries⟩
    rw [String.toList_append, String.toList_append, arePlain_append, arePlain_append]
    exact ⟨⟨arePlain_writeKey k, by decide⟩, arePlain_writeAt h level v⟩

end

/-- A number stands for so many blanks. -/
theorem blanks_of_ofValue {v : Value} (hv : v = .null ∨ ∃ n, v = .int n) {indent : Indent}
    (h : Indent.ofValue v = .ok indent) : ∀ unit ∈ indent, ∃ n, unit.toList = List.replicate n ' ' := by
  rcases hv with rfl | ⟨n, rfl⟩
  · obtain rfl := Except.ok.inj h
    exact fun _ hu => absurd hu (by simp)
  · rw [Indent.ofValue] at h
    split at h
    · obtain rfl := Except.ok.inj h
      intro unit hu
      obtain rfl := Option.mem_some.1 hu
      exact ⟨n.toNat, String.toList_ofList⟩
    · cases h

theorem isPlain_of_blanks (h : ∀ unit ∈ indent, ∃ n, unit.toList = List.replicate n ' ') :
    indent.IsPlain := by
  intro unit hu
  obtain ⟨n, hn⟩ := h unit hu
  rw [hn]
  exact arePlain_replicate n (by decide)

end Gatekeeper.Json
