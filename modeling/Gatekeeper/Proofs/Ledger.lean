import Gatekeeper.Proofs.Sufficiency
import Mathlib.Data.List.Dedup

/-!
# Ledgers

The look-ups of a history, as they would be written down beside a manager that remembers nothing: what
each of them asks for, what the parser in force makes of it, and whether deciding it ends in a fault. A
look-up without a result is one all the same, and it is the last one of the request that made it.
A page of a ledger has the look-ups between two resets of the cache, the latest one first. What a
manager is to remember of a page, and which of its look-ups are misses, follows from the page alone.
-/
namespace Gatekeeper

structure Lookup where
  expression : Value
  /-- What the parser makes of the expression: a condition or none, or a fault. -/
  result : Except Fault (Option Condition)
  /-- Whether refused expressions were remembered at the time. -/
  keeps : Bool
  /-- Whether a fault ended the evaluation. -/
  raised : Bool

namespace Lookup

/-- What came of a look-up is to be remembered, if it was one of a text. -/
def IsKept (k : Lookup) : Prop :=
  (∃ c, k.result = .ok (some c)) ∨ k.result = .ok none ∧ k.keeps = true

/-- The key under which a look-up is to be remembered, if it is. -/
def key? (k : Lookup) : Option String :=
  match k.expression, k.result with
  | .text s, .ok outcome => if outcome.isSome || k.keeps then some s else none
  | _, _ => none

/-- Whether a look-up before this one is to be remembered under the same text. -/
def isHit (earlier : List Lookup) (k : Lookup) : Bool :=
  match k.expression with
  | .text s => (earlier.filterMap key?).contains s
  | _ => false

/-- The look-ups of a page for which nothing was to be remembered yet. -/
def misses : List Lookup → List Lookup
  | [] => []
  | k :: earlier => if k.isHit earlier then misses earlier else k :: misses earlier

theorem key?_eq_some_iff (k : Lookup) (s : String) :
    k.key? = some s ↔ k.expression = .text s ∧ k.IsKept := by
  rw [key?.eq_def, IsKept]
  split
  · next s' outcome he hr => cases outcome <;> simp [he, hr, and_comm]
  · next hs =>
    constructor
    · intro h
      cases h
    · rintro ⟨he, ⟨c, hr⟩ | ⟨hr, -⟩⟩
      · exact absurd hr (hs s (some c) he)
      · exact absurd hr (hs s none he)

theorem isHit_of_mem {earlier : List Lookup} {k : Lookup} {s : String} (he : k.expression = .text s) :
    k.isHit earlier = true ↔ s ∈ earlier.filterMap key? := by
  rw [isHit, he]
  exact List.contains_iff_mem

theorem mem_of_mem_misses {k : Lookup} {page : List Lookup} (h : k ∈ misses page) : k ∈ page := by
  induction page with
  | nil => exact h
  | cons k' earlier ih =>
    rw [misses] at h
    split at h
    · exact List.mem_cons_of_mem _ (ih h)
    · rcases List.mem_cons.1 h with rfl | h
      · exact List.mem_cons_self ..
      · exact List.mem_cons_of_mem _ (ih h)

/-- Every key of a page comes from one of its misses. -/
theorem mem_keys_misses_iff (page : List Lookup) (s : String) :
    s ∈ (misses page).filterMap key? ↔ s ∈ page.filterMap key? := by
  induction page with
  | nil => rfl
  | cons k earlier ih =>
    rw [misses]
    split
    · next hit =>
      rw [ih, List.filterMap_cons]
      split
      · rfl
      · next s' hk =>
        have hs' := (isHit_of_mem ((key?_eq_some_iff k s').1 hk).1).1 hit
        rw [List.mem_cons]
        exact ⟨.inr, Or.rec (fun hs => hs ▸ hs') id⟩
    · rw [List.filterMap_cons, List.filterMap_cons]
      cases k.key? with
      | none => exact ih
      | some s' => rw [List.mem_cons, List.mem_cons, ih]

/-- A key comes from one miss only. -/
theorem nodup_keys_misses (page : List Lookup) : ((misses page).filterMap key?).Nodup := by
  induction page with
  | nil => exact List.nodup_nil
  | cons k earlier ih =>
    rw [misses]
    split
    · exact ih
    · next miss =>
      rw [List.filterMap_cons]
      split
      · exact ih
      · next s hk =>
        rw [List.nodup_cons, mem_keys_misses_iff, ← isHit_of_mem ((key?_eq_some_iff k s).1 hk).1]
        exact ⟨miss, ih⟩

end Lookup

/-- The pages of a ledger, with the manager that remembers nothing. -/
structure Ledger where
  reference : Reference
  /-- Whether refused expressions are remembered. -/
  keeps : Bool
  present : List Lookup := []
  past : List (List Lookup) := []

namespace Request

/-- The subject for whom expressions are decided. -/
def subject? : Request → Option Subject
  | .evaluate subject _ | .evaluateEach subject _ _ => some subject
  | _ => none

end Request

/-- The members of a list up to the first one with a property, or all of them if there is none. -/
def upTo {α : Type} (p : α → Bool) (xs : List α) : List α :=
  xs.take (xs.findIdx p + 1)

theorem upTo_cons {α : Type} (p : α → Bool) (x : α) (xs : List α) :
    upTo p (x :: xs) = if p x then [x] else x :: upTo p xs := by
  rw [upTo, List.findIdx_cons]
  cases p x <;> rfl

/-- An answer after which no more is asked: the decisive one, and a fault. -/
def Mode.ends (mode : Mode) : Except Fault Bool → Bool
  | .ok answer => answer == mode.decisive
  | .error _ => true

namespace Reference

/-- The expressions that a request has looked up, in order. -/
def lookedUp (r : Reference) : Request → List Value
  | .evaluate _ e | .isValid e | .describe e | .lookup e => [e]
  | .evaluateEach subject mode es => upTo (fun e => mode.ends (r.evaluate subject e)) es
  | .areValid es => upTo (fun e => Mode.all.ends (r.isValid e)) es
  | .conditions es => upTo (fun e => !(r.lookup e).isOk) es
  | .clearCache | .setResolver _ | .updateSettings _ => []

/-- Whether deciding an expression for a subject ends in a fault. -/
def raises (r : Reference) (subject? : Option Subject) (e : Value) : Bool :=
  subject?.any fun subject =>
    match r.lookup e with
    | .ok (some c) => decide (c.Raises subject r.resolver)
    | _ => false

end Reference

namespace Ledger

/-- All look-ups. -/
def lookups (l : Ledger) : List Lookup :=
  (l.present :: l.past).flatten

/-- The misses of all pages. -/
def misses (l : Ledger) : List Lookup :=
  (l.present :: l.past).flatMap Lookup.misses

/-- What is written down of a look-up. -/
def entry (l : Ledger) (subject? : Option Subject) (e : Value) : Lookup :=
  ⟨e, l.reference.lookup e, l.keeps, l.reference.raises subject? e⟩

def record (l : Ledger) (subject? : Option Subject) (e : Value) : Ledger :=
  { l with present := l.entry subject? e :: l.present }

/-- Begin a new page. -/
def turn (l : Ledger) : Ledger :=
  { l with present := [], past := l.present :: l.past }

/-- Write down what a request does. Settings that are refused turn no page, but it is theirs from then
on whether refused expressions are remembered. -/
def perform (l : Ledger) : Request → Ledger
  | .clearCache => l.turn
  | .setResolver resolver => { l with reference.resolver := resolver }
  | .updateSettings settings =>
    let l := { l with keeps := settings.cacheInvalid.holds }
    match settings.parser? with
    | .ok parser => { l.turn with reference.parser := parser }
    | .error _ => l
  | q => (l.reference.lookedUp q).foldl (record · q.subject?) l

def run (l : Ledger) (history : List Request) : Ledger :=
  history.foldl perform l

/-- The ledger of a manager that has just been created. -/
def start (m : Manager) : Ledger :=
  { reference := ⟨m.parser, m.resolver⟩, keeps := m.settings.cacheInvalid.holds }

variable {l : Ledger}

/-- Results of the page at hand are those of the parser in force. -/
def IsCurrent (l : Ledger) : Prop :=
  ∀ k ∈ l.present, k.result = l.reference.lookup k.expression

/-- What the page at hand says of refused expressions is what is in force. -/
def IsSteady (l : Ledger) : Prop :=
  ∀ k ∈ l.present, k.keeps = l.keeps

/-- The delimiter of the parser in force is a text, and every look-up without a result was one of a value
that cannot be written. -/
structure IsMarked (l : Ledger) : Prop where
  delimiter : ∃ mark, l.reference.parser.delimiter = .ofValue (.text mark)
  faults : ∀ k ∈ l.lookups, ∀ fault, k.result = .error fault → k.expression.isWritable = false

theorem IsCurrent.record (h : l.IsCurrent) (subject? : Option Subject) (e : Value) :
    (l.record subject? e).IsCurrent :=
  List.forall_mem_cons.2 ⟨rfl, h⟩

theorem IsSteady.record (h : l.IsSteady) (subject? : Option Subject) (e : Value) :
    (l.record subject? e).IsSteady :=
  List.forall_mem_cons.2 ⟨rfl, h⟩

theorem IsMarked.record (h : l.IsMarked) (subject? : Option Subject) (e : Value) :
    (l.record subject? e).IsMarked := by
  refine ⟨h.delimiter, List.forall_mem_cons.2 ⟨fun fault hf => ?_, h.faults⟩⟩
  obtain ⟨mark, hd⟩ := h.delimiter
  by_contra writable
  have answered := Parser.attempt_eq hd (Bool.of_not_eq_false writable)
  exact absurd (answered.symm.trans hf) (by simp)

/-- The parser changes only together with the page. -/
theorem IsCurrent.perform (h : l.IsCurrent) (q : Request) : (l.perform q).IsCurrent := by
  have recorded (subject? : Option Subject) (es : List Value) :
      (es.foldl (Ledger.record · subject?) l).IsCurrent :=
    List.foldlRecOn es _ h fun _ h e _ => h.record subject? e
  cases q with
  | clearCache => exact fun _ hk => absurd hk List.not_mem_nil
  | setResolver resolver => exact h
  | updateSettings settings =>
    rw [Ledger.perform]
    cases settings.parser? with
    | ok parser => exact fun _ hk => absurd hk List.not_mem_nil
    | error refusal => exact h
  | evaluate | evaluateEach | isValid | areValid | describe | lookup | conditions =>
    exact recorded _ _

/-- Settings that are accepted change the page with them. -/
theorem IsSteady.perform (h : l.IsSteady) {q : Request}
    (accepted : ∀ settings, q = .updateSettings settings → ∃ parser, settings.parser? = .ok parser) :
    (l.perform q).IsSteady := by
  have recorded (subject? : Option Subject) (es : List Value) :
      (es.foldl (Ledger.record · subject?) l).IsSteady :=
    List.foldlRecOn es _ h fun _ h e _ => h.record subject? e
  cases q with
  | clearCache => exact fun _ hk => absurd hk List.not_mem_nil
  | setResolver resolver => exact h
  | updateSettings settings =>
    obtain ⟨parser, hp⟩ := accepted settings rfl
    rw [Ledger.perform, hp]
    exact fun _ hk => absurd hk List.not_mem_nil
  | evaluate | evaluateEach | isValid | areValid | describe | lookup | conditions =>
    exact recorded _ _

theorem IsMarked.perform (h : l.IsMarked) {q : Request}
    (texts : ∀ settings, q = .updateSettings settings → ∃ mark, settings.delimiter = .text mark) :
    (l.perform q).IsMarked := by
  have recorded (subject? : Option Subject) (es : List Value) :
      (es.foldl (Ledger.record · subject?) l).IsMarked :=
    List.foldlRecOn es _ h fun _ h e _ => h.record subject? e
  cases q with
  | clearCache => exact ⟨h.delimiter, h.faults⟩
  | setResolver resolver => exact ⟨h.delimiter, h.faults⟩
  | updateSettings settings =>
    obtain ⟨mark, text⟩ := texts settings rfl
    rw [Ledger.perform]
    cases hp : settings.parser? with
    | ok parser =>
      obtain ⟨limit, -, rfl⟩ := (Settings.parser?_eq_ok_iff ..).1 hp
      exact ⟨⟨mark, congrArg Delimiter.ofValue text⟩, h.faults⟩
    | error refusal => exact ⟨h.delimiter, h.faults⟩
  | evaluate | evaluateEach | isValid | areValid | describe | lookup | conditions =>
    exact recorded _ _

theorem IsCurrent.run (h : l.IsCurrent) (history : List Request) : (l.run history).IsCurrent :=
  List.foldlRecOn history _ h fun _ h q _ => h.perform q

theorem IsSteady.run (h : l.IsSteady) {history : List Request}
    (accepted : ∀ settings, .updateSettings settings ∈ history →
      ∃ parser, settings.parser? = .ok parser) : (l.run history).IsSteady :=
  List.foldlRecOn history _ h fun _ h _ hq =>
    h.perform fun settings he => accepted settings (he ▸ hq)

theorem IsMarked.run (h : l.IsMarked) {history : List Request}
    (texts : ∀ settings, .updateSettings settings ∈ history →
      ∃ mark, settings.delimiter = .text mark) : (l.run history).IsMarked :=
  List.foldlRecOn history _ h fun _ h _ hq =>
    h.perform fun settings he => texts settings (he ▸ hq)

/-- What is not to be remembered is refused, and it is no text unless refused ones are forgotten, or it
had no result. -/
theorem IsCurrent.forgotten (h : l.IsCurrent) {k : Lookup} (hk : k ∈ l.present)
    (forgotten : k.key? = none) :
    (∃ fault, k.result = .error fault) ∨
      k.result = .ok none ∧ ∀ s, k.expression = .text s → k.keeps = false := by
  match hr : k.result with
  | .error fault => exact .inl ⟨fault, rfl⟩
  | .ok none =>
    refine .inr ⟨rfl, fun s he => ?_⟩
    by_contra keeps
    rw [(Lookup.key?_eq_some_iff k s).2 ⟨he, .inr ⟨hr, by simpa using keeps⟩⟩] at forgotten
    cases forgotten
  | .ok (some c) =>
    rw [h k hk, Reference.lookup] at hr
    obtain ⟨s, he, -⟩ := Parser.exists_text_of_parseValue ((Parser.attempt_eq_some_iff ..).1 hr)
    rw [(Lookup.key?_eq_some_iff k s).2 ⟨he, .inl ⟨c, (h k hk).trans hr⟩⟩] at forgotten
    cases forgotten

end Ledger

end Gatekeeper
