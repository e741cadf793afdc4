import Gatekeeper.Proofs.Locality

/-!
# The checks of a reading

Some parts of an expression are checked more than once: the list of a group is looked for before it is
cut, a fragment is trimmed before it is read, a bare text is looked through before it is taken for a
node, and groups and nodes are built by functions that check them again. Here a reading is told by its
steps, with the check that is made in each. It ends as the parser does, and no check fails but the first
one, when the whole text is blank.
-/
namespace Gatekeeper.Parser

open Text Gatekeeper.Bracket Gatekeeper.Grammar Condition

/-- What a reading does where it has something to check. -/
inductive Step where
  /-- An expression is laid out as its normal form. -/
  | expression (text : List Char)
  /-- The content of a list is cut into pieces. -/
  | list (content : List Char)
  /-- Conditions become the members of a group. -/
  | group (mode : Mode) (members : List Condition)
  /-- A bare text becomes the node of a permission. -/
  | node (text : List Char)
  deriving DecidableEq, Repr

/-- The check of a step holds, so that the step has a result. -/
def Step.Succeeds : Step → Prop
  | expression s => normalize s ≠ []
  | list content => ∃ pieces, Bracket.split content = .ok pieces
  | group mode members => ∃ c, group? mode members = .ok c
  | node text => ∃ c, perm? (String.ofList text) (.bool false) = .ok c

/-- The normal form of an expression, which must not be blank. -/
def layOut (s : List Char) : Except ParseFailure (List Char) :=
  if (normalize s).isEmpty then refuse s .empty else .ok (normalize s)

def piecesOf (content : List Char) : Except ParseFailure (List (List Char)) :=
  match Bracket.split content with
  | .error imbalance => refuse content (.ofImbalance imbalance)
  | .ok pieces => .ok pieces

/-- The steps of a reading in their order, and how it ends. -/
structure Reading (α : Type) where
  steps : List Step
  outcome : Except ParseFailure α

namespace Reading

variable {α β : Type}

/-- A reading that goes on with the result of another one. -/
def bind (r : Reading α) (f : α → Reading β) : Reading β :=
  match r.outcome with
  | .error e => ⟨r.steps, .error e⟩
  | .ok a => ⟨r.steps ++ (f a).steps, (f a).outcome⟩

instance : Monad Reading where
  pure a := ⟨[], .ok a⟩
  bind := bind

/-- A part that has no step of its own. -/
def plain (result : Except ParseFailure α) : Reading α :=
  ⟨[], result⟩

def take (step : Step) (result : Except ParseFailure α) : Reading α :=
  ⟨[step], result⟩

theorem bind_of_error {r : Reading α} {e : ParseFailure} (h : r.outcome = .error e) (f : α → Reading β) :
    r >>= f = ⟨r.steps, .error e⟩ := by
  show bind r f = _
  rw [bind, h]

theorem bind_of_ok {r : Reading α} {a : α} (h : r.outcome = .ok a) (f : α → Reading β) :
    r >>= f = ⟨r.steps ++ (f a).steps, (f a).outcome⟩ := by
  show bind r f = _
  rw [bind, h]

instance : LawfulMonad Reading := LawfulMonad.mk' Reading
  (by
    intro α r
    obtain ⟨steps, e | a⟩ := r
    · rfl
    · show Reading.mk (steps ++ []) _ = _
      rw [List.append_nil]
      rfl)
  (fun a f => rfl)
  (by
    intro α β γ r f g
    obtain ⟨steps, e | a⟩ := r
    · rfl
    rw [bind_of_ok rfl f, bind_of_ok rfl fun a => f a >>= g]
    cases h : (f a).outcome with
    | error e => rw [bind_of_error rfl, bind_of_error h]
    | ok b => rw [bind_of_ok rfl, bind_of_ok h, List.append_assoc])

/-- A reading that ends as a result of the parser does, with no check that fails. -/
structure Follows (r : Reading α) (result : Except ParseFailure α) : Prop where
  outcome : r.outcome = result
  steps : ∀ step ∈ r.steps, step.Succeeds

theorem follows_plain (result : Except ParseFailure α) : (plain result).Follows result :=
  ⟨rfl, fun _ h => absurd h List.not_mem_nil⟩

theorem follows_pure (a : α) : (pure a : Reading α).Follows (.ok a) :=
  ⟨rfl, fun _ h => absurd h List.not_mem_nil⟩

theorem follows_take {step : Step} (h : step.Succeeds) (result : Except ParseFailure α) :
    (take step result).Follows result :=
  ⟨rfl, fun _ hs => List.mem_singleton.1 hs ▸ h⟩

/-- A reading that goes on with the result of another one follows what goes on with the parser's. -/
theorem Follows.bind {r : Reading α} {x : Except ParseFailure α} {f : α → Reading β}
    {g : α → Except ParseFailure β} (h : r.Follows x) (hf : ∀ a, x = .ok a → (f a).Follows (g a)) :
    (r >>= f).Follows (x >>= g) := by
  cases x with
  | error e =>
    rw [bind_of_error h.outcome]
    exact ⟨rfl, h.steps⟩
  | ok a =>
    rw [bind_of_ok h.outcome]
    exact ⟨(hf a rfl).outcome, fun step hs => (List.mem_append.1 hs).elim (h.steps step)
      ((hf a rfl).steps step)⟩

/-- What goes on after a check that is no failure follows what the parser does next. -/
theorem follows_of_take {step : Step} (h : step.Succeeds) {a : α} {f : α → Reading β}
    {result : Except ParseFailure β} (hf : (f a).Follows result) :
    (take step (.ok a) >>= f).Follows result := by
  show Follows _ (Except.ok a >>= fun _ => result)
  refine (follows_take h (.ok a)).bind fun b hb => ?_
  obtain rfl := Except.ok.inj hb
  exact hf

theorem follows_mapM {f : α → Reading β} {g : α → Except ParseFailure β} {xs : List α}
    (h : ∀ x ∈ xs, (f x).Follows (g x)) : (xs.mapM f).Follows (xs.mapM g) := by
  induction xs with
  | nil => exact follows_pure []
  | cons x xs ih =>
    obtain ⟨hx, hxs⟩ := List.forall_mem_cons.1 h
    rw [List.mapM_cons, List.mapM_cons]
    exact hx.bind fun y _ => (ih hxs).bind fun ys _ => follows_pure (y :: ys)

end Reading

/-- The pieces of a list whose opening bracket stands in front of `inside`. -/
def observeList (text inside : List Char) : Reading (List (List Char)) :=
  match closingFrom 1 inside with
  | none => .plain (refuse text .unmatchedOpening)
  | some n =>
    if n + 1 ≠ inside.length then .plain (refuse text .textAfterClosing)
    else do
      let pieces ← .take (.list (inside.take n)) (piecesOf (inside.take n))
      if pieces.isEmpty then .plain (refuse text .emptyList) else return pieces

def observeBare (delimiter : Delimiter) (text : List Char) : Reading Condition :=
  match delimiter.opens text with
  | .error m => .plain (.error (.raised (.mismatch m)))
  | .ok true => .plain (parseAttribute delimiter text text)
  | .ok false =>
    if text.isEmpty || text.any endsNode then .plain (refuse text .unknownFormat)
    else .take (.node text) (built (perm? (String.ofList text) (.bool false)))

def observeLeaf (delimiter : Delimiter) (text : List Char) : Reading Condition :=
  if text.contains '[' || text.contains ']' then .plain (refuse text .unknownFormat)
  else if isKeyword text then .plain (refuse text .missingOperand)
  else
    match afterKeyword? ["permission", "perm"] text with
    | some body => .plain (parsePermission text body)
    | none =>
      match afterKeyword? ["placeholder", "papi"] text with
      | some body => .plain (parseAttribute delimiter text body)
      | none =>
        if text.head? = some '!' then .plain (parsePermission text text)
        else observeBare delimiter text

/-- Read an expression with `levels` levels of nesting left. -/
def observe (parser : Parser) (levels : Nat) (s : List Char) : Reading Condition :=
  match levels with
  | 0 => .plain (refuse s (.tooDeep parser.limit.written))
  | levels + 1 => do
    let text ← .take (.expression s) (layOut s)
    match afterGroup? text with
    | some (mode, inside) =>
      let pieces ← observeList text inside
      let members ← pieces.mapM (observe parser levels)
      .take (.group mode members) (built (group? mode members))
    | none =>
      match afterKeyword? ["not"] text with
      | some operand => return .not (← observe parser levels operand)
      | none => observeLeaf parser.delimiter text

/-! ## What has been ruled out before -/

theorem layOut_of_words {s : List Char} (h : words s ≠ []) : layOut s = .ok (normalize s) := by
  rw [layOut, if_neg]
  rwa [List.isEmpty_iff, normalize_eq_nil_iff]

theorem layOut_of_blank {s : List Char} (h : words s = []) : layOut s = refuse s .empty := by
  rw [layOut, if_pos]
  rwa [List.isEmpty_iff, normalize_eq_nil_iff]

/-- The content of a list that is found is balanced. -/
theorem follows_observeList (text inside : List Char) :
    (observeList text inside).Follows (listPieces text inside) := by
  rw [observeList, listPieces.eq_def]
  cases hn : closingFrom 1 inside with
  | none => exact Reading.follows_plain _
  | some n =>
    by_cases last : n + 1 ≠ inside.length
    · simp only [if_pos last]
      exact Reading.follows_plain _
    obtain ⟨pieces, hp⟩ := (exists_split_iff _).2 (isBalanced_of_closingFrom hn)
    have succeeds : (Step.list (inside.take n)).Succeeds := ⟨pieces, hp⟩
    have cut : piecesOf (inside.take n) = .ok pieces := by rw [piecesOf, hp]
    simp only [if_neg last, hp]
    rw [cut]
    refine Reading.follows_of_take succeeds ?_
    cases pieces with
    | nil => exact Reading.follows_plain _
    | cons piece pieces => exact Reading.follows_pure _

theorem follows_observeBare (delimiter : Delimiter) (text : List Char) :
    (observeBare delimiter text).Follows (parseBare delimiter text) := by
  rw [observeBare, parseBare]
  cases delimiter.opens text with
  | error m => exact Reading.follows_plain _
  | ok marked =>
    cases marked with
    | true => exact Reading.follows_plain _
    | false =>
      by_cases ends : (text.isEmpty || text.any endsNode) = true
      · simp only [if_pos ends]
        exact Reading.follows_plain _
      · simp only [if_neg ends]
        have succeeds : (Step.node text).Succeeds := ⟨_, perm?_of_bare ends⟩
        exact Reading.follows_take succeeds _

theorem follows_observeLeaf (delimiter : Delimiter) (text : List Char) :
    (observeLeaf delimiter text).Follows (parseLeaf delimiter text) := by
  rw [observeLeaf.eq_def, parseLeaf.eq_def]
  split
  · exact Reading.follows_plain _
  split
  · exact Reading.follows_plain _
  cases afterKeyword? ["permission", "perm"] text with
  | some body => exact Reading.follows_plain _
  | none =>
    cases afterKeyword? ["placeholder", "papi"] text with
    | some body => exact Reading.follows_plain _
    | none =>
      dsimp only
      split
      · exact Reading.follows_plain _
      · exact follows_observeBare delimiter text

/-- Of a text that is not blank no check fails: the pieces of a list and the operand of a negation are
not blank either. -/
theorem follows_observe (parser : Parser) (n : Nat) {s : List Char} (h : words s ≠ []) :
    (parser.observe n s).Follows (parser.parseWithin n s) := by
  induction n generalizing s with
  | zero => exact Reading.follows_plain _
  | succ n ih =>
    have shown : normalize s ≠ [] := mt (normalize_eq_nil_iff s).1 h
    have succeeds : (Step.expression s).Succeeds := shown
    have blank : ¬(normalize s).isEmpty = true := by simpa using shown
    rw [observe, layOut_of_words h, parseWithin]
    simp only [if_neg blank]
    refine Reading.follows_of_take succeeds ?_
    cases afterGroup? (normalize s) with
    | some found =>
      obtain ⟨mode, inside⟩ := found
      refine (follows_observeList (normalize s) inside).bind fun pieces hp => ?_
      obtain ⟨ne, nonblank⟩ := pieces_of_listPieces hp
      refine (Reading.follows_mapM fun piece hm => ih (nonblank piece hm)).bind fun members hm => ?_
      have filled : (Step.group mode members).Succeeds :=
        ⟨_, group?_of_ne_nil mode (members_ne_nil ne hm)⟩
      exact Reading.follows_take filled _
    | none =>
      cases hk : afterKeyword? ["not"] (normalize s) with
      | some operand =>
        have nonblank := (startsWith_not hk).words_ne_nil (isNormal_normalize s)
        exact (ih nonblank).bind fun c _ => Reading.follows_pure _
      | none => exact follows_observeLeaf parser.delimiter (normalize s)

/-- Of a blank text the first check fails. -/
theorem observe_blank (parser : Parser) (n : Nat) {s : List Char} (h : words s = []) :
    (parser.observe n s).outcome = parser.parseWithin n s ∧
      ∀ step ∈ (parser.observe n s).steps, step = .expression s := by
  cases n with
  | zero => exact ⟨rfl, fun _ hs => absurd hs List.not_mem_nil⟩
  | succ n =>
    have failed : layOut s = .error (.refused ⟨String.ofList s, .empty⟩) := layOut_of_blank h
    have blank : (normalize s).isEmpty = true := by rw [List.isEmpty_iff, normalize_eq_nil_iff, h]
    rw [observe, Reading.bind_of_error failed, parseWithin]
    simp only [if_pos blank]
    exact ⟨rfl, fun step hs => List.mem_singleton.1 hs⟩

/-- No part of an expression is refused for being empty. -/
theorem words_eq_nil_of_empty {parser : Parser} {n : Nat} {s : List Char} {x : ParseError}
    (h : parser.parseWithin n s = .error (.refused x)) (hc : x.cause = .empty) :
    x.fragment = String.ofList s ∧ words s = [] := by
  induction n generalizing s with
  | zero =>
    rw [parseWithin] at h
    cases h
    cases hc
  | succ n ih =>
    rcases (parseWithin_succ_eq_error_iff parser n s _).1 h with ⟨blank, hx⟩ | ⟨-, hx | hx | hx⟩
    · obtain rfl := ParseFailure.refused.inj hx
      exact ⟨rfl, (normalize_eq_nil_iff s).1 blank⟩
    · have own := hx.fragment.2
      rw [hc] at own
      cases own
    · obtain ⟨mode, inside, items, -, hl, hm⟩ := hx
      obtain ⟨before, item, after, rfl, -, refused⟩ := (mapM_eq_error_iff _ _ _).1 hm
      exact absurd (ih refused).2 ((pieces_of_listPieces hl).2 item (by simp))
    · obtain ⟨-, operand, hk, refused⟩ := hx
      exact absurd (ih refused).2 ((startsWith_not hk).words_ne_nil (isNormal_normalize s))

/-- A reading ends as the parser does, which accepts a text or refuses it. No check fails but the first
one, for a blank text: every list is balanced, every group has a member, every node is one, and nothing
below the whole text is empty. -/
theorem parse_checked (limit : DepthLimit) (mark s : String) :
    let parser : Parser := ⟨limit, .ofValue (.text mark)⟩
    let reading := parser.observe limit.levels s.toList
    ((∃ t, parser.parse s = .ok t) ∨ ∃ x, parser.parse s = .error (.refused x)) ∧
      reading.outcome = parser.parse s ∧
      (∀ step ∈ reading.steps,
        step.Succeeds ∨ step = .expression s.toList ∧ words s.toList = []) ∧
      (∀ content, .list content ∈ reading.steps → IsBalanced content) ∧
      ∀ fragment, parser.parse s = .error (.refused ⟨fragment, .empty⟩) →
        fragment = s ∧ words s.toList = [] := by
  intro parser reading
  obtain ⟨outcome, steps⟩ : reading.outcome = parser.parse s ∧
      ∀ step ∈ reading.steps, step.Succeeds ∨ step = .expression s.toList ∧ words s.toList = [] := by
    by_cases blank : words s.toList = []
    · obtain ⟨outcome, first⟩ := observe_blank parser limit.levels blank
      exact ⟨outcome, fun step hs => .inr ⟨first step hs, blank⟩⟩
    · have follows := follows_observe parser limit.levels blank
      exact ⟨follows.outcome, fun step hs => .inl (follows.steps step hs)⟩
  have conclusive : IsConclusive (parser.parse s) := isConclusive_parse rfl s
  refine ⟨conclusive.ok_or_refused, outcome, steps, fun content hc => ?_, fun fragment h => ?_⟩
  · rcases steps _ hc with ⟨pieces, hp⟩ | ⟨h, -⟩
    · exact (exists_split_iff content).1 ⟨pieces, hp⟩
    · cases h
  · obtain ⟨hf, blank⟩ := words_eq_nil_of_empty h rfl
    exact ⟨by simpa using hf, blank⟩

/-- A negation of a group of a permission and a bare node, step by step. -/
theorem parse_checked_steps :
    let reading := observe ⟨⟨4, "4"⟩, .ofValue (.text "%")⟩ 4 "not any [!a; b]".toList
    reading.steps = [.expression "not any [!a; b]".toList, .expression "any [!a; b]".toList,
        .list "!a; b".toList, .expression "!a".toList, .expression "b".toList, .node "b".toList,
        .group .any [.perm "a" (.bool true), .perm "b" (.bool false)]] ∧
      ∀ step ∈ reading.steps, step.Succeeds := by
  intro reading
  have shown : words "not any [!a; b]".toList ≠ [] := by decide +kernel
  obtain ⟨-, -, steps, -, -⟩ := parse_checked ⟨4, "4"⟩ "%" "not any [!a; b]"
  exact ⟨by decide +kernel, fun step hs => (steps step hs).resolve_right fun h => shown h.2⟩

end Gatekeeper.Parser
