import Gatekeeper.Proofs.Description

/-!
# The nodes of a condition

What an expression can be made of shows at every node of its condition: no group is empty, no part has a
character that would cut it when it is read, and every part is laid out as the parser reads it. A leaf
gets this on whichever way it is read, and nesting takes nothing from it.
-/
namespace Gatekeeper.Condition

open Text Gatekeeper.Grammar

mutual

/-- A condition and all conditions within it. -/
def nodes : Condition → List Condition
  | perm node negate => [perm node negate]
  | attr token op expected => [attr token op expected]
  | group mode cs => group mode cs :: nodesEach cs
  | not c => not c :: nodes c

def nodesEach : List Condition → List Condition
  | [] => []
  | c :: cs => nodes c ++ nodesEach cs

end

theorem mem_nodesEach_iff (c : Condition) (cs : List Condition) :
    c ∈ nodesEach cs ↔ ∃ member ∈ cs, c ∈ nodes member := by
  induction cs with
  | nil => simp [nodesEach]
  | cons member cs ih => simp [nodesEach, ih]

/-- A text that may be a part of an attribute: in normal form, and without the characters that cut
expressions. -/
structure IsPart (text : List Char) : Prop where
  normal : IsNormal text
  plain : ∀ c ∈ text, c ≠ '[' ∧ c ≠ ']' ∧ c ≠ ';'

/-- A condition whose own parts are as those of an expression, whatever its members are. -/
inductive IsWellFormed : Condition → Prop where
  | perm {node : List Char} {negate : Bool} (h : IsNode node)
      (first : node.head? = some '!' → negate = true) :
      IsWellFormed (perm (String.ofList node) (.bool negate))
  | presence {token : List Char} (ne : token ≠ []) (h : IsPart token) :
      IsWellFormed (attr (.text (String.ofList token)) none none)
  | comparison {token expected : List Char} {op : Operator} (ne : token ≠ []) (h : IsPart token)
      (value : IsPart expected) :
      IsWellFormed (attr (.text (String.ofList token)) (some op)
        (some (.text (String.ofList expected))))
  | group {mode : Mode} {cs : List Condition} (ne : cs ≠ []) : IsWellFormed (group mode cs)
  | not {c : Condition} : IsWellFormed (not c)

/-- Within such a text everything is one, trimmed. -/
theorem IsPart.trim_within {front part back : List Char} (h : IsPart (front ++ (part ++ back))) :
    IsPart (trim part) where
  normal := h.normal.trim_within
  plain := by
    intro c hc
    have within : c ∈ part := (isInfix_trim part).subset hc
    exact h.plain c (by simp [within])

/-- The parts of an attribute are those of its text. -/
theorem Attribute.isWellFormed {mark text : List Char} {t : Condition} (h : Attribute mark text t)
    (plain : IsPart text) : IsWellFormed t := by
  cases h with
  | presence _ _ ne => exact .presence ne plain
  | @comparison token before after op _ _ ne =>
    have left : IsPart ([] ++ ((token ++ before) ++ (op.symbol.toList ++ after))) := by
      simpa using plain
    have right : IsPart ((token ++ before ++ op.symbol.toList) ++ (after ++ [])) := by
      simpa using plain
    exact .comparison ne left.trim_within right.trim_within

end Gatekeeper.Condition

namespace Gatekeeper.Grammar

open Text Condition

theorem Permission.isWellFormed {text : List Char} {t : Condition} (h : Permission text t) :
    IsWellFormed t := by
  cases h with
  | held h first => exact .perm h fun hf => absurd hf first
  | lacked _ h => exact .perm h fun _ => rfl

theorem Leaf.nodes_eq {mark text : List Char} {t : Condition} (h : Leaf mark text t) :
    t.nodes = [t] := by
  cases h with
  | permission _ h | lacked _ h => cases h <;> rfl
  | placeholder _ _ h | delimited _ _ _ _ h => cases h <;> rfl
  | bare => rfl

/-- Every node of a condition that the grammar derives is well formed. -/
theorem Derives.isWellFormed {mark text : List Char} {t : Condition} (h : Derives mark text t)
    (hn : IsNormal text) : ∀ c ∈ t.nodes, IsWellFormed c := by
  induction h with
  | @group mode word front blanks pieces cs hw spelled hb cut ne length each ih =>
    have some_members : cs ≠ [] := List.ne_nil_of_length_pos (length ▸ List.length_pos_of_ne_nil ne)
    intro c hc
    rcases List.mem_cons.1 hc with rfl | hc
    · exact .group some_members
    · obtain ⟨member, hm, hc⟩ := (mem_nodesEach_iff c cs).1 hc
      obtain ⟨piece, hpm⟩ := exists_mem_zip length hm
      exact ih piece member hpm (isNormal_normalize piece) c hc
  | @not text back t keyword h ih =>
    intro c hc
    rcases List.mem_cons.1 hc with rfl | hc
    · exact .not
    · exact ih (isNormal_normalize back) c hc
  | @leaf text t opening closing bare keyword h =>
    rw [h.nodes_eq, List.forall_mem_singleton]
    rcases h.permission_or_attribute hn opening closing with ⟨body, h⟩ | ⟨body, normal, plain, h⟩
    · exact h.isWellFormed
    · exact h.isWellFormed ⟨normal, plain⟩

/-- A condition that is read is no higher than the limit, and each of its nodes is well formed. -/
theorem parse_isWellFormed {limit : DepthLimit} {mark s : String} {t : Condition}
    (h : Parser.parse ⟨limit, .ofValue (.text mark)⟩ s = .ok t) :
    t.height ≤ limit.levels ∧ ∀ c ∈ t.nodes, IsWellFormed c := by
  obtain ⟨height, derived⟩ := parse_sound h
  exact ⟨height, derived.isWellFormed (isNormal_normalize _)⟩

theorem parse_isWellFormed_nested :
    let parser : Parser := ⟨⟨3, "3"⟩, .ofValue (.text "%")⟩
    let level : Condition := .attr (.text "%level%") (some .ge) (some (.text "10 000"))
    let t : Condition := .group .any [.perm "a" (.bool true), .not level]
    parser.parse "or [! a;; not PAPI  %level%>= 10  000]" = .ok t ∧ t.height ≤ 3 ∧
      ∀ c ∈ [t, .perm "a" (.bool true), .not level, level], IsWellFormed c := by
  intro parser level t
  have parsed : parser.parse "or [! a;; not PAPI  %level%>= 10  000]" = .ok t := by decide +kernel
  exact ⟨parsed, parse_isWellFormed parsed⟩

end Gatekeeper.Grammar
