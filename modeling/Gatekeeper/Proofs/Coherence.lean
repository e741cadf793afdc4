import Gatekeeper.Proofs.Interleaving
import Gatekeeper.Proofs.Refusal

/-!
# A shared cache stays coherent

What one step of one thread preserves, and from it what any list of moves preserves: threads that
share a manager get what the parser in force makes of their expressions, nothing that an earlier
parser has made is left in the cache, no text is accepted twice between two resets, and no look-up
goes uncounted. A thread that holds the lock is the only one that relies on the cache.
-/
namespace Gatekeeper

theorem Cache.Faithful.append {parser : Parser} {cache : Cache} (h : Cache.Faithful parser cache)
    {e : Value} {outcome : Option Condition} (he : (parser.attempt e).1 = .ok outcome) (keeps : Bool) :
    Cache.Faithful parser (cache ++ Cache.entryOf keeps e outcome) := by
  intro s outcome' hm
  rcases List.mem_append.1 hm with hm | hm
  · exact h s outcome' hm
  · rw [Cache.entryOf.eq_def] at hm
    split at hm
    · split at hm
      · obtain ⟨rfl, rfl⟩ := Prod.mk.inj (List.mem_singleton.1 hm)
        exact he
      · cases hm
    · cases hm

namespace Threads

/-- The text that a parse has accepted. -/
def accepted? : Parse → Option String
  | (.text text, some _) => some text
  | _ => none

/-- The texts that are accepted on a page. -/
def accepted (page : List Parse) : List String :=
  page.filterMap accepted?

theorem accepted?_eq_some_iff (e : Value) (outcome : Option Condition) (text : String) :
    accepted? (e, outcome) = some text ↔ e = .text text ∧ outcome.isSome := by
  rw [accepted?.eq_def]
  split
  · next text' c h =>
    obtain ⟨rfl, rfl⟩ := Prod.mk.inj h
    simp
  · next other =>
    constructor
    · intro h
      cases h
    · rintro ⟨rfl, h⟩
      obtain ⟨c, rfl⟩ := Option.isSome_iff_exists.1 h
      exact absurd rfl (other text c)

theorem accepted_cons (k : Parse) (page : List Parse) :
    accepted (k :: page) = (accepted? k).toList ++ accepted page := by
  rw [accepted, accepted, List.filterMap_cons]
  cases accepted? k <;> rfl

/-- A reply is what its edition makes of the expression. -/
def Reply.IsRight (r : Reply) : Prop :=
  (r.edition.parser.attempt r.expression).1 = r.result

namespace Position

/-- The text whose condition is about to be stored. -/
def pending? : Position → Option String
  | storing e outcome _ _ => accepted? (e, outcome)
  | _ => none

/-- What is true while a thread stands here. -/
def Knows (m : Manager) (c : Chronicle) : Position → Prop
  | found _ r | leaving _ r => r.IsRight
  | missing e ruling | parsing e ruling => ruling = c.inForce ∧ m.cached? e = none
  | refusing e ruling maker =>
    ruling = c.inForce ∧ maker = c.inForce ∧ (ruling.parser.attempt e).1 = .ok none
  | storing e outcome ruling maker =>
    ruling = c.inForce ∧ maker = c.inForce ∧ (ruling.parser.attempt e).1 = .ok outcome
  | emptying true => c.inForce.number < c.latest.number
  | _ => True

/-- A thread without the lock relies on nothing that others may change. -/
theorem Knows.of_free {p : Position} {m m' : Manager} {c c' : Chronicle} (free : p.isLocked = false)
    (h : p.Knows m c) : p.Knows m' c' := by
  cases p with
  | idle | reading | waiting => trivial
  | found | leaving => exact h
  | _ => cases free

theorem Knows.congr {p : Position} {m m' : Manager} {c c' : Chronicle} (cache : m'.cache = m.cache)
    (inForce : c'.inForce = c.inForce) (latest : c'.latest = c.latest) (h : p.Knows m c) :
    p.Knows m' c' := by
  have cached (e : Value) : m'.cached? e = m.cached? e := by
    cases e <;> simp [Manager.cached?, cache]
  cases p with
  | idle | reading | waiting | rereading | settling | rebuilding | unlocking => trivial
  | found | leaving => exact h
  | missing | parsing | refusing | storing => simpa only [Knows, cached, inForce] using h
  | emptying rebuilt =>
    cases rebuilt with
    | true => simpa only [Knows, inForce, latest] using h
    | false => trivial

end Position

/-- How the lock may pass when thread `t` goes from one place to another. -/
inductive Handover (t : Nat) (p p' : Position) (holder? holder?' : Option Nat) : Prop
  | kept : p'.isLocked = p.isLocked → holder?' = holder? → Handover t p p' holder? holder?'
  | taken : holder? = none → holder?' = some t → Handover t p p' holder? holder?'
  | given : p.isLocked = true → p'.isLocked = false → holder?' = none →
      Handover t p p' holder? holder?'

/-- Thread `t` goes from one place to another, and the others stay where they are. -/
structure Goes (s : System) (t : Nat) (p : Position) (s' : System) (p' : Position) : Prop where
  stood : s.position? t = some p
  stands : s'.threads = s.threads.set t p'
  lock : Handover t p p' s.holder? s'.holder?

/-- A thread where the lock is needed has the lock. -/
def Exclusive (s : System) : Prop :=
  ∀ t p, s.position? t = some p → p.isLocked = true → s.holder? = some t

variable {s s' : System} {t t' : Nat} {p p' q : Position}

theorem Exclusive.free (h : Exclusive s) (ht : s.position? t = some p) (locked : p.isLocked = true)
    (ht' : s.position? t' = some q) (other : t' ≠ t) : q.isLocked = false := by
  by_contra hq
  have one := h t p ht locked
  rw [h t' q ht' (by simpa using hq)] at one
  exact other (Option.some.inj one)

namespace Goes

theorem lt (g : Goes s t p s' p') : t < s.threads.length :=
  (List.getElem?_eq_some_iff.1 g.stood).1

theorem self (g : Goes s t p s' p') : s'.position? t = some p' := by
  rw [System.position?, g.stands, List.getElem?_set_self g.lt]

theorem other (g : Goes s t p s' p') (h : t' ≠ t) : s'.position? t' = s.position? t' := by
  rw [System.position?, g.stands, List.getElem?_set_ne h.symm, System.position?]

theorem exclusive (g : Goes s t p s' p') (h : Exclusive s) : Exclusive s' := by
  intro t' q ht' hq
  by_cases same : t' = t
  · subst same
    obtain rfl : p' = q := Option.some.inj (g.self.symm.trans ht')
    cases g.lock with
    | kept held holder => rw [holder, h t' p g.stood (held ▸ hq)]
    | taken _ holder => exact holder
    | given _ free _ => simp [free] at hq
  · rw [g.other same] at ht'
    have holds := h t' q ht' hq
    cases g.lock with
    | kept _ holder => rw [holder, holds]
    | taken free _ => simp [free] at holds
    | given locked _ _ => simp [h.free g.stood locked ht' same] at hq

end Goes

/-- What every step preserves. -/
structure Sound (s : System) : Prop where
  exclusive : Exclusive s
  knows : ∀ t p, s.position? t = some p → p.Knows s.manager s.chronicle
  parser : s.manager.parser = s.chronicle.latest.parser
  /-- The latest parser is in force unless its reload has yet to empty the cache. -/
  settled : s.chronicle.latest = s.chronicle.inForce ∨
    ∃ t, s.position? t = some (.emptying true)
  faithful : Cache.Faithful s.chronicle.inForce.parser s.manager.cache
  keys : s.chronicle.makers.map Prod.fst = s.manager.cache.map Prod.fst
  makers : ∀ entry ∈ s.chronicle.makers, entry.2 = s.chronicle.inForce
  replies : ∀ r ∈ s.chronicle.replies, r.IsRight
  /-- What has been accepted is in the cache or on its way into it. -/
  remembered : ∀ text ∈ accepted s.chronicle.present, text ∈ s.manager.cache.map Prod.fst ∨
    ∃ t p, s.position? t = some p ∧ p.pending? = some text
  once : ∀ page ∈ s.chronicle.pages, (accepted page).Nodup

namespace Sound

/-- While a thread has the lock, the latest parser is in force, unless it is the one that empties the
cache. -/
theorem latest_eq (h : Sound s) (ht : s.position? t = some p) (locked : p.isLocked = true)
    (hp : p ≠ .emptying true) : s.chronicle.latest = s.chronicle.inForce := by
  rcases h.settled with settled | ⟨t', ht'⟩
  · exact settled
  · by_cases same : t' = t
    · subst same
      exact absurd (Option.some.inj (ht.symm.trans ht')) hp
    · exact absurd (h.exclusive.free ht locked ht' same) (by simp [Position.isLocked])

/-- What a thread with the lock does is nothing that others rely on. -/
theorem knows_of_locked (h : Sound s) (g : Goes s t p s' p') (locked : p.isLocked = true)
    (hp' : p'.Knows s'.manager s'.chronicle) (t' : Nat) (q : Position)
    (ht' : s'.position? t' = some q) : q.Knows s'.manager s'.chronicle := by
  by_cases same : t' = t
  · subst same
    obtain rfl : p' = q := Option.some.inj (g.self.symm.trans ht')
    exact hp'
  · rw [g.other same] at ht'
    exact (h.knows t' q ht').of_free (h.exclusive.free g.stood locked ht' same)

/-- A step that leaves the cache, the parser and what the chronicle says of them as they are. -/
theorem quiet (h : Sound s) (g : Goes s t p s' p') (cache : s'.manager.cache = s.manager.cache)
    (parser : s'.manager.parser = s.manager.parser) {replies : List Reply}
    (chronicle : s'.chronicle = { s.chronicle with replies }) (hp : p ≠ .emptying true)
    (pending : p.pending? = none) (knows : p'.Knows s.manager s.chronicle)
    (right : ∀ r ∈ replies, r.IsRight) : Sound s' := by
  have moved {q : Position} (hq : q ≠ p) (there : ∃ t', s.position? t' = some q) :
      ∃ t', s'.position? t' = some q := by
    obtain ⟨t', ht'⟩ := there
    refine ⟨t', ?_⟩
    rwa [g.other]
    rintro rfl
    exact hq (Option.some.inj (ht'.symm.trans g.stood))
  have frame {q : Position} (h : q.Knows s.manager s.chronicle) : q.Knows s'.manager s'.chronicle :=
    h.congr cache (by rw [chronicle]) (by rw [chronicle])
  refine ⟨g.exclusive h.exclusive, ?_, ?_, ?_, ?_, ?_, ?_, ?_, ?_, ?_⟩
  · intro t' q ht'
    by_cases same : t' = t
    · subst same
      obtain rfl : p' = q := Option.some.inj (g.self.symm.trans ht')
      exact frame knows
    · rw [g.other same] at ht'
      exact frame (h.knows t' q ht')
  · rw [parser, chronicle, h.parser]
  · rw [chronicle]
    exact h.settled.imp_right (moved hp.symm)
  · rw [chronicle, cache]
    exact h.faithful
  · rw [chronicle, cache, h.keys]
  · rw [chronicle]
    exact h.makers
  · rw [chronicle]
    exact right
  · rw [chronicle, cache]
    intro text ht
    refine (h.remembered text ht).imp_right ?_
    rintro ⟨t', q, ht', hq⟩
    have other : q ≠ p := by
      rintro rfl
      simp [pending] at hq
    obtain ⟨t', ht'⟩ := moved other ⟨t', ht'⟩
    exact ⟨t', q, ht', hq⟩
  · rw [chronicle]
    exact h.once

/-- To a thread with the lock, what has been accepted is in the cache unless the thread itself is about
to store it. -/
theorem mem_keys (h : Sound s) (ht : s.position? t = some p) (locked : p.isLocked = true)
    {text : String} (accepted : text ∈ accepted s.chronicle.present) :
    text ∈ s.manager.cache.map Prod.fst ∨ p.pending? = some text := by
  refine (h.remembered text accepted).imp_right ?_
  rintro ⟨t', q, ht', hq⟩
  by_cases same : t' = t
  · subst same
    obtain rfl : p = q := Option.some.inj (ht.symm.trans ht')
    exact hq
  · have free := h.exclusive.free ht locked ht' same
    cases q with
    | storing => cases free
    | _ => cases hq

/-- A text that is about to be parsed has not been accepted since the last reset. -/
theorem fresh (h : Sound s) {e : Value} {ruling : Edition}
    (ht : s.position? t = some (.parsing e ruling)) {text : String} (he : e = .text text) :
    text ∉ accepted s.chronicle.present := by
  intro accepted
  obtain ⟨-, missing⟩ := h.knows t _ ht
  subst he
  rcases h.mem_keys ht rfl accepted with known | pending
  · exact (Cache.lookup_eq_none_iff ..).1 missing known
  · cases pending

/-- A parse is noted, and its outcome is on the way into the cache. -/
theorem parse (h : Sound s) {e : Value} {ruling : Edition} {outcome : Option Condition}
    (g : Goes s t (.parsing e ruling) s' p') (cache : s'.manager.cache = s.manager.cache)
    (parser : s'.manager.parser = s.manager.parser)
    (chronicle : s'.chronicle = s.chronicle.parse e outcome)
    (knows : p'.Knows s'.manager s'.chronicle) (pending : p'.pending? = accepted? (e, outcome)) :
    Sound s' := by
  refine ⟨g.exclusive h.exclusive, h.knows_of_locked g rfl knows, ?_, ?_, ?_, ?_, ?_, ?_, ?_, ?_⟩
  · rw [parser, chronicle, h.parser, Chronicle.parse]
  · rw [chronicle]
    exact .inl (h.latest_eq g.stood rfl nofun)
  · rw [chronicle, cache]
    exact h.faithful
  · rw [chronicle, cache]
    exact h.keys
  · rw [chronicle]
    exact h.makers
  · rw [chronicle]
    exact h.replies
  · rw [chronicle, cache, Chronicle.parse, accepted_cons]
    intro text ht
    rcases List.mem_append.1 ht with new | old
    · exact .inr ⟨t, p', g.self, pending.trans (Option.mem_toList.1 new)⟩
    · exact .inl ((h.mem_keys g.stood rfl old).resolve_right nofun)
  · rw [chronicle, Chronicle.pages, Chronicle.parse]
    refine List.forall_mem_cons.2 ⟨?_, fun page hm => h.once page (List.mem_cons_of_mem _ hm)⟩
    rw [accepted_cons]
    cases hk : accepted? (e, outcome) with
    | none => exact h.once _ (List.mem_cons_self ..)
    | some text =>
      obtain ⟨he, -⟩ := (accepted?_eq_some_iff e outcome text).1 hk
      exact List.nodup_cons.2 ⟨h.fresh g.stood he, h.once _ (List.mem_cons_self ..)⟩

/-- An outcome goes into the cache, with the edition in force for its maker. -/
theorem store (h : Sound s) {e : Value} {outcome : Option Condition} {ruling maker : Edition}
    (g : Goes s t (.storing e outcome ruling maker) s' (.leaving true ⟨e, ruling, .ok outcome⟩))
    {keeps : Bool} (cache : s'.manager.cache = s.manager.cache ++ Cache.entryOf keeps e outcome)
    (parser : s'.manager.parser = s.manager.parser)
    (chronicle : s'.chronicle = s.chronicle.store (Cache.entryOf keeps e outcome) maker) :
    Sound s' := by
  obtain ⟨rfl, rfl, right⟩ := h.knows t _ g.stood
  refine ⟨g.exclusive h.exclusive, h.knows_of_locked g rfl right, ?_, ?_, ?_, ?_, ?_, ?_, ?_, ?_⟩
  · rw [parser, chronicle, h.parser, Chronicle.store]
  · rw [chronicle]
    exact .inl (h.latest_eq g.stood rfl nofun)
  · rw [chronicle, cache]
    exact h.faithful.append right keeps
  · rw [chronicle, cache, Chronicle.store]
    simp [h.keys]
  · rw [chronicle, Chronicle.store]
    intro entry hm
    rcases List.mem_append.1 hm with old | new
    · exact h.makers entry old
    · obtain ⟨_, -, rfl⟩ := List.mem_map.1 new
      rfl
  · rw [chronicle]
    exact h.replies
  · rw [chronicle, cache, List.map_append]
    intro text ht
    refine .inl (List.mem_append.2 ?_)
    refine (h.mem_keys g.stood rfl ht).imp_right fun pending => ?_
    obtain ⟨rfl, some⟩ := (accepted?_eq_some_iff e outcome text).1 pending
    simp [Cache.entryOf, some]
  · rw [chronicle]
    exact h.once

/-- The parser of a reload is not in force before the cache is emptied for it. -/
theorem rebuild (h : Sound s) {settings : Settings}
    (g : Goes s t (.rebuilding settings) s' (.emptying true))
    (cache : s'.manager.cache = s.manager.cache)
    (chronicle : s'.chronicle = s.chronicle.rebuild s'.manager.parser) : Sound s' := by
  have knows : (Position.emptying true).Knows s'.manager s'.chronicle := by
    have latest := h.latest_eq g.stood rfl nofun
    rw [chronicle, Position.Knows, Chronicle.rebuild, latest]
    exact Nat.lt_succ_self _
  refine ⟨g.exclusive h.exclusive, h.knows_of_locked g rfl knows, ?_, ?_, ?_, ?_, ?_, ?_, ?_, ?_⟩
  · rw [chronicle, Chronicle.rebuild]
  · exact .inr ⟨t, g.self⟩
  · rw [chronicle, cache]
    exact h.faithful
  · rw [chronicle, cache]
    exact h.keys
  · rw [chronicle]
    exact h.makers
  · rw [chronicle]
    exact h.replies
  · rw [chronicle, cache]
    exact fun text ht => .inl ((h.mem_keys g.stood rfl ht).resolve_right nofun)
  · rw [chronicle]
    exact h.once

/-- With the cache empty the latest parser is in force. -/
theorem empty (h : Sound s) {rebuilt : Bool} {records : List Record}
    (g : Goes s t (.emptying rebuilt) s' (.unlocking records)) (cache : s'.manager.cache = [])
    (parser : s'.manager.parser = s.manager.parser)
    (chronicle : s'.chronicle = s.chronicle.empty rebuilt) : Sound s' := by
  refine ⟨g.exclusive h.exclusive, h.knows_of_locked g rfl trivial, ?_, ?_, ?_, ?_, ?_, ?_, ?_, ?_⟩
  · rw [parser, chronicle, h.parser, Chronicle.empty]
  · rw [chronicle]
    cases rebuilt with
    | true => exact .inl rfl
    | false => exact .inl (h.latest_eq g.stood rfl nofun)
  · rw [cache]
    exact fun _ _ hm => absurd hm List.not_mem_nil
  · rw [chronicle, cache, Chronicle.empty]
    rfl
  · rw [chronicle]
    exact fun _ hm => absurd hm List.not_mem_nil
  · rw [chronicle]
    exact h.replies
  · rw [chronicle]
    exact fun _ hm => absurd hm List.not_mem_nil
  · rw [chronicle]
    exact List.forall_mem_cons.2 ⟨List.nodup_nil, h.once⟩

/-- To read the cache is to learn what the edition in force makes of an expression. -/
theorem right (h : Sound s) {e : Value} {outcome : Option Condition}
    (hc : s.manager.cached? e = some outcome) :
    Reply.IsRight ⟨e, s.chronicle.inForce, .ok outcome⟩ :=
  h.faithful.cached? hc

/-- To parse is to learn what the edition in force makes of an expression. -/
theorem attempt_eq (h : Sound s) {e : Value} {ruling : Edition}
    (ht : s.position? t = some (.parsing e ruling)) :
    s.chronicle.latest = ruling ∧ s.manager.parser = ruling.parser := by
  obtain ⟨rfl, -⟩ := h.knows t _ ht
  have latest := h.latest_eq ht rfl nofun
  exact ⟨latest, by rw [h.parser, latest]⟩

/-- Wherever a thread stands, its step leaves things sound. -/
theorem act (h : Sound s) (ht : s.position? t = some p) : Sound (s.act t p) := by
  cases p with
  | idle => exact h
  | reading e =>
    rw [System.act]
    split
    · next outcome hc =>
      exact h.quiet ⟨ht, rfl, .kept rfl rfl⟩ rfl rfl rfl (by simp) rfl (h.right hc) h.replies
    · exact h.quiet ⟨ht, rfl, .kept rfl rfl⟩ rfl rfl rfl (by simp) rfl trivial h.replies
  | waiting call =>
    rw [System.act]
    split
    · next free =>
      have knows : (Position.entered call).Knows s.manager s.chronicle := by cases call <;> trivial
      exact h.quiet ⟨ht, rfl, .taken free rfl⟩ rfl rfl rfl (by simp) rfl knows h.replies
    · exact h
  | rereading e =>
    rw [System.act]
    split
    · next outcome hc =>
      exact h.quiet ⟨ht, rfl, .kept rfl rfl⟩ rfl rfl rfl (by simp) rfl (h.right hc) h.replies
    · next hc => exact h.quiet ⟨ht, rfl, .kept rfl rfl⟩ rfl rfl rfl (by simp) rfl ⟨rfl, hc⟩ h.replies
  | found locked r =>
    have knows := h.knows t _ ht
    exact h.quiet ⟨ht, rfl, .kept rfl rfl⟩ rfl rfl rfl (by simp) rfl knows h.replies
  | missing e ruling =>
    have knows := h.knows t _ ht
    exact h.quiet ⟨ht, rfl, .kept rfl rfl⟩ rfl rfl rfl (by simp) rfl knows h.replies
  | parsing e ruling =>
    obtain ⟨latest, parser⟩ := h.attempt_eq ht
    obtain ⟨inForce, -⟩ := h.knows t _ ht
    rw [System.act, parser, latest]
    split
    · next x log hp =>
      have right : Reply.IsRight ⟨e, ruling, .error x⟩ := by rw [Reply.IsRight, hp]
      exact h.quiet ⟨ht, rfl, .kept rfl rfl⟩ rfl rfl rfl (by simp) rfl right h.replies
    · next outcome log hp =>
      have made : (ruling.parser.attempt e).1 = .ok outcome := by rw [hp]
      cases outcome with
      | none =>
        refine h.parse ⟨ht, rfl, .kept rfl rfl⟩ rfl rfl rfl ⟨inForce, inForce, made⟩ ?_
        cases e <;> simp [accepted?, Position.pending?]
      | some c => exact h.parse ⟨ht, rfl, .kept rfl rfl⟩ rfl rfl rfl ⟨inForce, inForce, made⟩ rfl
  | refusing e ruling maker =>
    have knows := h.knows t _ ht
    exact h.quiet ⟨ht, rfl, .kept rfl rfl⟩ rfl rfl rfl (by simp) rfl knows h.replies
  | storing e outcome ruling maker =>
    obtain ⟨journal, stored⟩ := s.manager.store_eq e outcome
    rw [System.act, stored]
    exact h.store ⟨ht, rfl, .kept rfl rfl⟩ rfl rfl rfl
  | leaving locked r =>
    have right : ∀ r' ∈ r :: s.chronicle.replies, r'.IsRight :=
      List.forall_mem_cons.2 ⟨h.knows t _ ht, h.replies⟩
    cases locked with
    | true => exact h.quiet ⟨ht, rfl, .given rfl rfl rfl⟩ rfl rfl rfl (by simp) rfl trivial right
    | false => exact h.quiet ⟨ht, rfl, .kept rfl rfl⟩ rfl rfl rfl (by simp) rfl trivial right
  | settling settings =>
    exact h.quiet ⟨ht, rfl, .kept rfl rfl⟩ rfl rfl rfl (by simp) rfl trivial h.replies
  | rebuilding settings =>
    rw [System.act]
    split
    · exact h.rebuild ⟨ht, rfl, .kept rfl rfl⟩ rfl rfl
    · exact h.quiet ⟨ht, rfl, .kept rfl rfl⟩ rfl rfl rfl (by simp) rfl trivial h.replies
  | emptying rebuilt => exact h.empty ⟨ht, rfl, .kept rfl rfl⟩ rfl rfl rfl
  | unlocking records =>
    exact h.quiet ⟨ht, rfl, .given rfl rfl rfl⟩ rfl rfl rfl (by simp) rfl trivial h.replies

theorem begin (h : Sound s) (ht : s.position? t = some .idle) (call : Call) :
    Sound (s.begin t call) := by
  cases call <;> exact h.quiet ⟨ht, rfl, .kept rfl rfl⟩ rfl rfl rfl (by simp) rfl trivial h.replies

theorem step (h : Sound s) (move : Move) : Sound (s.step move) := by
  cases move with
  | call t call =>
    rw [System.step]
    split
    · next ht => exact h.begin ht call
    · exact h
  | advance t =>
    rw [System.step]
    split
    · next p ht => exact h.act ht
    · exact h

theorem run (h : Sound s) (moves : List Move) : Sound (s.run moves) :=
  List.foldlRecOn moves _ h fun _ h move _ => h.step move

theorem start {m : Manager} (cache : m.cache = []) (n : Nat) : Sound (System.start m n) := by
  have idle {t : Nat} {p : Position} (ht : (System.start m n).position? t = some p) : p = .idle := by
    rw [System.position?, System.start, List.getElem?_replicate] at ht
    split at ht
    · exact (Option.some.inj ht).symm
    · cases ht
  refine ⟨?_, ?_, rfl, .inl rfl, ?_, ?_, ?_, ?_, ?_, ?_⟩
  · intro t p ht locked
    rw [idle ht] at locked
    cases locked
  · intro t p ht
    rw [idle ht]
    trivial
  · intro s outcome hm
    simp [System.start, cache] at hm
  · simp [System.start, cache]
  · simp [System.start]
  · simp [System.start]
  · simp [System.start, accepted]
  · simp [System.start, Chronicle.pages, accepted]

end Sound

/-- Hits and misses are those of the look-ups that have come back or are about to. -/
def Counted (s : System) : Prop :=
  s.manager.statistics.hits + s.manager.statistics.misses =
    s.chronicle.replies.length + s.threads.countP Position.isCounted

namespace Counted

theorem put (h : Counted s) (ht : s.position? t = some p) (threads : s'.threads = s.threads)
    (balance : s'.manager.statistics.hits + s'.manager.statistics.misses + s.chronicle.replies.length +
        (if p.isCounted then 1 else 0) =
      s.manager.statistics.hits + s.manager.statistics.misses + s'.chronicle.replies.length +
        if p'.isCounted then 1 else 0) : Counted (s'.put t p') := by
  obtain ⟨lt, rfl⟩ := List.getElem?_eq_some_iff.1 ht
  rw [Counted] at h ⊢
  show s'.manager.statistics.hits + s'.manager.statistics.misses =
    s'.chronicle.replies.length + (s'.threads.set t p').countP Position.isCounted
  rw [threads, List.countP_set lt]
  by_cases counted : (s.threads[t]).isCounted = true
  · have some : 0 < s.threads.countP Position.isCounted :=
      List.countP_pos_iff.2 ⟨_, List.getElem_mem lt, counted⟩
    rw [if_pos counted] at balance ⊢
    omega
  · rw [if_neg counted] at balance ⊢
    omega

theorem act (h : Counted s) (ht : s.position? t = some p) : Counted (s.act t p) := by
  cases p with
  | idle => exact h
  | reading | rereading =>
    rw [System.act]
    split <;> exact h.put ht rfl rfl
  | waiting call =>
    rw [System.act]
    split
    · cases call <;> exact h.put ht rfl rfl
    · exact h
  | found locked r =>
    refine h.put ht rfl ?_
    simp [Manager.countHit, Position.isCounted]
    omega
  | missing e ruling =>
    refine h.put ht rfl ?_
    simp [Manager.countMiss, Position.isCounted]
    omega
  | parsing e ruling =>
    rw [System.act]
    split
    · exact h.put ht rfl rfl
    · next outcome log hp => cases outcome <;> exact h.put ht rfl rfl
  | refusing e ruling maker => exact h.put ht rfl rfl
  | storing e outcome ruling maker =>
    obtain ⟨journal, stored⟩ := s.manager.store_eq e outcome
    rw [System.act, stored]
    exact h.put ht rfl rfl
  | leaving locked r =>
    refine h.put ht rfl ?_
    simp [Chronicle.reply, Position.isCounted]
    omega
  | settling settings => exact h.put ht rfl rfl
  | rebuilding settings =>
    rw [System.act]
    split <;> exact h.put ht rfl rfl
  | emptying rebuilt => exact h.put ht rfl rfl
  | unlocking records => exact h.put ht rfl rfl

theorem step (h : Counted s) (move : Move) : Counted (s.step move) := by
  cases move with
  | call t call =>
    rw [System.step]
    split
    · next ht => cases call <;> exact h.put ht rfl rfl
    · exact h
  | advance t =>
    rw [System.step]
    split
    · next p ht => exact h.act ht
    · exact h

theorem run (h : Counted s) (moves : List Move) : Counted (s.run moves) :=
  List.foldlRecOn moves _ h fun _ h move _ => h.step move

end Counted

/-- What threads that share a manager can rely on. -/
structure Coherent (s : System) : Prop where
  /-- A look-up comes back with what the edition in force at its last read of the cache makes of the
  expression. -/
  replies : ∀ r ∈ s.chronicle.replies, (r.edition.parser.attempt r.expression).1 = r.result ∧
    ∀ mark, r.edition.parser.delimiter = .ofValue (.text mark) →
      r.result = .ok (r.edition.parser.parseValue r.expression).toOption ∨
        r.expression.isWritable = false ∧ r.result = .error .unwritable
  /-- Every entry of the cache is what the edition in force makes of its key, and made by it. -/
  entries : Cache.Faithful s.chronicle.inForce.parser s.manager.cache ∧
    s.chronicle.makers.map Prod.fst = s.manager.cache.map Prod.fst ∧
    ∀ entry ∈ s.chronicle.makers, entry.2 = s.chronicle.inForce
  /-- Between two resets no text is accepted twice. -/
  once : ∀ page ∈ s.chronicle.pages, (accepted page).Nodup
  lookups : (∀ t p, s.position? t = some p → p.isLookup = false) →
    s.manager.statistics.hits + s.manager.statistics.misses = s.chronicle.replies.length
  /-- When nobody has the lock, the manager's parser is in force. -/
  parser : s.holder? = none → s.manager.parser = s.chronicle.inForce.parser

theorem Sound.coherent (h : Sound s) (counted : Counted s) : Coherent s := by
  refine ⟨?_, ⟨h.faithful, h.keys, h.makers⟩, h.once, ?_, ?_⟩
  · intro r hr
    have right := h.replies r hr
    refine ⟨right, fun mark hd => ?_⟩
    rw [← right]
    cases writable : r.expression.isWritable with
    | true => exact .inl (Parser.attempt_eq hd writable)
    | false => exact .inr ⟨rfl, Parser.attempt_of_unwritable writable⟩
  · intro rest
    have none : s.threads.countP Position.isCounted = 0 := by
      rw [List.countP_eq_zero]
      intro p hp
      obtain ⟨t, ht⟩ := List.getElem?_of_mem hp
      have idle := rest t p ht
      cases p <;> simp_all [Position.isCounted, Position.isLookup]
    rw [counted, none, Nat.add_zero]
  · intro free
    rcases h.settled with latest | ⟨t, ht⟩
    · rw [h.parser, latest]
    · rw [h.exclusive t _ ht rfl] at free
      cases free

end Threads

end Gatekeeper
