import Gatekeeper.Proofs.Effect

/-!
# Threads that share a manager

A manager that several threads use at once. A thread goes on by steps that nothing divides: one read
of the cache, one change of a count, the taking or the return of the lock. Whose step comes next is
open, so that what happens is any list of moves. A chronicle beside the state notes which parser is in
force, what look-ups come back with, what is parsed, and by which parser the entries of the cache are
made; no step depends on it.

Each thread of its own does what the manager does: that is shown for the three calls at the end.
-/
namespace Gatekeeper

namespace Threads

/-- What a thread asks of the manager. -/
inductive Call where
  | lookup (e : Value)
  | clearCache
  | updateSettings (settings : Settings)

/-- A parser with its number among those that the manager has had. -/
structure Edition where
  number : Nat
  parser : Parser

/-- What a look-up comes back with, and the edition in force at the read of the cache that settled
it. -/
structure Reply where
  expression : Value
  edition : Edition
  result : Except Fault (Option Condition)

/-- Where a thread stands, said by what it does next. A thread that is about to come back with a reply
may hold the lock or not. -/
inductive Position where
  | idle
  /-- Read the cache without the lock. -/
  | reading (e : Value)
  /-- Take the lock. -/
  | waiting (call : Call)
  /-- Read the cache again. -/
  | rereading (e : Value)
  /-- Count the hit. -/
  | found (locked : Bool) (r : Reply)
  /-- Count the miss. -/
  | missing (e : Value) (ruling : Edition)
  | parsing (e : Value) (ruling : Edition)
  /-- Count the refusal. -/
  | refusing (e : Value) (ruling maker : Edition)
  /-- Store the outcome that an edition has made. -/
  | storing (e : Value) (outcome : Option Condition) (ruling maker : Edition)
  /-- Come back with a reply. -/
  | leaving (locked : Bool) (r : Reply)
  /-- Put settings into force. -/
  | settling (settings : Settings)
  /-- Build the parser that settings call for. -/
  | rebuilding (settings : Settings)
  /-- Empty the cache, for a new parser or on its own. -/
  | emptying (rebuilt : Bool)
  /-- Give the lock back and write records. -/
  | unlocking (records : List Record)

namespace Position

/-- Where a thread stands that has just taken the lock. -/
def entered : Call → Position
  | .lookup e => rereading e
  | .clearCache => emptying false
  | .updateSettings settings => settling settings

/-- Whether a thread that stands here holds the lock. -/
def isLocked : Position → Bool
  | idle | reading _ | waiting _ => false
  | found locked _ | leaving locked _ => locked
  | _ => true

/-- Whether a look-up is in progress. -/
def isLookup : Position → Bool
  | waiting (.lookup _) => true
  | idle | waiting _ | settling _ | rebuilding _ | emptying _ | unlocking _ => false
  | _ => true

/-- Whether a look-up is in progress whose hit or miss has been counted. -/
def isCounted : Position → Bool
  | parsing .. | refusing .. | storing .. | leaving .. => true
  | _ => false

end Position

/-- An expression that has been parsed, with what the parser made of it. -/
abbrev Parse := Value × Option Condition

/-- What has happened to a manager. -/
structure Chronicle where
  /-- The edition of the manager's parser. -/
  latest : Edition
  /-- The edition in force: the latest one when the cache was last emptied for a new parser. -/
  inForce : Edition
  /-- The keys of the cache, each with the edition that its entry was made by. -/
  makers : List (String × Edition) := []
  replies : List Reply := []
  /-- What has been parsed since the cache was last emptied, the latest first. -/
  present : List Parse := []
  /-- What had been parsed each time that the cache was emptied. -/
  past : List (List Parse) := []

namespace Chronicle

def reply (c : Chronicle) (r : Reply) : Chronicle :=
  { c with replies := r :: c.replies }

def parse (c : Chronicle) (e : Value) (outcome : Option Condition) : Chronicle :=
  { c with present := (e, outcome) :: c.present }

/-- Note the maker of new entries. -/
def store (c : Chronicle) (entries : Cache) (maker : Edition) : Chronicle :=
  { c with makers := c.makers ++ entries.map fun entry => (entry.1, maker) }

/-- Note a new parser, which is not in force yet. -/
def rebuild (c : Chronicle) (parser : Parser) : Chronicle :=
  { c with latest := ⟨c.latest.number + 1, parser⟩ }

/-- Note that the cache is empty. A new parser comes into force by that. -/
def empty (c : Chronicle) (rebuilt : Bool) : Chronicle :=
  { c with
    inForce := if rebuilt then c.latest else c.inForce
    makers := []
    present := []
    past := c.present :: c.past }

/-- What has been parsed between any two resets of the cache that follow each other. -/
def pages (c : Chronicle) : List (List Parse) :=
  c.present :: c.past

end Chronicle

/-- A manager, the thread that holds its lock, and where each thread stands. -/
structure System where
  manager : Manager
  holder? : Option Nat := none
  threads : List Position
  chronicle : Chronicle

/-- One thread begins what it is called for, or goes on by a step. -/
inductive Move where
  | call (t : Nat) (c : Call)
  | advance (t : Nat)

namespace System

/-- A new manager with some threads that have nothing to do. -/
def start (m : Manager) (n : Nat) : System where
  manager := m
  threads := List.replicate n .idle
  chronicle := { latest := ⟨0, m.parser⟩, inForce := ⟨0, m.parser⟩ }

/-- Where a thread stands. -/
def position? (s : System) (t : Nat) : Option Position :=
  s.threads[t]?

def put (s : System) (t : Nat) (p : Position) : System :=
  { s with threads := s.threads.set t p }

/-- Begin a call. -/
def begin (s : System) (t : Nat) : Call → System
  | .lookup e => s.put t (.reading e)
  | .clearCache => s.put t (.waiting .clearCache)
  | .updateSettings settings =>
    let m := s.manager.write [Manager.note .info "Updating engine configuration"]
    { s with manager := m }.put t (.waiting (.updateSettings settings))

/-- The step of a thread from where it stands. A thread that waits for the lock stays there as long as
another one holds it. -/
def act (s : System) (t : Nat) : Position → System
  | .idle => s
  | .reading e =>
    match s.manager.cached? e with
    | some outcome => s.put t (.found false ⟨e, s.chronicle.inForce, .ok outcome⟩)
    | none => s.put t (.waiting (.lookup e))
  | .waiting call =>
    match s.holder? with
    | none => { s with holder? := some t }.put t (.entered call)
    | some _ => s
  | .rereading e =>
    match s.manager.cached? e with
    | some outcome => s.put t (.found true ⟨e, s.chronicle.inForce, .ok outcome⟩)
    | none => s.put t (.missing e s.chronicle.inForce)
  | .found locked r => { s with manager := s.manager.countHit }.put t (.leaving locked r)
  | .missing e ruling => { s with manager := s.manager.countMiss }.put t (.parsing e ruling)
  | .parsing e ruling =>
    match s.manager.parser.attempt e with
    | (.error x, log) =>
      { s with manager := s.manager.write log }.put t (.leaving true ⟨e, ruling, .error x⟩)
    | (.ok outcome, log) =>
      let maker := s.chronicle.latest
      let next : Position :=
        if outcome.isNone then .refusing e ruling maker else .storing e outcome ruling maker
      { s with
        manager := s.manager.write log
        chronicle := s.chronicle.parse e outcome }.put t next
  | .refusing e ruling maker =>
    { s with manager := s.manager.countParseFailure }.put t (.storing e none ruling maker)
  | .storing e outcome ruling maker =>
    let entries := Cache.entryOf s.manager.settings.cacheInvalid.holds e outcome
    { s with
      manager := s.manager.store e outcome
      chronicle := s.chronicle.store entries maker }.put t (.leaving true ⟨e, ruling, .ok outcome⟩)
  | .leaving locked r =>
    { s with
      holder? := if locked then none else s.holder?
      chronicle := s.chronicle.reply r }.put t .idle
  | .settling settings => { s with manager.settings := settings }.put t (.rebuilding settings)
  | .rebuilding settings =>
    match settings.parser? with
    | .ok parser =>
      { s with
        manager.parser := parser
        chronicle := s.chronicle.rebuild parser }.put t (.emptying true)
    | .error _ => s.put t (.unlocking [])
  | .emptying rebuilt =>
    let records := if rebuilt then [] else [Manager.note .info "Condition cache cleared"]
    { s with
      manager.cache := []
      chronicle := s.chronicle.empty rebuilt }.put t (.unlocking records)
  | .unlocking records =>
    { s with holder? := none, manager := s.manager.write records }.put t .idle

def step (s : System) : Move → System
  | .call t c =>
    match s.position? t with
    | some .idle => s.begin t c
    | _ => s
  | .advance t =>
    match s.position? t with
    | some p => s.act t p
    | none => s

def run (s : System) (moves : List Move) : System :=
  moves.foldl step s

variable {s : System} {t : Nat} {p : Position}

@[simp] theorem run_nil (s : System) : s.run [] = s := rfl

@[simp] theorem run_cons (s : System) (move : Move) (moves : List Move) :
    s.run (move :: moves) = (s.step move).run moves := rfl

theorem step_advance (h : s.position? t = some p) : s.step (.advance t) = s.act t p := by
  rw [step, h]

theorem step_call (h : s.position? t = some .idle) (c : Call) : s.step (.call t c) = s.begin t c := by
  rw [step, h]

/-! ## One thread of its own

Nobody has the lock, and one thread that has nothing to do is called and goes on until it is back.
-/

/-- Let one thread do what it is called for, by its first steps. -/
def alone (s : System) (t : Nat) (c : Call) (steps : Nat) : System :=
  s.run (.call t c :: List.replicate steps (.advance t))

variable {m : Manager} {holder? : Option Nat} {threads : List Position} {c : Chronicle}

theorem alone_eq (idle : threads[t]? = some .idle) (call : Call) (steps : Nat) :
    (System.mk m none threads c).alone t call steps =
      ((System.mk m none threads c).begin t call).run (List.replicate steps (.advance t)) := by
  rw [alone, run_cons, step_call]
  exact idle

theorem step_idle (h : s.position? t = some .idle) : s.step (.advance t) = s := by
  rw [step_advance h, act]

/-- The next step of a thread from where its last one has put it. -/
theorem step_set (idle : threads[t]? = some .idle) (p : Position) :
    (System.mk m holder? (threads.set t p) c).step (.advance t) =
      (System.mk m holder? (threads.set t p) c).act t p :=
  step_advance (List.getElem?_set_self (List.getElem?_eq_some_iff.1 idle).1)

theorem set_idle (idle : threads[t]? = some .idle) : threads.set t .idle = threads := by
  obtain ⟨ht, h⟩ := List.getElem?_eq_some_iff.1 idle
  rw [← h, List.set_getElem_self]

/-- To look up is to come back with the manager's result and to leave the manager as that leaves it. -/
theorem alone_lookup (idle : threads[t]? = some .idle) (e : Value) :
    ∃ c', (System.mk m none threads c).alone t (.lookup e) 8 =
        ⟨(m.lookup e).2, none, threads, c'⟩ ∧
      c'.replies = ⟨e, c.inForce, (m.lookup e).1⟩ :: c.replies := by
  cases hc : m.cached? e with
  | some outcome =>
    rw [Manager.lookup_hit hc]
    refine ⟨c.reply ⟨e, c.inForce, .ok outcome⟩, ?_, rfl⟩
    simp [alone_eq idle, List.replicate, begin, put, step_set idle, act, hc, set_idle idle, step_idle,
      position?, idle]
  | none =>
    have learnt : m.lookup e = m.learn e := by rw [Manager.lookup, hc]
    have counted : m.countMiss.parser = m.parser := rfl
    rw [learnt, Manager.learn, counted]
    cases hp : m.parser.attempt e with
    | mk result log =>
      cases result with
      | error x =>
        refine ⟨c.reply ⟨e, c.inForce, .error x⟩, ?_, rfl⟩
        simp [alone_eq idle, List.replicate, begin, put, step_set idle, act, Position.entered, hc,
          counted, hp, set_idle idle, step_idle, position?, idle]
      | ok outcome =>
        let entries := Cache.entryOf m.settings.cacheInvalid.holds e outcome
        let noted := (c.parse e outcome).store entries c.latest
        refine ⟨noted.reply ⟨e, c.inForce, .ok outcome⟩, ?_, rfl⟩
        dsimp only
        rw [Manager.keep_eq_store]
        -- A refusal is counted by a step of its own.
        cases outcome with
        | none =>
          simp [alone_eq idle, List.replicate, begin, put, step_set idle, act, Position.entered, hc,
            counted, hp, set_idle idle]
          rfl
        | some condition =>
          simp [alone_eq idle, List.replicate, begin, put, step_set idle, act, Position.entered, hc,
            counted, hp, set_idle idle, step_idle, position?, idle]
          rfl

theorem alone_clearCache (idle : threads[t]? = some .idle) :
    (System.mk m none threads c).alone t .clearCache 3 =
      ⟨m.clearCache, none, threads, c.empty false⟩ := by
  simp [alone_eq idle, List.replicate, begin, put, step_set idle, act, Position.entered,
    set_idle idle]
  rfl

theorem alone_updateSettings (idle : threads[t]? = some .idle) (settings : Settings) :
    ∃ c', (System.mk m none threads c).alone t (.updateSettings settings) 5 =
      ⟨(m.updateSettings settings).2, none, threads, c'⟩ := by
  rw [Manager.updateSettings]
  cases hp : settings.parser? with
  | ok parser =>
    refine ⟨(c.rebuild parser).empty true, ?_⟩
    simp [alone_eq idle, List.replicate, begin, put, step_set idle, act, Position.entered, hp,
      Manager.write, Journal.write, set_idle idle]
  | error refusal =>
    refine ⟨c, ?_⟩
    simp [alone_eq idle, List.replicate, begin, put, step_set idle, act, Position.entered, hp,
      Manager.write, Journal.write, set_idle idle, step_idle, position?, idle]

end System

end Threads

end Gatekeeper
