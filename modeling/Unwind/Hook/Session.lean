/-
Unwind.Hook.Session — hook registries at work.

A session runs a program one request at a time (`Session.step`). A dispatch
asks every hook of the current registry whether it wants the event, all of
them before any callback runs. Then it gives each hook that does its turn, in
order of registration: the hook's body is run unless the hook has been
cancelled by then or is running already further out.

Dispatches nest, so a session keeps those in progress as a stack of `Call`s.
A registry that is replaced while a dispatch on it is in progress lives on
until that dispatch returns. Everything that happens is kept, in order, as the
session's history; its log is read off the history.
-/
import Unwind.Hook.Program

namespace Unwind

variable {σ κ : Type}

/-! ## Registries -/

/-- A registered hook. -/
structure Hook (σ κ : Type) where
  /-- The number of the registration among all registrations. -/
  id : Nat
  cookie : UInt32
  /-- Whether the hook is cancelled when its callback first runs. -/
  once : Bool
  accepts : Predicate κ
  body : Event → Program σ κ

/-- The hooks of one registry, in order of registration. -/
structure Registry (σ κ : Type) where
  nextCookie : UInt32
  hooks : List (Hook σ κ)

namespace Registry

/-- A registry without hooks. -/
def empty : Registry σ κ := ⟨0, []⟩

/-- Adds a hook, which is given the next cookie. Cookies wrap around. -/
def add (r : Registry σ κ) (hook : Hook σ κ) : Registry σ κ :=
  ⟨r.nextCookie + 1, r.hooks ++ [hook]⟩

/-- Removes what is registered under a cookie. -/
def remove (r : Registry σ κ) (cookie : UInt32) : Registry σ κ :=
  { r with hooks := r.hooks.filter fun hook => hook.cookie != cookie }

end Registry

/-! ## Sessions -/

/-- What a session keeps of each registration. -/
structure Registration where
  /-- The number of the registry among all registries. -/
  registry : Nat
  /-- The number the registry gave the hook. -/
  cookie : UInt32
  /-- Whether the hook has not been cancelled. -/
  live : Bool
  deriving DecidableEq

/-- A dispatch in progress. -/
structure Call (σ κ : Type) where
  /-- The number of the dispatch among all dispatches. -/
  id : Nat
  /-- The registry that was current when the dispatch began. -/
  registry : Nat
  event : Event
  /-- The hooks that wanted the event and have not had their turn. -/
  pending : List (Hook σ κ)
  /-- The hook whose callback is running. -/
  active : Option Nat
  /-- How many callbacks have been run to their end. -/
  ran : Nat
  /-- What goes on when the dispatch returns. -/
  next : Nat → Program σ κ

/-- Something that happened in a session. -/
inductive Occurrence
  | registered (hook registry : Nat) (cookie : UInt32) (once : Bool)
  /-- A hook was cancelled: the cookie it had, if it had not been before. -/
  | cancelled (hook : Nat) (cookie : Option UInt32)
  /-- The registry of this number became the current one. -/
  | renewed (registry : Nat)
  /-- A dispatch on a registry began. -/
  | dispatched (call registry : Nat) (event : Event)
  /-- A dispatch asked a hook whether it wants the event. -/
  | judged (call hook : Nat) (accepted : Bool)
  /-- A hook's turn passed without its callback being run. -/
  | skipped (call hook : Nat)
  | started (call hook : Nat)
  | finished (call hook : Nat)
  /-- A dispatch returned the number of callbacks it ran. -/
  | returned (call ran : Nat)
  | reported (reports : List Report)
  deriving DecidableEq

/-- What the log shows of an occurrence. -/
def Occurrence.reports : Occurrence → List Report
  | registered _ _ cookie _ => [.hookRegistered cookie]
  | cancelled _ (some cookie) => [.hookRemoved cookie]
  | reported reports => reports
  | _ => []

/-- A session between two requests. -/
structure Session (σ κ : Type) where
  /-- All registries there have been, the current one last. -/
  registries : Array (Registry σ κ)
  /-- All registrations there have been, by the number of the hook. -/
  registrations : Array Registration
  state : σ
  shared : κ
  /-- The dispatches in progress, the innermost first. -/
  calls : List (Call σ κ)
  /-- How many dispatches there have been. -/
  dispatches : Nat
  /-- What is left of the innermost body or, outside of dispatches, of the
  whole program. -/
  running : Program σ κ
  /-- What has happened, in order. -/
  history : Array Occurrence

namespace Session

/-- A session about to run a program, with an empty registry. -/
def start (state : σ) (shared : κ) (program : Program σ κ) : Session σ κ where
  registries := #[.empty]
  registrations := #[]
  state := state
  shared := shared
  calls := []
  dispatches := 0
  running := program
  history := #[]

/-! ## Looking at a session -/

/-- The number of the current registry. -/
def current (m : Session σ κ) : Nat := m.registries.size - 1

/-- The registry of a number. -/
def registry (m : Session σ κ) (i : Nat) : Registry σ κ := m.registries.getD i .empty

/-- The hooks of the current registry. -/
def hooks (m : Session σ κ) : List (Hook σ κ) := (m.registry m.current).hooks

/-- Whether a hook was registered and has not been cancelled. -/
def isLive (m : Session σ κ) (hook : Nat) : Bool := m.registrations[hook]?.any Registration.live

/-- A registry exists while it is current or a dispatch on it is in progress. -/
def hasRegistry (m : Session σ κ) (registry : Nat) : Bool :=
  registry == m.current || m.calls.any fun call => call.registry == registry

/-- The hooks whose callbacks are running, the innermost first. -/
def active (m : Session σ κ) : List Nat := m.calls.filterMap Call.active

/-- What predicates see of the session. -/
def view (m : Session σ κ) : View where
  size := m.hooks.length
  isLive := m.isLive

/-- Everything that was reported, in order. -/
def log (m : Session σ κ) : List Report := m.history.toList.flatMap Occurrence.reports

/-- Whether the program has run to its end. -/
def isFinished (m : Session σ κ) : Bool :=
  match m.running, m.calls with
  | .done, [] => true
  | _, _ => false

/-! ## Single requests -/

/-- Adds to the history. -/
def record (m : Session σ κ) (o : Occurrence) : Session σ κ :=
  { m with history := m.history.push o }

/-- Registers a hook with the current registry. -/
def register (m : Session σ κ) (once : Bool) (accepts : Predicate κ)
    (body : Event → Program σ κ) : Handle × Session σ κ :=
  let id := m.registrations.size
  let cookie := (m.registry m.current).nextCookie
  let hook : Hook σ κ := ⟨id, cookie, once, accepts, body⟩
  let m := { m with
    registries := m.registries.modify m.current fun r => r.add hook
    registrations := m.registrations.push ⟨m.current, cookie, true⟩ }
  (⟨id, cookie⟩, m.record (.registered id m.current cookie once))

/-- Takes a hook that was registered so from its registry, or rather what is
registered there under its cookie. A registry that no longer exists is left as
it is. -/
def withdraw (m : Session σ κ) (hook : Nat) (r : Registration) : Session σ κ :=
  { m with
    registries :=
      if m.hasRegistry r.registry then
        m.registries.modify r.registry fun registry => registry.remove r.cookie
      else m.registries
    registrations := m.registrations.setIfInBounds hook { r with live := false } }

/-- Cancels a hook; the answer is whether it had not been cancelled before. -/
def cancel (m : Session σ κ) (hook : Nat) : Bool × Session σ κ :=
  match m.registrations[hook]? with
  | some r =>
    if r.live then (true, (m.withdraw hook r).record (.cancelled hook (some r.cookie)))
    else (false, m.record (.cancelled hook none))
  | none => (false, m.record (.cancelled hook none))

/-- Drops the current registry for a new one. -/
def renew (m : Session σ κ) : Session σ κ :=
  { m with registries := m.registries.push .empty }.record (.renewed m.registries.size)

/-- Asks hooks one after another whether they want an event. -/
def judge (event : Event) (view : View) : List (Hook σ κ) → κ → List (Hook σ κ × Bool) × κ
  | [], shared => ([], shared)
  | hook :: hooks, shared =>
    let (accepted, shared) := hook.accepts event view shared
    let (verdicts, shared) := judge event view hooks shared
    ((hook, accepted) :: verdicts, shared)

/-- Begins a dispatch: every hook is judged, and those that want the event
await their turns. -/
def dispatch (m : Session σ κ) (event : Event) (next : Nat → Program σ κ) : Session σ κ :=
  let (verdicts, shared) := judge event m.view m.hooks m.shared
  let call : Call σ κ :=
    { id := m.dispatches
      registry := m.current
      event := event
      pending := (verdicts.filter Prod.snd).map Prod.fst
      active := none
      ran := 0
      next := next }
  let judged := verdicts.map fun (hook, accepted) =>
    Occurrence.judged m.dispatches hook.id accepted
  { m with
    shared := shared
    calls := call :: m.calls
    dispatches := m.dispatches + 1
    running := .done
    history := m.history.push (.dispatched m.dispatches m.current event) ++ judged.toArray }

/-! ## Turns -/

/-- Whether a hook whose turn has come is to be run: it has not been cancelled
and its callback is not running further out. -/
def mayStart (m : Session σ κ) (hook : Hook σ κ) : Bool :=
  m.isLive hook.id && !m.active.contains hook.id

/-- A hook that is `once` cancels itself before its body runs. -/
def retire (m : Session σ κ) (hook : Hook σ κ) : Session σ κ :=
  if hook.once then (m.cancel hook.id).2 else m

/-- The innermost dispatch goes on, no callback of its own being left to run
to its end: a callback that was running has finished, or the next hook has its
turn, or the dispatch returns. -/
def advance (m : Session σ κ) (call : Call σ κ) (outer : List (Call σ κ)) : Session σ κ :=
  match call.active with
  | some hook =>
    { m with calls := { call with active := none, ran := call.ran + 1 } :: outer }.record
      (.finished call.id hook)
  | none =>
    match call.pending with
    | [] =>
      { m with calls := outer, running := call.next call.ran }.record (.returned call.id call.ran)
    | hook :: pending =>
      if m.mayStart hook then
        let m := m.retire hook
        { m with
          calls := { call with pending := pending, active := some hook.id } :: outer
          running := hook.body call.event }.record (.started call.id hook.id)
      else
        { m with calls := { call with pending := pending } :: outer }.record
          (.skipped call.id hook.id)

/-! ## Running -/

/-- One request, or one turn of the innermost dispatch. -/
def step (m : Session σ κ) : Session σ κ :=
  match m.running with
  | .done =>
    match m.calls with
    | [] => m
    | call :: outer => m.advance call outer
  | .inspect next => { m with running := next m.state m.shared }
  | .update change next =>
    match m with
    | { registries, registrations, state, shared, calls, dispatches, running := _, history } =>
      let (state, shared) := change state shared
      { registries, registrations, state, shared, calls, dispatches, running := next, history }
  | .report reports next => { m with running := next }.record (.reported reports)
  | .register once accepts body next =>
    let (handle, m) := m.register once accepts body
    { m with running := next handle }
  | .cancel hook next =>
    let (answer, m) := m.cancel hook
    { m with running := next answer }
  | .isLive hook next => { m with running := next (m.isLive hook) }
  | .size next => { m with running := next m.hooks.length }
  | .dispatch event next => m.dispatch event next
  | .renew next => { m.renew with running := next }

/-- Steps until the program has run to its end, at most so many. -/
def run : Nat → Session σ κ → Session σ κ
  | 0, m => m
  | fuel + 1, m => if m.isFinished then m else run fuel m.step

end Session

end Unwind
