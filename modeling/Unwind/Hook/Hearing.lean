/-
Unwind.Hook.Hearing — sessions in which predicates make requests of their own.

To a `Session` a predicate is a test, which is over at once and can change no
more than the shared value. But a predicate is code as a callback is. Before it
decides it may run a program, its `Prelude`, and that may even dispatch events.
It runs on a machine state of its own, since the dispatch that asks does not
lend it the one it was given.

A dispatch that waits for a prelude is an `Inquiry`. What the prelude
dispatches nests in it, and the callbacks that this starts may do what callbacks
do. Only one thing they may not: a registry that is asking its hooks must not be
changed. To register a hook with it or to cancel one of its hooks is a panic,
after which nothing goes on.

A hearing is a session with the inquiries that are open. It takes the steps of
the session but where predicates are asked; if none of them has a prelude the
hearing is the session, step by step (`Hearing.step_of_passive`).
-/
import Unwind.Hook.Session

namespace Unwind

variable {σ κ : Type}

/-- What the predicate of a hook does before its test decides. -/
structure Prelude (σ κ : Type) where
  /-- The machine state that the program runs on. -/
  state : σ
  program : Program σ κ

/-- The preludes of predicates, by hook and event. A predicate without one only
tests. -/
abbrev Preludes (σ κ : Type) := Hook σ κ → Event → Option (Prelude σ κ)

/-- A dispatch that waits for the prelude of a predicate. -/
structure Inquiry (σ κ : Type) where
  /-- The dispatch. Of the hooks that were asked, those that want the event are
  pending. -/
  call : Call σ κ
  /-- The hook whose predicate runs its prelude. -/
  asked : Hook σ κ
  /-- The hooks that have not been asked. -/
  waiting : List (Hook σ κ)
  /-- The machine state of the dispatch. -/
  state : σ
  /-- How many dispatches further out are giving hooks their turns. -/
  outer : Nat

/-! ## Changes to registries -/

namespace Session

/-- The registry that a hook was registered with, if it has not been cancelled. -/
def home? (m : Session σ κ) (hook : Nat) : Option Nat :=
  m.registrations[hook]?.bind fun r => if r.live then some r.registry else none

/-- The registry whose hooks the next step would change, if there is one. -/
def changes? (m : Session σ κ) : Option Nat :=
  match m.running, m.calls with
  | .register .., _ => some m.current
  | .cancel hook _, _ => m.home? hook
  | .done, { active := none, pending := hook :: _, .. } :: _ =>
    if m.mayStart hook && hook.once then m.home? hook.id else none
  | _, _ => none

/-- The test of a hook decides whether the hook is among those that want the
event of a dispatch. -/
def test (m : Session σ κ) (call : Call σ κ) (hook : Hook σ κ) : Call σ κ × Session σ κ :=
  let (accepted, shared) := hook.accepts call.event m.view m.shared
  ({ call with pending := if accepted then call.pending ++ [hook] else call.pending },
    { m with shared := shared }.record (.judged call.id hook.id accepted))

end Session

/-! ## Hearings -/

/-- A session with the dispatches that wait for preludes. -/
structure Hearing (σ κ : Type) where
  /-- The session. Its dispatches in progress are those past their inquiries. -/
  session : Session σ κ
  /-- The inquiries that are open, the innermost first. -/
  inquiries : List (Inquiry σ κ)
  panicked : Bool

namespace Hearing

/-- A hearing about to run a program, with an empty registry. -/
def start (state : σ) (shared : κ) (program : Program σ κ) : Hearing σ κ :=
  ⟨.start state shared program, [], false⟩

/-- How many dispatches are in progress. -/
def depth (h : Hearing σ κ) : Nat := h.session.calls.length + h.inquiries.length

/-- Whether the next step would change a registry that is asking its hooks. -/
def trespasses (h : Hearing σ κ) : Bool :=
  h.session.changes?.any fun registry =>
    h.inquiries.any fun inquiry => inquiry.call.registry == registry

variable (preludes : Preludes σ κ)

/-- Asks hooks one after another whether they want the event of a dispatch, as
far as no prelude comes in between. When all have been asked, the dispatch goes
on to their turns. -/
def ask (inquiries : List (Inquiry σ κ)) (call : Call σ κ) :
    List (Hook σ κ) → Session σ κ → Hearing σ κ
  | [], m => ⟨{ m with calls := call :: m.calls }, inquiries, false⟩
  | hook :: waiting, m =>
    match preludes hook call.event with
    | none =>
      let (call, m) := m.test call hook
      ask inquiries call waiting m
    | some prelude =>
      ⟨{ m with state := prelude.state, running := prelude.program },
        ⟨call, hook, waiting, m.state, m.calls.length⟩ :: inquiries, false⟩

/-- Begins a dispatch with its inquiry. -/
def dispatch (h : Hearing σ κ) (event : Event) (next : Nat → Program σ κ) : Hearing σ κ :=
  let m := h.session
  let call : Call σ κ :=
    { id := m.dispatches
      registry := m.current
      event := event
      pending := []
      active := none
      ran := 0
      next := next }
  ask preludes h.inquiries call m.hooks
    ({ m with dispatches := m.dispatches + 1, running := .done }.record
      (.dispatched m.dispatches m.current event))

/-- A prelude has run to its end. The machine state is that of the dispatch again,
the test decides, and the inquiry goes on. -/
def decide (h : Hearing σ κ) (inquiry : Inquiry σ κ) (inquiries : List (Inquiry σ κ)) :
    Hearing σ κ :=
  let (call, m) := { h.session with state := inquiry.state }.test inquiry.call inquiry.asked
  ask preludes inquiries call inquiry.waiting m

/-- A step of the session, unless it changes a registry that is asking its hooks. -/
def proceed (h : Hearing σ κ) : Hearing σ κ :=
  if h.trespasses then { h with panicked := true } else { h with session := h.session.step }

/-- One request, one turn of the innermost dispatch, or one prelude's end. -/
def step (h : Hearing σ κ) : Hearing σ κ :=
  if h.panicked then h
  else match h.session.running, h.inquiries with
    | .dispatch event next, _ => h.dispatch preludes event next
    | .done, inquiry :: inquiries =>
      if h.session.calls.length = inquiry.outer then h.decide preludes inquiry inquiries
      else h.proceed
    | _, _ => h.proceed

end Hearing

end Unwind
