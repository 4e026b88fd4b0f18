/-
Unwind.Hook.Program — what the code around a hook registry may do.

A program is a tree of requests to the session it runs in (`Session`), each
with what goes on once the request has been answered. The body of a hook is a
program for each event; so a body can register and cancel hooks, dispatch
events of its own and replace the registry, to any depth, and there is no
request that would run for ever.

Two values are threaded through a run: `σ`, the machine state that a dispatch
hands from callback to callback, and `κ`, whatever callbacks and predicates
share otherwise. Predicates see the event, a `View` of the registry and `κ`;
they can change only `κ`. So a predicate is a test, and makes no requests. What
becomes of a dispatch where predicates make some is for `Hearing` to say.
-/
import Unwind.Hook.Event
import Unwind.Report

namespace Unwind

/-- What a registration gives in return. Copies of a handle are the handle. -/
structure Handle where
  /-- The number of the registration among all registrations of a session. -/
  hook : Nat
  /-- The number the registry gave the hook. -/
  cookie : UInt32
  deriving DecidableEq

/-- What a predicate may ask of the registry. -/
structure View where
  /-- How many hooks the current registry holds. -/
  size : Nat
  /-- Whether a registered hook has not been cancelled. -/
  isLive : Nat → Bool

/-- Decides whether a hook wants an event, without a request to the session. -/
abbrev Predicate (κ : Type) := Event → View → κ → Bool × κ

/-- A finite tree of requests to a session. -/
inductive Program (σ κ : Type) where
  | done
  /-- Looks at the machine state and the shared value. -/
  | inspect (next : σ → κ → Program σ κ)
  /-- Changes the machine state and the shared value. -/
  | update (change : σ → κ → σ × κ) (next : Program σ κ)
  /-- Adds reports to the log. -/
  | report (reports : List Report) (next : Program σ κ)
  /-- Registers a hook with the current registry; a hook that is `once` is
  cancelled just before its body runs. -/
  | register (once : Bool) (accepts : Predicate κ) (body : Event → Program σ κ)
      (next : Handle → Program σ κ)
  /-- Cancels a hook; the answer is whether it was still registered. -/
  | cancel (hook : Nat) (next : Bool → Program σ κ)
  /-- Asks whether a hook has not been cancelled. -/
  | isLive (hook : Nat) (next : Bool → Program σ κ)
  /-- Asks how many hooks the current registry holds. -/
  | size (next : Nat → Program σ κ)
  /-- Dispatches an event on the current registry; the answer is how many
  callbacks the dispatch ran. -/
  | dispatch (event : Event) (next : Nat → Program σ κ)
  /-- Drops the current registry for a new one. -/
  | renew (next : Program σ κ)

/-- A computation with a result, as what it makes of the program that goes on
with the result. -/
def Act (σ κ α : Type) := (α → Program σ κ) → Program σ κ

namespace Act

variable {σ κ α β : Type}

/-- One computation after another. -/
def bind (a : Act σ κ α) (f : α → Act σ κ β) : Act σ κ β := fun next => a fun x => f x next

instance : Monad (Act σ κ) where
  pure x := fun next => next x
  bind := bind

/-- The program that is a computation and nothing after it. -/
def program (a : Act σ κ Unit) : Program σ κ := a fun _ => .done

/-! ## Single requests -/

/-- The machine state. -/
def state : Act σ κ σ := fun next => .inspect fun s _ => next s

/-- The shared value. -/
def shared : Act σ κ κ := fun next => .inspect fun _ c => next c

/-- Changes the machine state. -/
def changeState (change : σ → σ) : Act σ κ Unit :=
  fun next => .update (fun s c => (change s, c)) (next ())

/-- Changes the shared value. -/
def changeShared (change : κ → κ) : Act σ κ Unit :=
  fun next => .update (fun s c => (s, change c)) (next ())

/-- Adds reports to the log. -/
def report (reports : List Report) : Act σ κ Unit := fun next => .report reports (next ())

/-- Registers a hook with the current registry. -/
def register (once : Bool) (accepts : Predicate κ) (body : Event → Act σ κ Unit) :
    Act σ κ Handle :=
  fun next => .register once accepts (fun event => (body event).program) next

/-- Cancels a hook. -/
def cancel (handle : Handle) : Act σ κ Bool := fun next => .cancel handle.hook next

/-- Whether a hook has not been cancelled. -/
def isLive (handle : Handle) : Act σ κ Bool := fun next => .isLive handle.hook next

/-- How many hooks the current registry holds. -/
def size : Act σ κ Nat := fun next => .size next

/-- Dispatches an event on the current registry. -/
def dispatch (event : Event) : Act σ κ Nat := fun next => .dispatch event next

/-- Drops the current registry for a new one. -/
def renew : Act σ κ Unit := fun next => .renew (next ())

end Act

end Unwind
