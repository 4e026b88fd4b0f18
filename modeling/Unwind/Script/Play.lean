/-
Unwind.Script.Play — scripts as programs of a hook session.

`Step.act` is what a step asks of the session, `play` runs a script to its
end. Within the body of a scripted hook each step is followed by a line in the
script's log.
-/
import Unwind.Hook.Session
import Unwind.Script.Notes
import Unwind.Walk

namespace Unwind.Script

/-- A computation in a session of a script. -/
abbrev Play (α : Type) := Act Snapshot Notes α

/-! ## Predicates -/

/-- Whether a scripted condition accepts an event. -/
def Condition.accepts (index : Nat) (event : Event) (view : View) (notes : Notes) :
    Condition → Bool
  | always b => b
  | kind keyword => eventKeyword event == keyword
  | live name => (notes.handle? name).any fun handle => view.isLive handle.hook
  | every n => (notes.evaluations.getD index 0) % n == 0
  | sizeBelow n => view.size < n
  | trigger t => t.fires event

/-- The predicate of a scripted hook. -/
def Watch.predicate (index : Nat) (name : String) : Watch → Predicate Notes
  | trigger t => fun event _ notes => (t.fires event, notes)
  | condition c => fun event view notes =>
    let notes := notes.countEvaluation index
    let accepted := c.accepts index event view notes
    (accepted, notes.log name "pred" (.bool accepted))

/-! ## Steps -/

/-- Shows a handle and whether its hook is live. -/
def showHandle (handle : Handle) (live : Bool) : String :=
  "Handle \x7b cookie: " ++ toString handle.cookie.toNat ++ ", live: " ++ toString live ++ " \x7d"

/-- Does something with the handle kept under a name, if there is one. -/
def withHandle (name : String) (act : Handle → Play Reply) : Play Reply := do
  match (← Act.shared).handle? name with
  | some handle => act handle
  | none => return .nothing

/-- Dispatches an event, unless that would exceed the bounds. -/
def dispatchWithin (bounds : Bounds) (event? : Option Event) : Play Reply := do
  if (← Act.shared).isBounded bounds then return .limit
  match event? with
  | none => return .nothing
  | some event =>
    Act.changeShared Notes.enter
    let ran ← Act.dispatch event
    Act.changeShared Notes.leave
    return .number ran

/-- Carries out a write event: the masked write, and the value and the mask as
they are into the multiply results. -/
def applyWrite (event? : Option Event) : Play Reply := do
  match event? with
  | some (.ramWrite address value mask) =>
    let s ← Act.state
    let (written, rdram) := s.rdram.writeMasked address value.toUInt32 mask.toUInt32
    Act.changeState fun s => { s with rdram := rdram, lo := value, hi := mask }
    return .bool written
  | _ => return .nothing

/-- Walks the call stack under the standard limits. -/
def walk : Play Reply := do
  let w := Walk.run .standard (← Act.state).cpu
  Act.report w.reports
  return .words w.backtrace.pcs

mutual

/-- What a step asks of the session. The event is the one that the running
callback got. -/
def Step.act (bounds : Bounds) (event? : Option Event) : Step → Play Reply
  | .access a => do
    let (reply, s) := a.perform (← Act.state)
    Act.changeState fun _ => s
    return reply
  | .register once name watch actions => do
    let index := (← Act.shared).runs.size
    Act.changeShared Notes.enroll
    let handle ← Act.register once (watch.predicate index name) fun event => do
      Act.changeShared (·.countRun index name)
      Step.actAll bounds event name actions
    Act.changeShared (·.keep name handle)
    return .number handle.cookie.toNat
  | .cancel name => withHandle name fun handle => return .bool (← Act.cancel handle)
  | .isLive name => withHandle name fun handle => return .bool (← Act.isLive handle)
  | .cookie name => withHandle name fun handle => return .number handle.cookie.toNat
  | .display name => withHandle name fun handle => do
    return .text (showHandle handle (← Act.isLive handle))
  | .copy name other => do
    match (← Act.shared).handle? name with
    | some handle =>
      Act.changeShared (·.keep other handle)
      return .bool true
    | none => return .bool false
  | .dispatch e => dispatchWithin bounds (some e)
  | .again => dispatchWithin bounds event?
  | .hooks => do
    let size ← Act.size
    return .extent size (size == 0)
  | .renew => do
    Act.renew
    return .nothing
  | .event => return (event?.map Reply.event).getD .nothing
  | .apply => applyWrite event?
  | .setPc pc => do
    Act.changeState fun s => { s with pc := pc }
    return .nothing
  | .backtrace => walk

/-- The body of a scripted hook: its steps, each logged with its reply. -/
def Step.actAll (bounds : Bounds) (event : Event) (hook : String) : List Step → Play Unit
  | [] => return
  | step :: rest => do
    let reply ← step.act bounds (some event)
    Act.changeShared (·.log hook step.keyword reply)
    Step.actAll bounds event hook rest

end

/-! ## Scripts -/

/-- A script: its steps one after another, what becomes of each being kept. -/
def script (bounds : Bounds) : List Step → Play Unit
  | [] => return
  | step :: rest => do
    let reply ← step.act bounds none
    let hooks ← Act.size
    Act.changeShared (·.close reply hooks)
    script bounds rest

/-- At most four dispatches at a time and sixty in all. -/
def bounds : Bounds := ⟨4, 60⟩

/-- How many requests a script may make; far more than one of any practical
length makes within the bounds. -/
def fuel : Nat := 1000000000000

/-- The session of a script that starts from a snapshot, run to its end. -/
def play (steps : List Step) (s : Snapshot) : Session Snapshot Notes :=
  (Session.start s .empty (script bounds steps).program).run fuel

end Unwind.Script
