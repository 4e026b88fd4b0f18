/-
Unwind.Proofs.Hearing — recursive dispatches end, unless predicates dispatch.

No hook is started whose callback is running, so dispatches that callbacks begin
can nest only so deep. Nothing of that kind keeps a predicate from being asked
while it is asked. A predicate that dispatches the event it is asked about is
asked about it again, for ever, even if no callback is ever run.

  §1 Tests     — where predicates only test, a hearing is a session
                 (`step_of_passive`).
  §2 Callbacks — those that are running belong to pairwise distinct hooks,
                 whatever predicates do (`Reachable.nodup_active`).
  §3 Recursion — where predicates only test, dispatches nest only so deep and
                 return (`recursion_ends`). The condition cannot be left out
                 (`recursion_endless`).
-/
import Unwind.Hook.Hearing
import Unwind.Proofs.Recursion

namespace Unwind

variable {σ κ : Type}

/-- No predicate makes a request: none dispatches, and none registers or cancels
hooks or replaces the registry. -/
def Passive (preludes : Preludes σ κ) : Prop := ∀ hook event, preludes hook event = none

namespace Hearing

open Session (news)

variable {preludes : Preludes σ κ} {h : Hearing σ κ} {m : Session σ κ} {call : Call σ κ}
  {inquiries : List (Inquiry σ κ)}

/-! ## §1 Tests -/

/-- A predicate without a prelude decides at once. -/
theorem ask_cons_of_none {hook : Hook σ κ} (tests : preludes hook call.event = none)
    (waiting : List (Hook σ κ)) :
    ask preludes inquiries call (hook :: waiting) m
      = ask preludes inquiries (m.test call hook).1 waiting (m.test call hook).2 := by
  rw [ask, tests]

/-- Hooks that are only tested are judged at once. By induction on the hooks: a test
leaves what the next predicate sees of the registry. -/
theorem ask_of_passive (passive : Passive preludes) (hooks : List (Hook σ κ)) :
    let judged := Session.judge call.event m.view hooks m.shared
    ask preludes inquiries call hooks m
      = ⟨{ m with
          shared := judged.2
          calls := { call with
            pending := call.pending ++ (judged.1.filter Prod.snd).map Prod.fst } :: m.calls
          history := m.history ++ (judged.1.map fun (hook, accepted) =>
            Occurrence.judged call.id hook.id accepted).toArray }, inquiries, false⟩ := by
  induction hooks generalizing m call with
  | nil => simp [ask, Session.judge]
  | cons hook hooks ih =>
    have view : (m.test call hook).2.view = m.view := rfl
    have event : (m.test call hook).1.event = call.event := rfl
    have shared : (m.test call hook).2.shared = (hook.accepts call.event m.view m.shared).2 := rfl
    have rest := @ih (m.test call hook).2 (m.test call hook).1
    rw [view, event, shared] at rest
    rw [ask_cons_of_none (passive hook _), rest]
    simp only [Session.judge]
    cases accepted : (hook.accepts call.event m.view m.shared).1 <;>
      simp [Session.test, Session.record, accepted]

theorem dispatch_of_passive (passive : Passive preludes) (event : Event)
    (next : Nat → Program σ κ) :
    dispatch preludes ⟨m, [], false⟩ event next = ⟨m.dispatch event next, [], false⟩ := by
  rw [dispatch, ask_of_passive passive]
  rfl

/-- Where predicates only test, a hearing steps as the session does. -/
theorem step_of_passive (passive : Passive preludes) (m : Session σ κ) :
    step preludes ⟨m, [], false⟩ = ⟨m.step, [], false⟩ := by
  have proceeds : proceed (⟨m, [], false⟩ : Hearing σ κ) = ⟨m.step, [], false⟩ := by
    simp [proceed, trespasses]
  cases asked : m.running with
  | dispatch event next =>
    simp [step, asked, dispatch_of_passive passive, Session.step]
  | _ => simp [step, asked, proceeds]

theorem iterate_of_passive (passive : Passive preludes) (m : Session σ κ) (n : Nat) :
    (step preludes)^[n] ⟨m, [], false⟩ = ⟨Session.step^[n] m, [], false⟩ := by
  induction n generalizing m with
  | zero => rfl
  | succ n ih => rw [Function.iterate_succ_apply, step_of_passive passive, ih]; rfl

/-- The hearings that come about by running a program. -/
def Reachable (preludes : Preludes σ κ) (h : Hearing σ κ) : Prop :=
  ∃ state shared program n, (step preludes)^[n] (start state shared program) = h

/-- Where predicates only test, these are the sessions that come about. -/
theorem Reachable.eq_session (reachable : Reachable preludes h) (passive : Passive preludes) :
    ∃ m, m.Reachable ∧ h = ⟨m, [], false⟩ := by
  obtain ⟨state, shared, program, n, rfl⟩ := reachable
  exact ⟨_, ⟨state, shared, program, n, rfl⟩, iterate_of_passive passive _ n⟩

/-! ## §2 Callbacks -/

/-- What asking hooks does not change: a dispatch runs no callback before all hooks
have been asked, and the callbacks that are running are distinct. -/
structure Sound (h : Hearing σ κ) : Prop where
  idle : ∀ inquiry ∈ h.inquiries, inquiry.call.active = none
  nodup : h.session.active.Nodup

theorem sound_ask (idle : ∀ inquiry ∈ inquiries, inquiry.call.active = none)
    (begins : call.active = none) (nodup : m.active.Nodup) (hooks : List (Hook σ κ)) :
    Sound (ask preludes inquiries call hooks m) := by
  induction hooks generalizing m call with
  | nil =>
    refine ⟨idle, ?_⟩
    rw [ask, Session.active_cons rfl, begins]
    exact nodup
  | cons hook hooks ih =>
    cases prelude : preludes hook call.event with
    | none =>
      rw [ask_cons_of_none prelude]
      exact ih begins nodup
    | some prelude' =>
      rw [ask, prelude]
      exact ⟨List.forall_mem_cons.mpr ⟨begins, idle⟩, nodup⟩

theorem Sound.proceed (sound : Sound h) : Sound h.proceed := by
  rw [Hearing.proceed]
  split
  · exact ⟨sound.idle, sound.nodup⟩
  · exact ⟨sound.idle, (Session.move_step h.session).nodup_active sound.nodup⟩

theorem Sound.step (sound : Sound h) : Sound (step preludes h) := by
  rw [Hearing.step]
  split
  · exact sound
  · split
    case h_1 event next _ =>
      refine sound_ask sound.idle ?_ ?_ h.session.hooks
      · rfl
      · exact sound.nodup
    case h_2 inquiry inquiries _ waits =>
      have idle := sound.idle
      rw [waits, List.forall_mem_cons] at idle
      split
      · refine sound_ask idle.2 ?_ ?_ inquiry.waiting
        · exact idle.1
        · exact sound.nodup
      · exact sound.proceed
    case h_3 => exact sound.proceed

/-- No hook is started whose callback is running already, whatever predicates do. -/
theorem Reachable.nodup_active (reachable : Reachable preludes h) : h.session.active.Nodup := by
  obtain ⟨state, shared, program, n, rfl⟩ := reachable
  suffices sound : Sound ((Hearing.step preludes)^[n] (start state shared program)) from sound.nodup
  induction n with
  | zero => exact ⟨fun _ none => absurd none List.not_mem_nil, List.nodup_nil⟩
  | succ n ih =>
    rw [Function.iterate_succ_apply']
    exact ih.step

/-! ## §3 Recursion -/

/-- For some steps there are more dispatches in progress than so many. -/
def Above (preludes : Preludes σ κ) (base n : Nat) (h : Hearing σ κ) : Prop :=
  ∀ k ≤ n, base < ((step preludes)^[k] h).depth

/-- As long as the dispatch that is asked for is in progress, no hook is registered and
no registry replaced. -/
def Undisturbed (preludes : Preludes σ κ) (h : Hearing σ κ) : Prop :=
  ∀ n, Above preludes h.depth n (step preludes h) →
    ∀ o ∈ news ((step preludes)^[n] (step preludes h)).session
      (step preludes ((step preludes)^[n] (step preludes h))).session, o.grows = false

theorem above_iff_of_passive (passive : Passive preludes) {base : List (Call σ κ)} {n : Nat} :
    Above preludes base.length n ⟨m, [], false⟩ ↔ Session.Above base n m := by
  simp only [Above, Session.Above, iterate_of_passive passive, depth, List.length_nil,
    Nat.add_zero]

theorem undisturbed_iff_of_passive (passive : Passive preludes) :
    Undisturbed preludes ⟨m, [], false⟩ ↔ m.Undisturbed := by
  simp only [Undisturbed, Session.Undisturbed, Session.Quiet, step_of_passive passive,
    iterate_of_passive passive]
  exact forall_congr' fun n => imp_congr_left (above_iff_of_passive passive)

/-- The hooks whose callbacks are running are distinct, in all dispatches in progress
together. So where no callback registers hooks or replaces the registry, and predicates
make no requests, dispatches nest at most one deeper than the registry holds hooks as
the outermost one begins, and every dispatch returns. -/
theorem recursion_ends (reachable : Reachable preludes h) :
    h.session.active.Nodup
      ∧ (Passive preludes → ∀ {event next}, h.session.running = .dispatch event next →
        Undisturbed preludes h →
          (h.depth = 0 → ∀ n, Above preludes 0 n (step preludes h) →
            ((step preludes)^[n] (step preludes h)).depth ≤ h.session.hooks.length + 1)
          ∧ ∃ n ran, Above preludes h.depth n (step preludes h)
            ∧ (step preludes)^[n + 1] (step preludes h)
              = ⟨{ ((step preludes)^[n] (step preludes h)).session with
                  calls := h.session.calls
                  running := next ran }.record (.returned h.session.dispatches ran), [],
                false⟩) := by
  refine ⟨reachable.nodup_active, ?_⟩
  intro passive event next asked undisturbed
  obtain ⟨m, reached, rfl⟩ := reachable.eq_session passive
  have still := (undisturbed_iff_of_passive passive).mp undisturbed
  simp only [step_of_passive passive, iterate_of_passive passive]
  constructor
  · intro outermost n above
    have idle : m.calls = [] := List.eq_nil_of_length_eq_zero outermost
    have above' : Session.Above [] n m.step := (above_iff_of_passive passive).mp above
    exact still.length_calls_le reached asked idle above'
  · obtain ⟨n, ran, above, returned⟩ := still.returns asked
    exact ⟨n, ran, (above_iff_of_passive passive).mpr above, by rw [returned]⟩

/-- Predicates that only test. -/
def tests {σ κ : Type} : Preludes σ κ := fun _ _ => none

/-- Dispatches an event twice more. -/
def twice (event : Event) : Program Nat Unit :=
  .update (fun s c => (s + 1, c)) <| .dispatch event fun _ => .dispatch event fun _ => .done

/-- A hearing about to dispatch on a registry of two hooks that do so. -/
def recursive : Hearing Nat Unit :=
  (step tests)^[2] <| start 0 () <|
    .register false (fun _ _ c => (true, c)) twice fun _ =>
    .register false (fun _ _ c => (true, c)) twice fun _ =>
    .dispatch (.pc 0) fun _ => .done

/-- Each callback runs in the other's dispatches, but not in its own. -/
theorem recursion_ends_recursive :
    Reachable tests recursive
      ∧ Passive (@tests Nat Unit)
      ∧ recursive.session.running = .dispatch (.pc 0) (fun _ => .done)
      ∧ Undisturbed tests recursive
      ∧ (∀ n, Above tests 0 n (step tests recursive) →
        ((step tests)^[n] (step tests recursive)).depth ≤ 3)
      ∧ (∃ n, ((step tests)^[n + 1] (step tests recursive)).session.isFinished = true)
      ∧ ((step tests)^[7] (step tests recursive)).depth = 3
      ∧ ((step tests)^[60] recursive).session.state = 6 := by
  have reachable : Reachable tests recursive := ⟨0, (), _, 2, rfl⟩
  have passive : Passive (@tests Nat Unit) := fun _ _ => rfl
  have asked : recursive.session.running = .dispatch (.pc 0) fun _ => .done := rfl
  have undisturbed : Undisturbed tests recursive := by
    have steady (event : Event) : (twice event).Steady := fun _ _ => trivial
    refine (undisturbed_iff_of_passive passive).mpr (Session.undisturbed_of_steady asked ?_)
    show ∀ hook ∈ [Hook.mk 0 0 false _ twice, Hook.mk 1 1 false _ twice], hook.Steady
    simp [Hook.Steady, steady]
  obtain ⟨-, ends⟩ := recursion_ends reachable
  obtain ⟨depth, n, ran, -, returned⟩ := ends passive asked undisturbed
  refine ⟨reachable, passive, asked, undisturbed, depth rfl, ⟨n, ?_⟩, by decide,
    by decide +kernel⟩
  rw [returned]
  rfl

/-! A predicate that makes requests undoes this, though callbacks make none but to
dispatch. -/

/-- Dispatches an event. -/
def again : Program Unit Unit := .dispatch (.pc 0) fun _ => .done

/-- The predicate of the first hook runs a program before it decides, all others only
test. -/
def prompted (program : Program Unit Unit) : Preludes Unit Unit :=
  fun hook _ => if hook.id = 0 then some ⟨(), program⟩ else none

/-- A hearing about to dispatch on a registry of one hook, the callback of which
dispatches too. -/
def lone (preludes : Preludes Unit Unit) : Hearing Unit Unit :=
  step preludes <| start () () <|
    .register false (fun _ _ c => (true, c)) (fun _ => again) fun _ => again

/-- Replaces the registry by one of two hooks whose callbacks dispatch. -/
def usurp : Program Unit Unit :=
  .renew <|
    .register false (fun _ _ c => (true, c)) (fun _ => again) fun _ =>
    .register false (fun _ _ c => (true, c)) (fun _ => again) fun _ => .done

/-- What holds of a hearing whose only hook has a predicate that dispatches, after so
many steps. -/
structure Echoes (n : Nat) (h : Hearing Unit Unit) : Prop where
  running : h.session.running = again
  hooks : h.session.hooks = (lone (prompted again)).session.hooks
  calls : h.session.calls = []
  inquiries : h.inquiries.length = n
  panicked : h.panicked = false

/-- The predicate is asked once more. -/
theorem Echoes.step {n : Nat} {h : Hearing Unit Unit} (echoes : Echoes n h) :
    Echoes (n + 1) (step (prompted again) h) := by
  obtain ⟨running, hooks, calls, inquiries, panicked⟩ := echoes
  have one : h.session.hooks = [⟨0, 0, false, fun _ _ c => (true, c), fun _ => again⟩] := hooks
  have asks : Hearing.step (prompted again) h
      = dispatch (prompted again) h (.pc 0) fun _ => .done := by
    simp only [Hearing.step, panicked, running, again, Bool.false_eq_true, if_false]
  rw [asks, dispatch, one]
  exact ⟨rfl, hooks, calls, congrArg (· + 1) inquiries, rfl⟩

theorem echoes_iterate (n : Nat) :
    Echoes n ((Hearing.step (prompted again))^[n] (lone (prompted again))) := by
  induction n with
  | zero => exact ⟨rfl, rfl, rfl, rfl, rfl⟩
  | succ n ih =>
    rw [Function.iterate_succ_apply']
    exact ih.step

/-- If predicates make requests, dispatches need not end. The registry holds one hook,
and its callback neither registers hooks nor replaces the registry. With a predicate
that dispatches, dispatches nest ever deeper and none returns. With a predicate that
replaces the registry they nest four deep, where one hook allows for two, and one that
cancels the hook panics. -/
theorem recursion_endless :
    (∀ preludes, Reachable preludes (lone preludes)
      ∧ (lone preludes).session.running = .dispatch (.pc 0) (fun _ => .done)
      ∧ (lone preludes).depth = 0
      ∧ (lone preludes).session.hooks.length = 1
      ∧ ∀ hook ∈ (lone preludes).session.hooks, hook.Steady)
    ∧ (∀ n, ((step (prompted again))^[n] (lone (prompted again))).depth = n)
    ∧ ((step (prompted usurp))^[12] (lone (prompted usurp))).depth = 4
    ∧ ((step (prompted (.cancel 0 fun _ => .done)))^[2]
        (lone (prompted (.cancel 0 fun _ => .done)))).panicked = true := by
  refine ⟨fun preludes => ⟨⟨(), (), _, 1, rfl⟩, rfl, rfl, rfl, ?_⟩, fun n => ?_, by decide,
    by decide⟩
  · intro hook held
    rw [List.mem_singleton.mp held]
    exact fun _ _ => trivial
  · have echoes := echoes_iterate n
    rw [depth, echoes.calls, echoes.inquiries, List.length_nil, Nat.zero_add]

end Hearing

end Unwind
