/-
Unwind.Proofs.Isolation — registries do not get into each other's way.

Every registry counts its cookies from zero. So a handle that outlives its
registry, or is used while a dispatch on the old registry is still in progress,
has the cookie of some hook of the new one. What keeps them apart is that a
session knows of every hook which registry it was registered with.

  §1 Handles    — what a step that cancels a hook leaves as it is
                  (`Cancels.spares`).
  §2 Dispatches — a dispatch has to do with the hooks of one registry
                  (`Reachable.owned`), which need not be the current one.
  §3 Registries — `registries_isolated`: both, for every session that can come
                  about.
-/
import Unwind.Proofs.Enrolment
import Unwind.Proofs.OneShot

namespace Unwind.Session

variable {σ κ : Type} {m m' m₁ : Session σ κ}

/-! ## §1 Handles -/

/-- All that changes of the books is the list of hooks of one registry, which
may become shorter, and whether one hook is live. -/
structure Spares (r hook : Nat) (m m' : Session σ κ) : Prop where
  /-- Every other registry keeps its hooks, their order and its next cookie. -/
  others : ∀ r' ≠ r, m'.registry r' = m.registry r'
  own : (m'.registry r).hooks.Sublist (m.registry r).hooks
  nextCookie : (m'.registry r).nextCookie = (m.registry r).nextCookie
  /-- Every other hook is live if and only if it was. -/
  live : ∀ h ≠ hook, m'.registrations[h]? = m.registrations[h]?
  /-- If the registry has ceased to exist, no list of hooks changes. -/
  ended : m.hasRegistry r = false → m'.registries = m.registries

theorem Spares.refl (r hook : Nat) (m : Session σ κ) : Spares r hook m m :=
  ⟨fun _ _ => rfl, List.Sublist.refl _, rfl, fun _ _ => rfl, fun _ => rfl⟩

/-- Nothing else counts than the books. -/
theorem Spares.of_books {r hook : Nat} (h : Spares r hook m m₁)
    (registries : m'.registries = m₁.registries)
    (registrations : m'.registrations = m₁.registrations) : Spares r hook m m' where
  others r' other := by
    rw [registry, registries, ← registry]
    exact h.others r' other
  own := by
    rw [registry, registries, ← registry]
    exact h.own
  nextCookie := by
    rw [registry, registries, ← registry]
    exact h.nextCookie
  live other ne := by rw [registrations, h.live other ne]
  ended gone := registries.trans (h.ended gone)

theorem spares_withdraw {hook : Nat} {reg : Registration}
    (known : m.registrations[hook]? = some reg) :
    Spares reg.registry hook m (m.withdraw hook reg) where
  others r' other := by rw [registry_withdraw, if_neg (mt And.left other)]
  own := by
    rw [registry_withdraw]
    split
    · exact List.filter_sublist
    · exact List.Sublist.refl _
  nextCookie := by
    rw [registry_withdraw]
    split <;> rfl
  live other ne := by rw [getElem?_registrations_withdraw known, if_neg ne]
  ended gone := by rw [withdraw, if_neg (Bool.eq_false_iff.mp gone)]

/-- To cancel a hook is a matter of the registry that it was registered with. -/
theorem spares_cancel {hook : Nat} {reg : Registration}
    (known : m.registrations[hook]? = some reg) :
    Spares reg.registry hook m (m.cancel hook).2 := by
  by_cases live : reg.live = true
  · rw [cancel_of_live known live]
    exact (spares_withdraw known).of_books rfl rfl
  · have dead : m.isLive hook = false := by
      rw [isLive, known]
      exact Bool.eq_false_iff.mpr live
    rw [cancel_of_not_live dead]
    exact (Spares.refl _ _ m).of_books rfl rfl

/-- So it is when a step does it, on request or because the hook is `once`. -/
theorem Cancels.spares {hook : Nat} (h : m.Cancels hook) {reg : Registration}
    (known : m.registrations[hook]? = some reg) : Spares reg.registry hook m m.step := by
  cases h with
  | request asked =>
    rw [step_cancel asked]
    exact (spares_cancel known).of_books rfl rfl
  | turn comes may once same =>
    subst same
    rw [comes.step_once may once]
    exact (spares_cancel known).of_books rfl rfl

/-! ## §2 Dispatches -/

/-- As a dispatch begins it is told which registry it is on. That is the current
one, and the dispatch has a new number. -/
theorem Move.dispatched (h : Move m m') {d r : Nat} {event : Event}
    (told : .dispatched d r event ∈ news m m') :
    d = m.dispatches ∧ r = m.current ∧ m'.dispatches = m.dispatches + 1 := by
  obtain ⟨os, added, effect⟩ := h.effect
  rw [news_eq added] at told
  cases effect with
  | request idle calls dispatches outside => cases outside _ told
  | dispatch asked =>
    rcases mem_opening.mp told with same | ⟨verdict, -, absurd⟩
    · cases same
      exact ⟨rfl, rfl, rfl⟩
    · cases absurd
  | start done calls active turn may begun body dispatches retired =>
    rcases List.mem_append.mp told with before | now
    · cases (retired _ before).1
    · cases List.mem_singleton.mp now
  | finish | skip | leave => cases List.mem_singleton.mp told

theorem Move.dispatches_le (h : Move m m') : m.dispatches ≤ m'.dispatches := by
  rcases h.calls with ⟨same, -⟩ | ⟨more, -⟩
  · exact Nat.le_of_eq same.symm
  · exact more ▸ Nat.le_succ _

/-- Every dispatch is on one registry, and what it starts has been registered
there. -/
structure Owned (m : Session σ κ) : Prop where
  begun : ∀ call ∈ m.calls, ∃ event, .dispatched call.id call.registry event ∈ m.history.toList
  pending : ∀ call ∈ m.calls, ∀ hook ∈ call.pending,
    ∃ live, m.registrations[hook.id]? = some ⟨call.registry, hook.cookie, live⟩
  fresh : ∀ {d r event}, .dispatched d r event ∈ m.history.toList → d < m.dispatches
  single : ∀ {d r r' event event'}, .dispatched d r event ∈ m.history.toList →
    .dispatched d r' event' ∈ m.history.toList → r' = r
  started : ∀ {d h}, .started d h ∈ m.history.toList → ∃ r event cookie live,
    .dispatched d r event ∈ m.history.toList ∧ m.registrations[h]? = some ⟨r, cookie, live⟩

theorem Move.owned (h : Move m m') (reachable : Reachable m) (owned : Owned m) : Owned m' where
  begun call' there := by
    rw [h.told]
    rcases h.call there with ⟨call, before, id, home, -⟩ | ⟨home, -, began⟩
    · obtain ⟨event, began⟩ := owned.begun call before
      rw [id, home]
      exact ⟨event, List.mem_append_left _ began⟩
    · rw [home]
      exact ⟨_, List.mem_append_right _ began⟩
  pending call' there hook waiting := by
    rcases h.call there with ⟨call, before, -, home, part⟩ | ⟨home, held, -⟩
    · obtain ⟨live, known⟩ := owned.pending call before hook (part waiting)
      rw [home]
      exact h.registered known
    · obtain ⟨live, known⟩ := reachable.registered m.current hook (held hook waiting).1
      rw [home]
      exact h.registered known
  fresh {d r event} told := by
    rw [h.told] at told
    rcases List.mem_append.mp told with before | now
    · exact Nat.lt_of_lt_of_le (owned.fresh before) h.dispatches_le
    · obtain ⟨rfl, -, more⟩ := h.dispatched now
      exact more ▸ Nat.lt_succ_self _
  single {d r r' event event'} told told' := by
    rw [h.told] at told told'
    rcases List.mem_append.mp told with before | now <;>
      rcases List.mem_append.mp told' with before' | now'
    · exact owned.single before before'
    · exact absurd (h.dispatched now').1 (Nat.ne_of_lt (owned.fresh before))
    · exact absurd (h.dispatched now).1 (Nat.ne_of_lt (owned.fresh before'))
    · rw [(h.dispatched now).2.1, (h.dispatched now').2.1]
  started {d id} told := by
    rw [h.told] at told ⊢
    rcases List.mem_append.mp told with before | now
    · obtain ⟨r, event, cookie, live, began, known⟩ := owned.started before
      obtain ⟨live, known⟩ := h.registered known
      exact ⟨r, event, cookie, live, List.mem_append_left _ began, known⟩
    · obtain ⟨call, outer, turn, pending, comes, -, rfl, rfl⟩ := h.started now
      obtain ⟨there, waiting⟩ := comes.mem
      obtain ⟨event, began⟩ := owned.begun call there
      obtain ⟨live, known⟩ := owned.pending call there turn waiting
      obtain ⟨live, known⟩ := h.registered known
      exact ⟨_, event, _, live, List.mem_append_left _ began, known⟩

theorem Reachable.owned (h : Reachable m) : Owned m := by
  obtain ⟨state, shared, program, n, rfl⟩ := h
  induction n with
  | zero => constructor <;> simp [start]
  | succ n ih =>
    rw [Function.iterate_succ_apply']
    exact (move_step _).owned ⟨state, shared, program, n, rfl⟩ ih

/-! ## §3 Registries -/

/-- What a dispatch on a registry has started. -/
structure KeepsTo (d r : Nat) (m : Session σ κ) : Prop where
  own : ∀ hook, .started d hook ∈ m.history.toList → hook ∈ (m.enrolled r).map Handle.hook
  foreign : ∀ r' ≠ r, ∀ handle ∈ m.enrolled r', .started d handle.hook ∉ m.history.toList

theorem Reachable.keepsTo (h : Reachable m) {d r : Nat} {event : Event}
    (began : .dispatched d r event ∈ m.history.toList) : KeepsTo d r m := by
  have home {hook : Nat} (started : .started d hook ∈ m.history.toList) :
      ∃ cookie live, m.registrations[hook]? = some ⟨r, cookie, live⟩ := by
    obtain ⟨r', event', cookie, live, began', known⟩ := h.owned.started started
    rw [h.owned.single began began'] at known
    exact ⟨cookie, live, known⟩
  constructor
  · intro hook started
    obtain ⟨cookie, live, known⟩ := home started
    exact List.mem_map.mpr ⟨⟨hook, cookie⟩, ((h.enrolment r).known _).mpr ⟨live, known⟩, rfl⟩
  · intro r' other handle issued started
    obtain ⟨cookie, live, known⟩ := home started
    rw [(h.enrolment r').isLive issued] at known
    exact other (congrArg Registration.registry (Option.some.inj known))

/-- **Registries do not get into each other's way**, however often they are
replaced and whatever is still in progress on the old ones. Cancelling a hook
through its handle is a matter of the registry that issued the handle. Every
callback is started by a dispatch on the registry that its hook was registered
with, and what is yet to have its turn in a dispatch has been registered there
as well. -/
theorem registries_isolated (reachable : m.Reachable) :
    (∀ r, ∀ handle ∈ m.enrolled r, m.Cancels handle.hook → Spares r handle.hook m m.step)
    ∧ (∀ d r event, .dispatched d r event ∈ m.history.toList → KeepsTo d r m)
    ∧ (∀ d hook, .started d hook ∈ m.history.toList →
        ∃ r event, .dispatched d r event ∈ m.history.toList)
    ∧ ∀ call ∈ m.calls, (∃ event, .dispatched call.id call.registry event ∈ m.history.toList)
        ∧ ∀ hook ∈ call.pending, hook.handle ∈ m.enrolled call.registry := by
  refine ⟨?_, fun d r event => reachable.keepsTo, ?_, ?_⟩
  · intro r handle issued cancels
    exact cancels.spares ((reachable.enrolment r).isLive issued)
  · intro d hook started
    obtain ⟨r, event, -, -, began, -⟩ := reachable.owned.started started
    exact ⟨r, event, began⟩
  · intro call there
    refine ⟨reachable.owned.begun call there, ?_⟩
    intro hook waiting
    exact ((reachable.enrolment call.registry).known _).mpr
      (reachable.owned.pending call there hook waiting)

/-- A session in which a callback has replaced the registry and registered a hook
with the new one. Now it is about to cancel its own hook, which has the same
cookie as the new one; the turn of another hook of the old registry is still to
come. That one is cancelled in the end. -/
def replacing : Session Nat Unit :=
  step^[6] <| start 0 () <|
    .register false (fun _ _ c => (true, c))
      (fun event => .renew <| .register false (fun _ _ c => (true, c)) (fun _ => .done) fun _ =>
        .cancel 0 fun _ => .dispatch event fun _ => .done) fun _ =>
    .register false (fun _ _ c => (true, c)) (fun _ => .update (fun s c => (s + 1, c)) .done)
      fun _ =>
    .dispatch (.pc 0) fun _ => .cancel 1 fun _ => .done

/-- The new hook is left alone. The dispatch goes on with the hook of the old
registry, and the one that the callback makes runs the hook of the new one. When
the other hook is cancelled, the old registry does not exist any more. -/
theorem registries_isolated_replacing :
    replacing.Reachable
      ∧ replacing.Cancels 0 ∧ ⟨0, 0⟩ ∈ replacing.enrolled 0 ∧ ⟨2, 0⟩ ∈ replacing.enrolled 1
      ∧ replacing.step.registry 1 = replacing.registry 1
      ∧ (replacing.registry 1).hooks.map Hook.handle = [⟨2, 0⟩]
      ∧ (replacing.step.registry 0).hooks.map Hook.handle = [⟨1, 1⟩]
      ∧ KeepsTo 0 0 (step^[20] replacing) ∧ KeepsTo 1 1 (step^[20] replacing)
      ∧ .started 0 1 ∈ (step^[20] replacing).history.toList
      ∧ .started 1 2 ∈ (step^[20] replacing).history.toList
      ∧ (step^[10] replacing).isLive 1 = true
      ∧ (step^[10] replacing).step.registries = (step^[10] replacing).registries := by
  have reachable : replacing.Reachable := ⟨0, (), _, 6, rfl⟩
  obtain ⟨spares, -⟩ := registries_isolated reachable
  obtain ⟨late, -⟩ := registries_isolated (reachable.iterate 10)
  obtain ⟨-, keepsTo, -⟩ := registries_isolated (reachable.iterate 20)
  have cancels : replacing.Cancels 0 := .request rfl
  have issued : ⟨0, 0⟩ ∈ replacing.enrolled 0 := by decide
  exact ⟨reachable, cancels, issued, by decide, (spares 0 _ issued cancels).others 1 (by decide),
    rfl, rfl, keepsTo 0 0 (.pc 0) (by decide), keepsTo 1 1 (.pc 0) (by decide), by decide,
    by decide, by decide, (late 0 ⟨1, 1⟩ (by decide) (.request rfl)).ended (by decide)⟩

end Unwind.Session
