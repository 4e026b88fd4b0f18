/-
Unwind.Proofs.Recursion — dispatches that callbacks begin come to an end.

Callbacks may dispatch as often as they like, but each body is a finite tree of
requests, and a hook whose callback is running is not started once more. So a
dispatch can only fail to return if further hooks keep being registered, or if a
predicate dispatches. Predicates do not, in a session; `Proofs.Hearing` is about
those that do.

  §1 Turns     — a dispatch returns, or it has started a callback that never comes
                 back (`returns_or_hangs`).
  §2 Recursion — where nothing grows every body comes back (`comesBack`), and so
                 every dispatch returns (`Undisturbed.returns`).
  §3 Steady callbacks — hooks that neither register hooks nor replace the registry
                 let nothing grow (`undisturbed_of_steady`).
  §4 Depth — how deep they nest (`Undisturbed.length_calls_le`).
-/
import Mathlib.Data.Finset.Card
import Unwind.Proofs.Nesting

namespace Unwind

variable {σ κ : Type}

/-- A program that neither registers hooks nor replaces the registry, whatever it
is answered. -/
def Program.Steady : Program σ κ → Prop
  | done => True
  | inspect next => ∀ state shared, (next state shared).Steady
  | update _ next | report _ next => next.Steady
  | cancel _ next | isLive _ next => ∀ answer, (next answer).Steady
  | size next | dispatch _ next => ∀ count, (next count).Steady
  | register .. | renew _ => False

theorem Program.Steady.grows {p : Program σ κ} (steady : p.Steady) : p.grows = false := by
  cases p with
  | register | renew => exact steady.elim
  | _ => rfl

/-- A hook whose callback is such a program. -/
def Hook.Steady (hook : Hook σ κ) : Prop := ∀ event, (hook.body event).Steady

namespace Session

variable {m m' : Session σ κ}

/-! ## §1 Turns -/

/-- For some steps there are more dispatches in progress than these. -/
def Above (outer : List (Call σ κ)) (n : Nat) (m : Session σ κ) : Prop :=
  ∀ k ≤ n, outer.length < (step^[k] m).calls.length

variable {call : Call σ κ} {outer : List (Call σ κ)} {hook : Hook σ κ}
  {pending : List (Hook σ κ)} {ran : Nat}

theorem above_zero (calls : m.calls = call :: outer) : Above outer 0 m := by
  intro k hk
  rw [Nat.le_zero.mp hk, Function.iterate_zero_apply, calls, List.length_cons]
  exact Nat.lt_succ_self _

theorem Above.succ {n : Nat} (h : Above outer n m)
    (calls : (step^[n + 1] m).calls = call :: outer) : Above outer (n + 1) m := by
  intro k hk
  rcases Nat.lt_or_eq_of_le hk with before | rfl
  · exact h k (Nat.le_of_lt_succ before)
  · rw [calls, List.length_cons]
    exact Nat.lt_succ_self _

theorem Above.trans {n j : Nat} (h : Above outer n m) (rest : Above outer j (step^[n] m)) :
    Above outer (j + n) m := by
  intro k hk
  rcases Nat.le_total k n with before | later
  · exact h k before
  · obtain ⟨i, rfl⟩ := Nat.exists_eq_add_of_le' later
    rw [Function.iterate_add_apply]
    exact rest i (Nat.le_of_add_le_add_right hk)

/-- While a body runs, the dispatch that runs it is in progress. -/
theorem above_of_away (calls : m.calls = call :: outer) {n : Nat}
    (away : ∀ k < n, ¬ Back m.calls (step^[k] m)) : Above outer n m := by
  intro k hk
  have within : Within m.calls m.dispatches m :=
    ⟨⟨[], rfl, fun call hc => absurd hc List.not_mem_nil⟩, Nat.le_refl _⟩
  obtain ⟨there, -⟩ := within_iterate within k fun j hj => away j (Nat.lt_of_lt_of_le hj hk)
  obtain ⟨inner, split, -⟩ := there.calls
  rw [split, calls, List.length_append, List.length_cons]
  omega

/-- A callback that a dispatch has started and that never comes back. -/
structure Hangs (outer : List (Call σ κ)) (hook : Hook σ κ) (begun : Session σ κ) : Prop where
  calls : ∃ call, begun.calls = call :: outer
  active : begun.active = hook.id :: outer.filterMap Call.active
  free : hook.id ∉ outer.filterMap Call.active
  never : Diverges begun.calls begun

/-- A turn is over, or it has started a callback that never comes back. -/
theorem Waits.turn_or_hangs (waits : Waits call outer (hook :: pending) ran m) :
    ∃ n, Above outer n m
      ∧ ((∃ ran, Waits call outer pending ran (step^[n] m))
        ∨ Hangs outer hook (step^[n] m)) := by
  have here := above_zero waits.calls
  rcases waits.turn_cases with ⟨m', turn, waits', -⟩ | ⟨begun, ended, m', turn, waits', -⟩ |
    ⟨begun, starts, never, -⟩
  · obtain rfl := turn.step
    exact ⟨1, here.succ waits'.calls, .inl ⟨ran, waits'⟩⟩
  · obtain rfl := turn.step
    obtain rfl := turn.finish
    obtain ⟨n, rfl, -, away⟩ := turn.ends
    have may := (waits.mayStart_iff hook).mpr ⟨turn.live, turn.free⟩
    obtain ⟨-, calls, -⟩ := waits.tells_start may
    have body : Above outer n (step^[1] m) := above_of_away calls away
    have after : (step^[n] m.step).step = step^[n + 2] m := by
      rw [Function.iterate_succ_apply', Function.iterate_succ_apply]
    rw [after] at waits'
    exact ⟨n + 2, ((here.succ calls).trans body).succ waits'.calls, .inl ⟨_, waits'⟩⟩
  · obtain rfl := starts.step
    have may := (waits.mayStart_iff hook).mpr ⟨starts.live, starts.free⟩
    obtain ⟨-, calls, -⟩ := waits.tells_start may
    exact ⟨1, here.succ calls, .inr ⟨⟨_, calls⟩, active_cons calls, starts.free, never⟩⟩

/-- All turns are over, or one of them has started a callback that never comes
back. By induction on the hooks that await their turns. -/
theorem Waits.turns_or_hangs (waits : Waits call outer pending ran m) :
    ∃ n, Above outer n m
      ∧ ((∃ ran, Waits call outer [] ran (step^[n] m))
        ∨ ∃ hook ∈ pending, Hangs outer hook (step^[n] m)) := by
  induction pending generalizing m ran with
  | nil => exact ⟨0, above_zero waits.calls, .inl ⟨ran, waits⟩⟩
  | cons hook pending ih =>
    obtain ⟨n, above, ⟨ran', waits'⟩ | hangs⟩ := waits.turn_or_hangs
    · obtain ⟨j, further, last⟩ := ih waits'
      rw [← Function.iterate_add_apply] at last
      refine ⟨j + n, above.trans further, last.imp_right ?_⟩
      rintro ⟨hook', later, hangs⟩
      exact ⟨hook', List.mem_cons_of_mem _ later, hangs⟩
    · exact ⟨n, above, .inr ⟨hook, List.mem_cons_self, hangs⟩⟩

/-- A dispatch returns what it has run, or a callback that it has started never
comes back. -/
theorem returns_or_hangs {event : Event} {next : Nat → Program σ κ}
    (asked : m.running = .dispatch event next) :
    ∃ n, Above m.calls n m.step
      ∧ ((∃ ran, step^[n + 1] m.step
            = { step^[n] m.step with calls := m.calls, running := next ran }.record
              (.returned m.dispatches ran))
        ∨ ∃ hook ∈ m.hooks, Hangs m.calls hook (step^[n] m.step)) := by
  obtain ⟨n, above, ⟨ran, waits⟩ | ⟨hook, turn, hangs⟩⟩ := (waits_dispatch asked).turns_or_hangs
  · refine ⟨n, above, .inl ⟨ran, ?_⟩⟩
    rw [Function.iterate_succ_apply', waits.step_leave]
    rfl
  · exact ⟨n, above, .inr ⟨hook, mem_hooks_of_beginning turn, hangs⟩⟩

/-! ## §2 Recursion -/

/-- From here on nothing grows, and these are the hooks that dispatches find. -/
structure Still (ids : Finset Nat) (m : Session σ κ) : Prop where
  quiet : ∀ n, Quiet (step^[n] m)
  hooks : ∀ hook ∈ m.hooks, hook.id ∈ ids

theorem Still.iterate {ids : Finset Nat} (h : Still ids m) (n : Nat) : Still ids (step^[n] m) where
  quiet k := by
    rw [← Function.iterate_add_apply]
    exact h.quiet (k + n)
  hooks hook held := h.hooks hook (hooks_iterate_subset (fun k _ => h.quiet k) held)

/-- So nothing is told that adds to them. -/
theorem Still.grows_of_push {ids : Finset Nat} (h : Still ids m) {o : Occurrence}
    (told : m.step.history = m.history.push o) : o.grows = false := by
  have quiet := h.quiet 0
  rw [Quiet, Function.iterate_zero_apply, news_push told] at quiet
  exact quiet o (List.mem_singleton_self o)

theorem Diverges.iterate {base : List (Call σ κ)} (h : Diverges base m) (n : Nat) :
    Diverges base (step^[n] m) := by
  intro k
  rw [← Function.iterate_add_apply]
  exact h (k + n)

/-- Where nothing grows and fewer hooks than `free` are free to run, a body that
has come to this program comes back. -/
def ComesBack (ids : Finset Nat) (free : Nat) (p : Program σ κ) : Prop :=
  ∀ m : Session σ κ, m.running = p → Still ids m → (ids \ m.active.toFinset).card < free →
    ¬ Diverges m.calls m

section comesBack

variable {ids : Finset Nat} {free : Nat}

/-- It is enough that it comes back from a later moment, when no further dispatch is
in progress. -/
theorem ComesBack.of_iterate {p : Program σ κ} (h : ComesBack ids free p) (n : Nat)
    (running : (step^[n] m).running = p) (calls : (step^[n] m).calls = m.calls)
    (still : Still ids m) (few : (ids \ m.active.toFinset).card < free) :
    ¬ Diverges m.calls m := by
  intro never
  refine h _ running (still.iterate n) ?_ (calls ▸ never.iterate n)
  rwa [active, calls]

/-- It is enough that what is left comes back after a request that begins no dispatch. -/
theorem ComesBack.of_request {p : Program σ κ}
    (rest : ∀ m : Session σ κ, m.running = p →
      m.step.calls = m.calls ∧ ComesBack ids free m.step.running) : ComesBack ids free p := by
  intro m asked still few
  obtain ⟨calls, rest⟩ := rest m asked
  exact rest.of_iterate 1 rfl calls still few

/-- While a callback runs its hook is not free to run. -/
theorem Hangs.card_lt {hook : Hook σ κ} {begun : Session σ κ} (h : Hangs m.calls hook begun)
    (held : hook.id ∈ ids) :
    (ids \ begun.active.toFinset).card < (ids \ m.active.toFinset).card := by
  have free : hook.id ∈ ids \ m.active.toFinset :=
    Finset.mem_sdiff.mpr ⟨held, fun running => h.free (List.mem_toFinset.mp running)⟩
  rw [h.active, List.toFinset_cons, Finset.sdiff_insert]
  exact Finset.card_erase_lt_of_mem free

/-- A dispatch returns if all callbacks come back that it can start, and they do,
having one hook less that is free. -/
theorem comesBack_dispatch {event : Event} {next : Nat → Program σ κ}
    (bodies : ∀ p : Program σ κ, ComesBack ids free p)
    (rest : ∀ ran, ComesBack ids (free + 1) (next ran)) :
    ComesBack ids (free + 1) (.dispatch event next) := by
  intro m asked still few
  obtain ⟨n, -, ⟨ran, returned⟩ | ⟨hook, held, hangs⟩⟩ := returns_or_hangs asked
  · rw [← Function.iterate_succ_apply] at returned
    exact (rest ran).of_iterate (n + 2) (by rw [returned]; rfl) (by rw [returned]; rfl) still few
  · have fewer := hangs.card_lt (still.hooks hook held)
    rw [← Function.iterate_succ_apply] at hangs fewer
    exact absurd hangs.never (bodies _ _ rfl (still.iterate (n + 1)) (by omega))

/-- Every body comes back where nothing grows. By induction on how many hooks are
free to run, and on what is left of the body. -/
theorem comesBack (ids : Finset Nat) (free : Nat) (p : Program σ κ) : ComesBack ids free p := by
  induction free generalizing p with
  | zero => exact fun _ _ _ few => absurd few (Nat.not_lt_zero _)
  | succ free bodies =>
    induction p with
    | done => exact fun _ running _ _ never => never 0 ⟨running, rfl⟩
    | inspect next ih =>
      exact .of_request fun m asked => by simpa [step, asked] using ih m.state m.shared
    | update change next ih =>
      exact .of_request fun m asked => by simpa [step, asked] using ih
    | report reports next ih =>
      exact .of_request fun m asked => by simpa [step, asked, record] using ih
    | register once accepts body next _ _ =>
      intro m asked still
      have told := history_register (m := m) once accepts body
      cases still.grows_of_push (by rw [step_register asked, told])
    | cancel hook next ih =>
      refine .of_request fun m asked => ?_
      obtain ⟨registries, registrations, cookie, eq⟩ := cancel_eq m hook
      rw [step_cancel asked]
      exact ⟨by simp [eq], ih (m.cancel hook).1⟩
    | isLive hook next ih =>
      exact .of_request fun m asked => by simpa [step, asked] using ih (m.isLive hook)
    | size next ih =>
      exact .of_request fun m asked => by simpa [step, asked] using ih m.hooks.length
    | dispatch event next ih => exact comesBack_dispatch bodies ih
    | renew next ih =>
      intro m asked still
      have told : m.step.history = m.history.push (.renewed m.registries.size) := by
        simp [step, asked, Session.renew, record]
      cases still.grows_of_push told

end comesBack

/-- As long as a dispatch is in progress no hook is registered and no registry
replaced. -/
def Undisturbed (m : Session σ κ) : Prop :=
  ∀ n, Above m.calls n m.step → Quiet (step^[n] m.step)

/-- A dispatch that is undisturbed returns. -/
theorem Undisturbed.returns (h : Undisturbed m) {event : Event} {next : Nat → Program σ κ}
    (asked : m.running = .dispatch event next) :
    ∃ n ran, Above m.calls n m.step
      ∧ step^[n + 1] m.step
        = { step^[n] m.step with calls := m.calls, running := next ran }.record
          (.returned m.dispatches ran) := by
  obtain ⟨n, above, ⟨ran, returned⟩ | ⟨hook, held, hangs⟩⟩ := returns_or_hangs asked
  · exact ⟨n, ran, above, returned⟩
  · obtain ⟨call, calls⟩ := hangs.calls
    let begun := step^[n] m.step
    have quiet (k : Nat) : Quiet (step^[k] begun) := by
      rw [← Function.iterate_add_apply]
      exact h _ (above.trans (above_of_away calls fun j _ => hangs.never j))
    have still : Still (begun.hooks.map Hook.id).toFinset begun :=
      ⟨quiet, fun hook held => List.mem_toFinset.mpr (List.mem_map_of_mem held)⟩
    exact absurd hangs.never (comesBack _ _ _ _ rfl still (Nat.lt_succ_self _))

/-! ## §3 Steady callbacks -/

/-- What goes on in a steady program adds nothing to what can run. -/
theorem Move.quiet (h : Move m m') (steady : m.running.Steady) :
    ∀ o ∈ news m m', o.grows = false := by
  obtain ⟨os, added, effect⟩ := h.effect
  rw [news_eq added]
  intro o told
  cases effect with
  | request idle calls dispatches outside grows =>
    rw [Bool.eq_false_iff]
    intro growing
    have asks := grows o told growing
    rw [steady.grows] at asks
    cases asks
  | dispatch asked => rcases mem_opening.mp told with rfl | ⟨verdict, -, rfl⟩ <;> rfl
  | start done calls active turn may begun body dispatches retired =>
    rcases List.mem_append.mp told with before | now
    · exact (retired o before).2
    · rw [List.mem_singleton.mp now]
      rfl
  | finish | skip | leave =>
    rw [List.mem_singleton.mp told]
    rfl

variable {base : List (Call σ κ)}

/-- Dispatches in progress on top of some others that go on to steady programs, and
in which only steady hooks await their turns. -/
inductive Tame (base : List (Call σ κ)) : List (Call σ κ) → Prop
  | outermost {call : Call σ κ} (pending : ∀ hook ∈ call.pending, hook.Steady) :
      Tame base (call :: base)
  | nested {call : Call σ κ} {calls} (pending : ∀ hook ∈ call.pending, hook.Steady)
      (next : ∀ ran, (call.next ran).Steady) (rest : Tame base calls) :
      Tame base (call :: calls)

theorem Tame.steady {call : Call σ κ} {calls : List (Call σ κ)} (h : Tame base (call :: calls)) :
    ∀ hook ∈ call.pending, hook.Steady := by
  cases h with
  | outermost pending => exact pending
  | nested pending next rest => exact pending

/-- The innermost dispatch goes on. -/
theorem Tame.progress {call call' : Call σ κ} {calls : List (Call σ κ)}
    (h : Tame base (call :: calls)) (waiting : call'.pending ⊆ call.pending)
    (next : call'.next = call.next) : Tame base (call' :: calls) := by
  have steady : ∀ hook ∈ call'.pending, hook.Steady := fun hook turn => h.steady hook (waiting turn)
  cases h with
  | outermost _ => exact .outermost steady
  | nested _ next' rest => exact .nested steady (next ▸ next') rest

/-- What goes on on top of some dispatches is steady, as are all hooks that can run. -/
structure Calm (base : List (Call σ κ)) (m : Session σ κ) : Prop where
  running : m.running.Steady
  hooks : ∀ hook ∈ m.hooks, hook.Steady
  calls : Tame base m.calls

/-- What is left of a steady body is steady. -/
theorem steady_step {p : Program σ κ} (asked : m.running = p) (steady : p.Steady)
    (busy : p ≠ .done) : m.step.running.Steady := by
  cases p with
  | done => exact absurd rfl busy
  | inspect next => simpa [step, asked] using steady m.state m.shared
  | update change next =>
    simp only [step, asked]
    exact steady
  | report reports next =>
    simp only [step, asked]
    exact steady
  | register once accepts body next => exact steady.elim
  | cancel hook next => simpa [step_cancel asked] using steady (m.cancel hook).1
  | isLive hook next => simpa [step, asked] using steady (m.isLive hook)
  | size next => simpa [step, asked] using steady m.hooks.length
  | dispatch event next =>
    rw [step_dispatch asked]
    trivial
  | renew next => exact steady.elim

/-- Unless the outermost of the dispatches returns. -/
theorem Move.calm (h : Move m m') (calm : Calm base m)
    (rest : m.running ≠ .done → m'.running.Steady) (hooks : ∀ hook ∈ m'.hooks, hook.Steady)
    (above : base.length < m'.calls.length) : Calm base m' := by
  have top {call : Call σ κ} {calls : List (Call σ κ)} (eq : m.calls = call :: calls) :
      Tame base (call :: calls) := eq ▸ calm.calls
  obtain ⟨os, -, effect⟩ := h.effect
  cases effect with
  | request idle calls =>
    rw [calls] at above
    refine ⟨rest fun done => ?_, hooks, calls ▸ calm.calls⟩
    rw [idle done] at above
    exact absurd above (Nat.not_lt_zero _)
  | @dispatch event next asked =>
    have steady := calm.running
    have began : m.dispatch event next = m.step := by simp only [step, asked]
    rw [asked] at steady
    rw [began, step_dispatch asked] at hooks ⊢
    exact ⟨trivial, hooks,
      .nested (fun hook turn => calm.hooks hook (mem_hooks_of_beginning turn)) steady calm.calls⟩
  | finish done calls active =>
    exact ⟨calm.running, hooks, (top calls).progress (List.Subset.refl _) rfl⟩
  | skip done calls active turn =>
    exact ⟨calm.running, hooks, (top calls).progress (by simp [turn]) rfl⟩
  | start done calls active turn may begun body =>
    refine ⟨?_, hooks, ?_⟩
    · rw [body]
      exact (top calls).steady _ (by simp [turn]) _
    · rw [begun]
      exact (top calls).progress (by simp [turn]) rfl
  | leave done calls active turn =>
    cases top calls with
    | outermost _ => exact absurd above (Nat.lt_irrefl _)
    | nested _ next rest => exact ⟨next _, hooks, rest⟩

theorem Calm.step (h : Calm base m) (above : base.length < m.step.calls.length) :
    Calm base m.step := by
  have quiet : Quiet m := (move_step m).quiet h.running
  have hooks : ∀ hook ∈ m.step.hooks, hook.Steady :=
    fun hook held => h.hooks hook (quiet.hooks_subset held)
  exact (move_step m).calm h (steady_step rfl h.running) hooks above

theorem Calm.iterate (h : Calm base m) {n : Nat} (above : Above base n m) :
    Calm base (Session.step^[n] m) := by
  induction n with
  | zero => exact h
  | succ n ih =>
    have before := ih fun k hk => above k (Nat.le_succ_of_le hk)
    have now := above (n + 1) (Nat.le_refl _)
    rw [Function.iterate_succ_apply'] at now ⊢
    exact before.step now

/-- A dispatch is undisturbed if it finds only hooks whose callbacks neither register
hooks nor replace the registry. -/
theorem undisturbed_of_steady {event : Event} {next : Nat → Program σ κ}
    (asked : m.running = .dispatch event next) (steady : ∀ hook ∈ m.hooks, hook.Steady) :
    Undisturbed m := by
  have began : Calm m.calls m.step := by
    rw [step_dispatch asked]
    exact ⟨trivial, steady, .outermost fun hook turn => steady hook (mem_hooks_of_beginning turn)⟩
  intro n above
  exact (move_step _).quiet (began.iterate above).running

/-! ## §4 Depth -/

/-- An outermost dispatch that is undisturbed nests at most one deeper than the
registry holds hooks as it begins. -/
theorem Undisturbed.length_calls_le (h : Undisturbed m) (reachable : Reachable m) {event : Event}
    {next : Nat → Program σ κ} (asked : m.running = .dispatch event next) (idle : m.calls = [])
    {n : Nat} (above : Above [] n m.step) :
    (step^[n] m.step).calls.length ≤ m.hooks.length + 1 := by
  have confined : Confined (m.hooks.map Hook.id) (step^[n] m.step) := by
    refine (confined_dispatch asked idle).iterate fun k hk => h k ?_
    rw [idle]
    exact fun j hj => above j (by omega)
  have depth := confined.length_calls_le (reachable.step.iterate n)
  rwa [List.length_map] at depth

end Session

end Unwind
