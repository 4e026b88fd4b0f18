/-
Unwind.Proofs.Cookies — what a registry removes when a hook is cancelled.

A registry removes what it holds under the cookie of the hook. Cookies count the
registrations with the registry, in words of 32 bits. So two hooks of a registry
have the same cookie if a multiple of 2³² registrations lies between them, and
then cancelling one removes the other as well.

  §1 Ordinals — cookies are ordinals modulo 2³² (`Enrolment.cookie_eq_iff`).
  §2 Removal  — `cancel_removes_congruent`: what is removed, and that it is the
                hook alone as long as there have been 2³² registrations at most.
  §3 Wrapping — `cancel_removes_another`: a session in which it is not.
-/
import Unwind.Proofs.Enrolment
import Unwind.Proofs.OneShot

namespace Unwind.Session

variable {σ κ : Type} {m : Session σ κ} {r : Nat} {handle : Handle}

/-! ## §1 Ordinals -/

/-- How many registrations with a registry there had been before one of them. -/
def ordinal (m : Session σ κ) (r : Nat) (handle : Handle) : Nat := (m.enrolled r).idxOf handle

theorem Enrolment.cookie_eq (h : Enrolment m r) (issued : handle ∈ m.enrolled r) :
    handle.cookie = UInt32.ofNat (m.ordinal r handle) := by
  have bound : m.ordinal r handle < (m.enrolled r).length := List.idxOf_lt_length_of_mem issued
  have listed : (m.enrolled r)[m.ordinal r handle]? = some handle := by
    rw [List.getElem?_eq_getElem bound]
    exact congrArg some (List.getElem_idxOf bound)
  have same : ((m.enrolled r).map Handle.cookie)[m.ordinal r handle]?
      = ((List.range (m.enrolled r).length).map UInt32.ofNat)[m.ordinal r handle]? := by
    rw [h.cookies]
  rw [List.getElem?_map, List.getElem?_map, listed, List.getElem?_range bound] at same
  exact Option.some.inj same

/-- Cookies are ordinals modulo 2³². -/
theorem Enrolment.cookie_eq_iff (h : Enrolment m r) (issued : handle ∈ m.enrolled r)
    {other : Handle} (issued' : other ∈ m.enrolled r) :
    other.cookie = handle.cookie
      ↔ m.ordinal r other % 2 ^ 32 = m.ordinal r handle % 2 ^ 32 := by
  rw [h.cookie_eq issued, h.cookie_eq issued', ← UInt32.toNat_inj, UInt32.toNat_ofNat',
    UInt32.toNat_ofNat']

/-! ## §2 Removal -/

theorem Enrolment.mem_of_held (h : Enrolment m r) {hook : Hook σ κ}
    (held : hook ∈ (m.registry r).hooks) : hook.handle ∈ m.enrolled r :=
  h.held.subset (List.mem_map_of_mem held)

/-- Cancelling a hook through its handle, while the registry exists. -/
theorem Enrolment.registry_cancel (h : Enrolment m r) (existing : m.hasRegistry r = true)
    (issued : handle ∈ m.enrolled r) (live : m.isLive handle.hook = true) :
    (m.cancel handle.hook).2.registry r = (m.registry r).remove handle.cookie := by
  have known := h.isLive issued
  rw [live] at known
  rw [cancel_of_live known rfl, registry_record, registry_withdraw, if_pos ⟨rfl, existing⟩]

/-- The hooks that stay are those that do not have its cookie, however that is put. -/
theorem Enrolment.hooks_cancel (h : Enrolment m r) (existing : m.hasRegistry r = true)
    (issued : handle ∈ m.enrolled r) (live : m.isLive handle.hook = true)
    {gone : Hook σ κ → Prop} [DecidablePred gone]
    (same : ∀ hook ∈ (m.registry r).hooks, hook.cookie = handle.cookie ↔ gone hook) :
    ((m.cancel handle.hook).2.registry r).hooks
      = (m.registry r).hooks.filter (fun hook => ¬ gone hook) := by
  rw [h.registry_cancel existing issued live, Registry.remove]
  refine List.filter_congr ?_
  intro hook held
  rw [Bool.eq_iff_iff, bne_iff_ne, decide_eq_true_iff]
  exact not_congr (same hook held)

/-- **What cancelling a hook removes**: of the hooks that the registry holds,
those whose ordinals are congruent to that of the hook modulo 2³². The others
stay, in their order. With at most 2³² registrations that is the hook itself,
which is held, and no other; and whatever of the registry is still live after
that is still held. -/
theorem cancel_removes_congruent (reachable : m.Reachable) (existing : m.hasRegistry r = true)
    (issued : handle ∈ m.enrolled r) (live : m.isLive handle.hook = true) :
    let m' := (m.cancel handle.hook).2
    (m.cancel handle.hook).1 = true
    ∧ (m'.registry r).hooks = (m.registry r).hooks.filter (fun hook =>
        m.ordinal r hook.handle % 2 ^ 32 ≠ m.ordinal r handle % 2 ^ 32)
    ∧ ((m.enrolled r).length ≤ 2 ^ 32 →
        handle ∈ (m.registry r).hooks.map Hook.handle
        ∧ (m'.registry r).hooks = (m.registry r).hooks.filter (fun hook => hook.id ≠ handle.hook)
        ∧ ∀ other ∈ m.enrolled r, m'.isLive other.hook = true →
            other ∈ (m'.registry r).hooks.map Hook.handle) := by
  intro m'
  have books := reachable.enrolment r
  have known := books.isLive issued
  rw [live] at known
  refine ⟨(cancel_known known).1, ?_, ?_⟩
  · exact books.hooks_cancel existing issued live fun hook held =>
      books.cookie_eq_iff issued (books.mem_of_held held)
  · intro few
    refine ⟨?_, ?_, ?_⟩
    · rw [books.live existing few]
      exact List.mem_filter.mpr ⟨issued, live⟩
    · exact books.hooks_cancel existing issued live fun hook held =>
        books.cookie_iff known rfl few (books.mem_of_held held)
    · have cancelled : m' = (m.withdraw handle.hook _).record _ :=
        congrArg Prod.snd (cancel_of_live known rfl)
      have after : Enrolment m' r := cancelled ▸ books.withdraw_here known rfl
      have enrolled : m'.enrolled r = m.enrolled r := cancelled ▸ enrolled_withdraw ..
      have still : m'.hasRegistry r = true := (hasRegistry_cancel m handle.hook r).trans existing
      intro other mem alive
      rw [after.live still (enrolled ▸ few), enrolled]
      exact List.mem_filter.mpr ⟨mem, alive⟩

theorem cancel_removes_congruent_registering :
    registering.Reachable ∧ registering.hasRegistry 0 = true
      ∧ ⟨2, 2⟩ ∈ registering.enrolled 0 ∧ registering.isLive 2 = true
      ∧ (registering.enrolled 0).length ≤ 2 ^ 32
      ∧ (registering.registry 0).hooks.map Hook.handle = [⟨2, 2⟩, ⟨3, 3⟩]
      ∧ ⟨2, 2⟩ ∈ (registering.registry 0).hooks.map Hook.handle
      ∧ ((registering.cancel 2).2.registry 0).hooks
        = (registering.registry 0).hooks.filter (fun hook => hook.id ≠ 2)
      ∧ ⟨3, 3⟩ ∈ ((registering.cancel 2).2.registry 0).hooks.map Hook.handle := by
  have reachable : registering.Reachable := ⟨0, (), _, 7, rfl⟩
  have issued : ⟨2, 2⟩ ∈ registering.enrolled 0 := by decide
  have few : (registering.enrolled 0).length ≤ 2 ^ 32 := by decide
  obtain ⟨-, -, alone⟩ := cancel_removes_congruent reachable rfl issued rfl
  obtain ⟨held, removed, others⟩ := alone few
  exact ⟨reachable, rfl, issued, rfl, few, rfl, held, removed, others ⟨3, 3⟩ (by decide) rfl⟩

/-! ## §3 Wrapping -/

/-- Registers hooks and cancels each of them at once, so many. -/
def spend : Nat → Program Unit Unit → Program Unit Unit
  | 0, next => next
  | n + 1, next =>
    .register false (fun _ _ c => (true, c)) (fun _ => .done) fun handle =>
      .cancel handle.hook fun _ => spend n next

/-- A registry without a dispatch that holds only the first hook registered with
it, of `k` ones. -/
structure Spent (first : Hook Unit Unit) (k : Nat) (next : Program Unit Unit)
    (m : Session Unit Unit) : Prop where
  running : m.running = next
  only : m.registries.size = 1
  registry : m.registry 0 = ⟨.ofNat k, [first]⟩
  size : m.registrations.size = k
  live : m.isLive first.id = true

variable {first : Hook Unit Unit} {k n : Nat} {next : Program Unit Unit} {m : Session Unit Unit}

theorem hasRegistry_of_only (only : m.registries.size = 1) : m.hasRegistry 0 = true := by
  simp [hasRegistry, current, only]

theorem Spent.current (h : Spent first k next m) : m.current = 0 := by
  rw [Session.current, h.only]

/-- A hook that is registered gets the next cookie, and is held besides. -/
theorem Spent.register {once : Bool} {accepts : Predicate Unit} {body : Event → Program Unit Unit}
    {next : Handle → Program Unit Unit}
    (h : Spent first k (.register once accepts body next) m) :
    let hook : Hook Unit Unit := ⟨k, .ofNat k, once, accepts, body⟩
    m.step.running = next hook.handle
      ∧ m.step.registries.size = 1
      ∧ m.step.registry 0 = ⟨.ofNat (k + 1), [first, hook]⟩
      ∧ m.step.registrations = m.registrations.push ⟨0, .ofNat k, true⟩
      ∧ m.step.isLive first.id = true := by
  have new : m.newHook once accepts body = ⟨k, .ofNat k, once, accepts, body⟩ := by
    rw [newHook, h.current, h.registry, h.size]
  have pos : 0 < m.registries.size := h.only ▸ Nat.one_pos
  have step := step_register h.running
  have registry : m.step.registry 0 = (m.registry 0).add (m.newHook once accepts body) := by
    rw [step]
    exact (registry_register once accepts body pos 0).trans (if_pos h.current.symm)
  refine ⟨?_, ?_, ?_, ?_, ?_⟩
  · rw [step]
    exact congrArg (fun hook : Hook Unit Unit => next hook.handle) new
  · rw [step]
    exact Array.size_modify.trans h.only
  · rw [registry, new, h.registry, UInt32.ofNat_add]
    rfl
  · rw [step]
    show m.registrations.push ⟨m.current, (m.registry m.current).nextCookie, true⟩ = _
    rw [h.current, h.registry]
  · rw [step]
    show (m.register once accepts body).2.isLive first.id = true
    rw [isLive_register, h.live, Bool.true_or]

theorem Spent.step_twice (h : Spent first k (spend (n + 1) next) m)
    (fresh : first.cookie ≠ .ofNat k) : Spent first (k + 1) (spend n next) (step^[2] m) := by
  obtain ⟨asked, only, registry, registrations, live⟩ := h.register
  have known : m.step.registrations[k]? = some ⟨0, .ofNat k, true⟩ := by
    rw [registrations, ← h.size]
    exact Array.getElem?_push_size
  have older : first.id ≠ k := by
    rintro rfl
    have gone := h.live
    rw [isLive, Array.getElem?_eq_none (Nat.le_of_eq h.size)] at gone
    cases gone
  have existing : m.step.hasRegistry 0 = true := hasRegistry_of_only only
  have step : step^[2] m = { ((m.step.withdraw k ⟨0, .ofNat k, true⟩).record
      (.cancelled k (some (.ofNat k)))) with running := spend n next } := by
    show m.step.step = _
    rw [step_cancel asked]
    show { (m.step.cancel k).2 with running := spend n next } = _
    rw [cancel_of_live known rfl]
  rw [step]
  constructor
  case running => rfl
  case only => exact (size_registries_withdraw k _).trans only
  case registry =>
    show (m.step.withdraw k ⟨0, .ofNat k, true⟩).registry 0 = _
    rw [registry_withdraw, if_pos ⟨rfl, existing⟩, registry, Registry.remove]
    simp [fresh]
  case size =>
    show (m.step.registrations.setIfInBounds k _).size = k + 1
    rw [Array.size_setIfInBounds, registrations, Array.size_push, h.size]
  case live =>
    show (m.step.withdraw k ⟨0, .ofNat k, true⟩).isLive first.id = true
    rw [isLive_withdraw known, live, decide_eq_true older, Bool.true_and]

/-- By induction on the cookies to spend, none of which is that of the first hook. -/
theorem Spent.iterate (h : Spent first k (spend n next) m)
    (fresh : ∀ i < n, first.cookie ≠ .ofNat (k + i)) :
    Spent first (k + n) next (step^[2 * n] m) := by
  induction n generalizing k m with
  | zero => exact h
  | succ n ih =>
    have later := ih (h.step_twice (fresh 0 (Nat.succ_pos n))) fun i hi => by
      rw [Nat.add_right_comm]
      exact fresh (i + 1) (Nat.succ_lt_succ hi)
    rw [Nat.mul_succ, Function.iterate_add_apply, ← Nat.add_assoc, Nat.add_right_comm]
    exact later

/-- A session that registers a hook, then `n` others, each of which it cancels, and
then one more. -/
def outliving (n : Nat) : Session Unit Unit :=
  start () () <|
    .register false (fun _ _ c => (true, c)) (fun _ => .done) fun _ =>
    spend n <|
    .register false (fun _ _ c => (true, c)) (fun _ => .done) fun _ => .done

/-- As the last of them has just been registered, the registry holds it and the
first one. -/
theorem held_outliving (few : n < 2 ^ 32) :
    let m := step^[2 * n + 2] (outliving n)
    m.registries.size = 1
      ∧ (m.registry 0).hooks.map Hook.handle = [⟨0, 0⟩, ⟨n + 1, .ofNat (n + 1)⟩]
      ∧ m.registrations[n + 1]? = some ⟨0, .ofNat (n + 1), true⟩
      ∧ m.isLive 0 = true := by
  intro m
  let first : Hook Unit Unit := ⟨0, 0, false, fun _ _ c => (true, c), fun _ => .done⟩
  have begun : Spent first 1 (spend n _) (outliving n).step := ⟨rfl, rfl, rfl, rfl, rfl⟩
  have fresh : ∀ i < n, first.cookie ≠ .ofNat (1 + i) := by
    intro i hi same
    have same := congrArg UInt32.toNat same
    rw [UInt32.toNat_ofNat_of_lt' (by rw [UInt32.size]; omega)] at same
    exact absurd same.symm (by simp [first])
  have spent := begun.iterate fresh
  rw [Nat.add_comm] at spent
  obtain ⟨-, only, registry, registrations, live⟩ := spent.register
  have last : m = (step^[2 * n] (outliving n).step).step := by
    rw [← Function.iterate_succ_apply' step, ← Function.iterate_succ_apply step]
  rw [last, registry, registrations]
  refine ⟨only, rfl, ?_, live⟩
  rw [← spent.size]
  exact Array.getElem?_push_size

/-- A session whose registry has seen 2³² registrations since it saw the first one,
and holds only the first hook and the last one. -/
def outlived : Session Unit Unit := step^[2 * (2 ^ 32 - 1) + 2] (outliving (2 ^ 32 - 1))

/-- **Cancelling a hook can remove another one**, which is live and goes on to be.
Both have the same cookie, as 2³² registrations lie between theirs. -/
theorem cancel_removes_another :
    outlived.Reachable ∧ outlived.hasRegistry 0 = true
      ∧ ⟨0, 0⟩ ∈ outlived.enrolled 0 ∧ ⟨2 ^ 32, 0⟩ ∈ outlived.enrolled 0
      ∧ outlived.isLive 0 = true ∧ outlived.isLive (2 ^ 32) = true
      ∧ (outlived.registry 0).hooks.map Hook.handle = [⟨0, 0⟩, ⟨2 ^ 32, 0⟩]
      ∧ ((outlived.cancel (2 ^ 32)).2.registry 0).hooks = []
      ∧ (outlived.cancel (2 ^ 32)).2.isLive 0 = true := by
  -- the number is put out of sight, so that nothing sets out to run the session
  obtain ⟨n, wraps, same⟩ : ∃ n, n + 1 = 2 ^ 32 ∧ outlived = step^[2 * n + 2] (outliving n) :=
    ⟨2 ^ 32 - 1, by decide, by rw [outlived]⟩
  obtain ⟨only, held, known, live⟩ := held_outliving (n := n) (by omega)
  have zero : UInt32.ofNat (2 ^ 32) = 0 := by decide
  rw [← same] at only
  rw [← same, wraps, zero] at held known
  rw [← same] at live
  have reachable : outlived.Reachable := ⟨(), (), _, _, same.symm⟩
  have existing : outlived.hasRegistry 0 = true := hasRegistry_of_only only
  have books := reachable.enrolment 0
  have issued : ⟨2 ^ 32, 0⟩ ∈ outlived.enrolled 0 := (books.known _).mpr ⟨true, known⟩
  have alive : outlived.isLive (2 ^ 32) = true := isLive_iff.mpr ⟨_, known, rfl⟩
  have first : ⟨0, 0⟩ ∈ outlived.enrolled 0 := books.held.subset (held ▸ List.mem_cons_self)
  refine ⟨reachable, existing, first, issued, live, alive, held, ?_, ?_⟩
  · rw [books.registry_cancel existing issued alive, Registry.remove, List.filter_eq_nil_iff]
    have zeros : ∀ handle ∈ (outlived.registry 0).hooks.map Hook.handle, handle.cookie = 0 := by
      rw [held]
      simp
    intro hook there
    rw [bne_iff_ne, not_not]
    exact zeros hook.handle (List.mem_map_of_mem there)
  · rw [(cancel_answers outlived (2 ^ 32)).2.1, live]
    rfl

end Unwind.Session
