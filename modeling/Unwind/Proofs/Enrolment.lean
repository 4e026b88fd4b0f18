/-
Unwind.Proofs.Enrolment — the books of a registry agree with each other.

A registry keeps a list of hooks and a counter of cookies; the session keeps
for each registration whether the hook is live; and there is the log. Each is
changed by other requests than the rest. What they are to agree on is the
history, which tells of every registration with a registry (`enrolled`).

  §1 Handles  — which registrations a history tells of (`enrolled`).
  §2 Books    — what the registry and the registrations have to do with them
                (`Enrolment`), kept by everything that concerns the books
                (`Reachable.enrolment`).
  §3 Log      — what the log shows of a hook (`Reachable.logOf`).
  §4 Accounts — `registry_accounts`: who is held, who is live, and what the
                sums are.
-/
import Mathlib.Algebra.Group.Nat.Defs
import Mathlib.Data.List.Flatten
import Mathlib.Data.List.Nodup
import Unwind.Proofs.Cancellation

namespace Unwind

variable {σ κ : Type}

/-- The handle of a hook. -/
def Hook.handle (hook : Hook σ κ) : Handle := ⟨hook.id, hook.cookie⟩

/-- The handle that a registration with a registry gave in return. -/
def Occurrence.handle? (r : Nat) : Occurrence → Option Handle
  | registered hook registry cookie _ => if registry = r then some ⟨hook, cookie⟩ else none
  | _ => none

/-- The hook whose registration or cancellation an occurrence is. -/
def Occurrence.subject? : Occurrence → Option Nat
  | registered hook .. | cancelled hook _ => some hook
  | _ => none

def Report.isRegistration : Report → Bool
  | hookRegistered _ => true
  | _ => false

def Report.isRemoval : Report → Bool
  | hookRemoved _ => true
  | _ => false

/-- What the log shows of a hook that was registered so. -/
def Registration.reports (reg : Registration) : List Report :=
  .hookRegistered reg.cookie :: if reg.live then [] else [.hookRemoved reg.cookie]

namespace Session

variable {m m' : Session σ κ} {r : Nat}

/-! ## §1 Handles -/

/-- The handles of all hooks that have been registered with a registry, in order. -/
def enrolled (m : Session σ κ) (r : Nat) : List Handle :=
  m.history.toList.filterMap (Occurrence.handle? r)

theorem enrolled_append {os : List Occurrence} (told : m'.history.toList = m.history.toList ++ os)
    (r : Nat) : m'.enrolled r = m.enrolled r ++ os.filterMap (Occurrence.handle? r) := by
  rw [enrolled, told, List.filterMap_append, enrolled]

theorem Aside.enrolled (aside : Aside m m') (r : Nat) : m'.enrolled r = m.enrolled r := by
  obtain ⟨os, told, quiet⟩ := aside.told
  have none : os.filterMap (Occurrence.handle? r) = [] := by
    refine List.filterMap_eq_nil_iff.mpr ?_
    intro o there
    have quiet := quiet o there
    cases o <;> first | rfl | cases quiet
  rw [enrolled_append told, none, List.append_nil]

theorem enrolled_push {o : Occurrence} (told : m'.history = m.history.push o) (r : Nat) :
    m'.enrolled r = m.enrolled r ++ (o.handle? r).toList := by
  have added : m'.history.toList = m.history.toList ++ [o] := by rw [told, Array.toList_push]
  rw [enrolled_append added]
  cases known : o.handle? r <;> simp [known]

theorem enrolled_register (once : Bool) (accepts : Predicate κ) (body : Event → Program σ κ)
    (r : Nat) : (m.register once accepts body).2.enrolled r
      = m.enrolled r ++ if r = m.current then [(m.newHook once accepts body).handle] else [] := by
  rw [enrolled_push (history_register once accepts body)]
  by_cases here : r = m.current
  · simp [Occurrence.handle?, here, newHook, Hook.handle]
  · simp [Occurrence.handle?, here, Ne.symm here]

theorem enrolled_withdraw (hook : Nat) (reg : Registration) (cookie : Option UInt32) (r : Nat) :
    ((m.withdraw hook reg).record (.cancelled hook cookie)).enrolled r = m.enrolled r := by
  rw [enrolled_push (m := m) rfl]
  exact List.append_nil _

theorem enrolled_renew (m : Session σ κ) (r : Nat) : m.renew.enrolled r = m.enrolled r := by
  rw [enrolled_push (m := m) rfl]
  exact List.append_nil _

/-! ## §2 Books -/

/-- What the books have to do with those that have been registered with a
registry. -/
structure Enrolment (m : Session σ κ) (r : Nat) : Prop where
  known : ∀ handle, handle ∈ m.enrolled r
    ↔ ∃ live, m.registrations[handle.hook]? = some ⟨r, handle.cookie, live⟩
  order : (m.enrolled r).Pairwise (·.hook < ·.hook)
  cookies : (m.enrolled r).map Handle.cookie
    = (List.range (m.enrolled r).length).map UInt32.ofNat
  next : (m.registry r).nextCookie = UInt32.ofNat (m.enrolled r).length
  unborn : m.registries.size ≤ r → m.enrolled r = []
  held : ((m.registry r).hooks.map Hook.handle).Sublist (m.enrolled r)
  live : m.hasRegistry r = true → (m.enrolled r).length ≤ 2 ^ 32 →
    (m.registry r).hooks.map Hook.handle
      = (m.enrolled r).filter fun handle => m.isLive handle.hook

/-- A handle of the registry says which registration it is. -/
theorem Enrolment.isLive (h : Enrolment m r) {handle : Handle} (there : handle ∈ m.enrolled r) :
    m.registrations[handle.hook]? = some ⟨r, handle.cookie, m.isLive handle.hook⟩ := by
  obtain ⟨live, known⟩ := (h.known handle).mp there
  rw [Session.isLive, known]
  rfl

theorem Enrolment.hook_lt (h : Enrolment m r) {handle : Handle} (there : handle ∈ m.enrolled r) :
    handle.hook < m.registrations.size :=
  (Array.getElem?_eq_some_iff.mp (h.isLive there)).1

/-- What concerns other registries only is kept. -/
theorem Enrolment.of_same (h : Enrolment m r) (enrolled : m'.enrolled r = m.enrolled r)
    (registry : m'.registry r = m.registry r)
    (known : ∀ (hook : Nat) (cookie : UInt32) (live : Bool),
      m'.registrations[hook]? = some ⟨r, cookie, live⟩
      ↔ m.registrations[hook]? = some ⟨r, cookie, live⟩)
    (size : m.registries.size ≤ m'.registries.size)
    (existing : m'.hasRegistry r = true → m.hasRegistry r = true ∨ m.registries.size ≤ r) :
    Enrolment m' r where
  known handle := by simp only [enrolled, h.known, known]
  order := by rw [enrolled]; exact h.order
  cookies := by rw [enrolled]; exact h.cookies
  next := by rw [enrolled, registry]; exact h.next
  unborn beyond := by rw [enrolled]; exact h.unborn (Nat.le_trans size beyond)
  held := by rw [enrolled, registry]; exact h.held
  live there few := by
    rw [enrolled] at few ⊢
    rw [registry]
    have same : ∀ handle ∈ m.enrolled r, m'.isLive handle.hook = m.isLive handle.hook := by
      intro handle mem
      rw [Session.isLive, (known _ _ _).mpr (h.isLive mem)]
      rfl
    -- a registry that has come to exist only now has not seen a registration
    rcases existing there with before | beyond
    · rw [h.live before few]
      exact (List.filter_congr same).symm
    · have held := h.held
      rw [h.unborn beyond] at held ⊢
      exact List.sublist_nil.mp held

theorem Enrolment.of_aside (h : Enrolment m r) (same : Aside m m') : Enrolment m' r :=
  h.of_same (same.enrolled r) (same.registry r) (by rw [same.registrations]; simp)
    (by rw [same.registries]) fun there => .inl (same.existing r there)

theorem Enrolment.renew (h : Enrolment m r) : Enrolment m.renew r :=
  h.of_same (enrolled_renew m r) (registry_renew m r) (fun _ _ _ => Iff.rfl)
    (by simp [Session.renew, record])
    fun there => (hasRegistry_renew there).imp_right fun new => Nat.le_of_eq new.symm

section register

variable (once : Bool) (accepts : Predicate κ) (body : Event → Program σ κ)

theorem known_register_iff (hook : Nat) (reg : Registration) :
    (m.register once accepts body).2.registrations[hook]? = some reg
      ↔ m.registrations[hook]? = some reg
        ∨ hook = m.registrations.size
          ∧ reg = ⟨m.current, (m.registry m.current).nextCookie, true⟩ := by
  rw [registrations_register, Array.getElem?_push]
  by_cases new : hook = m.registrations.size
  · simp [new, eq_comm]
  · simp [new]

/-- A registration with another registry. -/
theorem Enrolment.register_elsewhere (h : Enrolment m r) (pos : 0 < m.registries.size)
    (elsewhere : r ≠ m.current) : Enrolment (m.register once accepts body).2 r := by
  refine h.of_same ?_ ?_ ?_ ?_ ?_
  · rw [enrolled_register, if_neg elsewhere, List.append_nil]
  · rw [registry_register once accepts body pos, if_neg elsewhere]
  · intro hook cookie live
    simp [known_register_iff, elsewhere]
  · simp [Session.register, record]
  · rw [hasRegistry_register]
    exact .inl

/-- Those that were live are so after a registration, and so is the new hook. -/
theorem Enrolment.live_register (h : Enrolment m r) :
    (m.enrolled r ++ [(m.newHook once accepts body).handle]).filter (fun handle =>
        (m.register once accepts body).2.isLive handle.hook)
      = (m.enrolled r).filter (fun handle => m.isLive handle.hook)
        ++ [(m.newHook once accepts body).handle] := by
  have old : ∀ handle ∈ m.enrolled r,
      (m.register once accepts body).2.isLive handle.hook = m.isLive handle.hook := by
    intro handle mem
    rw [isLive_register, decide_eq_false (Nat.ne_of_lt (h.hook_lt mem)), Bool.or_false]
  rw [List.filter_append, List.filter_congr old]
  simp [isLive_register, newHook, Hook.handle]

/-- A registration with this registry, whose handle comes last. -/
theorem Enrolment.register_here (h : Enrolment m r) (pos : 0 < m.registries.size)
    (here : r = m.current) : Enrolment (m.register once accepts body).2 r := by
  have added := enrolled_register (m := m) once accepts body r
  have registry := registry_register once accepts body pos r
  rw [if_pos here] at added registry
  have cookie : (m.newHook once accepts body).handle.cookie
      = UInt32.ofNat (m.enrolled r).length := by
    rw [← h.next, here]
    rfl
  constructor
  case known =>
    intro handle
    rw [added, List.mem_append, h.known, List.mem_singleton]
    simp only [known_register_iff, exists_or]
    refine or_congr_right ⟨?_, ?_⟩
    · rintro rfl
      exact ⟨true, rfl, by rw [here]; rfl⟩
    · rintro ⟨live, hook, entry⟩
      obtain ⟨-, cookie, -⟩ := Registration.mk.inj entry
      exact congrArg₂ Handle.mk hook cookie
  case order =>
    rw [added]
    refine List.pairwise_append.mpr ⟨h.order, List.pairwise_singleton _ _, ?_⟩
    intro handle there new mem
    rw [List.mem_singleton.mp mem]
    exact h.hook_lt there
  case cookies =>
    rw [added, List.map_append, h.cookies, List.length_append, List.length_singleton,
      List.range_succ, List.map_append, List.map_singleton, List.map_singleton, cookie]
  case next =>
    rw [added, registry, List.length_append, List.length_singleton, UInt32.ofNat_add, ← h.next]
    rfl
  case unborn =>
    intro beyond
    have size : (m.register once accepts body).2.registries.size = m.registries.size := by
      simp [Session.register, record]
    rw [size, here] at beyond
    exact absurd beyond (Nat.not_le.mpr (Nat.sub_lt pos Nat.one_pos))
  case held =>
    rw [added, registry]
    simp only [Registry.add, List.map_append]
    exact h.held.append (List.Sublist.refl _)
  case live =>
    intro there few
    rw [hasRegistry_register] at there
    rw [added, List.length_append] at few
    rw [added, registry, h.live_register, ← h.live there (Nat.le_of_add_right_le few)]
    exact List.map_append

end register

section withdraw

variable {hook : Nat} {reg : Registration}

theorem known_withdraw_iff (known : m.registrations[hook]? = some reg) (h : Nat)
    (cookie : UInt32) :
    (∃ live, (m.withdraw hook reg).registrations[h]? = some ⟨r, cookie, live⟩)
      ↔ ∃ live, m.registrations[h]? = some ⟨r, cookie, live⟩ := by
  rw [getElem?_registrations_withdraw known]
  by_cases same : h = hook
  · obtain ⟨home, number, was⟩ := reg
    simp [same, known]
  · simp [same]

/-- The cookies of a registry that has seen few registrations are told apart. -/
theorem Enrolment.cookie_inj (h : Enrolment m r) (few : (m.enrolled r).length ≤ 2 ^ 32) :
    ∀ a ∈ m.enrolled r, ∀ b ∈ m.enrolled r, a.cookie = b.cookie → a = b := by
  -- up to that many registrations the cookies have not begun again from zero
  have distinct : ((m.enrolled r).map Handle.cookie).Nodup := by
    rw [h.cookies]
    refine List.Nodup.map_on ?_ List.nodup_range
    intro i hi j hj same
    rw [List.mem_range] at hi hj
    have same := congrArg UInt32.toNat same
    rwa [UInt32.toNat_ofNat_of_lt' (Nat.lt_of_lt_of_le hi few),
      UInt32.toNat_ofNat_of_lt' (Nat.lt_of_lt_of_le hj few)] at same
  exact fun a ha b hb => List.inj_on_of_nodup_map distinct ha hb

/-- A hook of another registry is cancelled. -/
theorem Enrolment.withdraw_elsewhere (h : Enrolment m r)
    (known : m.registrations[hook]? = some reg) (elsewhere : r ≠ reg.registry) :
    Enrolment ((m.withdraw hook reg).record (.cancelled hook (some reg.cookie))) r := by
  refine h.of_same (enrolled_withdraw hook reg _ r) ?_ ?_ ?_ ?_
  · rw [registry_record, registry_withdraw, if_neg (mt And.left elsewhere)]
  · intro h cookie live
    show (m.withdraw hook reg).registrations[h]? = _ ↔ _
    rw [getElem?_registrations_withdraw known]
    by_cases same : h = hook
    · obtain ⟨home, number, was⟩ := reg
      simp [same, known, Ne.symm elsewhere]
    · rw [if_neg same]
  · exact Nat.le_of_eq (size_registries_withdraw hook reg).symm
  · rw [hasRegistry_record, hasRegistry_withdraw]
    exact .inl

/-- What has the cookie of a hook is that hook. -/
theorem Enrolment.cookie_iff (h : Enrolment m r) (known : m.registrations[hook]? = some reg)
    (here : r = reg.registry) (few : (m.enrolled r).length ≤ 2 ^ 32) {handle : Handle}
    (there : handle ∈ m.enrolled r) : handle.cookie = reg.cookie ↔ handle.hook = hook := by
  constructor
  · intro same
    have mem : ⟨hook, reg.cookie⟩ ∈ m.enrolled r :=
      (h.known ⟨hook, reg.cookie⟩).mpr ⟨reg.live, by rw [known, here]⟩
    exact congrArg Handle.hook (h.cookie_inj few handle there _ mem same)
  · intro same
    have entry := h.isLive there
    rw [same, known] at entry
    exact (congrArg Registration.cookie (Option.some.inj entry)).symm

/-- What is left when the registry has removed what it holds under the cookie. -/
theorem Enrolment.live_withdraw (h : Enrolment m r) (known : m.registrations[hook]? = some reg)
    (here : r = reg.registry) (there : m.hasRegistry r = true)
    (few : (m.enrolled r).length ≤ 2 ^ 32) :
    ((m.registry r).remove reg.cookie).hooks.map Hook.handle
      = (m.enrolled r).filter fun handle => (m.withdraw hook reg).isLive handle.hook := by
  have only : ∀ handle ∈ m.enrolled r,
      (handle.cookie != reg.cookie && m.isLive handle.hook)
        = (m.withdraw hook reg).isLive handle.hook := by
    intro handle mem
    rw [isLive_withdraw known, Bool.and_comm]
    simp only [bne, beq_eq_decide, h.cookie_iff known here few mem, ← decide_not, ne_eq]
  rw [← List.filter_congr only, ← List.filter_filter, ← h.live there few, List.filter_map]
  rfl

/-- A hook of this registry is cancelled. As the registry removes what it holds
under the hook's cookie, this needs the cookies to be told apart. -/
theorem Enrolment.withdraw_here (h : Enrolment m r) (known : m.registrations[hook]? = some reg)
    (here : r = reg.registry) :
    Enrolment ((m.withdraw hook reg).record (.cancelled hook (some reg.cookie))) r := by
  have enrolled := enrolled_withdraw (m := m) hook reg (some reg.cookie) r
  constructor
  case known =>
    intro handle
    rw [enrolled, h.known]
    exact (known_withdraw_iff known handle.hook handle.cookie).symm
  case order =>
    rw [enrolled]
    exact h.order
  case cookies =>
    rw [enrolled]
    exact h.cookies
  case next =>
    rw [enrolled, registry_record, registry_withdraw]
    split
    · exact h.next
    · exact h.next
  case unborn =>
    rw [enrolled]
    intro beyond
    exact h.unborn ((size_registries_withdraw (m := m) hook reg).symm ▸ beyond)
  case held =>
    rw [enrolled, registry_record, registry_withdraw]
    split
    · exact (List.filter_sublist.map _).trans h.held
    · exact h.held
  case live =>
    intro there few
    rw [hasRegistry_record, hasRegistry_withdraw] at there
    rw [enrolled] at few ⊢
    rw [registry_record, registry_withdraw, if_pos ⟨here, there⟩]
    exact h.live_withdraw known here there few

end withdraw

theorem Reachable.enrolment (h : Reachable m) (r : Nat) : Enrolment m r := by
  refine h.rec_books (P := fun m => Enrolment m r) ?_ ?_ ?_ ?_ ?_
  · intro state shared program
    have empty := registry_start state shared program r
    have enrolled : (start state shared program).enrolled r = [] := rfl
    have registrations : (start state shared program).registrations = #[] := rfl
    constructor <;> simp [enrolled, registrations, empty, Registry.empty]
  · intro m m' same kept
    exact kept.of_aside same
  · intro m once accepts body reached kept
    by_cases here : r = m.current
    · exact kept.register_here once accepts body reached.some_registry here
    · exact kept.register_elsewhere once accepts body reached.some_registry here
  · intro m hook reg reached known live kept
    by_cases here : r = reg.registry
    · exact kept.withdraw_here known here
    · exact kept.withdraw_elsewhere known here
  · intro m reached kept
    exact kept.renew

/-! ## §3 Log -/

/-- What the log shows of some hooks. -/
def logOf (hooks : Nat → Bool) (os : List Occurrence) : List Report :=
  (os.filter fun o => o.subject?.any hooks).flatMap Occurrence.reports

theorem logOf_append (hooks : Nat → Bool) (os os' : List Occurrence) :
    logOf hooks (os ++ os') = logOf hooks os ++ logOf hooks os' := by
  rw [logOf, List.filter_append, List.flatMap_append, logOf, logOf]

theorem logOf_cons (hooks : Nat → Bool) (o : Occurrence) (os : List Occurrence) :
    logOf hooks (o :: os)
      = (if o.subject?.any hooks then o.reports else []) ++ logOf hooks os := by
  simp only [logOf, List.filter_cons]
  split
  · exact List.flatMap_cons
  · exact (List.nil_append _).symm

theorem logOf_sublist (hooks : Nat → Bool) (m : Session σ κ) :
    (logOf hooks m.history.toList).Sublist m.log :=
  List.filter_sublist.flatMap _

/-- Of what changes no books the log shows no registration nor cancellation. -/
theorem logOf_quiet (hooks : Nat → Bool) {os : List Occurrence}
    (quiet : ∀ o ∈ os, o.isEntry = false) : logOf hooks os = [] := by
  refine List.flatMap_eq_nil_iff.mpr ?_
  intro o there
  obtain ⟨mem, subject⟩ := List.mem_filter.mp there
  have quiet := quiet o mem
  cases o with
  | registered => cases quiet
  | cancelled hook cookie =>
    cases cookie with
    | none => rfl
    | some cookie => cases quiet
  | _ => cases subject

theorem Reachable.logOf_eq (h : Reachable m) (hook : Nat) :
    logOf (· == hook) m.history.toList = (m.registrations[hook]?).elim [] Registration.reports := by
  refine h.rec_books (P := fun m => logOf (· == hook) m.history.toList
    = (m.registrations[hook]?).elim [] Registration.reports) ?_ ?_ ?_ ?_ ?_
  · intro state shared program
    rfl
  · intro m m' same kept
    obtain ⟨os, told, quiet⟩ := same.told
    rw [told, logOf_append, logOf_quiet _ quiet, List.append_nil, kept, same.registrations]
  · intro m once accepts body reached kept
    rw [history_register, Array.toList_push, logOf_append, kept, registrations_register,
      Array.getElem?_push]
    by_cases new : hook = m.registrations.size
    · simp [new, logOf, Occurrence.subject?, Occurrence.reports, Registration.reports]
    · simp [new, Ne.symm new, logOf, Occurrence.subject?]
  · intro m other reg reached known live kept
    show logOf _ (m.history.push _).toList = ((m.withdraw other reg).registrations[hook]?).elim _ _
    rw [Array.toList_push, logOf_append, kept, getElem?_registrations_withdraw known]
    by_cases same : hook = other
    · simp [same, known, live, logOf, Occurrence.subject?, Occurrence.reports,
        Registration.reports]
    · simp [same, Ne.symm same, logOf, Occurrence.subject?]
  · intro m reached kept
    show logOf _ (m.history.push _).toList = _
    rw [Array.toList_push, logOf_append, kept]
    exact List.append_nil _

/-- Who cancelled a hook with success is in the log. -/
theorem count_answers (hook : Nat) (os : List Occurrence) :
    (answers hook os).count true = (logOf (· == hook) os).countP Report.isRemoval := by
  induction os with
  | nil => rfl
  | cons o os ih =>
    rw [logOf_cons, List.countP_append, ← ih, answers, List.filterMap_cons]
    cases o with
    | registered h =>
      by_cases same : h = hook <;>
        simp [same, Occurrence.answer?, Occurrence.subject?, Occurrence.reports,
          Report.isRemoval, answers]
    | cancelled h cookie =>
      by_cases same : h = hook <;> cases cookie <;>
        simp [same, Occurrence.answer?, Occurrence.subject?, Occurrence.reports,
          Report.isRemoval, answers, Nat.add_comm]
    | _ => exact (Nat.zero_add _).symm

theorem countP_logOf_or (p : Report → Bool) {these others : Nat → Bool}
    (apart : ∀ id, these id = true → others id = false) (os : List Occurrence) :
    (logOf (fun id => these id || others id) os).countP p
      = (logOf these os).countP p + (logOf others os).countP p := by
  induction os with
  | nil => rfl
  | cons o os ih =>
    simp only [logOf_cons, List.countP_append, ih]
    cases subject : o.subject? with
    | none => simp
    | some id =>
      cases first : these id with
      | true => simp [first, apart id first, Nat.add_assoc]
      | false => simp [first, Nat.add_left_comm]

/-- What the log shows of some hooks is what it shows of each of them. -/
theorem countP_logOf (p : Report → Bool) {hooks : List Nat} (distinct : hooks.Nodup)
    (os : List Occurrence) :
    (logOf (fun id => hooks.contains id) os).countP p
      = (hooks.flatMap fun hook => logOf (· == hook) os).countP p := by
  -- one hook more adds what the log shows of that hook, as it is not among the others
  induction hooks with
  | nil =>
    have none : logOf (fun _ => false) os = [] := by
      refine List.flatMap_eq_nil_iff.mpr ?_
      simp
    simp [none]
  | cons hook hooks ih =>
    obtain ⟨new, distinct⟩ := List.nodup_cons.mp distinct
    rw [List.flatMap_cons, List.countP_append, ← ih distinct, ← countP_logOf_or]
    · simp only [List.contains_cons]
    · intro id same
      rw [beq_iff_eq.mp same]
      simpa using new

/-! ## §4 Accounts -/

/-- Of each element one is counted, or none. -/
theorem countP_flatMap_toNat {α β : Type} {f : α → List β} {p : β → Bool} {q : α → Bool}
    {l : List α} (h : ∀ a ∈ l, (f a).countP p = (q a).toNat) :
    (l.flatMap f).countP p = l.countP q := by
  induction l with
  | nil => rfl
  | cons a l ih =>
    obtain ⟨here, rest⟩ := List.forall_mem_cons.mp h
    rw [List.flatMap_cons, List.countP_append, List.countP_cons, ih rest, here, Nat.add_comm]
    cases q a <;> rfl

/-- The books of a registry, while it is not yet too full. -/
structure Accounts (m : Session σ κ) (r : Nat) : Prop where
  /-- The hooks that it holds are in the order of their registration. -/
  order : ((m.registry r).hooks.map Hook.handle).Sublist (m.enrolled r)
  increasing : (m.registry r).hooks.Pairwise (·.cookie < ·.cookie)
  /-- Whatever was cancelled in between, cookies count the registrations. -/
  cookies : (m.enrolled r).map (·.cookie.toNat) = List.range (m.enrolled r).length
  /-- A registration is answered with the handle that is enrolled. -/
  answered : ∀ once accepts body next, m.running = .register once accepts body next →
    ∃ handle, m.step.running = next handle
      ∧ m.step.enrolled r = m.enrolled r ++ if r = m.current then [handle] else []
  /-- As long as it exists, it holds those that are live. -/
  live : m.hasRegistry r = true → ∀ handle ∈ m.enrolled r,
    handle ∈ (m.registry r).hooks.map Hook.handle ↔ m.isLive handle.hook = true
  /-- All others have been cancelled with success, each of them once. -/
  cancelled : m.hasRegistry r = true → (m.registry r).hooks.length
    + ((m.enrolled r).flatMap fun handle => answers handle.hook m.history.toList).count true
    = (m.enrolled r).length
  logged : m.hasRegistry r = true →
    let log := logOf (fun id => ((m.enrolled r).map Handle.hook).contains id) m.history.toList
    log.Sublist m.log ∧ (m.registry r).hooks.length + log.countP Report.isRemoval
      = log.countP Report.isRegistration

theorem Enrolment.toNat_cookies (h : Enrolment m r) (few : (m.enrolled r).length ≤ 2 ^ 32) :
    (m.enrolled r).map (·.cookie.toNat) = List.range (m.enrolled r).length := by
  have split : (m.enrolled r).map (·.cookie.toNat)
      = (List.range (m.enrolled r).length).map (UInt32.toNat ∘ UInt32.ofNat) := by
    rw [← List.map_map, ← h.cookies, List.map_map]
    rfl
  have same : ∀ k ∈ List.range (m.enrolled r).length, (UInt32.toNat ∘ UInt32.ofNat) k = id k := by
    intro k hk
    exact UInt32.toNat_ofNat_of_lt' (Nat.lt_of_lt_of_le (List.mem_range.mp hk) few)
  rw [split, List.map_congr_left same, List.map_id]

theorem Enrolment.increasing (h : Enrolment m r) (few : (m.enrolled r).length ≤ 2 ^ 32) :
    (m.registry r).hooks.Pairwise (·.cookie < ·.cookie) := by
  have numbered : ((m.enrolled r).map (·.cookie.toNat)).Pairwise (· < ·) := by
    rw [h.toNat_cookies few]
    exact List.pairwise_lt_range
  have held := (List.pairwise_map.mp numbered).sublist h.held
  rw [List.pairwise_map] at held
  exact held

/-- What the log shows of a hook of the registry. -/
theorem Enrolment.logOf_eq (h : Enrolment m r) (reachable : Reachable m) {handle : Handle}
    (there : handle ∈ m.enrolled r) :
    logOf (· == handle.hook) m.history.toList
      = Registration.reports ⟨r, handle.cookie, m.isLive handle.hook⟩ := by
  rw [reachable.logOf_eq, h.isLive there]
  rfl

/-- In every session that can come about, the books of a registry agree. -/
theorem registry_accounts (reachable : Reachable m) (few : (m.enrolled r).length ≤ 2 ^ 32) :
    Accounts m r := by
  have enrolment := reachable.enrolment r
  have registrations : ∀ handle ∈ m.enrolled r,
      (logOf (· == handle.hook) m.history.toList).countP Report.isRegistration
        = Bool.toNat true := by
    intro handle there
    rw [enrolment.logOf_eq reachable there]
    cases m.isLive handle.hook <;> rfl
  have removals : ∀ handle ∈ m.enrolled r,
      (logOf (· == handle.hook) m.history.toList).countP Report.isRemoval
        = (!m.isLive handle.hook).toNat := by
    intro handle there
    rw [enrolment.logOf_eq reachable there]
    cases m.isLive handle.hook <;> rfl
  have balance (there : m.hasRegistry r = true) : (m.registry r).hooks.length
      + (m.enrolled r).countP (fun handle => !m.isLive handle.hook) = (m.enrolled r).length := by
    rw [← List.length_map, enrolment.live there few, ← List.countP_eq_length_filter,
      List.length_eq_countP_add_countP fun handle : Handle => m.isLive handle.hook]
    simp
  refine ⟨enrolment.held, enrolment.increasing few, enrolment.toNat_cookies few, ?_, ?_, ?_, ?_⟩
  · intro once accepts body next asked
    refine ⟨(m.register once accepts body).1, by rw [step_register asked], ?_⟩
    rw [step_register asked]
    exact enrolled_register once accepts body r
  · intro there handle mem
    rw [enrolment.live there few, List.mem_filter]
    exact and_iff_right mem
  · intro there
    have cancelled : ∀ handle ∈ m.enrolled r,
        (answers handle.hook m.history.toList).countP (· == true)
          = (!m.isLive handle.hook).toNat :=
      fun handle mem => (count_answers handle.hook _).trans (removals handle mem)
    rw [List.count, countP_flatMap_toNat cancelled]
    exact balance there
  · intro there log
    have distinct : ((m.enrolled r).map Handle.hook).Nodup :=
      List.pairwise_map.mpr (enrolment.order.imp Nat.ne_of_lt)
    refine ⟨logOf_sublist _ m, ?_⟩
    rw [countP_logOf _ distinct, countP_logOf _ distinct, List.flatMap_map,
      countP_flatMap_toNat removals, countP_flatMap_toNat registrations, balance there,
      List.countP_true]

/-- A session in the middle of a dispatch. Of three hooks the first has been
cancelled, and the callback of the second, which is `once`, has registered
another one. -/
def registering : Session Nat Unit :=
  step^[7] <| start 0 () <|
    .register false (fun _ _ c => (true, c)) (fun _ => .done) fun first =>
    .register true (fun _ _ c => (true, c))
      (fun _ => .register false (fun _ _ c => (true, c)) (fun _ => .done) fun _ => .done) fun _ =>
    .cancel first.hook fun _ =>
    .register false (fun _ _ c => (true, c)) (fun _ => .done) fun _ =>
    .dispatch (.pc 0) fun _ => .done

theorem registry_accounts_registering :
    registering.Reachable ∧ (registering.enrolled 0).length ≤ 2 ^ 32
      ∧ (registering.registry 0).hooks.map Hook.handle = [⟨2, 2⟩, ⟨3, 3⟩]
      ∧ registering.isLive 1 = false
      ∧ (registering.registry 0).hooks.length
        + ((registering.enrolled 0).flatMap fun handle =>
            answers handle.hook registering.history.toList).count true = 4 := by
  have reachable : registering.Reachable := ⟨0, (), _, 7, rfl⟩
  have few : (registering.enrolled 0).length ≤ 2 ^ 32 := by decide
  have accounts := registry_accounts reachable few
  have hooks : (registering.registry 0).hooks.map Hook.handle = [⟨2, 2⟩, ⟨3, 3⟩] := rfl
  refine ⟨reachable, few, hooks, ?_, accounts.cancelled rfl⟩
  rw [← Bool.not_eq_true, ← accounts.live rfl ⟨1, 1⟩ (by decide), hooks]
  decide

end Session

end Unwind
