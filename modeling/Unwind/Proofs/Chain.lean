/-
Unwind.Proofs.Chain — a walk lists the frames of the calling chain.

The calling chain of a processor is defined here by itself: `Frame.caller?` is
one step of unwinding in plain arithmetic, `Frame.chain` iterates it, and
`Frame.first` is where the chain of a stopped processor begins. None of them
knows of a frame cap.

  §1 Frames   — the chain, and its unfolding from the front.
  §2 Visits   — a visit leads where `caller?` says (`next?_ofFrame`).
  §3 Walks    — the visits of a walk are those of the frames of the chain that
                there is room for (`getElem?_visitsFrom`), and the last of them
                tells whether the chain goes on (`next?_getLastD_visitsFrom`).
  §4 Backtrace — `backtrace_follows_chain`: the pcs are those of the chain up
                to the cap, and the backtrace is truncated exactly if the chain
                is longer than that.
-/
import Unwind.Walk

namespace Unwind

/-! ## §1 Frames -/

namespace Frame

/-- The frame a frame was called from: the function around the pc must have a
whole prologue, and the return address it spilled must be one that a call can
have left. All sums are modulo 2³². -/
def caller? (memory : Memory) (budget : UInt32) (frame : Frame) : Option Frame :=
  match (Scan.run memory budget frame.pc).frame? with
  | none => none
  | some (offset, size) =>
    let ra := memory.word (frame.sp + UInt32.ofNat offset.toNat)
    if 8 ≤ ra then some ⟨ra - 8, frame.sp - UInt32.ofInt size.toInt⟩ else none

/-- The frame that a stopped processor's current function was called from. Of
its prologue each half counts by itself, and no call length is taken off. -/
def first (cpu : Cpu) (budget : UInt32) : Frame :=
  let scan := Scan.run cpu.memory budget cpu.pc
  let sp := cpu.register .sp
  { pc := match scan.raOffset with
      | some offset => cpu.memory.word (sp + UInt32.ofNat offset.toNat)
      | none => cpu.register .ra
    sp := match scan.frameSize with
      | some size => sp - UInt32.ofInt size.toInt
      | none => sp }

/-- The frames from `start` on, each the caller of the one before it. -/
def chain (memory : Memory) (budget : UInt32) (start : Frame) : Nat → Option Frame
  | 0 => some start
  | n + 1 => (chain memory budget start n).bind (caller? memory budget)

variable (memory : Memory) (budget : UInt32)

@[simp] theorem chain_zero (start : Frame) : chain memory budget start 0 = some start := rfl

/-- The chain from a frame goes on with the chain from its caller. -/
theorem chain_succ (start : Frame) (n : Nat) :
    chain memory budget start (n + 1)
      = (caller? memory budget start).bind fun caller => chain memory budget caller n := by
  induction n with
  | zero => cases h : caller? memory budget start <;> simp [chain, h]
  | succ n ih =>
    rw [chain, ih]
    cases caller? memory budget start with
    | none => rfl
    | some caller => rfl

theorem chain_succ_of_caller {start caller : Frame}
    (h : caller? memory budget start = some caller) (n : Nat) :
    chain memory budget start (n + 1) = chain memory budget caller n := by
  rw [chain_succ, h, Option.bind_some]

theorem chain_succ_of_none {start : Frame} (h : caller? memory budget start = none) (n : Nat) :
    chain memory budget start (n + 1) = none := by
  rw [chain_succ, h, Option.bind_none]

/-- A chain that has ended does not go on. -/
theorem chain_none_of_le {start : Frame} {n m : Nat} (le : n ≤ m)
    (h : chain memory budget start n = none) : chain memory budget start m = none := by
  induction le with
  | refl => exact h
  | step _ ih => rw [chain, ih, Option.bind_none]

end Frame

/-! ## §2 Visits -/

theorem spillSlot_eq (sp : UInt32) (offset : UInt16) :
    spillSlot sp offset = sp + UInt32.ofNat offset.toNat := by
  rw [spillSlot, UInt32.ofNat_uInt16ToNat]

theorem toUInt32_ofInt (n : Int) : (Int32.ofInt n).toUInt32 = UInt32.ofInt n := by
  apply UInt32.toNat_inj.mp
  rw [UInt32.ofInt, UInt32.toNat_ofNat', ← Int32.toNat_toBitVec, Int32.toBitVec_ofInt,
    BitVec.toNat_ofInt]
  omega

/-- The amount is extended by its sign before it is taken off. -/
theorem callerSp_eq (sp : UInt32) (size : Int16) :
    callerSp sp size = sp - UInt32.ofInt size.toInt := by
  rw [callerSp, ← Int32.ofInt_int16ToInt, toUInt32_ofInt]

namespace Visit

variable (memory : Memory) (budget : UInt32)

@[simp] theorem pc_ofFrame (frame : Frame) : (ofFrame memory budget frame).pc = frame.pc := by
  simp only [ofFrame]
  split
  · rfl
  · split <;> rfl

/-- A visit leads on to the frame's caller. -/
theorem next?_ofFrame (frame : Frame) :
    (ofFrame memory budget frame).next? = frame.caller? memory budget := by
  simp only [ofFrame, Frame.caller?, spillSlot_eq, callerSp_eq, callLength]
  cases h : (Scan.run memory budget frame.pc).frame? with
  | none => rfl
  | some prologue =>
    obtain ⟨offset, size⟩ := prologue
    dsimp only
    by_cases low : memory.word (frame.sp + UInt32.ofNat offset.toNat) < 8
    · rw [if_pos low, if_neg (UInt32.not_le.mpr low)]
      rfl
    · rw [if_neg low, if_pos (UInt32.not_lt.mp low)]
      rfl

/-- The innermost visit always leads on. -/
theorem next?_innermost (cpu : Cpu) :
    (innermost cpu budget).next? = some (Frame.first cpu budget) := by
  unfold innermost Frame.first
  simp only [next?]
  cases (Scan.run cpu.memory budget cpu.pc).raOffset <;>
    cases (Scan.run cpu.memory budget cpu.pc).frameSize <;>
    simp [spillSlot_eq, callerSp_eq]

/-- Nothing that goes wrong in a visit cuts the backtrace. -/
theorem isCut_of_mem_diagnostics {v : Visit} {d : Diagnostic}
    (h : d ∈ v.diagnostics budget) : d.isCut = false := by
  unfold diagnostics incomplete at h
  rcases List.mem_append.mp h with h | h
  · split at h
    · rw [List.mem_singleton.mp h]; rfl
    · exact absurd h List.not_mem_nil
  · split at h
    · rw [List.mem_singleton.mp h]; rfl
    · exact absurd h List.not_mem_nil

end Visit

/-! ## §3 Walks -/

namespace Walk

variable (memory : Memory) (budget : UInt32)

theorem visitsFrom_succ_of_caller {start caller : Frame}
    (h : start.caller? memory budget = some caller) (room : Nat) :
    visitsFrom memory budget (room + 1) start
      = Visit.ofFrame memory budget start :: visitsFrom memory budget room caller := by
  simp only [visitsFrom, Visit.next?_ofFrame, h]

theorem visitsFrom_succ_of_none {start : Frame} (h : start.caller? memory budget = none)
    (room : Nat) :
    visitsFrom memory budget (room + 1) start = [Visit.ofFrame memory budget start] := by
  simp only [visitsFrom, Visit.next?_ofFrame, h]

/-- The frames with which a loop that has come to `start` begins its rounds, as many
as there is room for. -/
def framesFrom : Nat → Frame → List Frame
  | 0, _ => []
  | room + 1, frame =>
    frame :: match (Visit.ofFrame memory budget frame).next? with
      | some caller => framesFrom room caller
      | none => []

/-- Each round is the visit of its frame. -/
theorem map_framesFrom (room : Nat) (start : Frame) :
    (framesFrom memory budget room start).map (Visit.ofFrame memory budget)
      = visitsFrom memory budget room start := by
  induction room generalizing start with
  | zero => rfl
  | succ room ih =>
    rw [framesFrom, visitsFrom, List.map_cons]
    congr 1
    cases (Visit.ofFrame memory budget start).next? with
    | none => rfl
    | some caller => exact ih caller

/-- The frames of the rounds are those of the chain. -/
theorem getElem?_framesFrom (room : Nat) (start : Frame) (i : Nat) :
    (framesFrom memory budget room start)[i]?
      = if i < room then Frame.chain memory budget start i else none := by
  induction room generalizing start i with
  | zero => simp [framesFrom]
  | succ room ih =>
    rw [framesFrom, Visit.next?_ofFrame]
    cases i with
    | zero => simp
    | succ i =>
      rw [List.getElem?_cons_succ, Frame.chain_succ]
      cases Frame.caller? memory budget start with
      | none => simp
      | some caller => simp only [ih, Option.bind_some, Nat.add_lt_add_iff_right]

/-- The visits from a frame on are those of the frames of its chain, as many
as there is room for. -/
theorem getElem?_visitsFrom (room : Nat) (start : Frame) (i : Nat) :
    (visitsFrom memory budget room start)[i]?
      = if i < room then
          (Frame.chain memory budget start i).map (Visit.ofFrame memory budget)
        else none := by
  rw [← map_framesFrom, List.getElem?_map, getElem?_framesFrom]
  split <;> rfl

/-- The last visit leads on exactly if the chain is longer than the room. -/
theorem next?_getLastD_visitsFrom (room : Nat) (start : Frame) (before : Visit)
    (h : before.next? = some start) :
    ((visitsFrom memory budget room start).getLastD before).next?
      = Frame.chain memory budget start room := by
  induction room generalizing start before with
  | zero => simpa [visitsFrom] using h
  | succ room ih =>
    cases hc : Frame.caller? memory budget start with
    | none =>
      rw [visitsFrom_succ_of_none memory budget hc, Frame.chain_succ_of_none memory budget hc,
        List.getLastD_cons, List.getLastD_nil, Visit.next?_ofFrame, hc]
    | some caller =>
      rw [visitsFrom_succ_of_caller memory budget hc, Frame.chain_succ_of_caller memory budget hc,
        List.getLastD_cons]
      apply ih
      rw [Visit.next?_ofFrame, hc]

@[simp] theorem innermost_run (limits : Limits) (cpu : Cpu) :
    (run limits cpu).innermost = Visit.innermost cpu limits.scanBudget := rfl

theorem callers_run (limits : Limits) (cpu : Cpu) :
    (run limits cpu).callers
      = visitsFrom cpu.memory limits.scanBudget (limits.frameCap - 1)
          (Frame.first cpu limits.scanBudget) := by
  simp only [run, Visit.next?_innermost]

/-- A walk ends at the cap exactly if its last visit leads on. -/
theorem ending_eq_capReached_iff (w : Walk) :
    w.ending = .capReached ↔ ((w.callers.getLastD w.innermost).next?).isSome := by
  simp only [ending, Visit.next?]
  cases (w.callers.getLastD w.innermost).outcome <;> simp only [reduceCtorEq, Option.isSome_some,
    Option.isSome_none, Bool.false_eq_true]

/-- A backtrace is truncated exactly if the walk ended at the cap. -/
theorem isTruncated_backtrace (w : Walk) :
    w.backtrace.isTruncated = true ↔ w.ending = .capReached := by
  have uncut : (w.visits.flatMap (Visit.diagnostics w.limits.scanBudget)).any Diagnostic.isCut
      = false := by
    rw [List.any_eq_false]
    intro d hd
    obtain ⟨v, -, hv⟩ := List.mem_flatMap.mp hd
    simp [Visit.isCut_of_mem_diagnostics _ hv]
  simp only [Backtrace.isTruncated, backtrace, List.any_append, uncut, Bool.false_or, cut]
  by_cases ended : w.ending = .capReached
  · simp [ended, Diagnostic.isCut]
  · simp [ended]

/-- The pcs of the callers are those of the chain that there is room for. -/
theorem getElem?_callers (limits : Limits) (cpu : Cpu) (i : Nat) :
    (cpu.backtrace limits).callers[i]?
      = if i < limits.frameCap - 1 then
          (Frame.chain cpu.memory limits.scanBudget (Frame.first cpu limits.scanBudget) i).map
            Frame.pc
        else none := by
  simp only [Cpu.backtrace, backtrace, callers_run, List.getElem?_map, getElem?_visitsFrom]
  split
  · rw [Option.map_map]
    congr 1
    funext frame
    exact Visit.pc_ofFrame _ _ frame
  · rfl

/-- A backtrace is truncated exactly if the chain is longer than the room. -/
theorem isTruncated_iff_chain (limits : Limits) (cpu : Cpu) :
    (cpu.backtrace limits).isTruncated = true
      ↔ (Frame.chain cpu.memory limits.scanBudget (Frame.first cpu limits.scanBudget)
          (limits.frameCap - 1)).isSome := by
  rw [Cpu.backtrace, isTruncated_backtrace, ending_eq_capReached_iff, callers_run, innermost_run,
    next?_getLastD_visitsFrom _ _ _ _ _ (Visit.next?_innermost limits.scanBudget cpu)]

/-- There are never more callers than there is room for. -/
theorem length_callers_le (limits : Limits) (cpu : Cpu) :
    (cpu.backtrace limits).callers.length ≤ limits.frameCap - 1 := by
  rw [← List.getElem?_eq_none_iff, getElem?_callers, if_neg (Nat.lt_irrefl _)]

/-- **Unwinding follows the calling chain**: behind the exact pc stand the pcs
of the chain, in order, up to the frame cap; the backtrace is truncated exactly
if the chain has a further frame. Under any limits the pc itself is listed. -/
theorem backtrace_follows_chain (limits : Limits) (cpu : Cpu) :
    let b := cpu.backtrace limits
    let room := max limits.frameCap 1 - 1
    let frames := Frame.chain cpu.memory limits.scanBudget (Frame.first cpu limits.scanBudget)
    b.pcs[0]? = some cpu.pc
      ∧ (∀ i, b.pcs[i + 1]? = if i < room then (frames i).map Frame.pc else none)
      ∧ (b.isTruncated = true ↔ (frames room).isSome)
      ∧ 0 < b.pcs.length ∧ b.pcs.length ≤ max limits.frameCap 1 := by
  intro b room frames
  have hroom : room = limits.frameCap - 1 := by omega
  rw [hroom]
  refine ⟨rfl, fun i => ?_, isTruncated_iff_chain limits cpu, Nat.succ_pos _, ?_⟩
  · exact getElem?_callers limits cpu i
  · have := length_callers_le limits cpu
    simp only [b, Backtrace.pcs, List.length_cons]
    omega

end Walk

end Unwind
