/-
Unwind.Proofs.Entry — a backtrace at the first instruction of a function.

A processor that is about to execute the first instruction of a function has not
moved its stack pointer yet. The scan from there meets the adjustment all the same,
since the word at the pc is the first one it reads, and the walk takes it off. So
the pc of the caller is right, and its stack pointer is too high by a frame: from
the caller's own spill slot on the walk reads other words than it would read from
the body of the function.

  §1 Scans         — a scan from an entry finds the adjustment and no spill
                     (`Scan.run_of_entry`).
  §2 Raised frames — two chains that begin with stack pointers an adjustment apart
                     stay so as long as they have the same pcs
                     (`Frame.lockstep_iff`).
  §3 Backtraces    — a function at its entry and in its body (`Entering`), where each
                     of the two backtraces goes (`callers_at_entry`), and a machine on
                     which they part (`callers_at_entry_differ`).
-/
import Unwind.Proofs.CallStack

namespace Unwind

/-! ## §1 Scans -/

namespace Scan

variable (memory : Memory) (start budget : UInt32)

/-- A search ends with what it has met up to the word it looks at, or goes on
below. -/
theorem search_ends_or_goes_on (found : Findings) (pc : UInt32) :
    ((search memory start budget found pc).raOffset
          = (found.note pc (Marker.ofWord? (memory.word pc))).raOffset
        ∧ (search memory start budget found pc).frameSize
          = (found.note pc (Marker.ofWord? (memory.word pc))).frameSize)
      ∨ (Marker.ofWord? (memory.word pc) ≠ some .returnRa
        ∧ search memory start budget found pc
          = search memory start budget (found.note pc (Marker.ofWord? (memory.word pc)))
              (pc - 4)) := by
  rw [search]
  split
  case isTrue returned => exact .inl ⟨rfl, rfl⟩
  case isFalse going =>
    split
    case isTrue complete => exact .inl ⟨rfl, rfl⟩
    case isFalse incomplete =>
      split
      case isTrue low => exact .inl ⟨rfl, rfl⟩
      case isFalse high =>
        split
        case isTrue beyond => exact .inl ⟨rfl, rfl⟩
        case isFalse covered => exact .inr ⟨going, rfl⟩

variable {memory} {start}

/-- A scan from the first instruction of a function meets the adjustment of the
stack pointer there. It does not meet the spill: that lies above, and below lie the
return of another function and its delay slot. -/
theorem run_of_entry {amount : Int16}
    (adjusts : memory.word start = Marker.word (.adjustSp amount))
    (delay : Marker.ofWord? (memory.word (start - 4)) = none)
    (below : memory.word (start - 8) = Marker.word .returnRa) :
    (run memory budget start).raOffset = none
      ∧ (run memory budget start).frameSize = some amount := by
  have second : start - 4 - 4 = start - 8 := by
    apply UInt32.toNat_inj.mp
    simp only [UInt32.toNat_sub, show (4 : UInt32).toNat = 4 from rfl,
      show (8 : UInt32).toNat = 8 from rfl]
    omega
  have met := search_ends_or_goes_on memory start budget .empty start
  rw [adjusts, Marker.ofWord?_word] at met
  rcases met with ends | ⟨-, goes⟩
  · exact ends
  rw [run, goes]
  have met := search_ends_or_goes_on memory start budget
    (Findings.empty.note start (some (.adjustSp amount))) (start - 4)
  rw [delay] at met
  rcases met with ends | ⟨-, goes⟩
  · exact ends
  rw [goes, second]
  have met := search_ends_or_goes_on memory start budget
    ((Findings.empty.note start (some (.adjustSp amount))).note (start - 4) none) (start - 8)
  rw [below, Marker.ofWord?_word] at met
  rcases met with ends | ⟨goes, -⟩
  · exact ends
  · exact absurd rfl goes

end Scan

/-! ## §2 Raised frames -/

namespace Frame

/-- A frame seen with the stack pointer from before an adjustment. -/
def raised (amount : Int16) (frame : Frame) : Frame :=
  ⟨frame.pc, frame.sp - .ofInt amount.toInt⟩

/-- The frames that a chain has before it gets to `n`, and those seen with a stack
pointer from before an adjustment, lead to callers with the same pcs. -/
def Lockstep (memory : Memory) (budget : UInt32) (amount : Int16) (start : Frame) (n : Nat) :
    Prop :=
  ∀ i < n, ∀ frame, chain memory budget start i = some frame →
    (caller? memory budget (frame.raised amount)).map pc
      = (caller? memory budget frame).map pc

variable {memory : Memory} {budget : UInt32} {amount : Int16} {start : Frame} {n : Nat}

theorem caller?_of_prologue {frame : Frame} {offset : UInt16} {size : Int16}
    (prologue : (Scan.run memory budget frame.pc).frame? = some (offset, size)) :
    caller? memory budget frame
      = if 8 ≤ memory.word (frame.sp + .ofNat offset.toNat) then
          some ⟨memory.word (frame.sp + .ofNat offset.toNat) - 8, frame.sp - .ofInt size.toInt⟩
        else none := by
  simp only [caller?, prologue]

/-- A caller that is found with the right pc is found with a stack pointer just as
far off as before: the size of a frame does not depend on the stack pointer. -/
theorem caller?_raised {frame : Frame}
    (same : (caller? memory budget (frame.raised amount)).map pc
      = (caller? memory budget frame).map pc) :
    caller? memory budget (frame.raised amount)
      = (caller? memory budget frame).map (raised amount) := by
  cases prologue : (Scan.run memory budget frame.pc).frame? with
  | none => simp only [caller?, raised, prologue, Option.map_none]
  | some found =>
    obtain ⟨offset, size⟩ := found
    have prologue' : (Scan.run memory budget (frame.raised amount).pc).frame?
        = some (offset, size) := prologue
    rw [caller?_of_prologue prologue, caller?_of_prologue prologue'] at same ⊢
    split at same
    case isTrue returns' =>
      split at same
      case isTrue returns =>
        have pcs := Option.some.inj same
        have apart : frame.sp - .ofInt amount.toInt - .ofInt size.toInt
            = frame.sp - .ofInt size.toInt - .ofInt amount.toInt := by grind
        rw [if_pos returns', if_pos returns, Option.map_some]
        exact congrArg some (congrArg₂ Frame.mk pcs apart)
      case isFalse => exact absurd same (by simp)
    case isFalse below' =>
      split at same
      case isTrue => exact absurd same (by simp)
      case isFalse below => rw [if_neg below', if_neg below, Option.map_none]

/-- In lockstep the raised chain is the chain, raised. -/
theorem chain_raised (lockstep : Lockstep memory budget amount start n) {i : Nat} (le : i ≤ n) :
    chain memory budget (start.raised amount) i
      = (chain memory budget start i).map (raised amount) := by
  induction i with
  | zero => rfl
  | succ i ih =>
    rw [chain, chain, ih (Nat.le_of_succ_le le)]
    cases here : chain memory budget start i with
    | none => rfl
    | some frame => exact caller?_raised (lockstep i le frame here)

/-- Two chains that begin at one pc with stack pointers an adjustment apart have the
same pcs as long as they are in lockstep. By induction on how far they go. -/
theorem lockstep_iff :
    Lockstep memory budget amount start n
      ↔ ∀ i ≤ n, (chain memory budget (start.raised amount) i).map pc
          = (chain memory budget start i).map pc := by
  constructor
  · intro lockstep i le
    rw [chain_raised lockstep le, Option.map_map]
    rfl
  · intro same
    induction n with
    | zero => exact fun i lt => absurd lt (Nat.not_lt_zero i)
    | succ n ih =>
      have before : Lockstep memory budget amount start n :=
        ih fun i le => same i (Nat.le_succ_of_le le)
      intro i lt frame here
      rcases Nat.lt_succ_iff_lt_or_eq.mp lt with lt | rfl
      · exact before i lt frame here
      · have next := same (i + 1) le_rfl
        rw [chain, chain, chain_raised before le_rfl, here] at next
        exact next

end Frame

/-! ## §3 Backtraces -/

/-- A function at its entry and in its body, called with the same stack pointer and
return address. One processor is about to execute the first instruction; the other
has run the prologue and stands behind it, and whatever its return address register
holds by now, what it held has been spilled. In front of the function lie the return
of another one and its delay slot. -/
structure Entering (budget : UInt32) (l : Layout) (sp ra : UInt32) (entered inside : Cpu) :
    Prop where
  memory : entered.memory = inside.memory
  around : l.Around inside.memory budget inside.pc
  spill_eq : l.spill = l.entry + 4
  spill_lt_pc : l.spill < inside.pc
  allocates : l.frameSize < 0
  slot_in_frame : (l.raOffset.toNat : Int) < -l.frameSize.toInt
  below : inside.memory.word (l.entry - 8) = Marker.word .returnRa
  delay : Marker.ofWord? (inside.memory.word (l.entry - 4)) = none
  entered_pc : entered.pc = l.entry
  entered_sp : entered.register .sp = sp
  entered_ra : entered.register .ra = ra
  inside_sp : inside.register .sp = sp + .ofInt l.frameSize.toInt
  spilled : inside.memory.word (sp + .ofInt l.frameSize.toInt + .ofNat l.raOffset.toNat) = ra

namespace Entering

variable {budget : UInt32} {l : Layout} {sp ra : UInt32} {entered inside : Cpu}
  (h : Entering budget l sp ra entered inside)
include h

/-- In the body the caller is found with its own stack pointer. -/
theorem first_inside : Frame.first inside budget = ⟨ra, sp⟩ := by
  have spilled : Spilled inside budget l ⟨ra, sp⟩ := by
    refine ⟨h.around, ?_, ?_⟩
    · rw [h.inside_sp]
      exact h.spilled
    · rw [h.inside_sp, UInt32.add_sub_cancel]
  exact spilled.first

/-- At the entry it is found with a stack pointer that is too high by the frame. -/
theorem first_entered :
    Frame.first entered budget = ⟨ra, sp - .ofInt l.frameSize.toInt⟩ := by
  obtain ⟨offset, size⟩ := Scan.run_of_entry budget h.around.adjusts h.delay h.below
  simp only [Frame.first, h.memory, h.entered_pc, offset, size, h.entered_sp, h.entered_ra]

end Entering

/-- **At its first instruction a function is not seen as in its body.** The first
caller is the same, and from there on the backtrace at the entry follows the chain
of a stack pointer that is too high by the frame of the function. The callers are
the same exactly if the two chains stay in lockstep; the second one is the return
address in the first caller's spill slot, and at the entry it is looked for a frame
above. -/
theorem callers_at_entry (limits : Limits) {l : Layout} {sp ra : UInt32} {entered inside : Cpu}
    (h : Entering limits.scanBudget l sp ra entered inside) :
    let memory := inside.memory
    let frames := Frame.chain memory limits.scanBudget
    let caller : Frame := ⟨ra, sp⟩
    let callers (cpu : Cpu) := (cpu.backtrace limits).callers
    (∀ i, (callers inside)[i]?
        = if i < limits.frameCap - 1 then (frames caller i).map Frame.pc else none)
      ∧ (∀ i, (callers entered)[i]?
        = if i < limits.frameCap - 1 then (frames (caller.raised l.frameSize) i).map Frame.pc
          else none)
      ∧ (callers entered).head? = (callers inside).head?
      ∧ (callers entered = callers inside
        ↔ Frame.Lockstep memory limits.scanBudget l.frameSize caller (limits.frameCap - 2))
      ∧ ∀ offset size, (Scan.run memory limits.scanBudget ra).frame? = some (offset, size) →
        3 ≤ limits.frameCap →
          let slot := sp + .ofNat offset.toNat
          let above := sp - .ofInt l.frameSize.toInt + .ofNat offset.toNat
          let back (word : UInt32) : Option UInt32 := if 8 ≤ word then some (word - 8) else none
          (callers inside)[1]? = back (memory.word slot)
            ∧ (callers entered)[1]? = back (memory.word above) := by
  intro memory frames caller callers
  have inBody (i : Nat) : (callers inside)[i]?
      = if i < limits.frameCap - 1 then (frames caller i).map Frame.pc else none := by
    rw [Walk.getElem?_callers, h.first_inside]
  have atEntry (i : Nat) : (callers entered)[i]?
      = if i < limits.frameCap - 1 then (frames (caller.raised l.frameSize) i).map Frame.pc
        else none := by
    rw [Walk.getElem?_callers, h.first_entered, h.memory]
    rfl
  refine ⟨inBody, atEntry, ?_, ?_, ?_⟩
  · rw [List.head?_eq_getElem?, List.head?_eq_getElem?, inBody, atEntry]
    rfl
  · rw [Frame.lockstep_iff]
    constructor
    · intro same i le
      cases i with
      | zero => rfl
      | succ i =>
        have room : i + 1 < limits.frameCap - 1 := by omega
        have listed := congrArg (·[i + 1]?) same
        simpa only [inBody, atEntry, if_pos room] using listed
    · intro same
      apply List.ext_getElem?
      intro i
      rw [inBody, atEntry]
      split
      case isTrue room => exact same i (by omega)
      case isFalse => rfl
  · intro offset size prologue room slot above back
    have second : 1 < limits.frameCap - 1 := by omega
    have listed (start : Frame) (pc : start.pc = ra) :
        (frames start 1).map Frame.pc = back (memory.word (start.sp + .ofNat offset.toNat)) := by
      have step : frames start 1 = start.caller? memory limits.scanBudget := rfl
      rw [step, Frame.caller?_of_prologue (pc ▸ prologue), apply_ite (Option.map Frame.pc)]
      rfl
    rw [inBody, atEntry, if_pos second, if_pos second]
    exact ⟨listed caller rfl, listed (caller.raised l.frameSize) rfl⟩

/-- Three functions, each called by the next one; the last one keeps its return
address in the register. In front of the first and the last lie other functions. -/
def nestedCalls : Memory :=
  .ofEntries 0
    [(0x80000ff8, Marker.word .returnRa),
      (0x80001000, Marker.word (.adjustSp (-24))), (0x80001004, Marker.word (.saveRa 20)),
      (0x80002000, Marker.word (.adjustSp (-32))), (0x80002004, Marker.word (.saveRa 28)),
      (0x80002ff8, Marker.word .returnRa),
      (0x800ffffc, 0x80002010), (0x8010001c, 0x80003008)]

/-- A machine about to execute the first instruction of the first of them. -/
def aboutToEnter : Cpu where
  pc := 0x80001000
  register r := if r = .sp then 0x80100000 else if r = .ra then 0x80002010 else 0
  memory := nestedCalls

/-- The same machine, two instructions later. -/
def justEntered : Cpu where
  pc := 0x80001008
  register r := if r = .sp then 0x800fffe8 else if r = .ra then 0x80002010 else 0
  memory := nestedCalls

theorem entering_nestedCalls :
    Entering 64 ⟨0x80001000, 0x80001004, -24, 20⟩ 0x80100000 0x80002010 aboutToEnter
      justEntered := by
  have body : ∀ address : UInt32, 0x80001000 ≤ address → address ≤ 0x80001008 →
      address.toNat % 4 = (0x80001008 : UInt32).toNat % 4 → address ≠ 0x80001000 →
      address ≠ 0x80001004 → address = 0x80001008 := by
    intro address low high aligned entry spill
    rw [UInt32.le_iff_toNat_le] at low high
    rw [ne_eq, ← UInt32.toNat_inj] at entry spill
    apply UInt32.toNat_inj.mp
    simp at *
    omega
  refine ⟨rfl, ⟨by decide, by decide, by decide, by decide, by decide, by decide, ?_, by decide⟩,
    by decide, by decide, by decide, by decide, by decide, by decide, rfl, by decide, by decide,
    by decide, by decide⟩
  intro address low high aligned entry spill
  rw [body address low high aligned entry spill]
  decide

/-- The caller's spill slot is where it is looked for in the body. A frame above it
there is nothing. -/
theorem callers_at_entry_nestedCalls :
    (justEntered.backtrace ⟨64, 8⟩).callers[1]? = some 0x80003000
      ∧ (aboutToEnter.backtrace ⟨64, 8⟩).callers[1]? = none
      ∧ ¬ Frame.Lockstep nestedCalls 64 (-24) ⟨0x80002010, 0x80100000⟩ 6 := by
  obtain ⟨-, -, -, alike, second⟩ := callers_at_entry ⟨64, 8⟩ entering_nestedCalls
  obtain ⟨inside, entered⟩ := second 28 (-32) (by decide +kernel) (by decide)
  have found : (justEntered.backtrace ⟨64, 8⟩).callers[1]? = some 0x80003000 := inside
  have lost : (aboutToEnter.backtrace ⟨64, 8⟩).callers[1]? = none := entered
  refine ⟨found, lost, fun lockstep => ?_⟩
  have same : (aboutToEnter.backtrace ⟨64, 8⟩).callers = (justEntered.backtrace ⟨64, 8⟩).callers :=
    alike.mpr lockstep
  rw [← same, lost] at found
  exact absurd found (by simp)

/-- A backtrace at the entry of a function does not always have the callers of one in
its body: the machine about to enter loses all but the first. -/
theorem callers_at_entry_differ :
    ¬ (∀ (limits : Limits) (l : Layout) (sp ra : UInt32) (entered inside : Cpu),
        Entering limits.scanBudget l sp ra entered inside →
          (entered.backtrace limits).callers = (inside.backtrace limits).callers)
      ∧ (aboutToEnter.backtrace ⟨64, 8⟩).callers = [0x80002010]
      ∧ (justEntered.backtrace ⟨64, 8⟩).callers = [0x80002010, 0x80003000] := by
  have entered : (aboutToEnter.backtrace ⟨64, 8⟩).callers = [0x80002010] := by decide +kernel
  have inside : (justEntered.backtrace ⟨64, 8⟩).callers = [0x80002010, 0x80003000] := by
    decide +kernel
  refine ⟨fun agree => ?_, entered, inside⟩
  have same := agree ⟨64, 8⟩ _ _ _ _ _ entering_nestedCalls
  rw [entered, inside] at same
  exact absurd same (by decide)

end Unwind
