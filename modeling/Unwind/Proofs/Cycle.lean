/-
Unwind.Proofs.Cycle — a call stack that loops back on itself.

The loop of a walk begins each round with a frame, a pc and a stack pointer, and
everything it does from there on is decided by them. So a frame that comes back
comes back for ever, with all that lay between: there is no end for the walk to
find but the frame cap.

  §1 Chains — a chain with a frame that comes back is periodic (`chain_periodic`)
              and has no end (`isSome_chain_of_repeat`); and since there are finitely
              many frames, every chain without end is one (`exists_repeat`).
  §2 Rounds — the frames with which the loop begins its rounds (`frames`).
  §3 Walks  — `looping_stack_fills_cap`, and `loops_iff_always_truncated`: only a
              stack that loops is cut at every frame cap.
-/
import Unwind.Proofs.Cut
import Mathlib.Data.Fintype.Pigeonhole
import Mathlib.Data.Fintype.Prod

namespace Unwind

/-! ## §1 Chains -/

namespace Frame

variable {memory : Memory} {budget : UInt32} {start : Frame} {i j : Nat}

/-- A chain goes on from each of its frames as the chain from that frame. -/
theorem chain_add (m n : Nat) :
    chain memory budget start (m + n)
      = (chain memory budget start m).bind fun frame => chain memory budget frame n := by
  induction n with
  | zero => simp
  | succ n ih =>
    rw [← Nat.add_assoc, chain, ih, Option.bind_assoc]
    rfl

/-- A frame that comes back makes the chain periodic from where it first stood. -/
theorem chain_periodic (le : i ≤ j)
    (same : chain memory budget start i = chain memory budget start j) {k : Nat} (later : i ≤ k) :
    chain memory budget start (k + (j - i)) = chain memory budget start k := by
  have back : k + (j - i) = j + (k - i) := by omega
  have forth : i + (k - i) = k := by omega
  calc chain memory budget start (k + (j - i))
      = (chain memory budget start j).bind fun frame => chain memory budget frame (k - i) := by
        rw [back, chain_add]
    _ = (chain memory budget start i).bind fun frame => chain memory budget frame (k - i) := by
        rw [same]
    _ = chain memory budget start k := by rw [← chain_add, forth]

/-- Such a chain has no end: by strong induction, each of its frames stands either
before the one that came back or a period behind another. -/
theorem isSome_chain_of_repeat (lt : i < j)
    (same : chain memory budget start i = chain memory budget start j)
    (live : (chain memory budget start j).isSome = true) (n : Nat) :
    (chain memory budget start n).isSome = true := by
  induction n using Nat.strong_induction_on with
  | _ n ih =>
    rcases Nat.lt_or_ge n j with before | behind
    · by_contra ended
      rw [chain_none_of_le _ _ (Nat.le_of_lt before) (Option.not_isSome_iff_eq_none.mp ended)]
        at live
      cases live
    · have period : n = (n - (j - i)) + (j - i) := by omega
      rw [period, chain_periodic (Nat.le_of_lt lt) same (by omega)]
      exact ih _ (by omega)

/-- There are finitely many frames. -/
instance : Finite Frame :=
  Finite.of_injective (fun frame => (frame.pc.toFin, frame.sp.toFin)) fun f g same => by
    have pc := UInt32.toFin_inj.mp (congrArg Prod.fst same)
    have sp := UInt32.toFin_inj.mp (congrArg Prod.snd same)
    exact congrArg₂ Frame.mk pc sp

/-- A chain without end has a frame that comes back. -/
theorem exists_repeat (endless : ∀ n, (chain memory budget start n).isSome = true) :
    ∃ i j frame, i < j ∧ chain memory budget start i = some frame
      ∧ chain memory budget start j = some frame := by
  obtain ⟨i, j, differ, same⟩ := Finite.exists_ne_map_eq_of_infinite fun n =>
    (chain memory budget start n).get (endless n)
  have there (n : Nat) : chain memory budget start n
      = some ((chain memory budget start n).get (endless n)) := (Option.some_get _).symm
  rcases Nat.lt_or_gt_of_ne differ with lt | gt
  · exact ⟨i, j, _, lt, there i, same ▸ there j⟩
  · exact ⟨j, i, _, gt, there j, same ▸ there i⟩

end Frame

/-! ## §2 Rounds -/

namespace Walk

/-- The frames with which the loop of a walk begins its rounds. Each round lists the
pc of its frame, the first of them as the entry behind the innermost one. -/
def frames (limits : Limits) (cpu : Cpu) : List Frame :=
  framesFrom cpu.memory limits.scanBudget (limits.frameCap - 1)
    (Frame.first cpu limits.scanBudget)

/-- Each round is the visit of its frame. -/
theorem map_frames (limits : Limits) (cpu : Cpu) :
    (frames limits cpu).map (Visit.ofFrame cpu.memory limits.scanBudget)
      = (run limits cpu).callers := by
  rw [callers_run, frames, map_framesFrom]

/-- The loop begins its rounds with the frames of the chain. -/
theorem chain_of_frames {limits : Limits} {cpu : Cpu} {i : Nat} {frame : Frame}
    (h : (frames limits cpu)[i]? = some frame) :
    Frame.chain cpu.memory limits.scanBudget (Frame.first cpu limits.scanBudget) i
      = some frame := by
  rw [frames, getElem?_framesFrom] at h
  split at h
  · exact h
  · cases h

/-! ## §3 Walks -/

/-- A walk of a stack without end has as many entries as the frame cap admits. -/
theorem length_pcs_of_endless {cpu : Cpu} {budget : UInt32}
    (endless : ∀ n, (Frame.chain cpu.memory budget (Frame.first cpu budget) n).isSome = true)
    {cap : Nat} (pos : 1 ≤ cap) : (cpu.backtrace ⟨budget, cap⟩).pcs.length = cap := by
  rcases Nat.eq_or_lt_of_le pos with rfl | more
  · have none := length_callers_le ⟨budget, 1⟩ cpu
    rw [Backtrace.pcs, List.length_cons, Nat.le_zero.mp none]
  · obtain ⟨cap, rfl⟩ : ∃ n, cap = n + 1 := ⟨cap - 1, by omega⟩
    exact (length_pcs_eq_succ_iff cpu budget (Nat.lt_succ_iff.mp more)).mpr (endless _)

/-- **A stack that loops back on itself is cut at exactly the frame cap**, under every
frame cap: if two rounds of the loop, those of the entries `i` and `j`, begin with the
same pc and stack pointer, the entries from `i` on repeat with the period `j - i`, and
there are as many of them as there is room for. (A round is the visit of the frame that
it begins with, and the frames of a walk are those of its rounds.) -/
theorem looping_stack_fills_cap (cpu : Cpu) (budget : UInt32) {cap i j : Nat} {frame : Frame}
    (first : 1 ≤ i) (lt : i < j) (here : (frames ⟨budget, cap⟩ cpu)[i - 1]? = some frame)
    (again : (frames ⟨budget, cap⟩ cpu)[j - 1]? = some frame) {cap' : Nat} (pos : 1 ≤ cap') :
    let b := cpu.backtrace ⟨budget, cap'⟩
    b.pcs.length = cap' ∧ b.isTruncated = true
      ∧ (∀ k, i ≤ k → k + (j - i) < b.pcs.length → b.pcs[k + (j - i)]? = b.pcs[k]?)
      ∧ (run ⟨budget, cap'⟩ cpu).callers
        = (frames ⟨budget, cap'⟩ cpu).map (Visit.ofFrame cpu.memory budget) := by
  intro b
  have there := chain_of_frames here
  have back := chain_of_frames again
  have same := there.trans back.symm
  have later : i - 1 < j - 1 := by omega
  have endless := Frame.isSome_chain_of_repeat later same (by rw [back]; rfl)
  have length : b.pcs.length = cap' := length_pcs_of_endless endless pos
  refine ⟨length, (isTruncated_iff_chain _ cpu).mpr (endless _), fun k le room => ?_,
    (map_frames ⟨budget, cap'⟩ cpu).symm⟩
  obtain ⟨k, rfl⟩ : ∃ n, k = n + 1 := ⟨k - 1, by omega⟩
  have shift : k + 1 + (j - i) = k + ((j - 1) - (i - 1)) + 1 := by omega
  have periodic := Frame.chain_periodic (Nat.le_of_lt later) same (show i - 1 ≤ k by omega)
  have listed : k + ((j - 1) - (i - 1)) < cap' - 1 := by omega
  rw [shift, Backtrace.pcs, List.getElem?_cons_succ, List.getElem?_cons_succ, getElem?_callers,
    getElem?_callers, if_pos listed, if_pos (Nat.lt_of_le_of_lt (Nat.le_add_right k _) listed)]
  exact congrArg (Option.map Frame.pc) periodic

/-- A machine in the first of two functions that seem to have called each other. What
the one takes off the stack pointer, the other puts back. -/
def callingEachOther : Cpu where
  pc := 0x80001010
  register r := if r = .sp then 0x80100000 else 0
  memory := .ofEntries 0
    [(0x80001000, Marker.word (.adjustSp (-16))), (0x80001004, Marker.word (.saveRa 4)),
      (0x80002000, Marker.word (.adjustSp 16)), (0x80002004, Marker.word (.saveRa 8)),
      (0x80100004, 0x80002010), (0x80100018, 0x80001018)]

/-- Its third entry comes back as the fifth. -/
theorem looping_stack_fills_cap_callingEachOther :
    (frames ⟨64, 5⟩ callingEachOther)[2 - 1]? = some ⟨0x80001010, 0x80100000⟩
      ∧ (frames ⟨64, 5⟩ callingEachOther)[4 - 1]? = some ⟨0x80001010, 0x80100000⟩
      ∧ (callingEachOther.backtrace ⟨64, 1000⟩).pcs.length = 1000
      ∧ (callingEachOther.backtrace ⟨64, 1000⟩).isTruncated = true
      ∧ (callingEachOther.backtrace ⟨64, 1000⟩).pcs[4]?
        = (callingEachOther.backtrace ⟨64, 1000⟩).pcs[2]? := by
  have here : (frames ⟨64, 5⟩ callingEachOther)[2 - 1]? = some ⟨0x80001010, 0x80100000⟩ := by
    decide +kernel
  have again : (frames ⟨64, 5⟩ callingEachOther)[4 - 1]? = some ⟨0x80001010, 0x80100000⟩ := by
    decide +kernel
  obtain ⟨length, truncated, periodic, -⟩ :=
    looping_stack_fills_cap callingEachOther 64 (show 1 ≤ 2 by decide) (show 2 < 4 by decide)
      here again (show 1 ≤ 1000 by decide)
  exact ⟨here, again, length, truncated, periodic 2 le_rfl (by rw [length]; decide)⟩

/-- Only a stack that loops is cut at every frame cap. -/
theorem loops_iff_always_truncated (cpu : Cpu) (budget : UInt32) :
    (∃ (cap i j : Nat) (frame : Frame), i < j
        ∧ (frames ⟨budget, cap⟩ cpu)[i]? = some frame
        ∧ (frames ⟨budget, cap⟩ cpu)[j]? = some frame)
      ↔ ∀ cap, (cpu.backtrace ⟨budget, cap⟩).isTruncated = true := by
  constructor
  · rintro ⟨cap, i, j, frame, lt, here, again⟩ cap'
    have back := chain_of_frames again
    rw [isTruncated_iff_chain]
    exact Frame.isSome_chain_of_repeat lt ((chain_of_frames here).trans back.symm)
      (by rw [back]; rfl) _
  · intro truncated
    have endless (n : Nat) :
        (Frame.chain cpu.memory budget (Frame.first cpu budget) n).isSome = true :=
      (isTruncated_iff_chain ⟨budget, n + 1⟩ cpu).mp (truncated (n + 1))
    obtain ⟨i, j, frame, lt, here, again⟩ := Frame.exists_repeat endless
    refine ⟨j + 2, i, j, frame, lt, ?_, ?_⟩
    · rw [frames, getElem?_framesFrom, if_pos (by dsimp only; omega)]
      exact here
    · rw [frames, getElem?_framesFrom, if_pos (by dsimp only; omega)]
      exact again

end Walk

end Unwind
