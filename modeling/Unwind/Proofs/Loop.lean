/-
Unwind.Proofs.Loop — the walk as a loop that writes its lists as it goes.

A `Walk` keeps its visits, and everything that is told of it is read off them
afterwards. Here the walk is the loop that one would write by hand: it goes from
frame to frame and adds to four lists, of pcs, of diagnostics, of memory accesses
and of reports, each thing at the moment it happens. Both come to the same
(`walk_eq`). So what is proved of the diagnostics, the log and the memory accesses
of a `Walk` is true of what such a loop writes down.

  §1 Entries — what is written down, and the loop.
  §2 Drafts  — as long as a walk goes on, the lists are those of its visits so far
               (`draft_concat`), and one round adds a visit (`loop_of_room`); so the
               loop completes them (`loop_draft`, by induction on the room that is left).
  §3 Walks   — `walk_eq`.
-/
import Unwind.Walk

namespace Unwind

/-! ## §1 Entries -/

/-- What has been written down of a walk. -/
structure Ledger where
  pcs : List UInt32
  diagnostics : List Diagnostic
  reads : List UInt32
  reports : List Report

namespace Ledger

/-- Lists an entry of the call stack. -/
def list (l : Ledger) (pc : UInt32) : Ledger := { l with pcs := l.pcs ++ [pc] }

/-- Notes a memory access. -/
def read (l : Ledger) (address : UInt32) : Ledger := { l with reads := l.reads ++ [address] }

/-- Adds a report to the log. -/
def report (l : Ledger) (r : Report) : Ledger := { l with reports := l.reports ++ [r] }

/-- Notes a diagnostic. -/
def note (l : Ledger) (d : Diagnostic) : Ledger := { l with diagnostics := l.diagnostics ++ [d] }

/-- Notes a diagnostic and reports it. -/
def warn (l : Ledger) (d : Diagnostic) : Ledger := (l.report (.diagnosed d)).note d

/-- Writes down the scan from a pc: what it read and reported, and what went wrong. -/
def analyze (l : Ledger) (budget pc : UInt32) (scan : Scan) : Ledger :=
  let l := { l with
    reads := l.reads ++ scan.reads.toList
    reports := l.reports ++ scan.reports.toList }
  let l := if scan.stop = .budgetExhausted then l.note (.scanLimitExceeded pc budget) else l
  if scan.isIncomplete then l.warn (.incompletePrologue pc scan.raOffset scan.frameSize) else l

theorem pcs_analyze (l : Ledger) (budget pc : UInt32) (scan : Scan) :
    (l.analyze budget pc scan).pcs = l.pcs := by
  unfold analyze
  split <;> split <;> rfl

/-- Goes on to a frame, and from there to its callers, as long as there is room. -/
def loop (memory : Memory) (limits : Limits) (pc sp : UInt32) (l : Ledger) : Ledger :=
  if limits.frameCap ≤ l.pcs.length then l.warn (.frameCapExceeded limits.frameCap)
  else
    let scan := Scan.run memory limits.scanBudget pc
    let l' := (l.list pc).analyze limits.scanBudget pc scan
    match scan.frame? with
    | none => l'.report (.noPrologue pc l'.pcs.length)
    | some (offset, size) =>
      let slot := spillSlot sp offset
      let ra := memory.word slot
      if ra < callLength then (l'.read slot).report (.returnBelowZero ra l'.pcs.length)
      else
        let caller := ra - callLength
        let sp := callerSp sp size
        loop memory limits caller sp ((l'.read slot).report (.unwound caller sp))
termination_by limits.frameCap - l.pcs.length
decreasing_by
  simp only [report, read, pcs_analyze, list, List.length_append, List.length_singleton]
  omega

/-- The walk of a processor's call stack, written down. -/
def walk (limits : Limits) (cpu : Cpu) : Ledger :=
  let scan := Scan.run cpu.memory limits.scanBudget cpu.pc
  let l : Ledger := analyze ⟨[cpu.pc], [], [], []⟩ limits.scanBudget cpu.pc scan
  let ra := cpu.register .ra
  let sp := cpu.register .sp
  let (ra, l) := match scan.raOffset with
    | some offset => (cpu.memory.word (spillSlot sp offset), l.read (spillSlot sp offset))
    | none => (ra, l)
  let sp := match scan.frameSize with
    | some size => callerSp sp size
    | none => sp
  loop cpu.memory limits ra sp l

end Ledger

/-! ## §2 Drafts -/

namespace Walk

/-- What has been written down of a walk that goes on. -/
def draft (w : Walk) : Ledger where
  pcs := w.visits.map Visit.pc
  diagnostics := w.visits.flatMap (Visit.diagnostics w.limits.scanBudget)
  reads := w.reads
  reports := w.innermost.scanReports
    ++ w.callers.flatMap fun v => v.scanReports ++ v.stepReports

/-- What has been written down of a walk in the end. -/
def ledger (w : Walk) : Ledger where
  pcs := w.backtrace.pcs
  diagnostics := w.backtrace.diagnostics
  reads := w.reads
  reports := w.reports

theorem length_pcs_draft (w : Walk) : w.draft.pcs.length = w.visits.length := List.length_map _

/-- The end of a walk is written down last. -/
theorem ledger_eq (w : Walk) : w.ledger = match w.ending with
    | .capReached => w.draft.warn (.frameCapExceeded w.limits.frameCap)
    | .noPrologue pc => w.draft.report (.noPrologue pc w.draft.pcs.length)
    | .returnBelowZero ra => w.draft.report (.returnBelowZero ra w.draft.pcs.length) := by
  rw [length_pcs_draft]
  unfold ledger backtrace reports endReport cut
  cases w.ending <;> simp [draft, Ledger.warn, Ledger.report, Ledger.note, visits, Backtrace.pcs]

/-- What a visit adds to the lists while the prologue is looked for. -/
theorem analyze_eq (l : Ledger) (budget : UInt32) (v : Visit) :
    l.analyze budget v.pc v.scan
      = { l with
          diagnostics := l.diagnostics ++ v.diagnostics budget
          reads := l.reads ++ v.scan.reads.toList
          reports := l.reports ++ v.scanReports } := by
  unfold Ledger.analyze Visit.diagnostics Visit.scanReports Visit.incomplete
  split <;> split <;> simp [Ledger.note, Ledger.warn, Ledger.report]

/-- The lists of the innermost visit alone. -/
theorem draft_nil (limits : Limits) (v : Visit) :
    draft ⟨limits, v, []⟩
      = let l := Ledger.analyze ⟨[v.pc], [], [], []⟩ limits.scanBudget v.pc v.scan
        { l with reads := l.reads ++ v.slot.toList } := by
  simp [analyze_eq, draft, visits, reads, Visit.reads]

/-- A further visit adds to the lists what the loop writes down on it. -/
theorem draft_concat (w : Walk) (v : Visit) :
    { w with callers := w.callers ++ [v] }.draft
      = let l := (w.draft.list v.pc).analyze w.limits.scanBudget v.pc v.scan
        { l with
          reads := l.reads ++ v.slot.toList
          reports := l.reports ++ v.stepReports } := by
  simp [analyze_eq, draft, visits, reads, Ledger.list, Visit.reads]

/-- One round of the loop: it goes where the visit of the frame leads. -/
theorem loop_of_room (memory : Memory) (w : Walk) (frame : Frame)
    (room : w.draft.pcs.length < w.limits.frameCap) :
    Ledger.loop memory w.limits frame.pc frame.sp w.draft
      = let v := Visit.ofFrame memory w.limits.scanBudget frame
        let l := { w with callers := w.callers ++ [v] }.draft
        match v.outcome with
        | .caller caller => Ledger.loop memory w.limits caller.pc caller.sp l
        | .noPrologue => l.report (.noPrologue v.pc l.pcs.length)
        | .returnBelowZero ra => l.report (.returnBelowZero ra l.pcs.length) := by
  rw [Ledger.loop, if_neg (Nat.not_le.mpr room)]
  simp only [draft_concat, Visit.ofFrame]
  cases Scan.frame? (Scan.run memory w.limits.scanBudget frame.pc) with
  | none => simp [Visit.stepReports, Visit.next?]
  | some found =>
    by_cases low : memory.word (spillSlot frame.sp found.1) < callLength <;>
      simp [low, Visit.stepReports, Visit.next?, Ledger.read, Ledger.report]

/-- From any frame on, the loop completes the lists of the walk so far to those of
the whole walk. -/
theorem loop_draft (memory : Memory) (room : Nat) (w : Walk) (frame : Frame)
    (leads : (w.callers.getLastD w.innermost).outcome = .caller frame)
    (left : w.limits.frameCap - w.visits.length = room) :
    Ledger.loop memory w.limits frame.pc frame.sp w.draft
      = { w with
          callers := w.callers ++ visitsFrom memory w.limits.scanBudget room frame }.ledger := by
  induction room generalizing w frame with
  | zero =>
    have full : w.limits.frameCap ≤ w.draft.pcs.length := by
      rw [length_pcs_draft]
      omega
    rw [Ledger.loop, if_pos full, visitsFrom, List.append_nil, ledger_eq]
    simp only [ending, leads]
  | succ room ih =>
    rw [loop_of_room _ _ _ (by rw [length_pcs_draft]; omega), visitsFrom]
    generalize Visit.ofFrame memory w.limits.scanBudget frame = v
    cases outcome : v.outcome with
    | caller caller =>
      have rest := ih { w with callers := w.callers ++ [v] } caller (by simpa using outcome)
        (by simp [visits] at left ⊢; omega)
      simpa [Visit.next?, outcome] using rest
    | noPrologue => simp [ledger_eq, ending, Visit.next?, outcome]
    | returnBelowZero ra => simp [ledger_eq, ending, Visit.next?, outcome]

/-! ## §3 Walks -/

/-- A walk is what a loop writes down that adds to its lists as it goes: the same
pcs, diagnostics, memory accesses and reports, in the same order. -/
theorem walk_eq (limits : Limits) (cpu : Cpu) :
    Ledger.walk limits cpu = (run limits cpu).ledger := by
  -- The innermost visit leads on whatever its scan has found, so there is a loop to enter.
  have rest : _ = (run limits cpu).ledger := loop_draft cpu.memory (limits.frameCap - 1)
    ⟨limits, Visit.innermost cpu limits.scanBudget, []⟩ _ rfl rfl
  rw [← rest, draft_nil]
  simp only [Ledger.walk, Visit.innermost]
  cases (Scan.run cpu.memory limits.scanBudget cpu.pc).raOffset <;>
    cases (Scan.run cpu.memory limits.scanBudget cpu.pc).frameSize <;>
    simp [Ledger.read]

end Walk

end Unwind
