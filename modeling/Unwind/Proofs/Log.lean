/-
Unwind.Proofs.Log — the log of a walk agrees with its result.

What a walk reports and what it returns are two records of the same visits: a
scan reports its own failure, the other diagnostics of a visit are reported as
they are noted, and how a walk ends is reported by itself.

  §1 Reports — which reports tell of a diagnostic, of a caller, or of the end.
  §2 Visits  — what a visit tells of its scan (`told_scanReports`).
  §3 Walks   — all that a walk tells (`told_run`), and so which warnings there
               are (`warnings_run`), which callers (`getElem?_unwound`), and that
               the end is told once (`ends_run`).
  §4 Ends    — how a walk ends (`Concludes`), and `log_agrees_with_result`.
-/
import Unwind.Proofs.Diagnosis

namespace Unwind

/-! ## §1 Reports -/

/-- The report that tells of a diagnostic. A scan tells by itself that it has
given up; the rest is told as it is noted. -/
def Diagnostic.warning : Diagnostic → Report
  | scanLimitExceeded start _ => .scanFailed start
  | incompletePrologue pc raOffset frameSize =>
    .diagnosed (.incompletePrologue pc raOffset frameSize)
  | frameCapExceeded cap => .diagnosed (.frameCapExceeded cap)

/-- What the log says of a diagnostic. A scan that has given up says so before it
is known how much it has scanned. -/
def Diagnostic.announcement : Diagnostic → String
  | scanLimitExceeded start _ =>
    s!"failed to find function prologue starting at {Hex.address .upper start}"
  | d => d.message

namespace Report

/-- Whether a report is more than a trace. -/
def isTold (r : Report) : Bool := r.severity ≠ .trace

def isWarning (r : Report) : Bool := r.severity = .warn

/-- Whether a report says that a walk goes on with a caller. -/
def isUnwound : Report → Bool
  | unwound .. => true
  | _ => false

/-- Whether a report says that a walk ends. -/
def isEnd : Report → Bool
  | noPrologue .. | returnBelowZero .. | diagnosed (.frameCapExceeded _) => true
  | _ => false

/-- The report that a walk goes on with a caller. -/
def goesOn (frame : Frame) : Report := .unwound frame.pc frame.sp

theorem shownAt_warn (r : Report) : r.shownAt .warn = r.isWarning := by
  cases r <;> rfl

theorem isTold_of_isWarning {r : Report} (h : r.isWarning = true) : r.isTold = true := by
  cases r <;> first | rfl | cases h

theorem isTold_of_isEnd {r : Report} (h : r.isEnd = true) : r.isTold = true := by
  cases r <;> first | rfl | cases h

theorem isTold_of_isUnwound {r : Report} (h : r.isUnwound = true) : r.isTold = true := by
  cases r <;> first | rfl | cases h

end Report

namespace Diagnostic

variable (d : Diagnostic)

@[simp] theorem isWarning_warning : d.warning.isWarning = true := by cases d <;> rfl

@[simp] theorem isUnwound_warning : d.warning.isUnwound = false := by cases d <;> rfl

theorem text_warning : d.warning.text = "WARN " ++ d.announcement := by cases d <;> rfl

/-- Of the diagnostics only a cut tells of the end. -/
@[simp] theorem isEnd_warning : d.warning.isEnd = d.isCut := by cases d <;> rfl

end Diagnostic

/-! ## §2 Visits -/

namespace Visit

/-- What a visit tells of its scan is its diagnostics. -/
theorem told_scanReports {memory : Memory} {budget : UInt32} {v : Visit}
    (scan : v.scan = Scan.run memory budget v.pc) :
    v.scanReports.filter Report.isTold = (v.diagnostics budget).map Diagnostic.warning := by
  obtain ⟨traces, told, quiet⟩ := Scan.reports_run memory v.pc budget
  rw [← scan] at told
  have failed : (Scan.failure v.pc v.scan.stop).filter Report.isTold
      = (if v.scan.stop = .budgetExhausted
          then [Diagnostic.scanLimitExceeded v.pc budget] else []).map Diagnostic.warning := by
    cases v.scan.stop <;> rfl
  have half : (v.incomplete.map Report.diagnosed).filter Report.isTold
      = v.incomplete.map Diagnostic.warning := by
    unfold incomplete
    split <;> rfl
  have untold : traces.filter Report.isTold = [] := by
    rw [List.filter_eq_nil_iff]
    intro r hr
    simp [Report.isTold, quiet r hr]
  rw [scanReports, told, List.filter_append, List.filter_append, untold, failed, half,
    diagnostics, List.map_append, List.nil_append]

/-- Going on to the caller is told, and nothing else. -/
theorem told_stepReports (v : Visit) :
    v.stepReports.filter Report.isTold = v.next?.toList.map Report.goesOn := by
  unfold stepReports
  cases v.next? <;> rfl

end Visit

/-! ## §3 Walks -/

namespace Walk

/-- All that a walk tells: of each entry its diagnostics, and of each but the first
where it leads; at last how the walk ends. -/
def story (w : Walk) : List Report :=
  (w.innermost.diagnostics w.limits.scanBudget).map Diagnostic.warning
    ++ w.callers.flatMap (fun v =>
      (v.diagnostics w.limits.scanBudget).map Diagnostic.warning
        ++ v.next?.toList.map Report.goesOn)
    ++ [w.endReport]

variable (limits : Limits) (cpu : Cpu)

theorem told_run :
    (run limits cpu).reports.filter Report.isTold = (run limits cpu).story := by
  have scan : (run limits cpu).innermost.scan
      = Scan.run cpu.memory limits.scanBudget (run limits cpu).innermost.pc :=
    scan_of_mem_visits List.mem_cons_self
  have innermost := Visit.told_scanReports scan
  have callers : ∀ v ∈ (run limits cpu).callers,
      (v.scanReports ++ v.stepReports).filter Report.isTold
        = (v.diagnostics limits.scanBudget).map Diagnostic.warning
          ++ v.next?.toList.map Report.goesOn := by
    intro v hv
    have scan := scan_of_mem_visits (List.mem_cons_of_mem _ hv)
    rw [List.filter_append, Visit.told_scanReports scan, v.told_stepReports]
  have last : [(run limits cpu).endReport].filter Report.isTold
      = [(run limits cpu).endReport] := by
    unfold endReport
    cases (run limits cpu).ending <;> rfl
  rw [reports, List.filter_append, List.filter_append, innermost, List.filter_flatMap,
    List.flatMap_congr callers, last]
  rfl

/-- To pick out some of what a walk tells is to pick it out of its story. -/
theorem filter_reports {p : Report → Bool} (told : ∀ r, p r = true → r.isTold = true) :
    (run limits cpu).reports.filter p = (run limits cpu).story.filter p := by
  rw [← told_run, List.filter_filter]
  refine List.filter_congr fun r _ => ?_
  cases picked : p r with
  | false => rfl
  | true => exact (told r picked).symm

/-- The warnings of a walk are its diagnostics, in order. -/
theorem warnings_run :
    (run limits cpu).reports.filter Report.isWarning
      = (cpu.backtrace limits).diagnostics.map Diagnostic.warning := by
  have warned (ds : List Diagnostic) :
      (ds.map Diagnostic.warning).filter Report.isWarning = ds.map Diagnostic.warning := by
    rw [List.filter_eq_self]
    simp
  have silent (frames : List Frame) :
      (frames.map Report.goesOn).filter Report.isWarning = [] := by
    rw [List.filter_eq_nil_iff]
    simp [Report.goesOn, Report.isWarning, Report.severity]
  have last : [(run limits cpu).endReport].filter Report.isWarning
      = (run limits cpu).cut.map Diagnostic.warning := by
    unfold endReport cut
    cases (run limits cpu).ending <;> rfl
  rw [filter_reports limits cpu fun _ => Report.isTold_of_isWarning, story]
  simp only [List.filter_append, List.filter_flatMap, warned, silent, last, List.append_nil]
  rw [← List.map_flatMap, ← List.map_append, ← List.map_append]
  rfl

/-- The lines of a log of warnings are those of the diagnostics. -/
theorem log_warn_run :
    Report.log .warn (run limits cpu).reports
      = (cpu.backtrace limits).diagnostics.map fun d => "WARN " ++ d.announcement := by
  rw [Report.log, List.filter_congr fun r _ => r.shownAt_warn, warnings_run, List.map_map]
  exact List.map_congr_left fun d _ => d.text_warning

/-- The callers that a walk is said to go on with are those its visits lead to. -/
theorem unwound_run :
    (run limits cpu).reports.filter Report.isUnwound
      = ((run limits cpu).callers.filterMap Visit.next?).map Report.goesOn := by
  have silent (ds : List Diagnostic) :
      (ds.map Diagnostic.warning).filter Report.isUnwound = [] := by
    rw [List.filter_eq_nil_iff]
    simp
  have led (frames : List Frame) :
      (frames.map Report.goesOn).filter Report.isUnwound = frames.map Report.goesOn := by
    rw [List.filter_eq_self]
    simp [Report.goesOn, Report.isUnwound]
  have last : [(run limits cpu).endReport].filter Report.isUnwound = [] := by
    unfold endReport
    cases (run limits cpu).ending <;> rfl
  rw [filter_reports limits cpu fun _ => Report.isTold_of_isUnwound, story]
  simp only [List.filter_append, List.filter_flatMap, silent, led, last, List.append_nil,
    List.nil_append]
  rw [← List.map_flatMap, List.filterMap_eq_flatMap_toList]

/-- The end is told once. -/
theorem ends_run :
    (run limits cpu).reports.filter Report.isEnd = [(run limits cpu).endReport] := by
  have silent (frames : List Frame) : (frames.map Report.goesOn).filter Report.isEnd = [] := by
    rw [List.filter_eq_nil_iff]
    simp [Report.goesOn, Report.isEnd]
  have uncut (v : Visit) : ((v.diagnostics (run limits cpu).limits.scanBudget).map
      Diagnostic.warning).filter Report.isEnd = [] := by
    rw [List.filter_eq_nil_iff]
    simpa using fun d => Visit.isCut_of_mem_diagnostics _
  have last : [(run limits cpu).endReport].filter Report.isEnd
      = [(run limits cpu).endReport] := by
    unfold endReport
    cases (run limits cpu).ending <;> rfl
  rw [filter_reports limits cpu fun _ => Report.isTold_of_isEnd, story]
  simp [List.filter_append, List.filter_flatMap, uncut, silent, last]

omit limits cpu in
/-- The frames that the visits lead to are those of the chain behind the first. -/
theorem getElem?_unwound (memory : Memory) (budget : UInt32) (room : Nat) (start : Frame)
    (i : Nat) :
    ((visitsFrom memory budget room start).filterMap Visit.next?)[i]?
      = if i < room then Frame.chain memory budget start (i + 1) else none := by
  induction room generalizing start i with
  | zero => simp [visitsFrom]
  | succ room ih =>
    have leads := Visit.next?_ofFrame memory budget start
    cases hc : Frame.caller? memory budget start with
    | none =>
      rw [visitsFrom_succ_of_none _ _ hc, Frame.chain_succ_of_none _ _ hc]
      simp [leads, hc]
    | some caller =>
      rw [visitsFrom_succ_of_caller _ _ hc, Frame.chain_succ_of_caller _ _ hc,
        List.filterMap_cons_some (leads.trans hc)]
      cases i with
      | zero => simp
      | succ i =>
        rw [List.getElem?_cons_succ, ih]
        simp only [Nat.add_lt_add_iff_right]

omit limits cpu in
/-- All visits lead on but the last one, which does if there is no more room. -/
theorem length_unwound (memory : Memory) (budget : UInt32) (room : Nat) (start : Frame) :
    ((visitsFrom memory budget room start).filterMap Visit.next?).length
        + (if (Frame.chain memory budget start room).isSome then 0 else 1)
      = (visitsFrom memory budget room start).length := by
  induction room generalizing start with
  | zero => simp [visitsFrom]
  | succ room ih =>
    have leads := Visit.next?_ofFrame memory budget start
    cases hc : Frame.caller? memory budget start with
    | none =>
      rw [visitsFrom_succ_of_none _ _ hc, Frame.chain_succ_of_none _ _ hc]
      simp [leads, hc]
    | some caller =>
      rw [visitsFrom_succ_of_caller _ _ hc, Frame.chain_succ_of_caller _ _ hc,
        List.filterMap_cons_some (leads.trans hc), List.length_cons, List.length_cons, ← ih]
      omega

/-! ## §4 Ends -/

/-- What a visit found of a caller. -/
theorem outcome_ofFrame (memory : Memory) (budget : UInt32) (frame : Frame) :
    (Visit.ofFrame memory budget frame).outcome
      = match (Scan.run memory budget frame.pc).frame? with
        | none => .noPrologue
        | some (offset, size) =>
          let ra := memory.word (frame.sp + .ofNat offset.toNat)
          if ra < 8 then .returnBelowZero ra
          else .caller ⟨ra - 8, callerSp frame.sp size⟩ := by
  simp only [Visit.ofFrame, spillSlot_eq, callLength]
  cases (Scan.run memory budget frame.pc).frame? with
  | none => rfl
  | some prologue => dsimp only; split <;> rfl

/-- The report that tells how a walk ends. -/
inductive Concludes : Report → Prop
  /-- It was cut at the frame cap. -/
  | cut (truncated : (cpu.backtrace limits).isTruncated = true) :
      Concludes (.diagnosed (.frameCapExceeded limits.frameCap))
  /-- The function around the last pc has no whole prologue. -/
  | noPrologue {pc : UInt32} (whole : (cpu.backtrace limits).isTruncated = false)
      (last : (cpu.backtrace limits).pcs.getLast? = some pc)
      (bare : (Scan.run cpu.memory limits.scanBudget pc).frame? = none) :
      Concludes (.noPrologue pc (cpu.backtrace limits).pcs.length)
  /-- It has one, and the return address that it spilled is none. -/
  | returnBelowZero {frame : Frame} {offset : UInt16} {size : Int16} {ra : UInt32}
      (whole : (cpu.backtrace limits).isTruncated = false)
      (last : (cpu.backtrace limits).pcs.getLast? = some frame.pc)
      (reached : Frame.chain cpu.memory limits.scanBudget (Frame.first cpu limits.scanBudget)
        ((cpu.backtrace limits).pcs.length - 2) = some frame)
      (prologue : (Scan.run cpu.memory limits.scanBudget frame.pc).frame? = some (offset, size))
      (spilled : cpu.memory.word (frame.sp + .ofNat offset.toNat) = ra) (low : ra < 8) :
      Concludes (.returnBelowZero ra (cpu.backtrace limits).pcs.length)

/-- A walk that was not cut ends with the visit of a frame of the chain. -/
theorem getLast?_callers_of_not_cut (whole : (cpu.backtrace limits).isTruncated = false) :
    ∃ frame, (run limits cpu).callers.getLast?
        = some (Visit.ofFrame cpu.memory limits.scanBudget frame)
      ∧ Frame.chain cpu.memory limits.scanBudget (Frame.first cpu limits.scanBudget)
          ((run limits cpu).callers.length - 1) = some frame := by
  cases last : (run limits cpu).callers.getLast? with
  | none =>
    -- the innermost visit leads on, so a walk without callers was cut
    have ended : (run limits cpu).ending = .capReached := by
      rw [ending_eq_capReached_iff, List.getLast?_eq_none_iff.mp last, List.getLastD_nil,
        innermost_run, Visit.next?_innermost]
      rfl
    rw [← isTruncated_backtrace, ← Cpu.backtrace, whole] at ended
    cases ended
  | some v =>
    rw [List.getLast?_eq_getElem?, callers_run, getElem?_visitsFrom, ← callers_run] at last
    split at last
    · obtain ⟨frame, reached, rfl⟩ := Option.map_eq_some_iff.mp last
      exact ⟨frame, rfl, reached⟩
    · cases last

theorem concludes_endReport : Concludes limits cpu (run limits cpu).endReport := by
  by_cases truncated : (cpu.backtrace limits).isTruncated = true
  · rw [endReport, (isTruncated_backtrace _).mp truncated]
    exact .cut truncated
  · have whole := Bool.eq_false_iff.mpr truncated
    obtain ⟨frame, visited, reached⟩ := getLast?_callers_of_not_cut limits cpu whole
    have last : (cpu.backtrace limits).pcs.getLast? = some frame.pc := by
      rw [Backtrace.pcs, List.getLast?_cons, Cpu.backtrace, backtrace, List.getLast?_map, visited]
      simp
    have size : (run limits cpu).visits.length = (cpu.backtrace limits).pcs.length := by
      rw [Cpu.backtrace, pcs_backtrace, List.length_map]
    have uncut : (run limits cpu).ending ≠ .capReached := mt (isTruncated_backtrace _).mpr truncated
    have outcome := outcome_ofFrame cpu.memory limits.scanBudget frame
    simp only [endReport, ending, List.getLastD_eq_getLast?, visited, Option.getD_some,
      size] at uncut ⊢
    rw [outcome] at uncut ⊢
    cases prologue : (Scan.run cpu.memory limits.scanBudget frame.pc).frame? with
    | none =>
      simp only [Visit.pc_ofFrame]
      exact .noPrologue whole last prologue
    | some found =>
      obtain ⟨offset, size⟩ := found
      simp only [prologue] at uncut ⊢
      by_cases low : cpu.memory.word (frame.sp + .ofNat offset.toNat) < 8
      · simp only [if_pos low]
        refine .returnBelowZero whole last ?_ prologue rfl low
        rw [Backtrace.pcs, List.length_cons, Cpu.backtrace, backtrace, List.length_map]
        exact reached
      · simp only [if_neg low] at uncut
        exact absurd rfl uncut

/-- **The log of a walk agrees with its result.** The warnings are the diagnostics,
one for each and in order; the end is told once and last, and it is the end that
the backtrace comes to; and in between every caller is told of that the walk goes
on with, behind the first. -/
theorem log_agrees_with_result :
    let walk := run limits cpu
    let b := cpu.backtrace limits
    let chain := Frame.chain cpu.memory limits.scanBudget (Frame.first cpu limits.scanBudget)
    let unwound := walk.reports.filter Report.isUnwound
    walk.reports.filter Report.isWarning = b.diagnostics.map Diagnostic.warning
    ∧ Report.log .warn walk.reports = b.diagnostics.map (fun d => "WARN " ++ d.announcement)
    ∧ walk.reports.filter Report.isEnd = [walk.endReport]
    ∧ walk.reports.getLast? = some walk.endReport
    ∧ Concludes limits cpu walk.endReport
    ∧ unwound.length + (if b.isTruncated then 1 else 2) = b.pcs.length
    ∧ (∀ i pc, b.pcs[i + 2]? = some pc →
        ∃ frame, chain (i + 1) = some frame ∧ frame.pc = pc
          ∧ unwound[i]? = some (.unwound pc frame.sp)) := by
  intro walk b chain unwound
  have led : unwound = ((visitsFrom cpu.memory limits.scanBudget (limits.frameCap - 1)
      (Frame.first cpu limits.scanBudget)).filterMap Visit.next?).map Report.goesOn := by
    rw [← callers_run]
    exact unwound_run limits cpu
  refine ⟨warnings_run limits cpu, log_warn_run limits cpu, ends_run limits cpu,
    List.getLast?_concat, concludes_endReport limits cpu, ?_, ?_⟩
  · have size : b.pcs.length = (run limits cpu).callers.length + 1 := by
      show (List.length (_ :: List.map _ _)) = _
      rw [List.length_cons, List.length_map]
    have count := length_unwound cpu.memory limits.scanBudget (limits.frameCap - 1)
      (Frame.first cpu limits.scanBudget)
    rw [led, List.length_map, size, callers_run, ← count]
    have cut := isTruncated_iff_chain limits cpu
    by_cases truncated : b.isTruncated = true
    · rw [if_pos truncated, if_pos (cut.mp truncated)]
    · rw [if_neg truncated, if_neg (mt cut.mpr truncated)]
  · intro i pc listed
    obtain ⟨frame, reached, rfl⟩ := frame_of_getElem?_pcs limits cpu listed
    refine ⟨frame, reached, rfl, ?_⟩
    have room : i + 1 < limits.frameCap - 1 := by
      have bound : i + 2 < (cpu.backtrace limits).callers.length + 1 :=
        (List.getElem?_eq_some_iff.mp listed).1
      have most := length_callers_le limits cpu
      omega
    rw [led, List.getElem?_map, getElem?_unwound, if_pos (by omega), reached]
    rfl

end Walk

end Unwind
