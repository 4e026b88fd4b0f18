/-
Unwind.Proofs.Stages — the printer answers with its first failing stage, or with the
backtrace.

What can go wrong is defined here stage by stage (`Stage.fault?`). A stage looks
only at what it works on itself, so several can fail at once; `Stage.order` says which
of them counts. What log filters and register dumps look like has no part in this:
everything holds for all `Readers`.

  §1 Stages    — the stages, their failures and the first of those
                 (`firstFault?`).
  §2 Answers   — either the first failure is what the printer comes to, or no stage
                 fails (`fault_or_loads`) and the dumped machine is walked
                 (`Loads.backtrace_eq`).
  §3 Influence — what the walk of the dumped machine does not look at
                 (`Alike.backtrace_machine`), and all together
                 (`answer_by_stages`).
-/
import Unwind.Dump.Readers
import Unwind.Proofs.Rdram
import Unwind.Proofs.Reads

namespace Unwind.Dump

/-! ## §1 Stages -/

/-- What the printer does before it walks. -/
inductive Stage
  | logFilter
  | emptyBudget
  | unalignedBudget
  | emptyCap
  | readRegisters
  | parseRegisters
  | readImage
  | countRegisters
  deriving DecidableEq

section

variable (readers : Readers) (around : Surroundings) (a : Arguments)

/-- The text of the register dump. -/
def text? : Option String := (around.files a.regs).bind String.fromUTF8?

/-- The register dump. -/
def dump? : Option RegisterDump := (text? around a).bind readers.registerDump?

namespace Stage

/-- The order of the stages. -/
def order : List Stage :=
  [logFilter, emptyBudget, unalignedBudget, emptyCap, readRegisters, parseRegisters, readImage,
    countRegisters]

/-- The failure of a stage, if it fails. A stage that lacks what it works on does not. -/
def fault? : Stage → Option Failure
  | logFilter => filterFault? readers around
  | emptyBudget => if a.scanBudget = 0 then some (.limits .emptyScanBudget) else none
  | unalignedBudget =>
    if a.scanBudget % 4 ≠ 0 then some (.limits (.unalignedScanBudget a.scanBudget)) else none
  | emptyCap => if a.frameCap = 0 then some (.limits .emptyFrameCap) else none
  | readRegisters => if text? around a = none then some (.reading a.regs) else none
  | parseRegisters =>
    (text? around a).bind fun text =>
      match readers.registerDump? text with
      | none => some (.parsing a.regs)
      | some _ => none
  | readImage => if around.files a.rdram = none then some (.reading a.rdram) else none
  | countRegisters =>
    (dump? readers around a).bind fun dump =>
      if dump.registers.length = 32 then none else some (.registerCount dump.registers.length)

end Stage

/-- The failure of the first stage that fails. -/
def firstFault? : Option Failure := Stage.order.findSome? (Stage.fault? readers around a)

/-- The order leaves out no stage. -/
theorem Stage.mem_order (stage : Stage) : stage ∈ order := by cases stage <;> decide

theorem firstFault?_eq_none_iff : firstFault? readers around a = none
    ↔ ∀ stage : Stage, stage.fault? readers around a = none := by
  rw [firstFault?, List.findSome?_eq_none_iff]
  exact ⟨fun sound stage => sound stage stage.mem_order, fun sound stage _ => sound stage⟩

end

/-! ## §2 Answers -/

section

variable {readers : Readers} {around : Surroundings} {a : Arguments}

/-- The stopped machine of two dumps; of its registers only the low words count. -/
def machine (dump : RegisterDump) (image : ByteArray) : Cpu where
  pc := dump.pc
  register r := (dump.registers.getD r 0).toUInt32
  memory := (Rdram.ofBytes image.data).memory

/-- Every stage has what it needs, and these are the dumps. -/
structure Loads (readers : Readers) (around : Surroundings) (a : Arguments)
    (dump : RegisterDump) (image : ByteArray) : Prop where
  filter : filterFault? readers around = none
  budget_ne_zero : a.scanBudget ≠ 0
  budget_aligned : a.scanBudget % 4 = 0
  cap_ne_zero : a.frameCap ≠ 0
  text : ∃ text, text? around a = some text ∧ readers.registerDump? text = some dump
  image : around.files a.rdram = some image
  length_registers : dump.registers.length = 32

/-- The machine of two dumps is the one that the printer makes of them. -/
theorem cpu_snapshot? {dump : RegisterDump} (size : dump.registers.length = 32)
    (image : ByteArray) :
    (dump.snapshot? (.ofBytes image.data)).map Snapshot.cpu = some (machine dump image) := by
  rw [RegisterDump.snapshot?, dif_pos size, Option.map_some]
  refine congrArg (fun register => some (Cpu.mk dump.pc register _)) (funext fun r => ?_)
  have bound : r.val < dump.registers.length := lt_of_lt_of_eq r.isLt size.symm
  rw [List.getD_eq_getElem?_getD, List.getElem?_eq_getElem bound, Option.getD_some]
  simp only [Snapshot.register, Snapshot.ofWideRegisters, Snapshot.ofRegisters, Vector.get,
    Vector.map_mk, Array.getElem_map, List.getElem_toArray]
  rfl

/-- What the printer comes to once the log filter is accepted. -/
theorem answer_of_accepted (filter : filterFault? readers around = none) :
    answer readers around (some (.backtrace a))
      = .ofResult (backtrace readers around.files a) := by
  simp only [answer, filter]

/-- The limits are refused for the first of the reasons for which they can be. -/
theorem fault_of_refused (filter : filterFault? readers around = none) {error : LimitsError}
    (refused : Limits.checked a.scanBudget a.frameCap = .error error) :
    firstFault? readers around a = some (.limits error)
      ∧ backtrace readers around.files a = .error (.limits error) := by
  constructor
  · rw [Limits.checked] at refused
    simp only [firstFault?, Stage.order, List.findSome?_cons, Stage.fault?, filter]
    split at refused
    case isTrue empty => cases refused; simp [empty]
    case isFalse full =>
      split at refused
      case isTrue unaligned => cases refused; simp [full, unaligned]
      case isFalse aligned =>
        split at refused
        case isTrue noRoom => cases refused; simp [full, aligned, noRoom]
        case isFalse => cases refused
  · simp only [backtrace, refused, Except.mapError, bind, Except.bind]

/-- Limits are accepted if none of the reasons to refuse them holds. -/
theorem sound_of_accepted {limits : Limits}
    (accepted : Limits.checked a.scanBudget a.frameCap = .ok limits) :
    a.scanBudget ≠ 0 ∧ a.scanBudget % 4 = 0 ∧ a.frameCap ≠ 0 := by
  obtain ⟨full, aligned, room, -⟩ := Limits.checked_eq_ok_iff.mp accepted
  exact ⟨full, aligned, room⟩

/-- Once the log filter and the limits are accepted the files decide which failure
comes first. -/
theorem firstFault?_of_accepted (filter : filterFault? readers around = none) {limits : Limits}
    (accepted : Limits.checked a.scanBudget a.frameCap = .ok limits) :
    firstFault? readers around a
      = [Stage.readRegisters, .parseRegisters, .readImage, .countRegisters].findSome?
          (Stage.fault? readers around a) := by
  obtain ⟨full, aligned, room⟩ := sound_of_accepted accepted
  simp only [firstFault?, Stage.order, List.findSome?_cons, Stage.fault?, filter, if_neg full,
    if_neg (not_not.mpr aligned), if_neg room]

/-- What the printer comes to then. -/
theorem backtrace_of_accepted {limits : Limits}
    (accepted : Limits.checked a.scanBudget a.frameCap = .ok limits) :
    backtrace readers around.files a
      = match text? around a with
        | none => .error (.reading a.regs)
        | some text =>
          match readers.registerDump? text with
          | none => .error (.parsing a.regs)
          | some dump =>
            match around.files a.rdram with
            | none => .error (.reading a.rdram)
            | some image =>
              match dump.snapshot? (.ofBytes image.data) with
              | none => .error (.registerCount dump.registers.length)
              | some snapshot => .ok (snapshot.cpu.backtrace limits) := by
  simp only [backtrace, accepted, Except.mapError, bind, Except.bind, text?]
  cases (around.files a.regs).bind String.fromUTF8? with
  | none => rfl
  | some text =>
    dsimp only [require]
    cases readers.registerDump? text with
    | none => rfl
    | some dump =>
      dsimp only
      cases around.files a.rdram with
      | none => rfl
      | some image =>
        dsimp only
        cases dump.snapshot? (.ofBytes image.data) <;> rfl

/-- Dumps that load are walked. -/
theorem Loads.backtrace_eq {dump : RegisterDump} {image : ByteArray}
    (loads : Loads readers around a dump image) :
    backtrace readers around.files a
      = .ok ((machine dump image).backtrace ⟨a.scanBudget, a.frameCap⟩) := by
  obtain ⟨text, read, parsed⟩ := loads.text
  obtain ⟨snapshot, made, cpu⟩ :=
    Option.map_eq_some_iff.mp (cpu_snapshot? loads.length_registers image)
  have accepted : Limits.checked a.scanBudget a.frameCap = .ok ⟨a.scanBudget, a.frameCap⟩ :=
    Limits.checked_eq_ok_iff.mpr
      ⟨loads.budget_ne_zero, loads.budget_aligned, loads.cap_ne_zero, rfl⟩
  simp only [backtrace_of_accepted accepted, read, parsed, loads.image, made, cpu]

/-- So their backtrace is printed. -/
theorem Loads.answer_eq {dump : RegisterDump} {image : ByteArray}
    (loads : Loads readers around a dump image) :
    answer readers around (some (.backtrace a))
      = ⟨0, ((machine dump image).backtrace ⟨a.scanBudget, a.frameCap⟩).text, none⟩ := by
  rw [answer_of_accepted loads.filter, loads.backtrace_eq, Answer.ofResult]

/-- If the log filter is accepted, then either another stage fails, and the first of
those that fail decides, or the dumps load. The cases are split as the printer comes to
them. -/
theorem fault_or_loads_of_accepted (filter : filterFault? readers around = none) :
    (∃ failure, firstFault? readers around a = some failure
        ∧ backtrace readers around.files a = .error failure)
      ∨ (firstFault? readers around a = none
        ∧ ∃ dump image, Loads readers around a dump image) := by
  cases checked : Limits.checked a.scanBudget a.frameCap with
  | error error => exact .inl ⟨.limits error, fault_of_refused filter checked⟩
  | ok limits =>
    obtain ⟨full, aligned, room⟩ := sound_of_accepted checked
    rw [firstFault?_of_accepted filter checked, backtrace_of_accepted checked]
    simp only [List.findSome?_cons, List.findSome?_nil, Stage.fault?, dump?]
    cases read : text? around a with
    | none => exact .inl ⟨.reading a.regs, by simp⟩
    | some text =>
      cases parsed : readers.registerDump? text with
      | none => exact .inl ⟨.parsing a.regs, by simp [parsed]⟩
      | some dump =>
        cases found : around.files a.rdram with
        | none => exact .inl ⟨.reading a.rdram, by simp [parsed]⟩
        | some image =>
          by_cases size : dump.registers.length = 32
          · exact .inr ⟨by simp [parsed, size], dump, image, filter, full, aligned, room,
              ⟨text, read, parsed⟩, found, size⟩
          · exact .inl ⟨.registerCount dump.registers.length,
              by simp [parsed, size, RegisterDump.snapshot?]⟩

/-- Either a stage fails, and the first of those that fail is the answer, or the dumps
load. -/
theorem fault_or_loads (readers : Readers) (around : Surroundings) (a : Arguments) :
    (∃ failure, firstFault? readers around a = some failure
        ∧ answer readers around (some (.backtrace a)) = ⟨1, "", some failure⟩)
      ∨ (firstFault? readers around a = none
        ∧ ∃ dump image, Loads readers around a dump image) := by
  cases filter : filterFault? readers around with
  | some failure =>
    refine .inl ⟨failure, ?_, by simp only [answer, filter, Answer.ofResult]⟩
    simp only [firstFault?, Stage.order, List.findSome?_cons, Stage.fault?, filter]
  | none =>
    rcases fault_or_loads_of_accepted filter (a := a) with ⟨failure, fault, stopped⟩ | loads
    · exact .inl ⟨failure, fault, by rw [answer_of_accepted filter, stopped, Answer.ofResult]⟩
    · exact .inr loads

/-- Where the dumps load no stage fails. -/
theorem Loads.sound {dump : RegisterDump} {image : ByteArray}
    (loads : Loads readers around a dump image) : firstFault? readers around a = none := by
  rcases fault_or_loads readers around a with ⟨failure, -, stopped⟩ | ⟨sound, -⟩
  · exact absurd (stopped.symm.trans loads.answer_eq) (by simp)
  · exact sound

/-! ## §3 Influence -/

theorem toUInt32_eq_of_mod {v w : UInt64} (h : v.toNat % 2 ^ 32 = w.toNat % 2 ^ 32) :
    v.toUInt32 = w.toUInt32 := by
  apply UInt32.toNat_inj.mp
  rw [UInt64.toNat_toUInt32, UInt64.toNat_toUInt32, h]

/-- Two requests and their dumps have in common what a backtrace depends on: the limits,
the pc, the low words of the stack pointer and of the return address, and the whole
words of the image. -/
structure Alike (a a' : Arguments) (dump dump' : RegisterDump) (image image' : ByteArray) :
    Prop where
  scanBudget : a'.scanBudget = a.scanBudget
  frameCap : a'.frameCap = a.frameCap
  pc : dump'.pc = dump.pc
  sp : (dump'.registers.getD 29 0).toNat % 2 ^ 32 = (dump.registers.getD 29 0).toNat % 2 ^ 32
  ra : (dump'.registers.getD 31 0).toNat % 2 ^ 32 = (dump.registers.getD 31 0).toNat % 2 ^ 32
  words : image'.data.toList.take (4 * (image'.size / 4))
    = image.data.toList.take (4 * (image.size / 4))

/-- The walk of a machine looks at nothing else. -/
theorem Alike.backtrace_machine {a' : Arguments} {dump dump' : RegisterDump}
    {image image' : ByteArray} (alike : Alike a a' dump dump' image image') :
    (machine dump' image').backtrace ⟨a'.scanBudget, a'.frameCap⟩
      = (machine dump image).backtrace ⟨a.scanBudget, a.frameCap⟩ := by
  have bytes : (Rdram.ofBytes image'.data).bytes = (Rdram.ofBytes image.data).bytes := by
    rw [Rdram.bytes_ofBytes, Rdram.bytes_ofBytes]
    exact alike.words
  have same (limits : Limits) :
      Walk.run limits (machine dump' image') = Walk.run limits (machine dump image) := by
    refine Walk.run_of_agree alike.pc (toUInt32_eq_of_mod alike.ra)
      (toUInt32_eq_of_mod alike.sp) fun address _ => ?_
    show (Rdram.ofBytes image'.data).word address = (Rdram.ofBytes image.data).word address
    rw [Rdram.word_eq, Rdram.word_eq, bytes]
  rw [Cpu.backtrace, same, alike.scanBudget, alike.frameCap, Cpu.backtrace]

end

/-- **The printer answers with its first failing stage, or with the backtrace.** If
any stage fails, the failure of the first one is the answer, with exit code 1 and
nothing printed. Otherwise the backtrace of the dumped machine is printed; of the dumps
only the pc, the low words of two registers and the whole words of the image have to
do with it. Other files than the two that are named never have, nor has the log filter
but for being accepted. -/
theorem answer_by_stages (readers : Readers) (around : Surroundings) (a : Arguments) :
    (firstFault? readers around a = none
      ↔ ∀ stage : Stage, stage.fault? readers around a = none)
    ∧ (∀ failure, firstFault? readers around a = some failure →
      answer readers around (some (.backtrace a)) = ⟨1, "", some failure⟩)
    ∧ (firstFault? readers around a = none → ∃ dump image, Loads readers around a dump image
      ∧ answer readers around (some (.backtrace a))
        = ⟨0, ((machine dump image).backtrace ⟨a.scanBudget, a.frameCap⟩).text, none⟩)
    ∧ (∀ (around' : Surroundings) (a' : Arguments) dump dump' image image',
      Loads readers around a dump image → Loads readers around' a' dump' image' →
        Alike a a' dump dump' image image' →
          answer readers around' (some (.backtrace a'))
            = answer readers around (some (.backtrace a)))
    ∧ ∀ around' : Surroundings, filterFault? readers around' = filterFault? readers around →
      around'.files a.regs = around.files a.regs → around'.files a.rdram = around.files a.rdram →
        answer readers around' (some (.backtrace a))
          = answer readers around (some (.backtrace a)) := by
  refine ⟨firstFault?_eq_none_iff readers around a, fun failure fault => ?_, fun sound => ?_,
    fun around' a' dump dump' image image' loads loads' alike => ?_,
    fun around' filter regs rdram => ?_⟩
  · rcases fault_or_loads readers around a with ⟨failure', fault', stopped⟩ | ⟨sound, -⟩
    · have same : failure' = failure := Option.some.inj (fault'.symm.trans fault)
      rw [stopped, same]
    · exact absurd (sound.symm.trans fault) (by simp)
  · rcases fault_or_loads readers around a with ⟨failure, fault, -⟩ | ⟨-, dump, image, loads⟩
    · exact absurd (sound.symm.trans fault) (by simp)
    · exact ⟨dump, image, loads, loads.answer_eq⟩
  · rw [loads.answer_eq, loads'.answer_eq, alike.backtrace_machine]
  · have same : backtrace readers around'.files a = backtrace readers around.files a := by
      simp only [backtrace, regs, rdram]
    cases found : filterFault? readers around <;> simp only [answer, filter, found, same]

/-- The text of a register dump: the pc is 7, the low registers have one value. -/
def dumpText (low sp fp ra : String) : String :=
  "[7,[" ++ String.join (List.replicate 29 (low ++ ",")) ++ sp ++ "," ++ fp ++ "," ++ ra ++ "]]"

/-- A log filter, a register dump and a memory dump, and no other files. -/
def dumps (logFilter : Option String) (text : String) (image : ByteArray) : Surroundings where
  logFilter := logFilter
  files path :=
    if path = "regs" then some text.toUTF8 else if path = "rdram" then some image else none

/-- Dumps of a machine, with one byte behind the last whole word. -/
def plainDumps : Surroundings :=
  dumps none (dumpText "0" "16" "0" "9") ⟨#[1, 2, 3, 4, 5]⟩

/-- Dumps that differ from those in all that the walk does not look at. -/
def clutteredDumps : Surroundings :=
  dumps (some "warn") (dumpText "1" "4294967312" "1" "4294967305") ⟨#[1, 2, 3, 4, 6, 7, 8]⟩

theorem loads_plainDumps :
    Loads .standard plainDumps ⟨"regs", "rdram", 64, 8⟩ ⟨7, List.replicate 29 0 ++ [16, 0, 9]⟩
      ⟨#[1, 2, 3, 4, 5]⟩ :=
  ⟨by decide +kernel, by decide, by decide, by decide,
    ⟨dumpText "0" "16" "0" "9", by decide +kernel, rfl⟩, rfl, rfl⟩

theorem loads_clutteredDumps :
    Loads .standard clutteredDumps ⟨"regs", "rdram", 64, 8⟩
      ⟨7, List.replicate 29 1 ++ [4294967312, 1, 4294967305]⟩ ⟨#[1, 2, 3, 4, 6, 7, 8]⟩ :=
  ⟨by decide +kernel, by decide, by decide, by decide,
    ⟨dumpText "1" "4294967312" "1" "4294967305", by decide +kernel, rfl⟩, rfl, rfl⟩

/-- Both dumps print the same. Of two refusals the earlier one is told: with these
limits it does not matter that there is no register dump. -/
theorem answer_by_stages_dumps :
    answer .standard clutteredDumps (some (.backtrace ⟨"regs", "rdram", 64, 8⟩))
        = answer .standard plainDumps (some (.backtrace ⟨"regs", "rdram", 64, 8⟩))
      ∧ (answer .standard plainDumps (some (.backtrace ⟨"regs", "rdram", 64, 8⟩))).exitCode = 0
      ∧ answer .standard plainDumps (some (.backtrace ⟨"gone", "rdram", 6, 0⟩))
        = ⟨1, "", some (.limits (.unalignedScanBudget 6))⟩ := by
  obtain ⟨-, -, printed, same, -⟩ :=
    answer_by_stages .standard plainDumps ⟨"regs", "rdram", 64, 8⟩
  obtain ⟨-, refused, -⟩ := answer_by_stages .standard plainDumps ⟨"gone", "rdram", 6, 0⟩
  have alike : Alike ⟨"regs", "rdram", 64, 8⟩ ⟨"regs", "rdram", 64, 8⟩
      ⟨7, List.replicate 29 0 ++ [16, 0, 9]⟩
      ⟨7, List.replicate 29 1 ++ [4294967312, 1, 4294967305]⟩
      ⟨#[1, 2, 3, 4, 5]⟩ ⟨#[1, 2, 3, 4, 6, 7, 8]⟩ :=
    ⟨rfl, rfl, rfl, by decide, by decide, by decide⟩
  obtain ⟨dump, image, -, told⟩ := printed loads_plainDumps.sound
  refine ⟨same _ _ _ _ _ _ loads_plainDumps loads_clutteredDumps alike, ?_,
    refused _ (by decide +kernel)⟩
  rw [told]

/-- The dumps that load, found together with a log filter that is none. -/
def filteredDumps : Surroundings := { plainDumps with logFilter := some "!" }

/-- The log filter is a stage that cannot be left out. Here it is refused, so that
nothing is printed, while no other stage fails. -/
theorem answer_of_log_filter :
    (∀ stage : Stage, stage ≠ .logFilter →
      stage.fault? .standard filteredDumps ⟨"regs", "rdram", 64, 8⟩ = none)
    ∧ answer .standard filteredDumps (some (.backtrace ⟨"regs", "rdram", 64, 8⟩))
      = ⟨1, "", some (.logFilter "invalid filter directive")⟩ := by
  constructor
  · intro stage other
    have sound := (firstFault?_eq_none_iff ..).mp loads_plainDumps.sound stage
    cases stage with
    | logFilter => exact absurd rfl other
    | _ => exact sound
  · have refused : filterFault? .standard filteredDumps
        = some (.logFilter "invalid filter directive") := by decide +kernel
    simp only [answer, refused, Answer.ofResult]

end Unwind.Dump
