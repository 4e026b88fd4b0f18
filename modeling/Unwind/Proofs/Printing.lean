/-
Unwind.Proofs.Printing — a printed backtrace can be read back.

A backtrace is printed with a line for each entry, the first one behind a lead of its
own. What makes it readable is that the pcs have a fixed width: eight digits are just
enough for 32 bits, leading zeros included, so a numeral of eight digits and a pc
determine each other. A reader that insists on all of it, on the leads, the letters of
the digits, their count and the newlines, accepts the printed texts and no others.
Diagnostics are not printed.

  §1 Numerals — `number?_eq_some_iff`: digits spell a number just if they are the
                numeral of that width of it.
  §2 Lines    — what a line shows, and how it is read (`readLine?_eq_some_iff`).
  §3 Texts    — `text_read_back`: the lines of a text, what reading it gives, and
                which backtraces have the same text.
-/
import Mathlib.Algebra.Group.Nat.Defs
import Mathlib.Data.List.Forall2
import Mathlib.Data.List.Induction
import Unwind.Backtrace

namespace Unwind

namespace Hex

/-! ## §1 Numerals -/

/-- The upper case digits in the order of their values. -/
def upperDigits : List Char :=
  ['0', '1', '2', '3', '4', '5', '6', '7', '8', '9', 'A', 'B', 'C', 'D', 'E', 'F']

/-- The value of an upper case digit. -/
def value? (c : Char) : Option Nat := upperDigits.idxOf? c

/-- The number that upper case digits spell, most significant first. -/
def number? (digits : List Char) : Option Nat :=
  digits.foldlM (fun n c => (value? c).map (16 * n + ·)) 0

theorem value?_digit : ∀ v < 16, value? (digit .upper v) = some v := by
  decide

theorem getElem_upperDigits : ∀ v, ∀ h : v < upperDigits.length,
    upperDigits[v] = digit .upper v := by
  decide

theorem value?_eq_some_iff {c : Char} {v : Nat} :
    value? c = some v ↔ v < 16 ∧ digit .upper v = c := by
  constructor
  · intro value
    obtain ⟨lt, here, -⟩ := List.idxOf?_eq_some_iff.mp value
    exact ⟨lt, (getElem_upperDigits v lt).symm.trans here⟩
  · rintro ⟨lt, rfl⟩
    exact value?_digit v lt

theorem number?_concat (digits : List Char) (c : Char) :
    number? (digits ++ [c])
      = (number? digits).bind fun n => (value? c).map (16 * n + ·) := by
  simp [number?, List.foldlM_append]

/-- Digits spell the one number that they are the numeral of. -/
theorem number?_eq_some_iff {digits : List Char} {n : Nat} :
    number? digits = some n
      ↔ n < 16 ^ digits.length ∧ padded .upper digits.length n = digits := by
  induction digits using List.reverseRecOn generalizing n with
  | nil => simp [number?, padded, eq_comm]
  | append_singleton digits c ih =>
    have split : padded .upper (digits ++ [c]).length n
        = padded .upper digits.length (n / 16) ++ [digit .upper (n % 16)] := by
      rw [List.length_append, List.length_singleton, padded]
    have room : n < 16 ^ (digits ++ [c]).length ↔ n / 16 < 16 ^ digits.length := by
      rw [List.length_append, List.length_singleton, Nat.pow_succ,
        Nat.div_lt_iff_lt_mul (by decide)]
    rw [number?_concat, split, room]
    simp only [Option.bind_eq_some_iff, Option.map_eq_some_iff, ih, value?_eq_some_iff]
    constructor
    · rintro ⟨high, ⟨lt, spelled⟩, low, ⟨small, rfl⟩, rfl⟩
      have upper : (16 * high + low) / 16 = high := by omega
      have lower : (16 * high + low) % 16 = low := by omega
      rw [upper, lower, spelled]
      exact ⟨lt, rfl⟩
    · rintro ⟨lt, spelled⟩
      obtain ⟨front, last⟩ := List.append_inj' spelled rfl
      have low : digit .upper (n % 16) = c := List.singleton_inj.mp last
      exact ⟨n / 16, ⟨lt, front⟩, n % 16, ⟨Nat.mod_lt n (by decide), low⟩,
        Nat.div_add_mod n 16⟩

/-- A numeral does not run over several lines. -/
theorem newline_not_mem_padded (width n : Nat) : '\n' ∉ padded .upper width n := by
  have newline : ∀ v < 16, '\n' ≠ digit .upper v := by decide
  induction width generalizing n with
  | zero => exact List.not_mem_nil
  | succ width ih =>
    rw [padded, List.mem_append, List.mem_singleton]
    exact not_or.mpr ⟨ih (n / 16), newline (n % 16) (Nat.mod_lt n (by decide))⟩

end Hex

namespace Backtrace

/-! ## §2 Lines -/

/-- A line shows a pc if behind its lead it has eight upper case digits that spell the
pc, and nothing else. -/
def Shows (lead : String) (pc : UInt32) (line : List Char) : Prop :=
  ∃ digits : List Char, digits.length = 8 ∧ Hex.number? digits = some pc.toNat
    ∧ line = lead.toList ++ digits

/-- The pc that a line shows. -/
def readLine? (lead : String) (line : List Char) : Option UInt32 :=
  let (front, digits) := line.splitAt lead.toList.length
  if front = lead.toList ∧ digits.length = 8 then (Hex.number? digits).map UInt32.ofNat
  else none

/-- The line of a pc, without its newline. -/
def shown (lead : String) (pc : UInt32) : List Char :=
  lead.toList ++ Hex.padded .upper 8 pc.toNat

/-- Only one line shows a pc. -/
theorem shows_iff {lead : String} {pc : UInt32} {line : List Char} :
    Shows lead pc line ↔ line = shown lead pc := by
  have fits : pc.toNat < 16 ^ 8 := pc.toNat_lt
  constructor
  · rintro ⟨digits, eight, spelled, rfl⟩
    rw [Hex.number?_eq_some_iff, eight] at spelled
    rw [shown, spelled.2]
  · rintro rfl
    have eight := Hex.length_padded .upper 8 pc.toNat
    refine ⟨_, eight, ?_, rfl⟩
    rw [Hex.number?_eq_some_iff, eight]
    exact ⟨fits, rfl⟩

/-- The reader of a line is exact. -/
theorem readLine?_eq_some_iff {lead : String} {line : List Char} {pc : UInt32} :
    readLine? lead line = some pc ↔ Shows lead pc line := by
  rw [readLine?, List.splitAt_eq]
  constructor
  · intro read
    rw [Option.ite_none_right_eq_some, Option.map_eq_some_iff] at read
    obtain ⟨⟨front, eight⟩, n, spelled, rfl⟩ := read
    refine ⟨line.drop lead.toList.length, eight, ?_, ?_⟩
    · have fits := (Hex.number?_eq_some_iff.mp spelled).1
      rw [eight] at fits
      rw [spelled, UInt32.toNat_ofNat_of_lt' fits]
    · calc
        line = line.take lead.toList.length ++ line.drop lead.toList.length :=
          (List.take_append_drop _ line).symm
        _ = lead.toList ++ line.drop lead.toList.length := by rw [front]
  · rintro ⟨digits, eight, spelled, rfl⟩
    simp [eight, spelled]

/-! ## §3 Texts -/

/-- The pcs of the lines that are left of a text, behind the last of which nothing
follows. -/
def readCallers? : List (List Char) → Option (List UInt32)
  | [] => none
  | [[]] => some []
  | line :: lines => do
    let pc ← readLine? "<- 0x" line
    let pcs ← readCallers? lines
    return pc :: pcs

/-- The pcs of a printed backtrace. -/
def read? (text : String) : Option (List UInt32) :=
  match text.toList.splitOn '\n' with
  | [] => none
  | first :: lines => do
    let pc ← readLine? "PC: 0x" first
    let pcs ← readCallers? lines
    return pc :: pcs

/-- A printed line ends with the newline that belongs to it. -/
theorem toList_line (lead : String) (pc : UInt32) :
    (line lead pc).toList = shown (lead ++ "0x") pc ++ ['\n'] := by
  simp [line, shown, Hex.address]

/-- A text that begins with a line is split behind it. -/
theorem splitOn_line_append {lead : String} (plain : '\n' ∉ (lead ++ "0x").toList)
    (pc : UInt32) (rest : String) :
    (line lead pc ++ rest).toList.splitOn '\n'
      = shown (lead ++ "0x") pc :: rest.toList.splitOn '\n' := by
  have apart : '\n' ∉ shown (lead ++ "0x") pc := by
    rw [shown, List.mem_append]
    exact not_or.mpr ⟨plain, Hex.newline_not_mem_padded 8 _⟩
  rw [String.toList_append, toList_line, List.append_assoc, List.singleton_append,
    List.splitOn_append_cons_self_of_not_mem apart]

/-- The lines of the callers, and nothing behind the last newline. -/
theorem splitOn_callers (pcs : List UInt32) :
    (String.join (pcs.map (line "<- "))).toList.splitOn '\n'
      = pcs.map (shown "<- 0x") ++ [[]] := by
  induction pcs with
  | nil => rfl
  | cons pc pcs ih =>
    rw [List.map_cons, String.join_cons, splitOn_line_append (by decide), ih]
    rfl

/-- The lines of a printed backtrace. -/
theorem splitOn_text (b : Backtrace) :
    b.text.toList.splitOn '\n'
      = shown "PC: 0x" b.pc :: (b.callers.map (shown "<- 0x") ++ [[]]) := by
  rw [text, String.join_cons, splitOn_line_append (by decide), splitOn_callers]
  rfl

/-- Lines are read only if they are the lines of callers, and no line is left. -/
theorem readCallers?_eq_some_iff {lines : List (List Char)} {pcs : List UInt32} :
    readCallers? lines = some pcs ↔ lines = pcs.map (shown "<- 0x") ++ [[]] := by
  fun_induction readCallers? lines generalizing pcs with
  | case1 => simp
  | case2 => cases pcs <;> simp
  | case3 line lines more ih =>
    cases pcs <;> simp_all [Option.bind_eq_some_iff, readLine?_eq_some_iff, shows_iff]

/-- A text is determined by what stands between its newlines. -/
theorem splitOn_newline_inj {text other : String} :
    text.toList.splitOn '\n' = other.toList.splitOn '\n' ↔ text = other := by
  have joined (t : String) : ['\n'].intercalate (t.toList.splitOn '\n') = t.toList :=
    List.intercalate_splitOn '\n'
  constructor
  · intro same
    rw [← String.toList_inj, ← joined text, same, joined]
  · rintro rfl
    rfl

/-- The pcs of a backtrace are read off its own text alone. -/
theorem read?_eq_some_iff {text : String} {b : Backtrace} :
    read? text = some b.pcs ↔ text = b.text := by
  rw [← splitOn_newline_inj, splitOn_text, read?]
  cases text.toList.splitOn '\n' with
  | nil => simp
  | cons first lines =>
    simp [pcs, Option.bind_eq_some_iff, readLine?_eq_some_iff, shows_iff,
      readCallers?_eq_some_iff]

-- a digit in lower case is refused, and so is a last line without its newline
example : read? "PC: 0x0000002A\n" = some [0x2a] ∧ read? "PC: 0x0000002a\n" = none
    ∧ read? "PC: 0x0000002A" = none := by
  decide

/-- **A printed backtrace can be read back.** It has a line for each of its pcs, in their
order, and nothing behind the last newline; reading gives the pcs back, and gives them for
no other text. So two backtraces are printed alike if they have the same pcs, whatever
their diagnostics are. -/
theorem text_read_back (b : Backtrace) :
    (∃ first rest, b.text.toList.splitOn '\n' = first :: rest ++ [[]]
        ∧ Shows "PC: 0x" b.pc first
        ∧ List.Forall₂ (Shows "<- 0x") b.callers rest)
      ∧ (∀ text, read? text = some b.pcs ↔ text = b.text)
      ∧ ∀ other : Backtrace, other.text = b.text ↔ other.pcs = b.pcs := by
  refine ⟨⟨_, _, splitOn_text b, shows_iff.mpr rfl, ?_⟩, fun _ => read?_eq_some_iff,
    fun other => ?_⟩
  · rw [List.forall₂_map_right_iff, List.forall₂_same]
    exact fun pc _ => shows_iff.mpr rfl
  · rw [← read?_eq_some_iff, read?_eq_some_iff.mpr rfl, Option.some_inj]

end Backtrace

end Unwind
