/-
Unwind.Proofs.Writing — what writes to main memory answer, and how far a run of
words goes.

A write has to be backed where it has something to write, byte by byte, whichever
words the bytes lie in. A run of words ends with the first word that is not backed
as a whole, of which the backed bytes are written all the same.

  §1 Answers — `writes_answer_backing`: a write answers whether it is backed. A
               masked write of nothing at an aligned address answers otherwise
               (`write_of_nothing_refused`).
  §2 Runs    — the words before the first one that is not backed are written one
               after the other (`writeRun_append`), and so all their bytes are
               (`bytes_writeEach`).
  §3 Ends    — `writeWords_stops`: where a run ends, what it leaves, and that a run
               of no more than a segment is read back.
-/
import Mathlib.Order.Nat
import Unwind.Proofs.Rdram

namespace Unwind.Rdram

variable (m : Rdram)

/-! ## §1 Answers -/

theorem fst_writeHalf (address : UInt32) (value : UInt16) :
    (m.writeHalf address value).1 = true
      ↔ ∀ i < 2, FlatMemory.Backed m.bytes (address + UInt32.ofNat i) := by
  rw [writeHalf, fst_writeMasked_of_ne m _ _ (by decide)]
  exact backs_iff_of_first m address _ (by decide) (by decide)

theorem fst_writeByte (address : UInt32) (value : UInt8) :
    (m.writeByte address value).1 = true ↔ FlatMemory.Backed m.bytes address := by
  have first : m.Backs address 0xff000000
      ↔ ∀ i < 1, FlatMemory.Backed m.bytes (address + UInt32.ofNat i) :=
    backs_iff_of_first m address _ (by decide) (by decide)
  rw [writeByte, fst_writeMasked_of_ne m _ _ (by decide), first]
  simp only [Nat.lt_one_iff, forall_eq, FlatMemory.add_ofNat_zero]

theorem backs_zero (address : UInt32) : m.Backs address 0 := by
  rintro i - bit
  exact absurd (Word.byte_zero i) bit

/-- **A write answers whether the bytes it has to write are backed**, those that have a
bit in its mask. There is one exception: where the mask has no bit at all, an aligned
write still answers whether its word is backed, and an unaligned one does not. -/
theorem writes_answer_backing (m : Rdram) (address : UInt32) :
    (∀ value mask, (m.writeMasked address value mask).1 = true
        ↔ m.Backs address mask
          ∧ (mask = 0 → Aligned address → FlatMemory.Backed m.bytes address))
      ∧ (∀ value mask, ((m.writeMasked address value mask).1 = true ↔ m.Backs address mask)
        ↔ mask ≠ 0 ∨ ¬ Aligned address ∨ FlatMemory.Backed m.bytes address)
      ∧ (∀ value, (m.writeWord address value).1 = true
        ↔ ∀ i < 4, FlatMemory.Backed m.bytes (address + UInt32.ofNat i))
      ∧ (∀ value, (m.writeHalf address value).1 = true
        ↔ ∀ i < 2, FlatMemory.Backed m.bytes (address + UInt32.ofNat i))
      ∧ ∀ value, (m.writeByte address value).1 = true ↔ FlatMemory.Backed m.bytes address := by
  refine ⟨fst_writeMasked m address, fun value mask => ?_, fst_writeWord m address,
    fst_writeHalf m address, fst_writeByte m address⟩
  rw [fst_writeMasked]
  rcases eq_or_ne mask 0 with rfl | masked
  · simp [backs_zero, imp_iff_not_or]
  · simp [masked]

/-- Whether a write of nothing succeeds depends on its alignment: behind the end of
an image it is refused at an aligned address only. -/
theorem write_of_nothing_refused :
    ¬ (∀ (m : Rdram) (address value mask : UInt32),
        (m.writeMasked address value mask).1 = true ↔ m.Backs address mask)
      ∧ ((zeroed 8).writeMasked 0x80000008 0 0).1 = false
      ∧ ((zeroed 8).writeMasked 0x80000009 0 0).1 = true := by
  have refused : ((zeroed 8).writeMasked 0x80000008 0 0).1 = false := by decide +kernel
  have accepted : ((zeroed 8).writeMasked 0x80000009 0 0).1 = true := by decide +kernel
  refine ⟨fun agree => ?_, refused, accepted⟩
  rw [(agree _ _ 0 _).mpr (backs_zero _ _)] at refused
  exact absurd refused (by decide)

/-! ## §2 Runs -/

/-- The address of word `i` of a run. -/
def place (base : UInt32) (i : Nat) : UInt32 := base + 4 * UInt32.ofNat i

theorem place_zero (base : UInt32) : place base 0 = base := UInt32.add_zero base

theorem place_add (base : UInt32) (i k : Nat) :
    place base i + UInt32.ofNat k = base + UInt32.ofNat (4 * i + k) := by
  rw [place, UInt32.add_assoc, UInt32.ofNat_add, UInt32.ofNat_mul]
  rfl

theorem place_succ (base : UInt32) (i : Nat) :
    place base (i + 1) = place base i + UInt32.ofNat 4 := by
  rw [place_add, ← UInt32.add_zero (place base (i + 1))]
  exact place_add base (i + 1) 0

/-- The image after every word of a run, from number `i` on, has been written, the
one after the other and whatever the writes answer. -/
def writeEach (base : UInt32) (i : Nat) (values : List UInt32) : Rdram :=
  (values.zipIdx i).foldl (fun m (value, i) => (m.writeWord (place base i) value).2) m

/-- The bytes of a run are stored side by side. -/
theorem bytes_writeEach (base : UInt32) (i : Nat) (values : List UInt32) :
    (m.writeEach base i values).bytes
      = FlatMemory.storeBytes m.bytes (place base i) (values.flatMap Word.bytes) := by
  induction values generalizing m i with
  | nil => rfl
  | cons value values ih =>
    have rest := ih (m.writeWord (place base i) value).2 (i + 1)
    rw [List.flatMap_cons, FlatMemory.storeBytes_append, Word.length_bytes, ← place_succ,
      ← bytes_writeWord]
    exact rest

theorem length_bytes_writeEach (base : UInt32) (i : Nat) (values : List UInt32) :
    (m.writeEach base i values).bytes.length = m.bytes.length := by
  rw [bytes_writeEach, FlatMemory.length_storeBytes]

/-- As long as its words are backed, a run goes on behind them. -/
theorem writeRun_append (base : UInt32) (i : Nat) (values rest : List UInt32)
    (backed : ∀ j < values.length, FlatMemory.BackedWord m.bytes (place base (i + j))) :
    m.writeRun base i (values ++ rest)
      = (m.writeEach base i values).writeRun base (i + values.length) rest := by
  induction values generalizing m i with
  | nil => rfl
  | cons value values ih =>
    have answer := (fst_writeWord m (place base i) value).mpr (backed 0 (Nat.succ_pos _))
    have written : m.writeWord (base + 4 * UInt32.ofNat i) value
        = (true, (m.writeWord (place base i) value).2) := Prod.ext answer rfl
    -- the write leaves the length of the image, so the words behind it are still backed
    have same : (m.writeWord (place base i) value).2.bytes.length = m.bytes.length := by
      rw [bytes_writeWord, FlatMemory.length_storeBytes]
    have later := ih (m.writeWord (place base i) value).2 (i + 1) fun j hj => by
      rw [FlatMemory.backedWord_congr same, Nat.add_right_comm, Nat.add_assoc]
      exact backed (j + 1) (Nat.succ_lt_succ hj)
    have step : i + (value :: values).length = i + 1 + values.length := by
      rw [List.length_cons]
      omega
    rw [List.cons_append, writeRun, written, step]
    exact later

/-! ## §3 Ends -/

/-- The numbers of the words of a run that are not backed as a whole. -/
def lacking (address : UInt32) (values : List UInt32) : Set Nat :=
  {k | k < values.length ∧ ¬ FlatMemory.BackedWord m.bytes (place address k)}

/-- Either a run is backed, or some word is the first that is not. -/
theorem lacking_eq_empty_or_isLeast (address : UInt32) (values : List UInt32) :
    m.lacking address values = ∅ ∨ ∃ k, IsLeast (m.lacking address values) k := by
  classical
  rcases (m.lacking address values).eq_empty_or_nonempty with none | some
  · exact .inl none
  · exact .inr ⟨_, some.isLeast_natFind⟩

theorem backedWord_of_lacking_eq_empty {address : UInt32} {values : List UInt32}
    (none : m.lacking address values = ∅) {i : Nat} (hi : i < values.length) :
    FlatMemory.BackedWord m.bytes (place address i) := by
  by_contra unbacked
  exact Set.eq_empty_iff_forall_notMem.mp none i ⟨hi, unbacked⟩

theorem writeWords_of_backed (address : UInt32) (values : List UInt32)
    (backed : ∀ i < values.length, FlatMemory.BackedWord m.bytes (place address i)) :
    m.writeWords address values = (true, m.writeEach address 0 values) := by
  have whole := writeRun_append m address 0 values [] fun i hi => by
    rw [Nat.zero_add]
    exact backed i hi
  rwa [List.append_nil] at whole

/-- A run ends with the first word that is not backed. -/
theorem writeWords_of_not_backed (address : UInt32) (before : List UInt32) (value : UInt32)
    (rest : List UInt32)
    (backed : ∀ i < before.length, FlatMemory.BackedWord m.bytes (place address i))
    (unbacked : ¬ FlatMemory.BackedWord m.bytes (place address before.length)) :
    m.writeWords address (before ++ value :: rest)
      = (false, ((m.writeEach address 0 before).writeWord (place address before.length)
          value).2) := by
  have same := length_bytes_writeEach m address 0 before
  have refused : ((m.writeEach address 0 before).writeWord (place address before.length) value).1
      = false := by
    rw [← Bool.not_eq_true, fst_writeWord, FlatMemory.backedWord_congr same]
    exact unbacked
  have written : (m.writeEach address 0 before).writeWord
      (address + 4 * UInt32.ofNat (0 + before.length)) value
        = (false, ((m.writeEach address 0 before).writeWord (place address before.length)
            value).2) := by
    rw [Nat.zero_add]
    exact Prod.ext refused rfl
  have begun := writeRun_append m address 0 before (value :: rest) fun i hi => by
    rw [Nat.zero_add]
    exact backed i hi
  rw [writeWords, begun, writeRun, written]

/-- So it stops at the least of them, if there are any. -/
theorem writeWords_of_isLeast {address : UInt32} {values : List UInt32} {k : Nat}
    (first : IsLeast (m.lacking address values) k) :
    ∃ value, values[k]? = some value
      ∧ m.writeWords address values
        = (false, ((m.writeEach address 0 (values.take k)).writeWord (place address k)
            value).2) := by
  have lt : k < values.length := first.1.1
  have length : (values.take k).length = k := List.length_take_of_le lt.le
  have split : values.take k ++ values[k] :: values.drop (k + 1) = values := by
    rw [← List.drop_eq_getElem_cons lt, List.take_append_drop]
  have backed : ∀ i < k, FlatMemory.BackedWord m.bytes (place address i) := by
    intro i hi
    by_contra unbacked
    exact absurd (first.2 ⟨hi.trans lt, unbacked⟩) (Nat.not_le.mpr hi)
  have ended := writeWords_of_not_backed m address (values.take k) values[k]
    (values.drop (k + 1)) (by rwa [length]) (by rw [length]; exact first.1.2)
  rw [split, length] at ended
  exact ⟨values[k], List.getElem?_eq_getElem lt, ended⟩

/-- A run answers whether all of its words are backed. -/
theorem fst_writeWords (address : UInt32) (values : List UInt32) :
    (m.writeWords address values).1 = true ↔ m.lacking address values = ∅ := by
  constructor
  · intro answer
    rcases lacking_eq_empty_or_isLeast m address values with none | ⟨k, first⟩
    · exact none
    · obtain ⟨value, -, ended⟩ := writeWords_of_isLeast m first
      rw [ended] at answer
      exact absurd answer Bool.false_ne_true
  · intro none
    rw [writeWords_of_backed m address values fun i hi => backedWord_of_lacking_eq_empty m none hi]

/-- The backed bytes of a word are written, whether or not all of them are. -/
theorem getElem?_writeWord (address value : UInt32) {i : Nat} (hi : i < 4)
    (backed : FlatMemory.Backed m.bytes (address + UInt32.ofNat i)) :
    (m.writeWord address value).2.bytes[FlatMemory.offset (address + UInt32.ofNat i)]?
      = some (Word.byte value i) := by
  have full : Word.byte 0xffffffff i = 0xff := by
    interval_cases i <;> rfl
  rw [writeWord, (refines_bytes m).written address value _ i hi backed, full,
    FlatMemory.blend_full]

/-- A word of a run that is no longer than a segment is read back: no later word of the
run has a byte in common with it. -/
theorem word_writeEach (address : UInt32) (values : List UInt32)
    (short : values.length ≤ 2 ^ 27) {i : Nat} (hi : i < values.length)
    (backed : FlatMemory.BackedWord m.bytes (place address i)) :
    (m.writeEach address 0 values).word (place address i) = values[i] := by
  apply Word.eq_of_byte
  intro k hk
  have length := length_flatMap_bytes values
  have lt : 4 * i + k < (values.flatMap Word.bytes).length := by omega
  have here := backed k hk
  -- byte `k` of word `i` is byte `4 * i + k` of the run
  have stored : (values.flatMap Word.bytes)[4 * i + k] = Word.byte values[i] k := by
    apply Option.some.inj
    rw [← List.getElem?_eq_getElem lt, getElem?_flatMap_bytes, Nat.mul_add_div (by decide),
      Nat.div_eq_of_lt hk, Nat.mul_add_mod, Nat.mod_eq_of_lt hk, Nat.add_zero,
      List.getElem?_eq_getElem hi, Option.map_some]
  rw [place_add] at here
  rw [byte_word _ _ hk, bytes_writeEach, place_zero, place_add,
    FlatMemory.byte_storeBytes m.bytes address _ (by omega) lt here, stored]

/-- What lies outside of a run stays as it was. -/
theorem getElem?_writeEach_of_ne (address : UInt32) (values : List UInt32) (j : Nat)
    (outside : ∀ i < 4 * values.length,
      FlatMemory.offset (address + UInt32.ofNat i) ≠ j) :
    (m.writeEach address 0 values).bytes[j]? = m.bytes[j]? := by
  rw [bytes_writeEach, place_zero]
  apply FlatMemory.getElem?_storeBytes_of_ne
  intro k hk _
  rw [length_flatMap_bytes] at hk
  exact outside k hk

/-- **A run of words is written up to the first one that is not backed as a whole**, at
any address. If there is none, it answers that it was written, and every word has been.
Otherwise it answers that it was not: the words before have been written, of that word
the bytes that are backed, and nothing behind it. A run that was written and is no
longer than a segment is read back, and the image is as before outside of it. -/
theorem writeWords_stops (m : Rdram) (address : UInt32) (values : List UInt32) :
    let run := m.writeWords address values
    (m.lacking address values = ∅ → run = (true, m.writeEach address 0 values))
      ∧ (∀ k, IsLeast (m.lacking address values) k →
          let before := m.writeEach address 0 (values.take k)
          run.1 = false
            ∧ ∃ value, values[k]? = some value
              ∧ run.2 = (before.writeWord (place address k) value).2
              ∧ (∀ i < 4, FlatMemory.Backed m.bytes (place address k + UInt32.ofNat i) →
                  run.2.bytes[FlatMemory.offset (place address k + UInt32.ofNat i)]?
                    = some (Word.byte value i))
              ∧ ∀ j, (∀ i < 4, FlatMemory.Backed m.bytes (place address k + UInt32.ofNat i) →
                  FlatMemory.offset (place address k + UInt32.ofNat i) ≠ j) →
                run.2.bytes[j]? = before.bytes[j]?)
      ∧ (run.1 = true → values.length ≤ 2 ^ 27 →
          (∀ i, ∀ h : i < values.length, run.2.word (place address i) = values[i])
            ∧ ∀ j, (∀ i < 4 * values.length,
                FlatMemory.offset (address + UInt32.ofNat i) ≠ j) →
              run.2.bytes[j]? = m.bytes[j]?) := by
  intro run
  have whole (none : m.lacking address values = ∅) :
      run = (true, m.writeEach address 0 values) :=
    writeWords_of_backed m address values fun i hi => backedWord_of_lacking_eq_empty m none hi
  refine ⟨whole, fun k first => ?_, fun answer short => ?_⟩
  · intro before
    obtain ⟨value, known, ended⟩ := writeWords_of_isLeast m first
    have ended : run = (false, (before.writeWord (place address k) value).2) := ended
    have same : before.bytes.length = m.bytes.length := length_bytes_writeEach m address 0 _
    have last : run.2 = (before.writeWord (place address k) value).2 := by rw [ended]
    refine ⟨congrArg Prod.fst ended, value, known, last, fun i hi backed => ?_, fun j apart => ?_⟩
    · rw [last]
      exact getElem?_writeWord before _ _ hi ((FlatMemory.backed_congr same _).mpr backed)
    · rw [last]
      refine (refines_bytes before).kept _ _ _ j fun i hi backed => ?_
      exact apart i hi ((FlatMemory.backed_congr same _).mp backed)
  · have none := (fst_writeWords m address values).mp answer
    rw [whole none]
    exact ⟨fun i hi => word_writeEach m address values short hi
        (backedWord_of_lacking_eq_empty m none hi),
      getElem?_writeEach_of_ne m address values⟩

/-- Unaligned words at the end of an image: the first one fits, and of the second one
three bytes do. -/
theorem writeWords_stops_at_the_end :
    (zeroed 8).lacking 0x80000001 [0x11223344] = ∅
      ∧ ((zeroed 8).writeWords 0x80000001 [0x11223344]).1 = true
      ∧ ((zeroed 8).writeWords 0x80000001 [0x11223344]).2.word 0x80000001 = 0x11223344
      ∧ IsLeast ((zeroed 8).lacking 0x80000001 [0x11223344, 0x55667788, 0x99aabbcc]) 1
      ∧ ((zeroed 8).writeWords 0x80000001 [0x11223344, 0x55667788, 0x99aabbcc]).1 = false
      ∧ ((zeroed 8).writeWords 0x80000001 [0x11223344, 0x55667788, 0x99aabbcc]).2.bytes[7]?
          = some 0x77 := by
  have backed : FlatMemory.BackedWord (zeroed 8).bytes (place 0x80000001 0) := by decide +kernel
  have unbacked : ¬ FlatMemory.BackedWord (zeroed 8).bytes (place 0x80000001 1) := by
    decide +kernel
  have none : (zeroed 8).lacking 0x80000001 [0x11223344] = ∅ := by
    apply Set.eq_empty_iff_forall_notMem.mpr
    rintro k ⟨lt, lacks⟩
    obtain rfl := Nat.lt_one_iff.mp lt
    exact lacks backed
  have first : IsLeast ((zeroed 8).lacking 0x80000001 [0x11223344, 0x55667788, 0x99aabbcc]) 1 := by
    refine ⟨⟨by decide, unbacked⟩, ?_⟩
    rintro k ⟨-, lacks⟩
    apply Nat.one_le_iff_ne_zero.mpr
    rintro rfl
    exact lacks backed
  obtain ⟨whole, -, back⟩ := writeWords_stops (zeroed 8) 0x80000001 [0x11223344]
  obtain ⟨-, stops, -⟩ :=
    writeWords_stops (zeroed 8) 0x80000001 [0x11223344, 0x55667788, 0x99aabbcc]
  have answer := congrArg Prod.fst (whole none)
  obtain ⟨refused, value, known, -, stored, -⟩ := stops 1 first
  obtain rfl := Option.some.inj known
  exact ⟨none, answer, (back answer (by decide)).1 0 (by decide), first, refused,
    stored 2 (by decide) (by decide +kernel)⟩

end Unwind.Rdram
