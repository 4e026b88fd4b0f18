/-
Unwind.Proofs.Rdram — an image of words is a flat memory of bytes.

  §1 Bytes     — the bytes of an image, one word after another, and what they
                 are for a new image.
  §2 Addresses — a word of the image holds the four bytes that the flat memory
                 has at an aligned address (`byte_alignedWord`).
  §3 Reading   — words, half words and bytes at any address (`word_eq`).
  §4 Writing   — a masked write stores four bytes (`bytes_writeMasked`) and answers
                 whether those it has to store are backed (`fst_writeMasked`); the
                 other writes are cases of it, or runs of such cases.
  §5 Accesses  — `refines_flat_memory`: after any accesses an image reads as the
                 flat memory on which the same stores were made.
-/
import Unwind.Proofs.Bytes
import Unwind.Proofs.FlatMemory

namespace Unwind.Rdram

/-! ## §1 Bytes -/

theorem getElem?_flatMap_bytes (words : List UInt32) (j : Nat) :
    (words.flatMap Word.bytes)[j]? = words[j / 4]?.map fun w => Word.byte w (j % 4) := by
  induction words generalizing j with
  | nil => rfl
  | cons w words ih =>
    rw [List.flatMap_cons]
    by_cases h : j < 4
    · rw [List.getElem?_append_left h, Nat.div_eq_of_lt h, Nat.mod_eq_of_lt h]
      interval_cases j <;> rfl
    · obtain ⟨i, rfl⟩ : ∃ i, j = i + 4 := ⟨j - 4, by omega⟩
      rw [List.getElem?_append_right (by simp), Word.length_bytes, Nat.add_sub_cancel, ih,
        Nat.add_div_right i (by decide), Nat.add_mod_right, List.getElem?_cons_succ]

theorem length_flatMap_bytes (words : List UInt32) :
    (words.flatMap Word.bytes).length = 4 * words.length := by
  rw [List.length_flatMap]
  simp only [Word.length_bytes, List.map_const', List.sum_replicate_nat]
  exact Nat.mul_comm _ _

theorem getElem?_bytes (m : Rdram) (j : Nat) :
    m.bytes[j]? = m.words[j / 4]?.map fun w => Word.byte w (j % 4) := by
  rw [bytes, getElem?_flatMap_bytes, Array.getElem?_toList]

@[simp] theorem length_bytes (m : Rdram) : m.bytes.length = m.len := by
  rw [bytes, len, length_flatMap_bytes, Array.length_toList]

/-- The image of a dump holds its bytes up to the last whole word. -/
theorem bytes_ofBytes (dump : Array UInt8) :
    (ofBytes dump).bytes = dump.toList.take (4 * (dump.size / 4)) := by
  apply List.ext_getElem?
  intro j
  rw [getElem?_bytes, List.getElem?_take, ofBytes, Array.getElem?_ofFn]
  by_cases h : j < 4 * (dump.size / 4)
  · have word : j / 4 < dump.size / 4 := by omega
    have here : j < dump.size := by omega
    rw [dif_pos word, if_pos h, Option.map_some, Array.getElem?_toList,
      Array.getElem?_eq_getElem here, Word.byte_ofBytes _ _ _ _ (Nat.mod_lt _ (by decide))]
    have place : j = 4 * (j / 4) + j % 4 := (Nat.div_add_mod j 4).symm
    have value : dump[j] = dump.getD (4 * (j / 4) + j % 4) 0 := by
      rw [← place, Array.getD_eq_getD_getElem?, Array.getElem?_eq_getElem here, Option.getD_some]
    rw [value]
    have lt : j % 4 < 4 := Nat.mod_lt _ (by decide)
    interval_cases j % 4 <;> rfl
  · have word : ¬ j / 4 < dump.size / 4 := by omega
    rw [dif_neg word, if_neg h, Option.map_none]

theorem bytes_zeroed (n : Nat) : (zeroed n).bytes = List.replicate (4 * (n / 4)) 0 := by
  apply List.ext_getElem?
  intro j
  rw [getElem?_bytes, zeroed, Array.getElem?_replicate, List.getElem?_replicate]
  by_cases h : j < 4 * (n / 4)
  · rw [if_pos (by omega), if_pos h, Option.map_some]
    have lt : j % 4 < 4 := Nat.mod_lt _ (by decide)
    interval_cases j % 4 <;> rfl
  · rw [if_neg (by omega), if_neg h, Option.map_none]

/-! ## §2 Addresses -/

/-- The word of the image that holds the byte at an address, in numbers. -/
theorem index?_eq (address : UInt32) :
    index? address
      = if address.toNat / 2 ^ 30 = 2 then some (address.toNat % 2 ^ 29 / 4) else none := by
  have inner : (address &&& 0x1ffffffc).toNat / 4 = address.toNat % 2 ^ 29 / 4 := by
    rw [UInt32.toNat_and, show 4 = 2 ^ 2 from rfl, Nat.and_div_two_pow]
    have := Nat.and_two_pow_sub_one_eq_mod (address.toNat / 2 ^ 2) 27
    refine this.trans ?_
    omega
  simp only [index?, FlatMemory.mapped_iff, inner]

theorem toNat_alignDown (address : UInt32) :
    (alignDown address).toNat = 4 * (address.toNat / 4) := by
  have upper : (alignDown address).toNat / 2 ^ 2 = address.toNat / 2 ^ 2 := by
    have lt := address.toNat_lt
    rw [alignDown, UInt32.toNat_and, Nat.and_div_two_pow]
    exact (Nat.and_two_pow_sub_one_eq_mod _ 30).trans (Nat.mod_eq_of_lt (by omega))
  have lower : (alignDown address).toNat % 2 ^ 2 = 0 := by
    rw [alignDown, UInt32.toNat_and, Nat.and_mod_two_pow]
    exact Nat.and_zero _
  omega

theorem misalignment_eq (address : UInt32) :
    misalignment address = UInt32.ofNat (8 * (address.toNat % 4)) := by
  apply UInt32.toNat_inj.mp
  have inner : (address &&& 3).toNat = address.toNat % 4 :=
    Nat.and_two_pow_sub_one_eq_mod address.toNat 2
  rw [misalignment, UInt32.toNat_mul, inner, UInt32.toNat_ofNat', Nat.mul_comm]
  rfl

theorem alignDown_add (address : UInt32) (i : Nat) :
    address + UInt32.ofNat i = alignDown address + UInt32.ofNat (address.toNat % 4 + i) := by
  have split : address = alignDown address + UInt32.ofNat (address.toNat % 4) := by
    have lt := address.toNat_lt
    apply UInt32.toNat_inj.mp
    rw [UInt32.toNat_add, toNat_alignDown, UInt32.toNat_ofNat']
    omega
  rw [UInt32.ofNat_add, ← UInt32.add_assoc, ← split]

theorem add_four_add (address : UInt32) {i : Nat} (h : 4 ≤ i) :
    address + 4 + UInt32.ofNat (i - 4) = address + UInt32.ofNat i := by
  obtain ⟨k, rfl⟩ : ∃ k, i = 4 + k := ⟨i - 4, by omega⟩
  rw [UInt32.ofNat_add, ← UInt32.add_assoc, Nat.add_sub_cancel_left]
  rfl

/-- An address that is a multiple of four. -/
def Aligned (address : UInt32) : Prop := address.toNat % 4 = 0

theorem aligned_alignDown (address : UInt32) : Aligned (alignDown address) := by
  rw [Aligned, toNat_alignDown]
  exact Nat.mul_mod_right 4 _

theorem Aligned.add_four {address : UInt32} (h : Aligned address) : Aligned (address + 4) := by
  unfold Aligned at h ⊢
  rw [UInt32.toNat_add]
  simp only [UInt32.reduceToNat]
  omega

theorem Aligned.toNat_add {address : UInt32} (h : Aligned address) {k : Nat} (hk : k < 4) :
    (address + UInt32.ofNat k).toNat = address.toNat + k := by
  have lt := address.toNat_lt
  unfold Aligned at h
  rw [UInt32.toNat_add, UInt32.toNat_ofNat']
  omega

variable (m : Rdram)

/-- The four bytes at an aligned address are backed if the first one is. -/
theorem Aligned.backed_add_iff {address : UInt32} (h : Aligned address) {k : Nat} (hk : k < 4) :
    FlatMemory.Backed m.bytes (address + UInt32.ofNat k)
      ↔ FlatMemory.Backed m.bytes address := by
  rw [FlatMemory.backed_iff, FlatMemory.backed_iff, h.toNat_add hk, length_bytes, len]
  unfold Aligned at h
  omega

/-- They stand side by side in the image. -/
theorem Aligned.offset_add {address : UInt32} (h : Aligned address) {k : Nat} (hk : k < 4) :
    FlatMemory.offset (address + UInt32.ofNat k) = 4 * (address.toNat % 2 ^ 29 / 4) + k := by
  rw [FlatMemory.offset_eq, h.toNat_add hk]
  unfold Aligned at h
  omega

theorem index?_eq_some {address : UInt32} {i : Nat} (h : index? address = some i) :
    address.toNat % 2 ^ 29 / 4 = i := by
  rw [index?_eq] at h
  split at h
  · exact Option.some.inj h
  · exact absurd h (by simp)

/-- A word of the image is backed where its first byte is. -/
theorem backed_iff_index? {address : UInt32} :
    FlatMemory.Backed m.bytes address ↔ ∃ i, index? address = some i ∧ i < m.words.size := by
  rw [FlatMemory.backed_iff, length_bytes, len, index?_eq]
  constructor
  · rintro ⟨mapped, lt⟩
    exact ⟨_, if_pos mapped, by omega⟩
  · rintro ⟨i, hi, lt⟩
    split at hi
    · obtain rfl := Option.some.inj hi
      refine ⟨by assumption, by omega⟩
    · exact absurd hi (by simp)

/-- The bytes of the word at an aligned address are those of the memory. -/
theorem byte_alignedWord {address : UInt32} (h : Aligned address) {k : Nat} (hk : k < 4) :
    Word.byte (m.alignedWord address) k = FlatMemory.byte m.bytes (address + UInt32.ofNat k) := by
  unfold FlatMemory.byte
  by_cases backed : FlatMemory.Backed m.bytes address
  · obtain ⟨i, hi, lt⟩ := (backed_iff_index? m).mp backed
    rw [if_pos ((h.backed_add_iff m hk).mpr backed), h.offset_add hk, index?_eq_some hi,
      List.getD_eq_getElem?_getD, getElem?_bytes, Nat.mul_add_div (by decide),
      Nat.div_eq_of_lt hk, Nat.mul_add_mod, Nat.mod_eq_of_lt hk]
    simp only [alignedWord, hi, Nat.add_zero, Array.getD_eq_getD_getElem?,
      Array.getElem?_eq_getElem lt, Option.map_some, Option.getD_some]
  · rw [if_neg (mt (h.backed_add_iff m hk).mp backed)]
    have zero : m.alignedWord address = 0 := by
      unfold alignedWord
      cases hi : index? address with
      | none => rfl
      | some i =>
        have out : m.words.size ≤ i := by
          rw [← Nat.not_lt]
          exact fun lt => backed ((backed_iff_index? m).mpr ⟨i, hi, lt⟩)
        simp only [Array.getD_eq_getD_getElem?, Array.getElem?_eq_none out, Option.getD_none]
    rw [zero]
    interval_cases k <;> rfl

/-! ## §3 Reading -/

theorem misalignment_eq_zero_iff (address : UInt32) :
    misalignment address = 0 ↔ address.toNat % 4 = 0 := by
  rw [misalignment_eq, ← UInt32.toNat_inj, UInt32.toNat_ofNat']
  simp only [UInt32.reduceToNat]
  omega

/-- What a shift by the misalignment leaves out is shifted in from the other
side. -/
theorem sub_misalignment (address : UInt32) (h : address.toNat % 4 ≠ 0) :
    32 - misalignment address = UInt32.ofNat (8 * (4 - address.toNat % 4)) := by
  rw [misalignment_eq]
  have lt : address.toNat % 4 < 4 := Nat.mod_lt _ (by decide)
  interval_cases address.toNat % 4 <;> first | exact absurd rfl h | rfl

theorem byte_word (address : UInt32) {i : Nat} (hi : i < 4) :
    Word.byte (m.word address) i = FlatMemory.byte m.bytes (address + UInt32.ofNat i) := by
  have lt : address.toNat % 4 < 4 := Nat.mod_lt _ (by decide)
  have left := aligned_alignDown address
  simp only [word, misalignment_eq_zero_iff]
  by_cases aligned : address.toNat % 4 = 0
  · rw [if_pos aligned]
    exact byte_alignedWord m aligned hi
  · rw [if_neg aligned, sub_misalignment _ aligned, misalignment_eq, Word.byte_or _ _ hi,
      Word.byte_shiftLeft _ hi lt, Word.byte_shiftRight _ hi (by omega), alignDown_add]
    by_cases first : i + address.toNat % 4 < 4
    · rw [if_pos first, if_neg (by omega), byte_alignedWord m left first, UInt8.or_zero,
        Nat.add_comm i]
    · have beyond : 4 ≤ address.toNat % 4 + i := by omega
      have same : i - (4 - address.toNat % 4) = address.toNat % 4 + i - 4 := by omega
      rw [if_neg first, if_pos (by omega), byte_alignedWord m left.add_four (by omega),
        UInt8.zero_or, ← add_four_add (alignDown address) beyond, same]

/-- The word at any address is made of the bytes there and behind. -/
theorem word_eq (address : UInt32) : m.word address = FlatMemory.word m.bytes address := by
  apply Word.eq_of_byte
  intro i hi
  rw [byte_word m address hi, FlatMemory.word, Word.byte_ofBytes _ _ _ _ hi]
  interval_cases i
  · rw [FlatMemory.add_ofNat_zero]
    rfl
  · rfl
  · rfl
  · rfl

theorem byte_eq (address : UInt32) : m.memory.byte address = FlatMemory.byte m.bytes address := by
  have first := byte_word m address (i := 0) (by decide)
  rwa [FlatMemory.add_ofNat_zero] at first

theorem half_eq (address : UInt32) : m.memory.half address = FlatMemory.half m.bytes address := by
  have first := byte_word m address (i := 0) (by decide)
  have second := byte_word m address (i := 1) (by decide)
  rw [FlatMemory.add_ofNat_zero] at first
  rw [Memory.half, Word.high_eq, FlatMemory.half, ← first]
  exact congrArg (_ ||| UInt8.toUInt16 ·) second

/-! ## §4 Writing -/

/-- A change of one word that acts on its bytes changes those four bytes. -/
theorem flatMap_bytes_modify (words : List UInt32) (i : Nat) (f : UInt32 → UInt32)
    (g : Nat → UInt8 → UInt8) (h : ∀ w, ∀ k < 4, Word.byte (f w) k = g k (Word.byte w k)) :
    (words.modify i f).flatMap Word.bytes
      = ((((words.flatMap Word.bytes).modify (4 * i) (g 0)).modify (4 * i + 1) (g 1)).modify
          (4 * i + 2) (g 2)).modify (4 * i + 3) (g 3) := by
  induction words generalizing i with
  | nil => simp
  | cons w words ih =>
    cases i with
    | zero =>
      simp only [List.modify_zero_cons, List.flatMap_cons, Word.bytes_eq, h _ 0 (by decide),
        h _ 1 (by decide), h _ 2 (by decide), h _ 3 (by decide)]
      rfl
    | succ i =>
      rw [List.modify_succ_cons, List.flatMap_cons, List.flatMap_cons, ih, Word.bytes_eq]
      rfl

variable {m} in
/-- At a backed aligned address a store changes a byte of the word there. -/
theorem Aligned.store_eq {address : UInt32} (h : Aligned address) {i : Nat}
    (hi : index? address = some i) (lt : i < m.words.size) {flat : FlatMemory}
    (same : flat.length = m.bytes.length) {k : Nat} (hk : k < 4) (value mask : UInt8) :
    flat.store (address + UInt32.ofNat k) value mask
      = flat.modify (4 * i + k) fun old => FlatMemory.blend old value mask := by
  have backed : FlatMemory.Backed m.bytes (address + UInt32.ofNat k) :=
    (h.backed_add_iff m hk).mpr ((backed_iff_index? m).mpr ⟨i, hi, lt⟩)
  rw [FlatMemory.store, if_pos ((FlatMemory.backed_congr same _).mpr backed), h.offset_add hk,
    index?_eq_some hi]

/-- A write to an aligned word stores its four bytes. -/
theorem bytes_writeAligned {address : UInt32} (h : Aligned address) (value mask : UInt32) :
    (m.writeAligned address value mask).2.bytes
      = FlatMemory.storeAll m.bytes address ((Word.bytes value).zip (Word.bytes mask)) := by
  by_cases backed : FlatMemory.Backed m.bytes address
  · obtain ⟨i, hi, lt⟩ := (backed_iff_index? m).mp backed
    have zip : (Word.bytes value).zip (Word.bytes mask)
        = [(Word.byte value 0, Word.byte mask 0), (Word.byte value 1, Word.byte mask 1),
          (Word.byte value 2, Word.byte mask 2), (Word.byte value 3, Word.byte mask 3)] := rfl
    have bytewise := flatMap_bytes_modify m.words.toList i
      (fun old => Word.blend old value mask)
      (fun k old => FlatMemory.blend old (Word.byte value k) (Word.byte mask k))
      (fun w k hk => Word.byte_blend w value mask hk)
    have written : (m.writeAligned address value mask).2
        = ⟨m.words.modify i fun old => Word.blend old value mask⟩ := by
      simp only [writeAligned, hi, if_pos lt]
    rw [zip, FlatMemory.storeAll_four, h.store_eq hi lt rfl (by decide),
      h.store_eq hi lt (by simp) (by decide), h.store_eq hi lt (by simp) (by decide),
      h.store_eq hi lt (by simp) (by decide), written, bytes, Array.toList_modify, bytewise]
    rfl
  · have unchanged : (m.writeAligned address value mask).2 = m := by
      unfold writeAligned
      cases hi : index? address with
      | none => rfl
      | some i =>
        have out : ¬ i < m.words.size :=
          fun lt => backed ((backed_iff_index? m).mpr ⟨i, hi, lt⟩)
        simp only [if_neg out]
    rw [unchanged, FlatMemory.storeAll_of_not_backed]
    intro k hk
    exact mt (h.backed_add_iff m hk).mp backed

theorem bytes_writePart {address : UInt32} (h : Aligned address) (value mask : UInt32) :
    (m.writePart address value mask).2.bytes
      = FlatMemory.storeAll m.bytes address ((Word.bytes value).zip (Word.bytes mask)) := by
  unfold writePart
  by_cases zero : mask = 0
  · rw [if_pos zero, FlatMemory.storeAll_mask_zero]
    intro b hb
    have unmasked : Word.bytes 0 = List.replicate 4 0 := by decide
    rw [zero, unmasked] at hb
    exact List.eq_of_mem_replicate (List.of_mem_zip hb).2
  · rw [if_neg zero]
    exact bytes_writeAligned m h value mask

/-- A masked write stores the four bytes, backed or not, at any address. -/
theorem bytes_writeMasked (address value mask : UInt32) :
    (m.writeMasked address value mask).2.bytes
      = FlatMemory.storeAll m.bytes address ((Word.bytes value).zip (Word.bytes mask)) := by
  have lt : address.toNat % 4 < 4 := Nat.mod_lt _ (by decide)
  have left := aligned_alignDown address
  simp only [writeMasked, misalignment_eq_zero_iff]
  by_cases aligned : address.toNat % 4 = 0
  · rw [if_pos aligned]
    exact bytes_writeAligned m aligned value mask
  · -- both parts together are the bytes of the write between unmasked ones
    have pos : 0 < address.toNat % 4 := Nat.pos_of_ne_zero aligned
    have here : alignDown address + UInt32.ofNat (address.toNat % 4) = address := by
      rw [← Nat.add_zero (address.toNat % 4), ← alignDown_add, FlatMemory.add_ofNat_zero]
    have unmasked : ∀ n, ∀ b ∈ List.replicate n ((0, 0) : UInt8 × UInt8), b.2 = 0 := by
      intro n b hb
      rw [List.eq_of_mem_replicate hb]
    have join := FlatMemory.storeAll_append m.bytes (alignDown address)
      ((Word.bytes (value >>> UInt32.ofNat (8 * (address.toNat % 4)))).zip
        (Word.bytes (mask >>> UInt32.ofNat (8 * (address.toNat % 4)))))
      ((Word.bytes (value <<< UInt32.ofNat (8 * (4 - address.toNat % 4)))).zip
        (Word.bytes (mask <<< UInt32.ofNat (8 * (4 - address.toNat % 4)))))
    rw [if_neg aligned, sub_misalignment _ aligned, misalignment_eq,
      bytes_writePart _ left.add_four, bytes_writePart _ left]
    refine join.symm.trans ?_
    rw [Word.zip_bytes_shift value mask pos lt, FlatMemory.storeAll_append,
      FlatMemory.storeAll_mask_zero _ _ _ (unmasked _), List.length_replicate, here,
      FlatMemory.storeAll_append_unmasked _ _ _ _ (unmasked _)]

theorem bytes_writeWord (address value : UInt32) :
    (m.writeWord address value).2.bytes
      = FlatMemory.storeBytes m.bytes address (Word.bytes value) :=
  bytes_writeMasked m address value 0xffffffff

theorem bytes_writeHalf (address : UInt32) (value : UInt16) :
    (m.writeHalf address value).2.bytes
      = FlatMemory.storeBytes m.bytes address [(value >>> 8).toUInt8, value.toUInt8] := by
  have masked : Word.bytes 0xffff0000 = [0xff, 0xff, 0, 0] := by decide
  have rest : ∀ b ∈ [((0, 0) : UInt8 × UInt8), (0, 0)], b.2 = 0 := by simp
  have kept := FlatMemory.storeAll_append_unmasked m.bytes address
    [((value >>> 8).toUInt8, 0xff), (value.toUInt8, 0xff)] _ rest
  rw [writeHalf, bytes_writeMasked, Word.bytes_topHalf, masked]
  exact kept

theorem bytes_writeByte (address : UInt32) (value : UInt8) :
    (m.writeByte address value).2.bytes = FlatMemory.storeBytes m.bytes address [value] := by
  have masked : Word.bytes 0xff000000 = [0xff, 0, 0, 0] := by decide
  have rest : ∀ b ∈ [((0, 0) : UInt8 × UInt8), (0, 0), (0, 0)], b.2 = 0 := by simp
  have kept := FlatMemory.storeAll_append_unmasked m.bytes address [(value, 0xff)] _ rest
  rw [writeByte, bytes_writeMasked, Word.bytes_topByte, masked]
  exact kept

/-- A write to an aligned word answers whether it is backed. -/
theorem fst_writeAligned (address value mask : UInt32) :
    (m.writeAligned address value mask).1 = true ↔ FlatMemory.Backed m.bytes address := by
  rw [backed_iff_index?, writeAligned]
  cases hi : index? address with
  | none => simp
  | some i =>
    by_cases lt : i < m.words.size
    · simp [lt]
    · simp [lt]

/-- Whether every byte that has a bit in a mask is backed, at an address and those
that follow. -/
def Backs (address mask : UInt32) : Prop :=
  ∀ i < 4, Word.byte mask i ≠ 0 → FlatMemory.Backed m.bytes (address + UInt32.ofNat i)

variable {m} in
theorem backs_congr {m' : Rdram} (same : m'.bytes.length = m.bytes.length)
    (address mask : UInt32) : m'.Backs address mask ↔ m.Backs address mask := by
  simp only [Backs, FlatMemory.backed_congr same]

/-- A mask with bits in the first bytes only. -/
theorem backs_iff_of_first (address mask : UInt32) {n : Nat} (le : n ≤ 4)
    (bits : ∀ i < 4, Word.byte mask i ≠ 0 ↔ i < n) :
    m.Backs address mask ↔ ∀ i < n, FlatMemory.Backed m.bytes (address + UInt32.ofNat i) := by
  constructor
  · intro backs i hi
    exact backs i (by omega) ((bits i (by omega)).mpr hi)
  · intro backed i hi bit
    exact backed i ((bits i hi).mp bit)

/-- An aligned word is backed as a whole, if it has to be at all. -/
theorem Aligned.backs_iff {address : UInt32} (h : Aligned address) (mask : UInt32) :
    m.Backs address mask ↔ (mask ≠ 0 → FlatMemory.Backed m.bytes address) := by
  constructor
  · intro backs masked
    obtain ⟨i, hi, bit⟩ := Word.exists_byte_ne_zero masked
    exact (h.backed_add_iff m hi).mp (backs i hi bit)
  · intro backed i hi bit
    refine (h.backed_add_iff m hi).mpr (backed ?_)
    rintro rfl
    exact bit (Word.byte_zero i)

theorem fst_writePart {address : UInt32} (h : Aligned address) (value mask : UInt32) :
    (m.writePart address value mask).1 = true ↔ m.Backs address mask := by
  rw [h.backs_iff, writePart]
  by_cases zero : mask = 0
  · simp [zero]
  · simp [zero, fst_writeAligned]

/-- What an unaligned write has to be backed by is what its two parts have to. -/
theorem backs_parts {address : UInt32} (unaligned : address.toNat % 4 ≠ 0) (mask : UInt32) :
    m.Backs address mask
      ↔ m.Backs (alignDown address) (mask >>> misalignment address)
        ∧ m.Backs (alignDown address + 4) (mask <<< (32 - misalignment address)) := by
  have lt : address.toNat % 4 < 4 := Nat.mod_lt _ (by decide)
  rw [sub_misalignment _ unaligned, misalignment_eq]
  constructor
  · intro backs
    constructor
    · intro j hj bit
      rw [Word.byte_shiftRight _ hj lt, ne_eq, ite_eq_right_iff, Classical.not_imp] at bit
      obtain ⟨le, bit⟩ := bit
      have here := backs (j - address.toNat % 4) (by omega) bit
      rwa [alignDown_add, Nat.add_sub_cancel' le] at here
    · intro j hj bit
      rw [Word.byte_shiftLeft _ hj (by omega), ne_eq, ite_eq_right_iff, Classical.not_imp] at bit
      obtain ⟨le, bit⟩ := bit
      have here := backs (j + (4 - address.toNat % 4)) le bit
      have beyond : address.toNat % 4 + (j + (4 - address.toNat % 4)) = j + 4 := by omega
      rwa [alignDown_add, beyond, ← add_four_add _ (Nat.le_add_left 4 j),
        Nat.add_sub_cancel] at here
  · rintro ⟨low, high⟩ i hi bit
    rw [alignDown_add]
    by_cases first : address.toNat % 4 + i < 4
    · apply low _ first
      rwa [Word.byte_shiftRight _ first lt, if_pos (Nat.le_add_right _ i), Nat.add_sub_cancel_left]
    · have last : address.toNat % 4 + i - 4 < 4 := by omega
      have same : address.toNat % 4 + i - 4 + (4 - address.toNat % 4) = i := by omega
      rw [← add_four_add _ (Nat.not_lt.mp first)]
      apply high _ last
      rwa [Word.byte_shiftLeft _ last (by omega), same, if_pos hi]

/-- A masked write answers whether every byte it has to write is backed. An aligned
one needs its word even if it has nothing to write. -/
theorem fst_writeMasked (address value mask : UInt32) :
    (m.writeMasked address value mask).1 = true
      ↔ m.Backs address mask
        ∧ (mask = 0 → Aligned address → FlatMemory.Backed m.bytes address) := by
  simp only [writeMasked, misalignment_eq_zero_iff]
  by_cases aligned : address.toNat % 4 = 0
  · rw [if_pos aligned, fst_writeAligned, Aligned.backs_iff m aligned]
    by_cases zero : mask = 0
    · simp [zero, show Aligned address from aligned]
    · simp [zero]
  · have left := aligned_alignDown address
    have same : (m.writePart (alignDown address) (value >>> misalignment address)
        (mask >>> misalignment address)).2.bytes.length = m.bytes.length := by
      rw [bytes_writePart m left, FlatMemory.length_storeAll]
    rw [if_neg aligned, backs_parts m aligned]
    simp only [Bool.and_eq_true, fst_writePart _ left, fst_writePart _ left.add_four,
      backs_congr same, show ¬ Aligned address from aligned, false_implies, implies_true, and_true]

theorem fst_writeMasked_of_ne (address value : UInt32) {mask : UInt32} (masked : mask ≠ 0) :
    (m.writeMasked address value mask).1 = true ↔ m.Backs address mask := by
  rw [fst_writeMasked]
  exact and_iff_left fun zero => absurd zero masked

/-- The write of a word answers whether all of it is backed. -/
theorem fst_writeWord (address value : UInt32) :
    (m.writeWord address value).1 = true ↔ FlatMemory.BackedWord m.bytes address := by
  rw [writeWord, fst_writeMasked_of_ne m _ _ (by decide)]
  exact backs_iff_of_first m address _ le_rfl (by decide)

/-- A run of words is written word by word, up to the first one that is not
backed. -/
theorem bytes_writeRun (base : UInt32) (i : Nat) (values : List UInt32) :
    (m.writeRun base i values).2.bytes
      = FlatMemory.storeWords m.bytes (base + 4 * UInt32.ofNat i) values := by
  induction values generalizing m i with
  | nil => rfl
  | cons value values ih =>
    have next : base + 4 * UInt32.ofNat (i + 1) = base + 4 * UInt32.ofNat i + 4 := by
      rw [UInt32.ofNat_add, UInt32.mul_add, ← UInt32.add_assoc]
      rfl
    have answer := fst_writeWord m (base + 4 * UInt32.ofNat i) value
    have written := bytes_writeWord m (base + 4 * UInt32.ofNat i) value
    rw [writeRun, FlatMemory.storeWords]
    cases hw : m.writeWord (base + 4 * UInt32.ofNat i) value with
    | mk backed m' =>
      rw [hw] at answer written
      cases backed with
      | true => rw [if_pos (answer.mp rfl), ih, next, written]
      | false => rw [if_neg (mt answer.mpr Bool.false_ne_true), ← written]

theorem bytes_writeWords (address : UInt32) (values : List UInt32) :
    (m.writeWords address values).2.bytes = FlatMemory.storeWords m.bytes address values := by
  rw [writeWords, bytes_writeRun]
  exact congrArg (FlatMemory.storeWords m.bytes · values) (UInt32.add_zero address)

/-! ## §5 Accesses -/

/-- What an image does, told of its bytes alone. -/
structure Refines (m : Rdram) (flat : FlatMemory) : Prop where
  bytes : m.bytes = flat
  len : m.len = flat.length
  whole : 4 ∣ m.len
  word : ∀ address, m.memory.word address = flat.word address
  half : ∀ address, m.memory.half address = flat.half address
  byte : ∀ address, m.memory.byte address = flat.byte address
  /-- A masked write blends each of its bytes that is backed. -/
  written : ∀ address value mask, ∀ i < 4, flat.Backed (address + UInt32.ofNat i) →
    (m.writeMasked address value mask).2.bytes[FlatMemory.offset (address + UInt32.ofNat i)]?
      = some (FlatMemory.blend (flat.byte (address + UInt32.ofNat i)) (Word.byte value i)
          (Word.byte mask i))
  /-- All others it leaves as they were. -/
  kept : ∀ address value mask j,
    (∀ i < 4, flat.Backed (address + UInt32.ofNat i) →
      FlatMemory.offset (address + UInt32.ofNat i) ≠ j) →
    (m.writeMasked address value mask).2.bytes[j]? = flat[j]?
  /-- A byte has an address in either segment. -/
  segments : ∀ p : UInt32, p.toNat < 2 ^ 29 →
    m.memory.byte (0x80000000 + p) = m.memory.byte (0xa0000000 + p)
      ∧ ∀ value, (m.writeByte (0x80000000 + p) value).2.bytes
          = (m.writeByte (0xa0000000 + p) value).2.bytes
  /-- So has a word, if it lies wholly in them. -/
  segmentWords : ∀ p : UInt32, p.toNat + 4 ≤ 2 ^ 29 →
    m.memory.word (0x80000000 + p) = m.memory.word (0xa0000000 + p)
      ∧ ∀ value mask, (m.writeMasked (0x80000000 + p) value mask).2.bytes
          = (m.writeMasked (0xa0000000 + p) value mask).2.bytes

theorem refines_bytes : m.Refines m.bytes where
  bytes := rfl
  len := (length_bytes m).symm
  whole := Nat.dvd_mul_right 4 _
  word := word_eq m
  half := half_eq m
  byte := byte_eq m
  written address value mask i hi backed := by
    have four : ((Word.bytes value).zip (Word.bytes mask)).length = 4 := rfl
    have stored := FlatMemory.getElem?_storeAll m.bytes address
      ((Word.bytes value).zip (Word.bytes mask)) (by rw [four]; decide) hi backed
    rw [bytes_writeMasked, stored]
    interval_cases i <;> rfl
  kept address value mask j h := by
    rw [bytes_writeMasked]
    exact FlatMemory.getElem?_storeAll_of_ne m.bytes address _ j h
  segments p h := by
    constructor
    · rw [byte_eq, byte_eq]
      exact FlatMemory.byte_segments m.bytes h
    · intro value
      rw [bytes_writeByte, bytes_writeByte]
      exact FlatMemory.store_segments m.bytes h value 0xff
  segmentWords p h := by
    constructor
    · exact (word_eq m _).trans ((FlatMemory.word_segments m.bytes h).trans (word_eq m _).symm)
    · intro value mask
      rw [bytes_writeMasked, bytes_writeMasked]
      exact FlatMemory.storeAll_segments m.bytes _ h

/-- A scripted access does to the image what it does to the flat memory. -/
theorem bytes_perform (access : Script.Access) (s : Snapshot) :
    (access.perform s).2.rdram.bytes = FlatMemory.after s.rdram.bytes access := by
  cases access with
  | writeWord address value => exact bytes_writeWord s.rdram address value
  | writeHalf address value => exact bytes_writeHalf s.rdram address value
  | writeByte address value => exact bytes_writeByte s.rdram address value
  | writeMasked address value mask => exact bytes_writeMasked s.rdram address value mask
  | writeWords address values => exact bytes_writeWords s.rdram address values
  | _ => rfl

theorem bytes_performAll (shown : Nat) (accesses : List Script.Access) (s : Snapshot) :
    (Script.Access.performAll shown accesses s).2.rdram.bytes
      = accesses.foldl FlatMemory.after s.rdram.bytes := by
  induction accesses generalizing s with
  | nil => rfl
  | cons access rest ih =>
    rw [List.foldl_cons, ← bytes_perform]
    exact ih (access.perform s).2

/-- Where an image comes from. -/
inductive Origin
  | dump (bytes : Array UInt8)
  | zeros (len : Nat)

def Origin.image : Origin → Rdram
  | dump bytes => ofBytes bytes
  | zeros len => zeroed len

/-- The bytes of a new image: an incomplete last word is dropped. -/
def Origin.bytes : Origin → FlatMemory
  | dump bytes => bytes.toList.take (4 * (bytes.size / 4))
  | zeros len => List.replicate (4 * (len / 4)) 0

theorem Origin.bytes_image (origin : Origin) : origin.image.bytes = origin.bytes := by
  cases origin with
  | dump bytes => exact bytes_ofBytes bytes
  | zeros len => exact bytes_zeroed len

/-- After any accesses an image reads, and is written, as the flat memory on
which the same stores were made. Its length is that of the new image. -/
theorem refines_flat_memory (origin : Origin) (s : Snapshot) (shown : Nat)
    (accesses : List Script.Access) :
    let image := (Script.Access.performAll shown accesses
      { s with rdram := origin.image }).2.rdram
    image.Refines (accesses.foldl FlatMemory.after origin.bytes)
      ∧ image.len = origin.image.len := by
  intro image
  have same : image.bytes = accesses.foldl FlatMemory.after origin.bytes := by
    rw [← origin.bytes_image]
    exact bytes_performAll shown accesses _
  constructor
  · rw [← same]
    exact refines_bytes image
  · rw [← length_bytes, same, FlatMemory.length_foldl_after, ← origin.bytes_image, length_bytes]

end Unwind.Rdram
