/-
Unwind.Machine.Word — 32-bit words as four bytes, most significant first.
-/

namespace Unwind.Word

/-- The word of four bytes, the first one most significant. -/
def ofBytes (a b c d : UInt8) : UInt32 :=
  a.toUInt32 <<< 24 ||| b.toUInt32 <<< 16 ||| c.toUInt32 <<< 8 ||| d.toUInt32

/-- The four bytes of a word, the most significant one first. -/
def bytes (w : UInt32) : List UInt8 :=
  [(w >>> 24).toUInt8, (w >>> 16).toUInt8, (w >>> 8).toUInt8, w.toUInt8]

/-- The more significant half. -/
def high (w : UInt32) : UInt16 := (w >>> 16).toUInt16

/-- The most significant byte. -/
def top (w : UInt32) : UInt8 := (w >>> 24).toUInt8

/-- The bits of `value` where `mask` is set, those of `old` elsewhere. -/
def blend (old value mask : UInt32) : UInt32 := (old &&& ~~~mask) ||| (value &&& mask)

end Unwind.Word
