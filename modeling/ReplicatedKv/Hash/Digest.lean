import ReplicatedKv.Bytes

/-! # Digests

Every hash value of the application has 32 bytes.  The written form of a digest is `0x` followed by
its 64 hexadecimal digits.
-/

namespace ReplicatedKv

/-- A hash value of 32 bytes. -/
abbrev Digest := Vector UInt8 32

namespace Digest

/-- The digest of zero bytes only, which stands for the empty state. -/
def zero : Digest := .replicate 32 0

def toBytes (d : Digest) : Bytes := d.toList

/-- The written form: `0x` and 64 lower-case hexadecimal digits. -/
def toHex (d : Digest) : String := "0x" ++ d.toBytes.toHex

/-- The digest made of eight words, each written with `encode`. -/
def ofWords (encode : UInt32 → Bytes) (words : Vector UInt32 8) : Digest :=
  .ofFn fun i => (encode words[i.val / 4]).getD (i.val % 4) 0

@[simp] theorem length_toBytes (d : Digest) : d.toBytes.length = 32 := by simp [toBytes]

end Digest

def rotateRight (w n : UInt32) : UInt32 := w >>> n ||| w <<< (32 - n)

end ReplicatedKv
