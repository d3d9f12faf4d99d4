import ReplicatedKv.Bytes

/-! # UTF-8

Byte strings and the text they stand for.

* `Utf8.encode` — the bytes of a text.
* `Utf8.split` — a byte string cut, left to right, into encoded characters and maximal ill-formed
  parts.  A part is the longest beginning of a well-formed sequence that stands there, or a single
  byte where no well-formed sequence begins.
* `Utf8.decodeLossy` — the characters, with one U+FFFD for every ill-formed part.
* `Utf8.decode?` — the characters of a byte string that has no ill-formed part.
-/

namespace ReplicatedKv.Utf8

def encode (s : String) : Bytes := s.toList.flatMap String.utf8EncodeChar

/-- A closed range of byte values. -/
structure Range where
  first : Nat
  last : Nat

def Range.Holds (r : Range) (b : UInt8) : Prop := r.first ≤ b.toNat ∧ b.toNat ≤ r.last

instance (r : Range) (b : UInt8) : Decidable (r.Holds b) :=
  inferInstanceAs (Decidable (r.first ≤ b.toNat ∧ b.toNat ≤ r.last))

/-- The bytes that continue a sequence, unless its lead byte says otherwise. -/
def continuation : Range := ⟨0x80, 0xbf⟩

/-- What a lead byte announces: the leading bits of the code point, and the ranges that the bytes
    after it must lie in. -/
structure Lead where
  bits : Nat
  following : List Range

/-- The lead bytes of well-formed sequences.  The narrower second ranges keep out encodings that
    are longer than needed, surrogates, and numbers above U+10FFFF. -/
def lead? (b : UInt8) : Option Lead :=
  let n := b.toNat
  if n < 0x80 then some ⟨n, []⟩
  -- continuation bytes, and leads of two bytes for what fits into one
  else if n < 0xc2 then none
  else if n < 0xe0 then some ⟨n - 0xc0, [continuation]⟩
  else if n = 0xe0 then some ⟨0, [⟨0xa0, 0xbf⟩, continuation]⟩
  -- what would follow from 0xa0 on are the surrogates
  else if n = 0xed then some ⟨13, [⟨0x80, 0x9f⟩, continuation]⟩
  else if n < 0xf0 then some ⟨n - 0xe0, [continuation, continuation]⟩
  else if n = 0xf0 then some ⟨0, [⟨0x90, 0xbf⟩, continuation, continuation]⟩
  else if n < 0xf4 then some ⟨n - 0xf0, [continuation, continuation, continuation]⟩
  else if n = 0xf4 then some ⟨4, [⟨0x80, 0x8f⟩, continuation, continuation]⟩
  else none

/-- How many bytes at the front lie in the ranges, taken in order. -/
def fitting : List Range → Bytes → Nat
  | r :: ranges, b :: s => if r.Holds b then fitting ranges s + 1 else 0
  | _, _ => 0

/-- The code point with the given leading bits and continuation bytes. -/
def codePoint (bits : Nat) (following : Bytes) : Nat :=
  following.foldl (fun n b => n * 64 + b.toNat % 64) bits

/-- A part of a byte string: an encoded character, or bytes that encode none. -/
inductive Piece where
  | scalar (c : Char)
  | illFormed (bytes : Bytes)
  deriving DecidableEq

/-- The first part of `b :: s`, and how many bytes of `s` belong to it. -/
def firstPiece (b : UInt8) (s : Bytes) : Piece × Nat :=
  match lead? b with
  | none => (.illFormed [b], 0)
  | some lead =>
    let n := fitting lead.following s
    if n = lead.following.length then
      (.scalar (Char.ofNat (codePoint lead.bits (s.take n))), n)
    else
      (.illFormed (b :: s.take n), n)

/-- The encoded characters and maximal ill-formed parts, in order. -/
def split : Bytes → List Piece
  | [] => []
  | b :: s => (firstPiece b s).1 :: split (s.drop (firstPiece b s).2)
termination_by s => s.length
decreasing_by simp only [List.length_drop, List.length_cons]; omega

namespace Piece

/-- The character that stands for a part in readable text. -/
def shown : Piece → Char
  | scalar c => c
  | illFormed _ => Char.ofNat 0xfffd

def scalar? : Piece → Option Char
  | scalar c => some c
  | illFormed _ => none

end Piece

/-- The text of a byte string, with U+FFFD for every maximal ill-formed part. -/
def decodeLossy (s : Bytes) : String := String.ofList ((split s).map Piece.shown)

/-- The text that the byte string encodes, if it is well-formed. -/
def decode? (s : Bytes) : Option String := ((split s).mapM Piece.scalar?).map String.ofList

end ReplicatedKv.Utf8
