import Mathlib.Data.List.Forall2
import ReplicatedKv.Text.Utf8

/-! # Encoded text

Cutting the bytes of a text into characters gives back the text: every encoded character is a
well-formed sequence, and what follows it is cut on its own.

* `lead?_one`, `lead?_two`, `lead?_three`, `lead?_four` — what the lead byte of each length
  announces.
* `exists_lead_utf8EncodeChar` — an encoded character is such a sequence.
* `split_encode`, `decode?_encode`, `encode_inj` — reading text that was written.
* `mem_utf8EncodeChar` — a byte below 128 stands for itself only.
-/

namespace ReplicatedKv.Utf8

theorem encode_append (s t : String) : encode (s ++ t) = encode s ++ encode t := by
  simp [encode]

theorem encode_ofList (chars : List Char) :
    encode (String.ofList chars) = chars.flatMap String.utf8EncodeChar := by
  simp [encode]

/-! ## Lead bytes -/

theorem toNat_byte {n : Nat} (small : n < 256) : (UInt8.ofNat n).toNat = n := by
  simp [Nat.mod_eq_of_lt small]

theorem lead?_one {n : Nat} (small : n < 0x80) : lead? (UInt8.ofNat n) = some ⟨n, []⟩ := by
  simp only [lead?, toNat_byte (show n < 256 by omega), if_pos small]

theorem lead?_two {n : Nat} (low : 0xc2 ≤ n) (high : n < 0xe0) :
    lead? (UInt8.ofNat n) = some ⟨n - 0xc0, [continuation]⟩ := by
  simp only [lead?, toNat_byte (show n < 256 by omega)]
  rw [if_neg (by omega), if_neg (by omega), if_pos high]

/-- The byte after a lead byte of three bytes. -/
def secondOfThree (n : Nat) : Range :=
  if n = 0xe0 then ⟨0xa0, 0xbf⟩ else if n = 0xed then ⟨0x80, 0x9f⟩ else continuation

theorem lead?_three {n : Nat} (low : 0xe0 ≤ n) (high : n < 0xf0) :
    lead? (UInt8.ofNat n) = some ⟨n - 0xe0, [secondOfThree n, continuation]⟩ := by
  simp only [lead?, secondOfThree, toNat_byte (show n < 256 by omega)]
  rw [if_neg (by omega), if_neg (by omega), if_neg (by omega)]
  by_cases first : n = 0xe0
  · simp [first]
  by_cases surrogates : n = 0xed
  · simp [surrogates]
  · rw [if_neg first, if_neg surrogates, if_pos high, if_neg first, if_neg surrogates]

/-- The byte after a lead byte of four bytes. -/
def secondOfFour (n : Nat) : Range :=
  if n = 0xf0 then ⟨0x90, 0xbf⟩ else if n = 0xf4 then ⟨0x80, 0x8f⟩ else continuation

theorem lead?_four {n : Nat} (low : 0xf0 ≤ n) (high : n < 0xf5) :
    lead? (UInt8.ofNat n) = some ⟨n - 0xf0, [secondOfFour n, continuation, continuation]⟩ := by
  simp only [lead?, secondOfFour, toNat_byte (show n < 256 by omega)]
  rw [if_neg (by omega), if_neg (by omega), if_neg (by omega), if_neg (by omega),
    if_neg (by omega), if_neg (by omega)]
  by_cases first : n = 0xf0
  · simp [first]
  by_cases last : n = 0xf4
  · simp [last]
  · rw [if_neg first, if_pos (by omega), if_neg first, if_neg last]

/-! ## Encoded characters -/

theorem holds_byte {r : Range} {n : Nat} (low : r.first ≤ n) (high : n ≤ r.last)
    (small : n < 256) : r.Holds (UInt8.ofNat n) := by
  rw [Range.Holds, toNat_byte small]
  exact ⟨low, high⟩

theorem holds_continuation (n : Nat) : continuation.Holds (UInt8.ofNat (n % 64 + 128)) :=
  holds_byte (by simp only [continuation]; omega) (by simp only [continuation]; omega) (by omega)

/-- The encoding of a character is a lead byte and as many bytes as it announces, in its ranges. -/
theorem exists_lead_utf8EncodeChar (c : Char) :
    ∃ b following lead, String.utf8EncodeChar c = b :: following ∧ lead? b = some lead ∧
      List.Forall₂ Range.Holds lead.following following ∧
      codePoint lead.bits following = c.toNat := by
  have valid : c.toNat < 0xd800 ∨ 0xdfff < c.toNat ∧ c.toNat < 0x110000 := c.valid
  have low (n : Nat) : (UInt8.ofNat (n % 64 + 128)).toNat % 64 = n % 64 := by
    rw [toNat_byte (by omega)]
    omega
  rw [String.utf8EncodeChar]
  simp only [Char.toNat] at valid ⊢
  generalize c.val.toNat = v at valid ⊢
  -- the length of the encoding decides which lead byte there is
  by_cases one : v ≤ 0x7f
  · rw [if_pos one]
    exact ⟨_, _, _, rfl, lead?_one (by omega), .nil, rfl⟩
  rw [if_neg one]
  by_cases two : v ≤ 0x7ff
  · rw [if_pos two]
    refine ⟨_, _, _, rfl, lead?_two (by omega) (by omega), .cons (holds_continuation v) .nil, ?_⟩
    simp only [codePoint, List.foldl_cons, List.foldl_nil, low]
    omega
  rw [if_neg two]
  by_cases three : v ≤ 0xffff
  · rw [if_pos three]
    refine ⟨_, _, _, rfl, lead?_three (by omega) (by omega),
      .cons ?_ (.cons (holds_continuation v) .nil), ?_⟩
    · rw [secondOfThree]
      -- the narrower ranges are those of overlong encodings and of surrogates
      split
      · exact holds_byte (by dsimp only; omega) (by dsimp only; omega) (by omega)
      split
      · exact holds_byte (by dsimp only; omega) (by dsimp only; omega) (by omega)
      · exact holds_continuation (v / 64)
    · simp only [codePoint, List.foldl_cons, List.foldl_nil, low]
      omega
  · rw [if_neg three]
    refine ⟨_, _, _, rfl, lead?_four (by omega) (by omega),
      .cons ?_ (.cons (holds_continuation (v / 64)) (.cons (holds_continuation v) .nil)), ?_⟩
    · rw [secondOfFour]
      split
      · exact holds_byte (by dsimp only; omega) (by dsimp only; omega) (by omega)
      split
      · exact holds_byte (by dsimp only; omega) (by dsimp only; omega) (by omega)
      · exact holds_continuation (v / 4096)
    · simp only [codePoint, List.foldl_cons, List.foldl_nil, low]
      omega

/-- A byte below 128 in an encoding is the whole encoding. -/
theorem mem_utf8EncodeChar {c : Char} {b : UInt8} (member : b ∈ String.utf8EncodeChar c) :
    0x80 ≤ b.toNat ∨ c.toNat = b.toNat ∧ String.utf8EncodeChar c = [b] := by
  rw [String.utf8EncodeChar] at member ⊢
  simp only [Char.toNat] at member ⊢
  generalize c.val.toNat = v at member ⊢
  by_cases one : v ≤ 0x7f
  · rw [if_pos one] at member ⊢
    obtain rfl := List.mem_singleton.mp member
    exact .inr ⟨(toNat_byte (by omega)).symm, rfl⟩
  · left
    rw [if_neg one] at member
    split at member
    · simp only [List.mem_cons, List.not_mem_nil, or_false] at member
      rcases member with rfl | rfl <;> rw [toNat_byte (by omega)] <;> omega
    split at member
    · simp only [List.mem_cons, List.not_mem_nil, or_false] at member
      rcases member with rfl | rfl | rfl <;> rw [toNat_byte (by omega)] <;> omega
    · simp only [List.mem_cons, List.not_mem_nil, or_false] at member
      rcases member with rfl | rfl | rfl | rfl <;> rw [toNat_byte (by omega)] <;> omega

/-! ## Reading what was written -/

theorem fitting_append {ranges : List Range} {following : Bytes}
    (holds : List.Forall₂ Range.Holds ranges following) (s : Bytes) :
    fitting ranges (following ++ s) = following.length := by
  induction holds with
  | nil => cases s <;> rfl
  | cons first others ih => rw [List.cons_append, fitting, if_pos first, ih, List.length_cons]

theorem split_utf8EncodeChar (c : Char) (s : Bytes) :
    split (String.utf8EncodeChar c ++ s) = .scalar c :: split s := by
  obtain ⟨b, following, lead, encoded, found, holds, value⟩ := exists_lead_utf8EncodeChar c
  have whole : firstPiece b (following ++ s) = (.scalar c, following.length) := by
    simp only [firstPiece, found, fitting_append holds, holds.length_eq, if_true,
      List.take_left, value, Char.ofNat_toNat]
  rw [encoded, List.cons_append, split, whole, List.drop_left]

theorem split_encode (t : String) : split (encode t) = t.toList.map .scalar := by
  rw [encode]
  induction t.toList with
  | nil => rw [List.flatMap_nil, split, List.map_nil]
  | cons c chars ih => rw [List.flatMap_cons, split_utf8EncodeChar, ih, List.map_cons]

theorem decode?_encode (t : String) : decode? (encode t) = some t := by
  have scalars (chars : List Char) : (chars.map Piece.scalar).mapM Piece.scalar? = some chars := by
    induction chars with
    | nil => rfl
    | cons c chars ih => rw [List.map_cons, List.mapM_cons, ih]; rfl
  rw [decode?, split_encode, scalars, Option.map_some, String.ofList_toList]

theorem encode_inj {s t : String} : encode s = encode t ↔ s = t := by
  constructor
  · intro same
    have read := congrArg decode? same
    rwa [decode?_encode, decode?_encode, Option.some.injEq] at read
  · exact congrArg encode

/-- A byte below 128 occurs in the bytes of a text only where its character occurs in the text. -/
theorem mem_of_mem_encode {t : String} {b : UInt8} (ascii : b.toNat < 0x80)
    (member : b ∈ encode t) : Char.ofNat b.toNat ∈ t.toList := by
  obtain ⟨c, inText, inChar⟩ := List.mem_flatMap.mp member
  obtain high | ⟨same, -⟩ := mem_utf8EncodeChar inChar
  · omega
  · rwa [← same, Char.ofNat_toNat]

end ReplicatedKv.Utf8
