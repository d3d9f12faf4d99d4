import Mathlib.Tactic.Choose
import ReplicatedKv.Proofs.Text.Utf8

/-! # Sequences of bytes that encode characters

The table of lead bytes is exact: a lead byte with bytes from its ranges is an encoded character,
and bytes begin an encoded character exactly where they fit the table.

* `lead?_cases` — the lead bytes and what they announce, by the length of the sequence.
* `utf8EncodeChar_of_holds` — bytes from the ranges of their lead byte encode a character.
* `lead?_of_mem` — no other byte of an encoded character is a lead byte.
* `exists_prefix_utf8EncodeChar_iff` — the beginnings of encoded characters.
-/

namespace ReplicatedKv.Utf8

/-! ## Lead bytes -/

theorem lead?_none {n : Nat} (other : 0x80 ≤ n ∧ n < 0xc2 ∨ 0xf5 ≤ n ∧ n < 256) :
    lead? (UInt8.ofNat n) = none := by
  simp only [lead?, toNat_byte (show n < 256 by omega)]
  rw [if_neg (by omega)]
  obtain between | above := other
  · rw [if_pos between.2]
  · rw [if_neg (by omega), if_neg (by omega), if_neg (by omega), if_neg (by omega),
      if_neg (by omega), if_neg (by omega), if_neg (by omega), if_neg (by omega)]

/-- A lead byte is one of those that the encodings of some length begin with. -/
theorem lead?_cases {b : UInt8} {lead : Lead} (found : lead? b = some lead) :
    (b.toNat < 0x80 ∧ lead = ⟨b.toNat, []⟩) ∨
      ((0xc2 ≤ b.toNat ∧ b.toNat < 0xe0) ∧ lead = ⟨b.toNat - 0xc0, [continuation]⟩) ∨
      ((0xe0 ≤ b.toNat ∧ b.toNat < 0xf0) ∧
        lead = ⟨b.toNat - 0xe0, [secondOfThree b.toNat, continuation]⟩) ∨
      (0xf0 ≤ b.toNat ∧ b.toNat < 0xf5) ∧
        lead = ⟨b.toNat - 0xf0, [secondOfFour b.toNat, continuation, continuation]⟩ := by
  have small := b.toNat_lt
  rw [← UInt8.ofNat_toNat (x := b)] at found
  generalize b.toNat = n at found small ⊢
  by_cases one : n < 0x80
  · rw [lead?_one one] at found
    exact .inl ⟨one, (Option.some.inj found).symm⟩
  by_cases two : 0xc2 ≤ n ∧ n < 0xe0
  · rw [lead?_two two.1 two.2] at found
    exact .inr (.inl ⟨two, (Option.some.inj found).symm⟩)
  by_cases three : 0xe0 ≤ n ∧ n < 0xf0
  · rw [lead?_three three.1 three.2] at found
    exact .inr (.inr (.inl ⟨three, (Option.some.inj found).symm⟩))
  by_cases four : 0xf0 ≤ n ∧ n < 0xf5
  · rw [lead?_four four.1 four.2] at found
    exact .inr (.inr (.inr ⟨four, (Option.some.inj found).symm⟩))
  · rw [lead?_none (by omega)] at found
    nomatch found

theorem holds_continuation_iff {b : UInt8} :
    continuation.Holds b ↔ 0x80 ≤ b.toNat ∧ b.toNat < 0xc0 := by
  simp only [continuation, Range.Holds]
  omega

/-- The second byte of three keeps out encodings that are too long, and surrogates. -/
theorem holds_secondOfThree {n : Nat} {b : UInt8} (holds : (secondOfThree n).Holds b) :
    (0x80 ≤ b.toNat ∧ b.toNat < 0xc0) ∧ (n = 0xe0 → 0xa0 ≤ b.toNat) ∧
      (n = 0xed → b.toNat < 0xa0) := by
  simp only [secondOfThree, Range.Holds] at holds
  split at holds
  · dsimp only at holds; omega
  split at holds
  · dsimp only at holds; omega
  · simp only [continuation] at holds; omega

theorem holds_secondOfFour {n : Nat} {b : UInt8} (holds : (secondOfFour n).Holds b) :
    (0x80 ≤ b.toNat ∧ b.toNat < 0xc0) ∧ (n = 0xf0 → 0x90 ≤ b.toNat) ∧
      (n = 0xf4 → b.toNat < 0x90) := by
  simp only [secondOfFour, Range.Holds] at holds
  split at holds
  · dsimp only at holds; omega
  split at holds
  · dsimp only at holds; omega
  · simp only [continuation] at holds; omega

/-- The bytes after a lead byte are no lead bytes. -/
theorem lead?_of_mem_following {b other : UInt8} {lead : Lead} {r : Range}
    (found : lead? b = some lead) (member : r ∈ lead.following) (holds : r.Holds other) :
    lead? other = none := by
  have inside : 0x80 ≤ other.toNat ∧ other.toNat < 0xc0 := by
    obtain ⟨-, rfl⟩ | ⟨-, rfl⟩ | ⟨-, rfl⟩ | ⟨-, rfl⟩ := lead?_cases found
    · nomatch member
    · obtain rfl := List.mem_singleton.mp member
      exact holds_continuation_iff.mp holds
    · simp only [List.mem_cons, List.not_mem_nil, or_false] at member
      obtain rfl | rfl := member
      · exact (holds_secondOfThree holds).1
      · exact holds_continuation_iff.mp holds
    · simp only [List.mem_cons, List.not_mem_nil, or_false] at member
      obtain rfl | rfl | rfl := member
      · exact (holds_secondOfFour holds).1
      · exact holds_continuation_iff.mp holds
      · exact holds_continuation_iff.mp holds
  rw [← UInt8.ofNat_toNat (x := other)]
  exact lead?_none (.inl ⟨inside.1, by omega⟩)

/-- No range of a lead byte is empty. -/
theorem exists_holds_of_mem_following {b : UInt8} {lead : Lead} {r : Range}
    (found : lead? b = some lead) (member : r ∈ lead.following) : ∃ c, r.Holds c := by
  have second (n : Nat) : (∃ c, (secondOfThree n).Holds c) ∧ ∃ c, (secondOfFour n).Holds c := by
    rw [secondOfThree, secondOfFour]
    refine ⟨?_, ?_⟩
    all_goals
      split
      · exact ⟨0xa0, by decide⟩
      split
      · exact ⟨0x80, by decide⟩
      · exact ⟨0x80, by decide⟩
  have others : ∃ c, continuation.Holds c := ⟨0x80, by decide⟩
  obtain ⟨-, rfl⟩ | ⟨-, rfl⟩ | ⟨-, rfl⟩ | ⟨-, rfl⟩ := lead?_cases found
  · cases member
  · obtain rfl := List.mem_singleton.mp member
    exact others
  · simp only [List.mem_cons, List.not_mem_nil, or_false] at member
    obtain rfl | rfl := member
    · exact (second _).1
    · exact others
  · simp only [List.mem_cons, List.not_mem_nil, or_false] at member
    obtain rfl | rfl | rfl := member
    · exact (second _).2
    · exact others
    · exact others

/-! ## Whole sequences -/

theorem toNat_ofNat_of_valid {n : Nat} (valid : n.isValidChar) : (Char.ofNat n).toNat = n := by
  rw [Char.ofNat, dif_pos valid]
  rfl

theorem ofNat_eq_byte {n : Nat} {b : UInt8} (same : n = b.toNat) : UInt8.ofNat n = b := by
  rw [same, UInt8.ofNat_toNat]

/-- A lead byte and as many bytes as it announces, in its ranges, are an encoded character. -/
theorem utf8EncodeChar_of_holds {b : UInt8} {following : Bytes} {lead : Lead}
    (found : lead? b = some lead) (holds : List.Forall₂ Range.Holds lead.following following) :
    String.utf8EncodeChar (Char.ofNat (codePoint lead.bits following)) = b :: following := by
  -- what the bytes are, is said of their numbers, with the character's number in hand
  have encode {v : Nat} (valid : v.isValidChar) :
      String.utf8EncodeChar (Char.ofNat v) =
        if v ≤ 0x7f then [UInt8.ofNat v]
        else if v ≤ 0x7ff then [UInt8.ofNat (v / 64 % 32 + 192), UInt8.ofNat (v % 64 + 128)]
        else if v ≤ 0xffff then [UInt8.ofNat (v / 4096 % 16 + 224),
          UInt8.ofNat (v / 64 % 64 + 128), UInt8.ofNat (v % 64 + 128)]
        else [UInt8.ofNat (v / 262144 % 8 + 240), UInt8.ofNat (v / 4096 % 64 + 128),
          UInt8.ofNat (v / 64 % 64 + 128), UInt8.ofNat (v % 64 + 128)] := by
    rw [String.utf8EncodeChar, show (Char.ofNat v).val.toNat = v from toNat_ofNat_of_valid valid]
  obtain ⟨one, rfl⟩ | ⟨two, rfl⟩ | ⟨three, rfl⟩ | ⟨four, rfl⟩ := lead?_cases found
  · cases holds
    simp only [codePoint, List.foldl_nil]
    rw [encode (.inl (by omega)), if_pos (by omega), UInt8.ofNat_toNat]
  · cases holds with
    | @cons _ c _ _ second others =>
      cases others
      have := holds_continuation_iff.mp second
      simp only [codePoint, List.foldl_cons, List.foldl_nil]
      rw [encode (.inl (by omega)), if_neg (by omega), if_pos (by omega),
        ofNat_eq_byte (b := b) (by omega), ofNat_eq_byte (b := c) (by omega)]
  · cases holds with
    | @cons _ c _ _ second others =>
      cases others with
      | @cons _ d _ _ third others =>
        cases others
        have := holds_secondOfThree second
        have := holds_continuation_iff.mp third
        simp only [codePoint, List.foldl_cons, List.foldl_nil]
        rw [encode (by simp only [Nat.isValidChar]; omega), if_neg (by omega), if_neg (by omega),
          if_pos (by omega), ofNat_eq_byte (b := b) (by omega),
          ofNat_eq_byte (b := c) (by omega), ofNat_eq_byte (b := d) (by omega)]
  · cases holds with
    | @cons _ c _ _ second others =>
      cases others with
      | @cons _ d _ _ third others =>
        cases others with
        | @cons _ e _ _ fourth others =>
          cases others
          have := holds_secondOfFour second
          have := holds_continuation_iff.mp third
          have := holds_continuation_iff.mp fourth
          simp only [codePoint, List.foldl_cons, List.foldl_nil]
          rw [encode (by simp only [Nat.isValidChar]; omega), if_neg (by omega),
            if_neg (by omega), if_neg (by omega), ofNat_eq_byte (b := b) (by omega),
            ofNat_eq_byte (b := c) (by omega), ofNat_eq_byte (b := d) (by omega),
            ofNat_eq_byte (b := e) (by omega)]

/-! ## Beginnings of sequences -/

theorem exists_lead_of_eq {c : Char} {b : UInt8} {following : Bytes}
    (encoded : String.utf8EncodeChar c = b :: following) :
    ∃ lead, lead? b = some lead ∧ List.Forall₂ Range.Holds lead.following following := by
  obtain ⟨b', following', lead, same, found, holds, -⟩ := exists_lead_utf8EncodeChar c
  obtain ⟨rfl, rfl⟩ := List.cons.inj (same.symm.trans encoded)
  exact ⟨lead, found, holds⟩

/-- Only the first byte of an encoded character is a lead byte. -/
theorem lead?_of_mem {c : Char} {b other : UInt8} {following : Bytes}
    (encoded : String.utf8EncodeChar c = b :: following) (member : other ∈ following) :
    lead? other = none := by
  obtain ⟨lead, found, holds⟩ := exists_lead_of_eq encoded
  obtain ⟨i, inside, rfl⟩ := List.mem_iff_getElem.mp member
  have known : i < lead.following.length := by rwa [holds.length_eq]
  exact lead?_of_mem_following found (List.getElem_mem known)
    ((List.forall₂_iff_get.mp holds).2 i known inside)

/-- The bytes at the front lie in the ranges exactly where they are no more than the fitting ones. -/
theorem length_le_fitting_iff {ranges : List Range} {q s : Bytes} (front : q <+: s) :
    q.length ≤ fitting ranges s ↔ List.Forall₂ Range.Holds (ranges.take q.length) q := by
  induction q generalizing ranges s with
  | nil => simp
  | cons b q ih =>
    obtain ⟨t, rfl⟩ := front
    cases ranges with
    | nil => simp [fitting]
    | cons r ranges =>
      rw [List.cons_append, fitting, List.length_cons, List.take_succ_cons, List.forall₂_cons]
      by_cases holds : r.Holds b
      · rw [if_pos holds, Nat.add_le_add_iff_right, ih (List.prefix_append q t)]
        exact (and_iff_right holds).symm
      · rw [if_neg holds]
        exact ⟨fun long => absurd long (Nat.not_succ_le_zero _), fun both => absurd both.1 holds⟩

/-- Bytes at the front begin an encoded character exactly where they fit what the lead byte
    announces. -/
theorem exists_prefix_utf8EncodeChar_iff {b : UInt8} {q s : Bytes} (front : q <+: s) :
    (∃ c, b :: q <+: String.utf8EncodeChar c) ↔
      ∃ lead, lead? b = some lead ∧ q.length ≤ fitting lead.following s := by
  simp only [length_le_fitting_iff front]
  constructor
  · rintro ⟨c, rest, whole⟩
    have encoded : String.utf8EncodeChar c = b :: (q ++ rest) := whole.symm
    obtain ⟨lead, found, holds⟩ := exists_lead_of_eq encoded
    refine ⟨lead, found, ?_⟩
    have taken := List.forall₂_take q.length holds
    rwa [List.take_left] at taken
  · rintro ⟨lead, found, holds⟩
    -- any bytes from the ranges that are left complete the character
    have completes (ranges : List Range) (inhabited : ∀ r ∈ ranges, ∃ c, r.Holds c) :
        ∃ rest, List.Forall₂ Range.Holds ranges rest := by
      choose! byte inside using inhabited
      refine ⟨ranges.map byte, ?_⟩
      rw [List.forall₂_map_right_iff, List.forall₂_same]
      exact inside
    obtain ⟨rest, others⟩ := completes (lead.following.drop q.length) fun r member =>
      exists_holds_of_mem_following found (List.mem_of_mem_drop member)
    have whole : List.Forall₂ Range.Holds
        (lead.following.take q.length ++ lead.following.drop q.length) (q ++ rest) :=
      List.rel_append holds others
    rw [List.take_append_drop] at whole
    exact ⟨_, rest, (utf8EncodeChar_of_holds found whole).symm⟩

end ReplicatedKv.Utf8
