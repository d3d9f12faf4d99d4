import ReplicatedKv.Wire.Field

/-! # Spellings of numbers and keys

Reading is laxer than writing: a number may be spelled with more bytes than it needs.  This module
says which byte strings spell a number or a field key, without running the reader, and that the
reader takes exactly these.

* `Varint.Spelling` — seven bits a byte, at most ten bytes, a tenth byte of at most one.
* `FieldKey.Spelling` — a varint below 2^32 with a wire type that exists and a number above zero.
* `readVarint_eq_ok_iff`, `FieldKey.read_eq_ok_iff`, `readDelimited_eq_ok_iff` — a reading step
  succeeds exactly where a spelling stands at the front, and leaves what follows it.
* `Varint.spelling_encode`, `FieldKey.spelling_encode` — what is written is such a spelling.
* `Varint.Spelling.lt` — only numbers that fit into 64 bits have a spelling.
-/

namespace ReplicatedKv

/-- A step whose outcome is rearranged succeeds exactly as the step does. -/
theorem map_eq_ok_iff {ε α β : Type} {step : Except ε α} {f : α → β} {b : β} :
    step.map f = .ok b ↔ ∃ a, step = .ok a ∧ f a = b := by
  cases step with
  | error =>
    constructor
    · intro failed
      cases failed
    · intro given
      obtain ⟨_, failed, _⟩ := given
      cases failed
  | ok a =>
    constructor
    · intro mapped
      exact ⟨a, rfl, Except.ok.inj mapped⟩
    · intro given
      obtain ⟨_, same, mapped⟩ := given
      cases same
      exact congrArg Except.ok mapped

theorem map_eq_error_iff {ε α β : Type} {step : Except ε α} {f : α → β} {e : ε} :
    step.map f = .error e ↔ step = .error e := by
  cases step with
  | error =>
    constructor
    · intro failed
      cases failed
      rfl
    · intro failed
      cases failed
      rfl
  | ok a =>
    constructor
    · intro failed
      cases failed
    · intro failed
      cases failed

namespace Wire

/-! ## Varints -/

namespace Varint

/-- The number that seven-bit groups stand for, the lowest first. -/
def value : Bytes → Nat
  | [] => 0
  | b :: s => b.toNat % 128 + 128 * value s

/-- The rules for the bytes of a varint: `high`, and then `last`.  At most `more` bytes have the
    high bit set, and the byte after all of these has room for a single bit. -/
structure Complete (more : Nat) (high : Bytes) (last : UInt8) : Prop where
  continued : ∀ b ∈ high, 128 ≤ b.toNat
  ended : last.toNat < 128
  short : high.length ≤ more
  room : high.length = more → last.toNat ≤ 1

/-- The byte string spells the number: at most ten bytes, of which a tenth is at most one. -/
def Spelling (n : Nat) (s : Bytes) : Prop :=
  ∃ high last, s = high ++ [last] ∧ Complete 9 high last ∧ value s = n

theorem Complete.single {more : Nat} {b : UInt8} (low : b.toNat < 128)
    (room : more = 0 → b.toNat ≤ 1) : Complete more [] b where
  continued := by simp
  ended := low
  short := by simp
  room := fun full => room full.symm

theorem Complete.cons_iff {more : Nat} {b last : UInt8} {high : Bytes} :
    Complete (more + 1) (b :: high) last ↔ 128 ≤ b.toNat ∧ Complete more high last := by
  constructor
  · rintro ⟨continued, ended, short, room⟩
    simp only [List.mem_cons, forall_eq_or_imp, List.length_cons] at continued short room
    exact ⟨continued.1, continued.2, ended, by omega, fun full => room (by omega)⟩
  · rintro ⟨marked, continued, ended, short, room⟩
    refine ⟨?_, ended, by simpa using short, fun full => room (by simpa using full)⟩
    simpa [marked] using continued

theorem decodeWithin?_eq_some_iff {more n : Nat} {s rest : Bytes} :
    decodeWithin? more s = some (n, rest) ↔
      ∃ high last, s = high ++ last :: rest ∧ Complete more high last ∧
        value (high ++ [last]) = n := by
  -- every byte read leaves one byte less that may have the high bit set
  induction s generalizing more n with
  | nil => cases more <;> simp [decodeWithin?]
  | cons b s ih =>
    cases more with
    | zero =>
      simp only [decodeWithin?]
      constructor
      · intro read
        split at read
        · cases read
          exact ⟨[], b, rfl, .single (by omega) (by omega), by simp [value]; omega⟩
        · cases read
      · intro given
        obtain ⟨high, last, split, complete, same⟩ := given
        subst same
        have empty : high = [] := List.length_eq_zero_iff.mp (by have := complete.short; omega)
        subst empty
        cases split
        have bound := complete.room rfl
        simp only [bound, if_true, value, List.nil_append]
        congr 2
        omega
    | succ more =>
      simp only [decodeWithin?]
      by_cases low : b.toNat < 0x80
      · rw [if_pos low]
        constructor
        · intro read
          cases read
          exact ⟨[], b, rfl, .single low (by omega), by simp [value]; omega⟩
        · rintro ⟨high, last, split, complete, rfl⟩
          cases high with
          | nil =>
            cases split
            simp only [value, List.nil_append]
            congr 2
            omega
          | cons c high =>
            cases split
            have := (Complete.cons_iff.mp complete).1
            omega
      · rw [if_neg low, Option.map_eq_some_iff]
        constructor
        · rintro ⟨⟨above, tail⟩, read, same⟩
          cases same
          obtain ⟨high, last, rfl, complete, rfl⟩ := ih.mp read
          refine ⟨b :: high, last, rfl, Complete.cons_iff.mpr ⟨by omega, complete⟩, ?_⟩
          have := b.toNat_lt
          simp only [List.cons_append, value]
          omega
        · rintro ⟨high, last, split, complete, rfl⟩
          cases high with
          | nil =>
            cases split
            exact absurd complete.ended low
          | cons c high =>
            cases split
            have inner := (Complete.cons_iff.mp complete).2
            refine ⟨(value (high ++ [last]), rest), ih.mpr ⟨high, last, rfl, inner, rfl⟩, ?_⟩
            have := b.toNat_lt
            simp only [List.cons_append, value, Prod.mk.injEq, and_true]
            omega

theorem decode?_eq_some_iff {n : Nat} {s rest : Bytes} :
    decode? s = some (n, rest) ↔ ∃ t, s = t ++ rest ∧ Spelling n t := by
  rw [decode?, decodeWithin?_eq_some_iff]
  constructor
  · rintro ⟨high, last, rfl, complete, same⟩
    exact ⟨high ++ [last], by simp, high, last, rfl, complete, same⟩
  · rintro ⟨t, rfl, high, last, rfl, complete, same⟩
    exact ⟨high, last, by simp, complete, same⟩

/-- The shortest encoding follows the rules as far as the number of bytes allows. -/
theorem exists_complete_encode {more n : Nat} (fits : n < 2 * Nat.pow 128 more) :
    ∃ high last, encode n = high ++ [last] ∧ Complete more high last ∧
      value (high ++ [last]) = n := by
  induction more generalizing n with
  | zero =>
    have bit : n < 2 := fits
    have byte : n.toUInt8.toNat = n := by simp; omega
    refine ⟨[], n.toUInt8, by rw [encode, if_pos (by omega)]; rfl, .single ?_ ?_, ?_⟩
    · omega
    · omega
    · simp only [List.nil_append, value, byte]
      omega
  | succ more ih =>
    by_cases small : n < 128
    · have byte : n.toUInt8.toNat = n := by simp; omega
      refine ⟨[], n.toUInt8, by rw [encode, if_pos small]; rfl, .single ?_ nofun, ?_⟩
      · omega
      · simp only [List.nil_append, value, byte]
        omega
    · have above : n / 128 < 2 * Nat.pow 128 more := by
        have step : Nat.pow 128 (more + 1) = Nat.pow 128 more * 128 := rfl
        omega
      have byte : (n % 128 + 128).toUInt8.toNat = n % 128 + 128 := by simp; omega
      obtain ⟨high, last, split, complete, same⟩ := ih above
      refine ⟨(n % 128 + 128).toUInt8 :: high, last, ?_, Complete.cons_iff.mpr ⟨?_, complete⟩, ?_⟩
      · rw [encode, if_neg small, split]
        rfl
      · omega
      · simp only [List.cons_append, value, byte, same]
        omega

theorem spelling_encode {n : Nat} (fits : n < UInt64.size) : Spelling n (encode n) := by
  have ten : n < 2 * Nat.pow 128 9 := fits
  obtain ⟨high, last, split, complete, same⟩ := exists_complete_encode ten
  exact ⟨high, last, split, complete, split ▸ same⟩

theorem Complete.value_lt {more : Nat} {high : Bytes} {last : UInt8}
    (complete : Complete more high last) : value (high ++ [last]) < 2 * Nat.pow 128 more := by
  induction high generalizing more with
  | nil =>
    have ended := complete.ended
    simp only [List.nil_append, value]
    cases more with
    | zero =>
      have room := complete.room rfl
      show _ < 2
      omega
    | succ more =>
      have step : Nat.pow 128 (more + 1) = Nat.pow 128 more * 128 := rfl
      have positive : 0 < Nat.pow 128 more := Nat.pow_pos (by decide)
      omega
  | cons b high ih =>
    cases more with
    | zero =>
      have short := complete.short
      simp at short
    | succ more =>
      have above := ih (Complete.cons_iff.mp complete).2
      have step : Nat.pow 128 (more + 1) = Nat.pow 128 more * 128 := rfl
      simp only [List.cons_append, value]
      omega

/-- Ten bytes are too few for a number that does not fit into 64 bits. -/
theorem Spelling.lt {n : Nat} {s : Bytes} (spelled : Spelling n s) : n < UInt64.size := by
  obtain ⟨high, last, rfl, complete, rfl⟩ := spelled
  exact complete.value_lt

end Varint

theorem readVarint_eq_ok_iff {n : Nat} {s rest : Bytes} :
    readVarint s = .ok (n, rest) ↔ ∃ t, s = t ++ rest ∧ Varint.Spelling n t := by
  rw [← Varint.decode?_eq_some_iff, readVarint]
  cases Varint.decode? s <;> simp

/-! ## Byte runs and length-delimited payloads -/

theorem takeBytes_eq_ok_iff {n : Nat} {s taken rest : Bytes} :
    takeBytes n s = .ok (taken, rest) ↔ s = taken ++ rest ∧ taken.length = n := by
  rw [← Bytes.splitExact?_eq_some_iff, takeBytes]
  cases s.splitExact? n <;> simp

theorem readDelimited_eq_ok_iff {s payload rest : Bytes} :
    readDelimited s = .ok (payload, rest) ↔
      ∃ l, s = l ++ payload ++ rest ∧ Varint.Spelling payload.length l := by
  rw [readDelimited]
  constructor
  · intro read
    split at read
    next n tail length =>
      obtain ⟨l, rfl, spelled⟩ := readVarint_eq_ok_iff.mp length
      obtain ⟨rfl, rfl⟩ := takeBytes_eq_ok_iff.mp read
      exact ⟨l, (List.append_assoc ..).symm, spelled⟩
    next => cases read
  · rintro ⟨l, rfl, spelled⟩
    have length : readVarint (l ++ payload ++ rest) = .ok (payload.length, payload ++ rest) :=
      readVarint_eq_ok_iff.mpr ⟨l, List.append_assoc .., spelled⟩
    rw [length]
    exact takeBytes_eq_ok_iff.mpr ⟨rfl, rfl⟩

/-! ## Keys -/

theorem WireType.ofCode?_eq_some_iff {n : Nat} {t : WireType} :
    WireType.ofCode? n = some t ↔ n = t.code := by
  constructor
  · intro found
    unfold ofCode? at found
    split at found <;> cases found <;> rfl
  · rintro rfl
    exact ofCode?_code t

theorem WireType.code_lt (t : WireType) : t.code < 8 := by cases t <;> decide

namespace FieldKey

structure Spelling (key : FieldKey) (s : Bytes) : Prop where
  varint : Varint.Spelling key.toNat s
  toNat_lt : key.toNat < UInt32.size
  number_pos : 1 ≤ key.number

/-- A number stands for a key where it fits into 32 bits, its wire type exists and its field number
    is not zero. -/
theorem ofNat_eq_ok_iff {n : Nat} {key : FieldKey} :
    ofNat n = .ok key ↔ n = key.toNat ∧ n < UInt32.size ∧ 1 ≤ key.number := by
  rw [ofNat]
  constructor
  · intro found
    split at found
    · cases found
    · split at found
      · cases found
      next wireType code =>
        split at found
        · cases found
        · cases found
          have := WireType.ofCode?_eq_some_iff.mp code
          simp only [toNat]
          omega
  · rintro ⟨rfl, fits, positive⟩
    have := key.wireType.code_lt
    have code : WireType.ofCode? (key.toNat % 8) = some key.wireType :=
      WireType.ofCode?_eq_some_iff.mpr (by simp only [toNat]; omega)
    have number : key.toNat / 8 = key.number := by simp only [toNat]; omega
    rw [if_neg (by omega), code]
    simp only [number]
    rw [if_neg (by omega)]

theorem read_eq_ok_iff {key : FieldKey} {s rest : Bytes} :
    read s = .ok (key, rest) ↔ ∃ t, s = t ++ rest ∧ key.Spelling t := by
  rw [read]
  constructor
  · intro found
    split at found
    · cases found
    next n tail number =>
      split at found
      · cases found
      next key' decoded =>
        cases found
        obtain ⟨t, rfl, spelled⟩ := readVarint_eq_ok_iff.mp number
        obtain ⟨rfl, fits, positive⟩ := ofNat_eq_ok_iff.mp decoded
        exact ⟨t, rfl, spelled, fits, positive⟩
  · rintro ⟨t, rfl, spelled, fits, positive⟩
    have number : readVarint (t ++ rest) = .ok (key.toNat, rest) :=
      readVarint_eq_ok_iff.mpr ⟨t, rfl, spelled⟩
    have decoded : ofNat key.toNat = .ok key := ofNat_eq_ok_iff.mpr ⟨rfl, fits, positive⟩
    simp only [number, decoded]

theorem spelling_encode {key : FieldKey} (fits : key.toNat < UInt32.size)
    (positive : 1 ≤ key.number) : key.Spelling key.encode :=
  ⟨Varint.spelling_encode (Nat.lt_trans fits (by decide)), fits, positive⟩

theorem read_encode {key : FieldKey} (fits : key.toNat < UInt32.size) (positive : 1 ≤ key.number)
    (rest : Bytes) : read (key.encode ++ rest) = .ok (key, rest) :=
  read_eq_ok_iff.mpr ⟨_, rfl, spelling_encode fits positive⟩

end FieldKey

end Wire

end ReplicatedKv
