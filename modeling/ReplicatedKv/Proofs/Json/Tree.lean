import Mathlib.Data.List.Forall2
import ReplicatedKv.Json.Scan

/-! # Value trees and their spellings

What a document says, apart from how it is written, and all the ways of writing it, said without a
reader.

* `Tree` — a value; the members of an object in order, names repeated or not.
* `SpelledText` — the ways of writing a string: every character as itself, with a short escape, or
  as one or two `\u` escapes, mixed at will.
* `IsNumber` — the form of a number.
* `Spelling`, `Elements`, `Members` — the ways of writing values and the parts of containers.
* `Tree.Document` — a document that holds one value, with blanks around it.
-/

namespace ReplicatedKv.Json

/-- A value.  Nobody asks what a number is, so it is kept as it is written. -/
inductive Tree where
  | null
  | boolean (b : Bool)
  | number (written : Bytes)
  | text (s : String)
  | list (elements : List Tree)
  | object (members : List (String × Tree))

/-! ## Blanks -/

/-- Spaces, tabs, line feeds and carriage returns, which mean nothing between tokens. -/
def Blanks (w : Bytes) : Prop := ∀ b ∈ w, b = 0x20 ∨ b = 0x09 ∨ b = 0x0a ∨ b = 0x0d

theorem Blanks.nil : Blanks [] := nofun

theorem blanks_cons_iff {b : UInt8} {w : Bytes} :
    Blanks (b :: w) ↔ (b = 0x20 ∨ b = 0x09 ∨ b = 0x0a ∨ b = 0x0d) ∧ Blanks w :=
  List.forall_mem_cons

/-! ## Strings -/

/-- A hexadecimal digit in either case. -/
inductive HexDigit : Nat → UInt8 → Prop where
  | decimal {n : Nat} {b : UInt8} : n < 10 → b.toNat = 0x30 + n → HexDigit n b
  | lower {n : Nat} {b : UInt8} : 10 ≤ n → n < 16 → b.toNat = 0x57 + n → HexDigit n b
  | upper {n : Nat} {b : UInt8} : 10 ≤ n → n < 16 → b.toNat = 0x37 + n → HexDigit n b

/-- The four digits of a 16-bit unit. -/
def UnitDigits (n : Nat) (w : Bytes) : Prop :=
  List.Forall₂ HexDigit [n / 0x1000, n / 0x100 % 0x10, n / 0x10 % 0x10, n % 0x10] w

/-- The letters of the short escapes and the characters that they stand for. -/
def shortEscapes : List (UInt8 × Char) :=
  [(0x22, '\"'), (0x5c, '\\'), (0x2f, '/'), (0x62, '\x08'), (0x66, '\x0c'), (0x6e, '\n'),
    (0x72, '\r'), (0x74, '\t')]

/-- What may stand after a backslash for a character. -/
inductive Escape : Char → Bytes → Prop where
  | short {c : Char} {b : UInt8} : (b, c) ∈ shortEscapes → Escape c [b]
  | unit {c : Char} {w : Bytes} : UnitDigits c.toNat w → Escape c (0x75 :: w)
  /-- A character that does not fit into one unit is written as a pair of surrogates. -/
  | pair {c : Char} {v w : Bytes} : 0x10000 ≤ c.toNat →
      UnitDigits (0xd800 + (c.toNat - 0x10000) / 0x400) v →
      UnitDigits (0xdc00 + (c.toNat - 0x10000) % 0x400) w →
        Escape c (0x75 :: (v ++ backslash :: 0x75 :: w))

/-- The bytes between the quotes of a string with the given characters. -/
inductive Content : List Char → Bytes → Prop where
  | nil : Content [] []
  | raw {c : Char} {chars : List Char} {w : Bytes} : c ≠ '\"' → c ≠ '\\' → 0x20 ≤ c.toNat →
      Content chars w → Content (c :: chars) (String.utf8EncodeChar c ++ w)
  | escape {c : Char} {chars : List Char} {v w : Bytes} : Escape c v → Content chars w →
      Content (c :: chars) (backslash :: (v ++ w))

/-- The byte string is a way of writing the text, with its quotes. -/
inductive SpelledText (s : String) : Bytes → Prop where
  | quotes {w : Bytes} : Content s.toList w → SpelledText s (quote :: (w ++ [quote]))

/-! ## Numbers -/

def IsDigit (b : UInt8) : Prop := 0x30 ≤ b.toNat ∧ b.toNat ≤ 0x39

instance (b : UInt8) : Decidable (IsDigit b) :=
  inferInstanceAs (Decidable (0x30 ≤ b.toNat ∧ b.toNat ≤ 0x39))

/-- One or more digits. -/
def Digits (w : Bytes) : Prop := w ≠ [] ∧ ∀ b ∈ w, IsDigit b

theorem digits_singleton {b : UInt8} (digit : IsDigit b) : Digits [b] :=
  ⟨nofun, List.forall_mem_singleton.mpr digit⟩

/-- The digits before the point.  A zero in front stands alone. -/
inductive IsInteger : Bytes → Prop where
  | zero : IsInteger [0x30]
  | digits {b : UInt8} {w : Bytes} : b ≠ 0x30 → Digits (b :: w) → IsInteger (b :: w)

inductive IsFraction : Bytes → Prop where
  | absent : IsFraction []
  | point {w : Bytes} : Digits w → IsFraction (0x2e :: w)

inductive IsExponent : Bytes → Prop where
  | absent : IsExponent []
  | letter {e : UInt8} {sign w : Bytes} : e = 0x65 ∨ e = 0x45 → sign ∈ [[], [0x2b], [0x2d]] →
      Digits w → IsExponent (e :: (sign ++ w))

inductive IsNumber : Bytes → Prop where
  | parts {sign integer fraction exponent : Bytes} : sign ∈ [[], [minus]] → IsInteger integer →
      IsFraction fraction → IsExponent exponent →
        IsNumber (sign ++ (integer ++ (fraction ++ exponent)))

/-! ## Values -/

/-- What stands before a part of a container: blanks, and a comma if it is not the first part. -/
inductive Separator : Bool → Bytes → Prop where
  | first {u : Bytes} : Blanks u → Separator true u
  | comma {u v : Bytes} : Blanks u → Blanks v → Separator false (u ++ comma :: v)

mutual
/-- The byte string is a way of writing the value, without blanks around it. -/
inductive Spelling : Tree → Bytes → Prop where
  | null : Spelling .null [0x6e, 0x75, 0x6c, 0x6c]
  | true : Spelling (.boolean true) [0x74, 0x72, 0x75, 0x65]
  | false : Spelling (.boolean false) [0x66, 0x61, 0x6c, 0x73, 0x65]
  | number {w : Bytes} : IsNumber w → Spelling (.number w) w
  | text {s : String} {w : Bytes} : SpelledText s w → Spelling (.text s) w
  | list {ts : List Tree} {w v : Bytes} : Elements true ts w → Blanks v →
      Spelling (.list ts) (openList :: (w ++ (v ++ [closeList])))
  | object {ms : List (String × Tree)} {w v : Bytes} : Members true ms w → Blanks v →
      Spelling (.object ms) (openObject :: (w ++ (v ++ [closeObject])))

/-- The byte string is a way of writing the elements of a list with their separators.  The flag
    tells whether the first of them is the first of the list. -/
inductive Elements : Bool → List Tree → Bytes → Prop where
  | nil {isFirst : Bool} : Elements isFirst [] []
  | cons {isFirst : Bool} {t : Tree} {ts : List Tree} {u w v : Bytes} :
      Separator isFirst u → Spelling t w → Elements false ts v →
        Elements isFirst (t :: ts) (u ++ (w ++ v))

/-- The same for the members of an object. -/
inductive Members : Bool → List (String × Tree) → Bytes → Prop where
  | nil {isFirst : Bool} : Members isFirst [] []
  | cons {isFirst : Bool} {name : String} {t : Tree} {ms : List (String × Tree)}
      {u m x y w v : Bytes} :
      Separator isFirst u → SpelledText name m → Blanks x → Blanks y → Spelling t w →
        Members false ms v →
          Members isFirst ((name, t) :: ms) (u ++ (m ++ (x ++ colon :: (y ++ (w ++ v)))))
end

/-- The byte string is a document that holds the value. -/
inductive Tree.Document (t : Tree) : Bytes → Prop where
  | blanks {u w v : Bytes} : Blanks u → Spelling t w → Blanks v → t.Document (u ++ (w ++ v))

/-! ## First bytes -/

/-- The bytes with which a value of this kind begins. -/
def Tree.Starts : Tree → UInt8 → Prop
  | null, b => b = 0x6e
  | boolean value, b => b = if value then 0x74 else 0x66
  | number _, b => b = minus ∨ IsDigit b
  | text _, b => b = quote
  | list _, b => b = openList
  | object _, b => b = openObject

theorem IsDigit.ne {b c : UInt8} (digit : IsDigit b) (other : ¬ IsDigit c) : b ≠ c := by
  rintro rfl
  exact other digit

theorem Digits.exists_cons {w : Bytes} (digits : Digits w) : ∃ b s, w = b :: s ∧ IsDigit b := by
  obtain ⟨nonempty, all⟩ := digits
  cases w with
  | nil => exact absurd rfl nonempty
  | cons b s => exact ⟨b, s, rfl, all b List.mem_cons_self⟩

theorem IsInteger.exists_cons {w : Bytes} (integer : IsInteger w) :
    ∃ b s, w = b :: s ∧ IsDigit b := by
  cases integer with
  | zero => exact ⟨0x30, [], rfl, by decide⟩
  | digits _ digits => exact digits.exists_cons

theorem IsNumber.exists_cons {w : Bytes} (number : IsNumber w) :
    ∃ b s, w = b :: s ∧ (b = minus ∨ IsDigit b) := by
  obtain ⟨signed, integer, -, -⟩ := number
  simp only [List.mem_cons, List.not_mem_nil, or_false] at signed
  obtain rfl | rfl := signed
  · obtain ⟨b, s, rfl, digit⟩ := integer.exists_cons
    exact ⟨b, _, rfl, .inr digit⟩
  · exact ⟨minus, _, rfl, .inl rfl⟩

theorem Spelling.exists_cons {t : Tree} {w : Bytes} (spelled : Spelling t w) :
    ∃ b s, w = b :: s ∧ t.Starts b := by
  cases spelled with
  | null => exact ⟨_, _, rfl, rfl⟩
  | true => exact ⟨_, _, rfl, rfl⟩
  | false => exact ⟨_, _, rfl, rfl⟩
  | number number => exact number.exists_cons
  | text text => obtain ⟨_⟩ := text; exact ⟨_, _, rfl, rfl⟩
  | list => exact ⟨_, _, rfl, rfl⟩
  | object => exact ⟨_, _, rfl, rfl⟩

theorem Tree.Starts.printable {t : Tree} {b : UInt8} (starts : t.Starts b) :
    0x20 < b.toNat ∧ b ≠ closeList := by
  cases t with
  | null => cases starts; decide
  | boolean value => cases starts; cases value <;> decide
  | number =>
    obtain rfl | digit := starts
    · decide
    · exact ⟨by have := digit.1; omega, digit.ne (by decide)⟩
  | text | list | object => cases starts; decide

/-- The first byte tells a string, a list and an object apart from everything else. -/
theorem Tree.Starts.kind {t : Tree} {b : UInt8} (starts : t.Starts b) :
    (b = quote → ∃ s, t = .text s) ∧ (b = openList → ∃ ts, t = .list ts) ∧
      (b = openObject → ∃ ms, t = .object ms) := by
  refine ⟨?_, ?_, ?_⟩
  all_goals
    rintro rfl
    cases t with
    | boolean value => cases value <;> simp [Starts, quote, openList, openObject] at starts
    | _ => simp [Starts, IsDigit, quote, openList, openObject, minus] at starts ⊢

end ReplicatedKv.Json
