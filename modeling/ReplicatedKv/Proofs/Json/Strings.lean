import ReplicatedKv.Proofs.Json.Tree
import ReplicatedKv.Proofs.Text.Utf8

/-! # Reading spelled strings

A string is read as the text that it spells, whichever of its characters are written as escapes,
and a string that nobody wants is passed over to the same place.

* `readContent_raw`, `readContent_of_escape` — what a run of plain bytes and an escape add to the
  content of a string.
* `readEscape_of_escape`, `skipText_of_escape` — the escapes of a character.
* `readText_of_spelled`, `skipText_of_spelled` — whole strings.
-/

namespace ReplicatedKv.Json

/-! ## Blanks -/

theorem isBlank_eq_true_iff {b : UInt8} :
    isBlank b = true ↔ b = 0x20 ∨ b = 0x09 ∨ b = 0x0a ∨ b = 0x0d := by
  simp [isBlank, or_assoc]

theorem isBlank_of_lt {b : UInt8} (printable : 0x20 < b.toNat) : isBlank b = false := by
  rw [← Bool.not_eq_true, isBlank_eq_true_iff]
  rintro (rfl | rfl | rfl | rfl) <;> exact absurd printable (by decide)

/-- The first byte of an element is neither a blank nor the end of the list. -/
theorem Tree.Starts.visible {t : Tree} {b : UInt8} (starts : t.Starts b) :
    isBlank b = false ∧ b ≠ closeList :=
  ⟨isBlank_of_lt starts.printable.1, starts.printable.2⟩

theorem dropBlank_cons {b : UInt8} (visible : isBlank b = false) (s : Bytes) :
    dropBlank (b :: s) = b :: s := by
  rw [dropBlank, List.dropWhile_cons, visible]
  rfl

theorem dropBlank_append {u : Bytes} (blanks : Blanks u) (s : Bytes) :
    dropBlank (u ++ s) = dropBlank s :=
  List.dropWhile_append_of_pos fun b member => isBlank_eq_true_iff.mpr (blanks b member)

/-- Blanks before a visible byte are dropped. -/
theorem dropBlank_append_cons {u : Bytes} (blanks : Blanks u) {b : UInt8}
    (visible : isBlank b = false) (s : Bytes) : dropBlank (u ++ b :: s) = b :: s := by
  rw [dropBlank_append blanks, dropBlank_cons visible]

/-! ## Units -/

theorem hexDigit?_of_hexDigit {n : Nat} {b : UInt8} (digit : HexDigit n b) :
    hexDigit? b = some n := by
  rw [hexDigit?]
  cases digit with
  | decimal small value =>
    simp only [value]
    rw [if_pos (by omega)]
    simp
  | lower large small value =>
    simp only [value]
    rw [if_neg (by omega), if_pos (by omega)]
    simp
  | upper large small value =>
    simp only [value]
    rw [if_neg (by omega), if_neg (by omega), if_pos (by omega)]
    simp

theorem HexDigit.lt {n : Nat} {b : UInt8} (digit : HexDigit n b) : n < 0x10 := by
  cases digit <;> omega

theorem hexNumber?_of_unitDigits {n : Nat} {w : Bytes} (digits : UnitDigits n w) :
    w.length = 4 ∧ hexNumber? w = some n := by
  rw [UnitDigits] at digits
  match w, digits with
  | [a, b, c, d], .cons first (.cons second (.cons third (.cons fourth .nil))) =>
    have := first.lt
    simp only [hexNumber?, List.foldlM_cons, List.foldlM_nil, hexDigit?_of_hexDigit first,
      hexDigit?_of_hexDigit second, hexDigit?_of_hexDigit third, hexDigit?_of_hexDigit fourth,
      Option.map_some, Option.bind_eq_bind, Option.bind_some, Option.pure_def, Option.some.injEq]
    exact ⟨rfl, by omega⟩

theorem readUnit_of_unitDigits {n : Nat} {w : Bytes} (digits : UnitDigits n w) (s : Bytes) :
    readUnit (w ++ s) = .ok (n, s) := by
  obtain ⟨four, number⟩ := hexNumber?_of_unitDigits digits
  have taken : Bytes.splitExact? 4 (w ++ s) = some (w, s) :=
    Bytes.splitExact?_eq_some_iff.mpr ⟨rfl, four⟩
  simp only [readUnit, taken, number]

/-! ## Escapes -/

theorem shortEscape?_of_mem {b : UInt8} {c : Char} (listed : (b, c) ∈ shortEscapes) :
    shortEscape? b = some c := by
  have all : ∀ p ∈ shortEscapes, shortEscape? p.1 = some p.2 := by decide
  exact all _ listed

theorem shortEscape?_unit : shortEscape? 0x75 = none := rfl

theorem readEscape_of_unit {n : Nat} {w : Bytes} (digits : UnitDigits n w)
    (single : n < 0xd800 ∨ 0xdfff < n) (s : Bytes) :
    readEscape (0x75 :: (w ++ s)) = .ok (Char.ofNat n, s) := by
  have notTrailing : isTrailing n = false := by simp [isTrailing]; omega
  have notLeading : isLeading n = false := by simp [isLeading]; omega
  simp [readEscape, shortEscape?_unit, readUnicode, readUnit_of_unitDigits digits, notTrailing,
    notLeading]

theorem readEscape_of_pair {n m : Nat} {v w : Bytes} (leading : UnitDigits n v)
    (trailing : UnitDigits m w) (isLeading : isLeading n) (isTrailing : isTrailing m) (s : Bytes) :
    readEscape (0x75 :: ((v ++ backslash :: 0x75 :: w) ++ s)) = .ok (pairedChar n m, s) := by
  have notTrailing : Json.isTrailing n = false := by
    simp [Json.isTrailing, Json.isLeading] at isLeading ⊢
    omega
  have second : readSecondUnit (backslash :: 0x75 :: (w ++ s)) = .ok (m, s) := by
    simp [readSecondUnit, readPairing, readUnit_of_unitDigits trailing]
  simp [readEscape, shortEscape?_unit, readUnicode, readUnit_of_unitDigits leading, notTrailing,
    isLeading, second, isTrailing]

theorem pairedChar_surrogates {c : Char} (wide : 0x10000 ≤ c.toNat) :
    pairedChar (0xd800 + (c.toNat - 0x10000) / 0x400) (0xdc00 + (c.toNat - 0x10000) % 0x400) =
      c := by
  have whole : 0x10000 + (0xd800 + (c.toNat - 0x10000) / 0x400 - 0xd800) * 0x400 +
      (0xdc00 + (c.toNat - 0x10000) % 0x400 - 0xdc00) = c.toNat := by
    omega
  exact (congrArg Char.ofNat whole).trans (Char.ofNat_toNat c)

theorem readEscape_of_escape {c : Char} {v : Bytes} (escape : Escape c v) (s : Bytes) :
    readEscape (v ++ s) = .ok (c, s) := by
  have valid : c.toNat < 0xd800 ∨ 0xdfff < c.toNat ∧ c.toNat < 0x110000 := c.valid
  cases escape with
  | short listed =>
    simp only [List.singleton_append, readEscape, shortEscape?_of_mem listed]
  | unit digits =>
    have read := readEscape_of_unit digits (by omega) s
    rwa [Char.ofNat_toNat] at read
  | pair wide leading trailing =>
    have read := readEscape_of_pair leading trailing (by simp [isLeading]; omega)
      (by simp [isTrailing]; omega) s
    rwa [pairedChar_surrogates wide] at read

/-! ## Content -/

theorem readContent_quote (done s : Bytes) :
    readContent done (quote :: s) = .ok (done.reverse, s) := by
  rw [readContent, if_pos rfl]

theorem skipText_quote (s : Bytes) : skipText (quote :: s) = .ok s := by
  rw [skipText, if_pos rfl]

/-- A byte that stands for itself inside a string. -/
def IsPlain (b : UInt8) : Prop := b ≠ quote ∧ b ≠ backslash ∧ 0x20 ≤ b.toNat

instance (b : UInt8) : Decidable (IsPlain b) :=
  inferInstanceAs (Decidable (b ≠ quote ∧ b ≠ backslash ∧ 0x20 ≤ b.toNat))

theorem readContent_raw {raw : Bytes} (plain : ∀ b ∈ raw, IsPlain b) (done s : Bytes) :
    readContent done (raw ++ s) = readContent (raw.reverse ++ done) s := by
  induction raw generalizing done with
  | nil => rfl
  | cons b raw ih =>
    obtain ⟨⟨notQuote, notBackslash, printable⟩, others⟩ := List.forall_mem_cons.mp plain
    rw [List.cons_append, readContent, if_neg notQuote, if_neg notBackslash,
      if_neg (by omega), ih others, List.reverse_cons, List.append_assoc, List.singleton_append]

theorem skipText_raw {raw : Bytes} (plain : ∀ b ∈ raw, IsPlain b) (s : Bytes) :
    skipText (raw ++ s) = skipText s := by
  induction raw with
  | nil => rfl
  | cons b raw ih =>
    obtain ⟨⟨notQuote, notBackslash, printable⟩, others⟩ := List.forall_mem_cons.mp plain
    rw [List.cons_append, skipText, if_neg notQuote, if_neg notBackslash, if_neg (by omega),
      ih others]

theorem readContent_of_escape {s rest : Bytes} {c : Char} (escape : readEscape s = .ok (c, rest))
    (done : Bytes) :
    readContent done (backslash :: s) =
      readContent ((String.utf8EncodeChar c).reverse ++ done) rest := by
  rw [readContent, if_neg (by decide), if_pos rfl]
  split
  next fault failed => rw [escape] at failed; cases failed
  next c' rest' again => rw [escape] at again; cases again; rfl

theorem skipText_of_skipEscape {s rest : Bytes} (escape : skipEscape s = .ok rest) :
    skipText (backslash :: s) = skipText rest := by
  rw [skipText, if_neg (by decide), if_pos rfl]
  split
  next fault failed => rw [escape] at failed; cases failed
  next rest' again => rw [escape] at again; cases again; rfl

theorem exists_of_readContent_escape {done s content rest : Bytes}
    (read : readContent done (backslash :: s) = .ok (content, rest)) :
    ∃ c left, readEscape s = .ok (c, left) := by
  cases escape : readEscape s with
  | ok pair => exact ⟨_, _, rfl⟩
  | error fault =>
    rw [readContent, if_neg (by decide), if_pos rfl] at read
    split at read
    next => cases read
    next again => cases escape.symm.trans again

theorem exists_of_skipText_escape {s rest : Bytes} (skipped : skipText (backslash :: s) = .ok rest) :
    ∃ left, skipEscape s = .ok left := by
  cases escape : skipEscape s with
  | ok left => exact ⟨left, rfl⟩
  | error fault =>
    rw [skipText, if_neg (by decide), if_pos rfl] at skipped
    split at skipped
    next => cases skipped
    next again => cases escape.symm.trans again

theorem skipEscape_of_unit {n : Nat} {w : Bytes} (digits : UnitDigits n w) (s : Bytes) :
    skipEscape (0x75 :: (w ++ s)) = .ok s := by
  simp only [skipEscape, shortEscape?_unit, if_true, readUnit_of_unitDigits digits]
  rfl

theorem skipText_of_escape {c : Char} {v : Bytes} (escape : Escape c v) (s : Bytes) :
    skipText (backslash :: (v ++ s)) = skipText s := by
  cases escape with
  | short listed =>
    exact skipText_of_skipEscape (by simp [skipEscape, shortEscape?_of_mem listed])
  | unit digits => exact skipText_of_skipEscape (skipEscape_of_unit digits s)
  | @pair v w _ leading trailing =>
    -- the two units are two escapes of their own where nobody reads them
    rw [List.cons_append, List.append_assoc,
      skipText_of_skipEscape (skipEscape_of_unit leading _)]
    exact skipText_of_skipEscape (skipEscape_of_unit trailing s)

/-- A character above the controls, other than quote and backslash, has plain bytes only. -/
theorem isPlain_of_mem_utf8EncodeChar {c : Char} (notQuote : c ≠ '\"') (notBackslash : c ≠ '\\')
    (printable : 0x20 ≤ c.toNat) : ∀ b ∈ String.utf8EncodeChar c, IsPlain b := by
  intro b member
  have ascii (d : Char) (b' : UInt8) (byte : Char.ofNat b'.toNat = d) (below : b'.toNat < 0x80)
      (other : c ≠ d) : b ≠ b' := by
    rintro rfl
    obtain high | ⟨same, -⟩ := Utf8.mem_utf8EncodeChar member
    · omega
    · exact other (by rw [← byte, ← same, Char.ofNat_toNat])
  refine ⟨ascii '\"' quote rfl (by decide) notQuote,
    ascii '\\' backslash rfl (by decide) notBackslash, ?_⟩
  obtain high | ⟨same, -⟩ := Utf8.mem_utf8EncodeChar member <;> omega

theorem readContent_of_content {chars : List Char} {w : Bytes} (content : Content chars w)
    (done rest : Bytes) :
    readContent done (w ++ quote :: rest) =
      .ok (done.reverse ++ chars.flatMap String.utf8EncodeChar, rest) := by
  induction content generalizing done with
  | nil =>
    rw [List.nil_append, List.flatMap_nil, List.append_nil]
    exact readContent_quote done rest
  | raw notQuote notBackslash printable _ ih =>
    have plain := isPlain_of_mem_utf8EncodeChar notQuote notBackslash printable
    rw [List.append_assoc, readContent_raw plain, ih, List.reverse_append, List.reverse_reverse,
      List.flatMap_cons, List.append_assoc]
  | escape escape _ ih =>
    rw [List.cons_append, List.append_assoc,
      readContent_of_escape (readEscape_of_escape escape _), ih, List.reverse_append,
      List.reverse_reverse, List.flatMap_cons, List.append_assoc]

theorem skipText_of_content {chars : List Char} {w : Bytes} (content : Content chars w)
    (rest : Bytes) : skipText (w ++ quote :: rest) = .ok rest := by
  induction content with
  | nil => exact skipText_quote rest
  | raw notQuote notBackslash printable _ ih =>
    have plain := isPlain_of_mem_utf8EncodeChar notQuote notBackslash printable
    rw [List.append_assoc, skipText_raw plain, ih]
  | escape escape _ ih =>
    rw [List.cons_append, List.append_assoc, skipText_of_escape escape, ih]

/-! ## Strings -/

theorem readText_of_content {t : String} {w : Bytes} (content : Content t.toList w)
    (rest : Bytes) : readText (w ++ quote :: rest) = .ok (t, rest) := by
  have read := readContent_of_content content [] rest
  have decoded : Utf8.decode? (t.toList.flatMap String.utf8EncodeChar) = some t :=
    Utf8.decode?_encode t
  rw [List.reverse_nil, List.nil_append] at read
  rw [readText, read]
  simp only [decoded]

theorem SpelledText.exists_content {s : String} {w : Bytes} (spelled : SpelledText s w) :
    ∃ v, w = quote :: (v ++ [quote]) ∧ (∀ rest, readText (v ++ quote :: rest) = .ok (s, rest)) ∧
      ∀ rest, skipText (v ++ quote :: rest) = .ok rest := by
  obtain ⟨content⟩ := spelled
  exact ⟨_, rfl, readText_of_content content, skipText_of_content content⟩

end ReplicatedKv.Json
