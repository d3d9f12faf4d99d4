import ReplicatedKv.Json.Quoted
import ReplicatedKv.Proofs.Json.Strings

/-! # Compact documents

The spellings in which values are written: without blanks, and with an escape in a string only where
there has to be one.

* `escapeChar_cases` — the three ways in which a character is written.
* `spelledText_quoted` — a written string spells its text.
* `OneLine`, `oneLine_quoted` — a written string is a single line.
* `elements_intercalate`, `members_first`, `members_next` — parts of lists and objects, with nothing
  but a comma between them.
-/

namespace ReplicatedKv.Json

/-! ## Strings -/

theorem hexDigit_of_hexDigit? {n : Nat} {b : UInt8} (digit : hexDigit? b = some n) :
    HexDigit n b := by
  simp only [hexDigit?] at digit
  split at digit
  next range => cases digit; exact .decimal (by omega) (by omega)
  next =>
  split at digit
  next range => cases digit; exact .lower (by omega) (by omega) (by omega)
  next =>
  split at digit
  next range => cases digit; exact .upper (by omega) (by omega) (by omega)
  next => cases digit

def controlDigits (n : Nat) : Bytes :=
  ['0', '0', Nat.digitChar (n / 16), Nat.digitChar (n % 16)].flatMap String.utf8EncodeChar

theorem unitDigits_of_hexDigit? {n : Nat} {w : Bytes} (digits : w.map hexDigit? =
      [n / 0x1000, n / 0x100 % 0x10, n / 0x10 % 0x10, n % 0x10].map some) : UnitDigits n w := by
  have each := digits.symm
  rw [← List.forall₂_eq_eq_eq, List.forall₂_map_left_iff, List.forall₂_map_right_iff] at each
  exact each.imp fun _ _ digit => hexDigit_of_hexDigit? digit.symm

theorem unitDigits_controlDigits {n : Nat} (control : n < 0x20) :
    UnitDigits n (controlDigits n) := by
  have digits : ∀ n < 0x20, (controlDigits n).map hexDigit? =
      [n / 0x1000, n / 0x100 % 0x10, n / 0x10 % 0x10, n % 0x10].map some := by
    decide
  exact unitDigits_of_hexDigit? (digits n control)

theorem escapeChar_cases (c : Char) :
    (∃ b, (b, c) ∈ shortEscapes ∧ (escapeChar c).flatMap String.utf8EncodeChar = [backslash, b]) ∨
      (c.toNat < 0x20 ∧ (escapeChar c).flatMap String.utf8EncodeChar =
        backslash :: 0x75 :: controlDigits c.toNat) ∨
      (c ≠ '\"' ∧ c ≠ '\\' ∧ 0x20 ≤ c.toNat ∧ escapeChar c = [c]) := by
  rw [escapeChar]
  split
  next same => subst same; exact .inl ⟨0x22, by decide, rfl⟩
  next notQuote =>
  split
  next same => subst same; exact .inl ⟨0x5c, by decide, rfl⟩
  next notBackslash =>
  split
  next same => subst same; exact .inl ⟨0x62, by decide, rfl⟩
  split
  next same => subst same; exact .inl ⟨0x66, by decide, rfl⟩
  split
  next same => subst same; exact .inl ⟨0x6e, by decide, rfl⟩
  split
  next same => subst same; exact .inl ⟨0x72, by decide, rfl⟩
  split
  next same => subst same; exact .inl ⟨0x74, by decide, rfl⟩
  split
  next control => exact .inr (.inl ⟨control, rfl⟩)
  next printable => exact .inr (.inr ⟨notQuote, notBackslash, by omega, rfl⟩)

/-- The bytes between the quotes of a written string. -/
def quotedContent (chars : List Char) : Bytes :=
  (chars.flatMap escapeChar).flatMap String.utf8EncodeChar

theorem content_quotedContent (chars : List Char) : Content chars (quotedContent chars) := by
  induction chars with
  | nil => exact .nil
  | cons c chars ih =>
    have parts : quotedContent (c :: chars) =
        (escapeChar c).flatMap String.utf8EncodeChar ++ quotedContent chars := by
      rw [quotedContent, List.flatMap_cons, List.flatMap_append]
      rfl
    rw [parts]
    obtain ⟨b, short, written⟩ | ⟨control, written⟩ | ⟨notQuote, notBackslash, visible, written⟩ :=
      escapeChar_cases c
    · rw [written]
      exact .escape (.short short) ih
    · rw [written]
      exact .escape (.unit (unitDigits_controlDigits control)) ih
    · rw [written, List.flatMap_singleton]
      exact .raw notQuote notBackslash visible ih

theorem spelledText_quoted (t : String) : SpelledText t (Utf8.encode (quoted t)) := by
  have written : Utf8.encode (quoted t) = quote :: (quotedContent t.toList ++ [quote]) := by
    rw [quoted, Utf8.encode_ofList, List.cons_append, List.flatMap_cons, List.flatMap_append]
    rfl
  rw [written]
  exact .quotes (content_quotedContent t.toList)

/-! ## One line -/

/-- No character of the text is below the blank, so there is no line break. -/
def OneLine (s : String) : Prop := ∀ c ∈ s.toList, 0x20 ≤ c.toNat

instance (s : String) : Decidable (OneLine s) :=
  decidable_of_iff (s.toList.all fun c => Nat.ble 0x20 c.toNat) (by simp [OneLine])

theorem oneLine_append {s t : String} : OneLine (s ++ t) ↔ OneLine s ∧ OneLine t := by
  rw [OneLine, String.toList_append]
  exact List.forall_mem_append

theorem oneLine_intercalate {separator : String} (separates : OneLine separator)
    {parts : List String} (each : ∀ part ∈ parts, OneLine part) :
    OneLine (separator.intercalate parts) := by
  induction parts with
  | nil =>
    rw [String.intercalate_nil]
    exact List.forall_mem_nil _
  | cons part parts ih =>
    obtain ⟨first, others⟩ := List.forall_mem_cons.mp each
    cases parts with
    | nil => rwa [String.intercalate_singleton]
    | cons next parts =>
      rw [String.intercalate_cons_cons, oneLine_append, oneLine_append]
      exact ⟨⟨first, separates⟩, ih others⟩

theorem oneLine_escapeChar (c : Char) : OneLine (String.ofList (escapeChar c)) := by
  have short : ∀ escape ∈ shortEscapes, OneLine (String.ofList (escapeChar escape.2)) := by decide
  have control : ∀ n < 0x20, OneLine (String.ofList (escapeChar (Char.ofNat n))) := by decide
  obtain ⟨b, isShort, -⟩ | ⟨isControl, -⟩ | ⟨-, -, visible, plain⟩ := escapeChar_cases c
  · exact short (b, c) isShort
  · have written := control c.toNat isControl
    rwa [Char.ofNat_toNat] at written
  · rw [plain, OneLine, String.toList_ofList]
    exact List.forall_mem_singleton.mpr visible

theorem oneLine_quoted (s : String) : OneLine (quoted s) := by
  intro d member
  rw [quoted, String.toList_ofList, List.mem_append, List.mem_cons, List.mem_singleton] at member
  obtain (rfl | inside) | rfl := member
  · decide
  · obtain ⟨c, -, escaped⟩ := List.mem_flatMap.mp inside
    exact oneLine_escapeChar c d (by rwa [String.toList_ofList])
  · decide

/-! ## Lists -/

theorem elements_commas {ts : List Tree} {ws : List Bytes} (spelled : List.Forall₂ Spelling ts ws) :
    Elements false ts (ws.flatMap (comma :: ·)) := by
  induction spelled with
  | nil => exact .nil
  | cons first _ others => exact .cons (.comma .nil .nil) first others

theorem intercalate_comma (w : Bytes) (ws : List Bytes) :
    [comma].intercalate (w :: ws) = w ++ ws.flatMap (comma :: ·) := by
  induction ws generalizing w with
  | nil => simp
  | cons v ws ih => simp [List.intercalate_cons_cons, ih]

theorem elements_intercalate {ts : List Tree} {ws : List Bytes}
    (spelled : List.Forall₂ Spelling ts ws) : Elements true ts ([comma].intercalate ws) := by
  cases spelled with
  | nil => exact .nil
  | cons first others =>
    rw [intercalate_comma]
    exact .cons (.first .nil) first (elements_commas others)

/-! ## Objects -/

def member (name : String) (w : Bytes) : Bytes := Utf8.encode (quoted name) ++ colon :: w

variable {t : Tree} {ms : List (String × Tree)} {w v : Bytes}

theorem members_first (name : String) (spelled : Spelling t w) (others : Members false ms v) :
    Members true ((name, t) :: ms) (member name w ++ v) := by
  have parts := Members.cons (.first .nil) (spelledText_quoted name) .nil .nil spelled others
  simpa only [member, List.append_assoc, List.cons_append, List.nil_append] using parts

theorem members_next (name : String) (spelled : Spelling t w) (others : Members false ms v) :
    Members false ((name, t) :: ms) (comma :: (member name w ++ v)) := by
  have parts := Members.cons (.comma .nil .nil) (spelledText_quoted name) .nil .nil spelled others
  simpa only [member, List.append_assoc, List.cons_append, List.nil_append] using parts

end ReplicatedKv.Json
