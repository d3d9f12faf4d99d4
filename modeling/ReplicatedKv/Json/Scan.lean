import ReplicatedKv.Json.Fault
import ReplicatedKv.Text.Utf8

/-! # Scanning

The smallest parts of JSON documents: punctuation, blanks, literals, and strings.

* `dropBlank` — drops insignificant blanks.
* `readLiteral` — the rest of `null`, `true` or `false`.
* `readText` — a string with its escapes resolved, after its opening quote.
* `skipText` — the same for a string that nobody wants, whose content is not examined.
-/

namespace ReplicatedKv.Json

/-! ## Punctuation -/

/-- A double quote. -/
abbrev quote : UInt8 := 0x22
/-- A backslash. -/
abbrev backslash : UInt8 := 0x5c
/-- A comma. -/
abbrev comma : UInt8 := 0x2c
/-- A colon. -/
abbrev colon : UInt8 := 0x3a
/-- The bracket that opens a list. -/
abbrev openList : UInt8 := 0x5b
/-- The bracket that closes a list. -/
abbrev closeList : UInt8 := 0x5d
/-- The brace that opens an object. -/
abbrev openObject : UInt8 := 0x7b
/-- The brace that closes an object. -/
abbrev closeObject : UInt8 := 0x7d
/-- A minus sign. -/
abbrev minus : UInt8 := 0x2d

def isBlank (b : UInt8) : Bool := b == 0x20 || b == 0x09 || b == 0x0a || b == 0x0d

def dropBlank (s : Bytes) : Bytes := s.dropWhile isBlank

theorem length_dropBlank_le (s : Bytes) : (dropBlank s).length ≤ s.length :=
  (List.dropWhile_sublist _).length_le

theorem length_of_dropBlank {s rest : Bytes} {b : UInt8} (h : dropBlank s = b :: rest) :
    rest.length < s.length := by
  have := length_dropBlank_le s
  rw [h, List.length_cons] at this
  omega

/-! ## Literals -/

def readLiteral : (letters s : Bytes) → Except Fault Bytes
  | [], s => .ok s
  | _ :: _, [] => .error .endInValue
  | letter :: letters, b :: s =>
    if b = letter then readLiteral letters s else .error .expectedLiteral

/-- The letters of `null` after the first. -/
def nullRest : Bytes := [0x75, 0x6c, 0x6c]
def trueRest : Bytes := [0x72, 0x75, 0x65]
def falseRest : Bytes := [0x61, 0x6c, 0x73, 0x65]

theorem length_le_of_readLiteral {letters s rest : Bytes} (h : readLiteral letters s = .ok rest) :
    rest.length ≤ s.length := by
  fun_induction readLiteral letters s with
  | case1 s => cases h; exact Nat.le_refl _
  | case2 => cases h
  | case3 letters s b ih =>
    have := ih h
    simp only [List.length_cons]
    omega
  | case4 => cases h

/-! ## Escapes -/

def hexDigit? (b : UInt8) : Option Nat :=
  let n := b.toNat
  if 0x30 ≤ n ∧ n ≤ 0x39 then some (n - 0x30)
  else if 0x61 ≤ n ∧ n ≤ 0x66 then some (n - 0x57)
  else if 0x41 ≤ n ∧ n ≤ 0x46 then some (n - 0x37)
  else none

/-- The number of hexadecimal digits, the highest first. -/
def hexNumber? (digits : Bytes) : Option Nat :=
  digits.foldlM (fun n b => (hexDigit? b).map (16 * n + ·)) 0

/-- Reads the four digits of a `\u` escape.  The next four bytes are taken, whatever they are. -/
def readUnit (s : Bytes) : Except Fault (Nat × Bytes) :=
  match s.splitExact? 4 with
  | none => .error .endInText
  | some (digits, rest) =>
    match hexNumber? digits with
    | none => .error .invalidEscape
    | some n => .ok (n, rest)

/-- Reads the byte that has to follow a leading surrogate. -/
def readPairing (expected : UInt8) : Bytes → Except Fault Bytes
  | [] => .error .endInText
  | b :: s => if b = expected then .ok s else .error .unpairedEscape

def isLeading (unit : Nat) : Bool := 0xd800 ≤ unit && unit ≤ 0xdbff

def isTrailing (unit : Nat) : Bool := 0xdc00 ≤ unit && unit ≤ 0xdfff

/-- The character of a surrogate pair. -/
def pairedChar (leading trailing : Nat) : Char :=
  Char.ofNat (0x10000 + (leading - 0xd800) * 0x400 + (trailing - 0xdc00))

/-- Reads the escape that has to follow a leading surrogate. -/
def readSecondUnit (s : Bytes) : Except Fault (Nat × Bytes) :=
  match readPairing backslash s with
  | .error fault => .error fault
  | .ok s =>
    match readPairing 0x75 s with
    | .error fault => .error fault
    | .ok s => readUnit s

/-- Reads the character of a `\u` escape, after the `u`.  Surrogates have to come in pairs. -/
def readUnicode (s : Bytes) : Except Fault (Char × Bytes) :=
  match readUnit s with
  | .error fault => .error fault
  | .ok (unit, s) =>
    if isTrailing unit then .error .loneSurrogate
    else if isLeading unit then
      match readSecondUnit s with
      | .error fault => .error fault
      | .ok (second, s) =>
        if isTrailing second then .ok (pairedChar unit second, s) else .error .loneSurrogate
    else .ok (Char.ofNat unit, s)

/-- The characters with an escape of two characters, by its second one. -/
def shortEscape? (b : UInt8) : Option Char :=
  if b = 0x22 then some '\"'
  else if b = 0x5c then some '\\'
  else if b = 0x2f then some '/'
  else if b = 0x62 then some '\x08'
  else if b = 0x66 then some '\x0c'
  else if b = 0x6e then some '\n'
  else if b = 0x72 then some '\r'
  else if b = 0x74 then some '\t'
  else none

def readEscape : Bytes → Except Fault (Char × Bytes)
  | [] => .error .endInText
  | b :: s =>
    match shortEscape? b with
    | some c => .ok (c, s)
    | none => if b = 0x75 then readUnicode s else .error .invalidEscape

/-- Drops an escape, after the backslash.  Surrogates need not come in pairs. -/
def skipEscape : Bytes → Except Fault Bytes
  | [] => .error .endInText
  | b :: s =>
    match shortEscape? b with
    | some _ => .ok s
    | none => if b = 0x75 then (readUnit s).map Prod.snd else .error .invalidEscape

theorem length_le_of_readUnit {n : Nat} {s rest : Bytes} (h : readUnit s = .ok (n, rest)) :
    rest.length ≤ s.length := by
  rw [readUnit] at h
  split at h
  · cases h
  · obtain ⟨rfl, _⟩ := Bytes.splitExact?_eq_some_iff.mp ‹_›
    split at h
    · cases h
    · cases h; simp

theorem length_le_of_readPairing {b : UInt8} {s rest : Bytes} (h : readPairing b s = .ok rest) :
    rest.length ≤ s.length := by
  unfold readPairing at h
  split at h
  · cases h
  · split at h
    · cases h; simp
    · cases h

theorem length_le_of_readSecondUnit {n : Nat} {s rest : Bytes}
    (h : readSecondUnit s = .ok (n, rest)) : rest.length ≤ s.length := by
  rw [readSecondUnit] at h
  split at h
  · cases h
  · have := length_le_of_readPairing ‹_›
    split at h
    · cases h
    · have := length_le_of_readPairing ‹_›
      have := length_le_of_readUnit h
      omega

theorem length_le_of_readUnicode {c : Char} {s rest : Bytes} (h : readUnicode s = .ok (c, rest)) :
    rest.length ≤ s.length := by
  rw [readUnicode] at h
  split at h
  · cases h
  · have := length_le_of_readUnit ‹_›
    split at h
    · cases h
    · split at h
      · split at h
        · cases h
        · have := length_le_of_readSecondUnit ‹_›
          split at h
          · obtain ⟨_, rfl⟩ := Prod.mk.inj (Except.ok.inj h)
            omega
          · cases h
      · obtain ⟨_, rfl⟩ := Prod.mk.inj (Except.ok.inj h)
        omega

theorem length_le_of_readEscape {c : Char} {s rest : Bytes} (h : readEscape s = .ok (c, rest)) :
    rest.length ≤ s.length := by
  unfold readEscape at h
  split at h
  · cases h
  · split at h
    · cases h; simp
    · split at h
      · exact Nat.le_succ_of_le (length_le_of_readUnicode h)
      · cases h

theorem length_le_of_skipEscape {s rest : Bytes} (h : skipEscape s = .ok rest) :
    rest.length ≤ s.length := by
  unfold skipEscape at h
  split at h
  · cases h
  · split at h
    · cases h; simp
    · split at h
      · obtain ⟨_, found⟩ := exists_of_map_snd h
        exact Nat.le_succ_of_le (length_le_of_readUnit found)
      · cases h

/-! ## Strings -/

/-- Reads up to the closing quote.  `done` holds the bytes of the content so far, the last first. -/
def readContent (done : Bytes) : Bytes → Except Fault (Bytes × Bytes)
  | [] => .error .endInText
  | b :: s =>
    if b = quote then .ok (done.reverse, s)
    else if b = backslash then
      match _escape : readEscape s with
      | .error fault => .error fault
      -- the content is kept as bytes, so a character goes in with its encoding
      | .ok (c, rest) => readContent ((String.utf8EncodeChar c).reverse ++ done) rest
    else if b.toNat < 0x20 then .error .controlCharacter
    else readContent (b :: done) s
termination_by s => s.length
decreasing_by
  · have := length_le_of_readEscape _escape
    simp only [List.length_cons]
    omega
  · simp

/-- Reads a string after its opening quote.  Its content is examined as a whole once it is
    complete. -/
def readText (s : Bytes) : Except Fault (String × Bytes) :=
  match readContent [] s with
  | .error fault => .error fault
  | .ok (content, rest) =>
    match Utf8.decode? content with
    | none => .error .notUtf8
    | some text => .ok (text, rest)

def skipText : Bytes → Except Fault Bytes
  | [] => .error .endInText
  | b :: s =>
    if b = quote then .ok s
    else if b = backslash then
      match _escape : skipEscape s with
      | .error fault => .error fault
      | .ok rest => skipText rest
    else if b.toNat < 0x20 then .error .controlCharacter
    else skipText s
termination_by s => s.length
decreasing_by
  · have := length_le_of_skipEscape _escape
    simp only [List.length_cons]
    omega
  · simp

theorem length_lt_of_readContent {done content s rest : Bytes}
    (h : readContent done s = .ok (content, rest)) : rest.length < s.length := by
  fun_induction readContent done s with
  | case1 => cases h
  | case2 => cases h; simp
  | case3 => cases h
  | case4 done s c left found _ ih =>
    have := length_le_of_readEscape found
    have := ih h
    simp only [List.length_cons]
    omega
  | case5 => cases h
  | case6 done b s _ _ _ ih =>
    have := ih h
    simp only [List.length_cons]
    omega

theorem length_lt_of_readText {text : String} {s rest : Bytes} (h : readText s = .ok (text, rest)) :
    rest.length < s.length := by
  rw [readText] at h
  split at h
  · cases h
  · split at h
    · cases h
    · cases h; exact length_lt_of_readContent ‹_›

theorem length_lt_of_skipText {s rest : Bytes} (h : skipText s = .ok rest) :
    rest.length < s.length := by
  fun_induction skipText s with
  | case1 => cases h
  | case2 => cases h; simp
  | case3 => cases h
  | case4 s left found _ ih =>
    have := length_le_of_skipEscape found
    have := ih h
    simp only [List.length_cons]
    omega
  | case5 => cases h
  | case6 b s _ _ _ ih =>
    have := ih h
    simp only [List.length_cons]
    omega

end ReplicatedKv.Json
