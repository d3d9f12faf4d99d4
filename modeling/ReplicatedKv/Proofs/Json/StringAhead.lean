import ReplicatedKv.Proofs.Json.Literals
import ReplicatedKv.Proofs.Json.Readings
import ReplicatedKv.Proofs.Json.Shapes

/-! # Strings ahead

What becomes of a quote at every place of a document that is not read as a value of a known kind:
inside escapes, numbers, strings and values that nobody wants.

* `stops_readEscape`, `stops_readNumeral`, `stops_readLiteral` — what has begun ends before the quote.
* `meets_readText`, `meets_skipText` — strings that have begun, which may end with the quote or hold
  it as an escaped character.
* `meets_skip` — skipped values, whatever they nest.
-/

namespace ReplicatedKv.Json

open Reader (readColon)

variable {w : Bytes}

/-! ## Units -/

theorem hexNumber?_eq_none_of_mem {digits : Bytes} (member : quote ∈ digits) :
    hexNumber? digits = none := by
  suffices general : ∀ n : Nat, digits.foldlM
      (fun n b => (hexDigit? b).map (16 * n + ·)) n = none from general 0
  induction digits with
  | nil => nomatch member
  | cons b digits ih =>
    intro n
    rw [List.foldlM_cons]
    obtain same | member := List.mem_cons.mp member
    · rw [← same]
      rfl
    · cases (hexDigit? b).map (16 * n + ·) with
      | none => rfl
      | some m => exact ih member m

theorem stops_readUnit (w : Bytes) : Stops (reads readUnit) w := by
  by_cases long : 4 ≤ w.length
  · have taken (s : Bytes) :
        Bytes.splitExact? 4 (w ++ quote :: s) = some (w.take 4, w.drop 4 ++ quote :: s) :=
      Bytes.splitExact?_eq_some_iff.mpr ⟨by
        rw [← List.append_assoc, List.take_append_drop], List.length_take_of_le long⟩
    cases number : hexNumber? (w.take 4) with
    | none =>
      exact stops_reads_of_error fun s => ⟨.invalidEscape, by simp only [readUnit, taken, number]⟩
    | some n =>
      refine stops_reads_of_ok (b := n) (v := w.drop 4) fun s => ?_
      simp only [readUnit, taken, number]
  · -- the quote is one of the four bytes
    refine stops_reads_of_error fun s => ?_
    rw [readUnit]
    split
    next => exact ⟨_, rfl⟩
    next digits rest taken =>
      obtain ⟨parts, four⟩ := Bytes.splitExact?_eq_some_iff.mp taken
      have member : quote ∈ digits := by
        obtain ⟨more, rfl, others⟩ | ⟨more, rfl, -⟩ := List.append_eq_append_iff.mp parts
        · cases more with
          | nil => rw [List.append_nil] at four; omega
          | cons b more =>
            obtain ⟨rfl, -⟩ := List.cons.inj others
            exact List.mem_append_right w List.mem_cons_self
        · rw [List.length_append] at long; omega
      rw [hexNumber?_eq_none_of_mem member]
      exact ⟨_, rfl⟩

/-! ## Escapes -/

theorem stops_readPairing {expected : UInt8} (other : quote ≠ expected) (w : Bytes) :
    Stops (drops (readPairing expected)) w := by
  cases w with
  | nil => exact stops_drops_of_error fun s => ⟨.unpairedEscape, if_neg other⟩
  | cons b w =>
    by_cases paired : b = expected
    · exact stops_drops_of_ok fun s => if_pos paired
    · exact stops_drops_of_error fun s => ⟨.unpairedEscape, if_neg paired⟩

theorem reads_readSecondUnit : reads readSecondUnit =
    (drops (readPairing backslash)).andThen fun _ =>
      (drops (readPairing 0x75)).andThen fun _ => reads readUnit := by
  refine Reading.ext fun s n rest => ?_
  simp only [reads, drops, Reading.andThen, readSecondUnit]
  cases readPairing backslash s with
  | error => simp
  | ok s => cases second : readPairing 0x75 s <;> simp [second]

theorem stops_readSecondUnit (w : Bytes) : Stops (reads readSecondUnit) w := by
  rw [reads_readSecondUnit]
  refine (stops_readPairing (by decide) w).andThen fun _ v _ => ?_
  exact (stops_readPairing (by decide) v).andThen fun _ v _ => stops_readUnit v

theorem reads_readUnicode : reads readUnicode = (reads readUnit).andThen fun n =>
    if isTrailing n then .give none
    else if isLeading n then (reads readSecondUnit).andThen fun m =>
      .give (if isTrailing m then some (pairedChar n m) else none)
    else .give (some (Char.ofNat n)) := by
  refine Reading.ext fun s c rest => ?_
  simp only [reads, Reading.andThen, readUnicode]
  cases readUnit s with
  | error => simp
  | ok pair =>
    obtain ⟨n, s⟩ := pair
    by_cases trailing : isTrailing n
    · simp [trailing, Reading.give]
    by_cases leading : isLeading n
    · cases second : readSecondUnit s with
      | error => simp [trailing, leading, second, reads, Reading.andThen]
      | ok pair =>
        obtain ⟨m, s⟩ := pair
        by_cases paired : isTrailing m <;>
          simp [trailing, leading, second, paired, reads, Reading.andThen, Reading.give, and_comm,
            eq_comm (a := rest)]
    · simp [trailing, leading, Reading.give, eq_comm (a := rest)]

theorem stops_readUnicode (w : Bytes) : Stops (reads readUnicode) w := by
  rw [reads_readUnicode]
  refine (stops_readUnit w).andThen fun n v _ => ?_
  split
  · exact stops_give _ v
  split
  · exact (stops_readSecondUnit v).give _
  · exact stops_give _ v

/-- An escape that has begun before the quote ends before it. -/
theorem stops_readEscape (b : UInt8) (w : Bytes) : Stops (reads readEscape) (b :: w) := by
  cases short : shortEscape? b with
  | some c => exact stops_reads_of_ok (b := c) (v := w) fun s => by simp [readEscape, short]
  | none =>
    by_cases unit : b = 0x75
    · subst unit
      exact .of_iff (Q := reads readUnicode) (fun _ _ _ => Iff.rfl) (stops_readUnicode w)
    · exact stops_reads_of_error fun s => ⟨.invalidEscape, by simp [readEscape, short, unit]⟩

theorem stops_skipEscape (b : UInt8) (w : Bytes) : Stops (drops skipEscape) (b :: w) := by
  cases short : shortEscape? b with
  | some c => exact stops_drops_of_ok (v := w) fun s => by simp [skipEscape, short]
  | none =>
    by_cases unit : b = 0x75
    · subst unit
      exact .of_iff (Q := drops fun s => (readUnit s).map Prod.snd) (fun _ _ _ => Iff.rfl)
        (stops_readUnit w).map_snd
    · exact stops_drops_of_error fun s => ⟨.invalidEscape, by simp [skipEscape, short, unit]⟩

/-! ## Numbers -/

theorem exists_takeDigits (w : Bytes) :
    ∃ digits v, ∀ s, takeDigits (w ++ quote :: s) = (digits, v ++ quote :: s) := by
  induction w with
  | nil => exact ⟨[], [], fun s => rfl⟩
  | cons b w ih =>
    cases digit : isDigit b with
    | false => exact ⟨[], b :: w, fun s => by simp [takeDigits, digit]⟩
    | true =>
      obtain ⟨digits, v, taken⟩ := ih
      refine ⟨(b.toNat - 0x30) :: digits, v, fun s => ?_⟩
      obtain ⟨values, left⟩ := Prod.mk.inj (taken s)
      rw [takeDigits, List.cons_append, List.takeWhile_cons_of_pos digit,
        List.dropWhile_cons_of_pos digit, List.map_cons, values, left]

variable (atEnd : Fault)

theorem stops_readDigits (w : Bytes) : Stops (reads (readDigits atEnd)) w := by
  cases w with
  | nil => exact stops_reads_of_error fun s => ⟨.invalidNumber, rfl⟩
  | cons b w =>
    obtain ⟨digits, v, taken⟩ := exists_takeDigits (b :: w)
    by_cases digit : isDigit b
    · exact stops_reads_of_ok fun s => (if_pos digit).trans (congrArg Except.ok (taken s))
    · exact stops_reads_of_error fun s => ⟨.invalidNumber, if_neg digit⟩

theorem stops_readInteger (w : Bytes) : Stops (reads (readInteger atEnd)) w := by
  cases w with
  | nil => exact stops_reads_of_error fun s => ⟨.invalidNumber, rfl⟩
  | cons b w =>
    by_cases zero : b = 0x30
    · have same (s : Bytes) : startsWithDigit (w ++ quote :: s) = startsWithDigit (w ++ [quote]) := by
        cases w <;> rfl
      cases another : startsWithDigit (w ++ [quote]) with
      | true =>
        exact stops_reads_of_error fun s => ⟨.invalidNumber, by simp [readInteger, zero, same, another]⟩
      | false =>
        exact stops_reads_of_ok (b := [0]) (v := w) fun s => by
          simp [readInteger, zero, same, another]
    · refine (stops_readDigits atEnd (b :: w)).of_iff fun s digits rest => ?_
      simp [reads, readInteger, readDigits, zero]

theorem stops_readFraction (w : Bytes) : Stops (reads (readFraction atEnd)) w := by
  cases w with
  | nil => exact stops_reads_of_ok (b := none) (v := []) fun s => rfl
  | cons b w =>
    by_cases point : b = 0x2e
    · subst point
      refine (stops_readDigits atEnd w).map some fun s => ?_
      rw [List.cons_append, readFraction]
      cases readDigits atEnd (w ++ quote :: s) <;> rfl
    · refine stops_reads_of_ok (b := none) (v := b :: w) fun s => ?_
      rw [List.cons_append, readFraction]
      rintro t whole
      exact point (List.cons.inj whole).1

theorem readSign_quote (w s : Bytes) :
    readSign (w ++ quote :: s) = ((readSign w).1, (readSign w).2 ++ quote :: s) := by
  cases w with
  | nil => rfl
  | cons b w =>
    rw [List.cons_append]
    unfold readSign
    split <;> simp_all

theorem stops_readExponent (w : Bytes) : Stops (reads (readExponent atEnd)) w := by
  cases w with
  | nil => exact stops_reads_of_ok (b := none) (v := []) fun s => rfl
  | cons b w =>
    by_cases letter : b = 0x65 ∨ b = 0x45
    · refine (stops_readDigits atEnd (readSign w).2).map
        (fun digits => some (signed (readSign w).1 (exponentValue digits))) fun s => ?_
      rw [List.cons_append, readExponent, if_pos letter, readSign_quote]
      cases readDigits atEnd ((readSign w).2 ++ quote :: s) <;> rfl
    · exact stops_reads_of_ok (b := none) (v := b :: w) fun s => if_neg letter

theorem reads_readNumeral (negative : Bool) : reads (readNumeral atEnd negative) =
    (reads (readInteger atEnd)).andThen fun integer =>
      (reads (readFraction atEnd)).andThen fun fraction =>
        (reads (readExponent atEnd)).andThen fun exponent =>
          .give (some ⟨negative, integer, fraction, exponent⟩) := by
  refine Reading.ext fun s numeral rest => ?_
  simp only [reads, Reading.andThen, Reading.give, readNumeral]
  cases readInteger atEnd s with
  | error => simp
  | ok pair =>
    obtain ⟨integer, s⟩ := pair
    cases fraction : readFraction atEnd s with
    | error => simp [fraction]
    | ok pair =>
      obtain ⟨fraction, s⟩ := pair
      cases exponent : readExponent atEnd s <;> simp [exponent, fraction, Prod.ext_iff, and_comm]

theorem stops_readNumeral (negative : Bool) (w : Bytes) :
    Stops (reads (readNumeral atEnd negative)) w := by
  rw [reads_readNumeral]
  refine (stops_readInteger atEnd w).andThen fun _ v _ => ?_
  refine (stops_readFraction atEnd v).andThen fun _ v _ => ?_
  exact (stops_readExponent atEnd v).give _

/-! ## Strings -/

/-- What is read of a string does not depend on the bytes that are read already. -/
theorem readContent_done (done s : Bytes) :
    readContent done s = (readContent [] s).map fun p => (done.reverse ++ p.1, p.2) := by
  cases s with
  | nil => rw [readContent, readContent]; rfl
  | cons b s =>
    by_cases ending : b = quote
    · rw [ending, readContent_quote, readContent_quote, Except.map, List.reverse_nil,
        List.append_nil]
    by_cases escape : b = backslash
    · subst escape
      cases escaped : readEscape s with
      | error fault =>
        have failed (done : Bytes) : readContent done (backslash :: s) = .error fault := by
          rw [readContent, if_neg (by decide), if_pos rfl]
          split
          next again => rw [escaped] at again; cases again; rfl
          next again => cases escaped.symm.trans again
        rw [failed, failed]
        rfl
      | ok pair =>
        have := length_le_of_readEscape escaped
        rw [readContent_of_escape escaped, readContent_of_escape escaped,
          readContent_done (_ ++ done), readContent_done (_ ++ [])]
        cases readContent [] pair.2 with
        | error => rfl
        | ok => simp [Except.map]
    by_cases control : b.toNat < 0x20
    · rw [readContent, readContent, if_neg ending, if_neg escape, if_pos control, if_neg ending,
        if_neg escape, if_pos control]
      rfl
    · rw [readContent, readContent, if_neg ending, if_neg escape, if_neg control, if_neg ending,
        if_neg escape, if_neg control, readContent_done (b :: done), readContent_done [b]]
      cases readContent [] s with
      | error => rfl
      | ok => simp [Except.map]
termination_by s.length

/-- A string that has begun before the quote ends before it or with it, or the quote is escaped and
    the string goes on. -/
theorem meets_readContent (done w : Bytes) : Meets (reads (readContent done)) w ∨
    ∃ front, ∀ s, readContent done (w ++ quote :: s) = readContent (quote :: front) s := by
  -- a step that takes bytes before the quote leaves a shorter string
  have goesOn (done' : Bytes) {v : Bytes} (shorter : v.length < w.length)
      (step : ∀ s, readContent done (w ++ quote :: s) = readContent done' (v ++ quote :: s)) :
      Meets (reads (readContent done)) w ∨
        ∃ front, ∀ s, readContent done (w ++ quote :: s) = readContent (quote :: front) s := by
    obtain meets | ⟨front, goesOn⟩ := meets_readContent done' v
    · exact .inl (meets.of_iff fun s content rest => by rw [reads, reads, step])
    · exact .inr ⟨front, fun s => (step s).trans (goesOn s)⟩
  cases w with
  | nil =>
    refine .inl (.closes fun s content rest read => ?_)
    obtain ⟨-, left⟩ := Prod.mk.inj (Except.ok.inj ((readContent_quote done _).symm.trans read))
    exact left.symm
  | cons b w =>
    by_cases ending : b = quote
    · subst ending
      exact .inl (.stops (stops_reads_of_ok fun s => readContent_quote done (w ++ quote :: s)))
    by_cases escape : b = backslash
    · subst escape
      cases w with
      | nil => exact .inr ⟨done, fun s => readContent_of_escape (c := '\"') rfl done⟩
      | cons b w =>
        cases stops_readEscape b w with
        | fails fails =>
          refine .inl (.stops (.fails fun s content rest read => ?_))
          obtain ⟨c, left, escaped⟩ := exists_of_readContent_escape read
          exact fails s c left escaped
        | before c v before =>
          have escaped (s : Bytes) := (before s c _).mpr ⟨rfl, rfl⟩
          have shorter := length_le_of_readEscape (escaped [])
          simp only [List.length_append, List.length_cons] at shorter
          exact goesOn _ (by simp only [List.length_cons]; omega) fun s =>
            readContent_of_escape (escaped s) done
    by_cases control : b.toNat < 0x20
    · refine .inl (.stops (stops_reads_of_error fun s => ⟨.controlCharacter, ?_⟩))
      rw [List.cons_append, readContent, if_neg ending, if_neg escape, if_pos control]
    · refine goesOn (b :: done) (Nat.lt_succ_self _) fun s => ?_
      rw [List.cons_append, readContent, if_neg ending, if_neg escape, if_neg control]
termination_by w.length

theorem reads_readText :
    reads readText = (reads (readContent [])).andThen fun content => .give (Utf8.decode? content) := by
  refine Reading.ext fun s text rest => ?_
  simp only [reads, Reading.andThen, Reading.give, readText_eq_ok_iff, Utf8.decode?_eq_some_iff]
  constructor
  · exact fun read => ⟨_, rest, read, rfl, rfl⟩
  · rintro ⟨_, _, read, rfl, rfl⟩
    exact read

theorem meets_readText (w : Bytes) : Meets (reads readText) w := by
  obtain meets | ⟨front, goesOn⟩ := meets_readContent [] w
  · rw [reads_readText]
    exact meets.give _
  · refine .wants (fun text left whole rest =>
      Utf8.encode whole = (quote :: front).reverse ++ Utf8.encode text ∧ rest = left)
      fun s whole rest => ?_
    have character : (quote :: front).reverse = front.reverse ++ String.utf8EncodeChar '\"' :=
      List.reverse_cons
    simp only [reads, readText_eq_ok_iff, goesOn]
    rw [readContent_done]
    cases found : readContent [] s with
    | error => simp [Except.map]
    | ok pair =>
      obtain ⟨t, left⟩ := pair
      simp only [Except.map, Except.ok.injEq, Prod.mk.injEq]
      constructor
      · rintro ⟨parts, rfl⟩
        -- what stands behind the escaped quote is a text where the whole is one
        have both : Utf8.WellFormed (front.reverse ++ (String.utf8EncodeChar '\"' ++ t)) :=
          ⟨whole, by rw [← parts, character, List.append_assoc]⟩
        obtain ⟨-, text, rfl⟩ := Utf8.wellFormed_append_char_iff.mp both
        exact ⟨text, left, ⟨rfl, rfl⟩, parts.symm, rfl⟩
      · rintro ⟨text, _, ⟨rfl, rfl⟩, parts, rfl⟩
        exact ⟨parts.symm, rfl⟩

theorem meets_skipText (w : Bytes) : Meets (drops skipText) w := by
  have goesOn {v : Bytes} (shorter : v.length < w.length)
      (step : ∀ s, skipText (w ++ quote :: s) = skipText (v ++ quote :: s)) :
      Meets (drops skipText) w :=
    (meets_skipText v).of_iff fun s _ rest => by rw [drops, drops, step]
  cases w with
  | nil =>
    refine .closes fun s _ rest dropped => ?_
    exact (Except.ok.inj ((skipText_quote _).symm.trans dropped)).symm
  | cons b w =>
    by_cases ending : b = quote
    · subst ending
      exact .stops (stops_drops_of_ok fun s => skipText_quote (w ++ quote :: s))
    by_cases escape : b = backslash
    · subst escape
      cases w with
      | nil =>
        refine .skips (fun left _ rest => rest = left) fun s _ rest => ?_
        have escaped : skipText (backslash :: quote :: s) = skipText s := skipText_of_skipEscape rfl
        rw [drops, List.cons_append, List.nil_append, escaped]
        simp
      | cons b w =>
        cases stops_skipEscape b w with
        | fails fails =>
          refine .stops (.fails fun s _ rest skipped => ?_)
          obtain ⟨left, escaped⟩ := exists_of_skipText_escape skipped
          exact fails s () left escaped
        | before _ v before =>
          have escaped (s : Bytes) := (before s () _).mpr ⟨rfl, rfl⟩
          have shorter := length_le_of_skipEscape (escaped [])
          simp only [List.length_append, List.length_cons] at shorter
          exact goesOn (by simp only [List.length_cons]; omega) fun s =>
            skipText_of_skipEscape (escaped s)
    by_cases control : b.toNat < 0x20
    · refine .stops (stops_drops_of_error fun s => ⟨.controlCharacter, ?_⟩)
      rw [List.cons_append, skipText, if_neg ending, if_neg escape, if_pos control]
    · refine goesOn (Nat.lt_succ_self _) fun s => ?_
      rw [List.cons_append, skipText, if_neg ending, if_neg escape, if_neg control]
termination_by w.length

/-! ## Blanks -/

theorem blanks_or_visible (w : Bytes) : Blanks w ∨ ∃ u b v, Blanks u ∧ isBlank b = false ∧
    v.length < w.length ∧ ∀ s, w ++ s = u ++ b :: (v ++ s) := by
  induction w with
  | nil => exact .inl .nil
  | cons b w ih =>
    cases blank : isBlank b with
    | false => exact .inr ⟨[], b, w, .nil, blank, Nat.lt_succ_self _, fun s => rfl⟩
    | true =>
      have first := isBlank_eq_true_iff.mp blank
      obtain blanks | ⟨u, b', v, blanks, visible, shorter, whole⟩ := ih
      · exact .inl (blanks_cons_iff.mpr ⟨first, blanks⟩)
      · exact .inr ⟨b :: u, b', v, blanks_cons_iff.mpr ⟨first, blanks⟩, visible,
          Nat.lt_succ_of_lt shorter, fun s => congrArg (b :: ·) (whole s)⟩

/-- The first byte that is not blank is the quote, or it stands before the quote. -/
theorem dropBlank_quote_cases (w : Bytes) : (∀ s, dropBlank (w ++ quote :: s) = quote :: s) ∨
    ∃ b v, isBlank b = false ∧ v.length < w.length ∧
      ∀ s, dropBlank (w ++ quote :: s) = b :: (v ++ quote :: s) := by
  obtain blanks | ⟨u, b, v, blanks, visible, shorter, whole⟩ := blanks_or_visible w
  · exact .inl fun s => dropBlank_append_cons blanks (by decide) s
  · exact .inr ⟨b, v, visible, shorter, fun s => by
      rw [whole, dropBlank_append_cons blanks visible]⟩

/-! ## Skipped values -/

theorem stops_readLiteral {letters : Bytes} (other : quote ∉ letters) (w : Bytes) :
    Stops (drops (readLiteral letters)) w := by
  induction letters generalizing w with
  | nil => exact stops_drops_of_ok fun s => rfl
  | cons letter letters ih =>
    obtain ⟨notFirst, notOthers⟩ := not_or.mp (mt List.mem_cons.mpr other)
    cases w with
    | nil => exact stops_drops_of_error fun s => ⟨.expectedLiteral, if_neg notFirst⟩
    | cons b w =>
      by_cases same : b = letter
      · exact .of_iff (Q := drops (readLiteral letters))
          (fun s _ rest => by rw [drops, drops, List.cons_append, readLiteral, if_pos same])
          (ih notOthers w)
      · exact stops_drops_of_error fun s => ⟨.expectedLiteral, if_neg same⟩

theorem stops_skipNumber (w : Bytes) : Stops (drops skipNumber) w :=
  (stops_readNumeral .invalidNumber false w).map_snd

theorem meets_skipScalar (b : UInt8) (w : Bytes) : Meets (reads (skipScalar b)) w := by
  have scalar {f : Bytes → Except Fault Bytes} {v : Bytes} (meets : Meets (drops f) v)
      (step : ∀ s, skipScalar b (w ++ quote :: s) = (f (v ++ quote :: s)).map (none, ·)) :
      Meets (reads (skipScalar b)) w :=
    (meets.map_pair none).of_iff fun s c rest => by rw [reads, reads, step]
  have literal (letters : Bytes) (other : quote ∉ letters) : Meets (drops (readLiteral letters)) w :=
    .stops (stops_readLiteral other w)
  by_cases isNull : b = 0x6e
  · subst isNull
    exact scalar (literal nullRest (by decide)) fun s => rfl
  by_cases isTrue : b = 0x74
  · subst isTrue
    exact scalar (literal trueRest (by decide)) fun s => rfl
  by_cases isFalse : b = 0x66
  · subst isFalse
    exact scalar (literal falseRest (by decide)) fun s => rfl
  by_cases isMinus : b = minus
  · subst isMinus
    exact scalar (.stops (stops_skipNumber w)) fun s => rfl
  by_cases digit : isDigit b
  · exact scalar (.stops (stops_skipNumber (b :: w))) fun s =>
      skipScalar_of_digit (isDigit_eq_true_iff.mp digit) _
  by_cases isQuote : b = quote
  · subst isQuote
    exact scalar (meets_skipText w) fun s => rfl
  by_cases isList : b = openList
  · subst isList
    exact .stops (stops_reads_of_ok fun s => rfl)
  by_cases isObject : b = openObject
  · subst isObject
    exact .stops (stops_reads_of_ok fun s => rfl)
  · exact .stops (stops_reads_of_error fun s => ⟨.expectedValue, by simp [skipScalar, *]⟩)

theorem stops_readColon (w : Bytes) : Stops (drops readColon) w := by
  obtain dropped | ⟨b, v, -, -, dropped⟩ := dropBlank_quote_cases w
  · exact stops_drops_of_error fun s => ⟨.expectedColon, by simp only [readColon, dropped]; rfl⟩
  by_cases isColon : b = colon
  · exact stops_drops_of_ok (v := v) fun s => by simp [readColon, dropped, isColon]
  · exact stops_drops_of_error fun s => ⟨.expectedColon, by simp [readColon, dropped, isColon]⟩

theorem skipName_eq_ok_iff {s v rest : Bytes} (dropped : dropBlank s = quote :: v) :
    skipName s = .ok rest ↔ ∃ left, skipText v = .ok left ∧ readColon left = .ok rest := by
  simp only [skipName, dropped, if_true]
  cases skipText v with
  | error => simp
  | ok left =>
    simp only [Except.ok.injEq, exists_eq_left']
    rfl

theorem meets_skipName (w : Bytes) : Meets (drops skipName) w := by
  obtain dropped | ⟨b, v, -, -, dropped⟩ := dropBlank_quote_cases w
  · exact .skips (fun left _ rest => readColon left = .ok rest) fun s _ rest =>
      skipName_eq_ok_iff (dropped s)
  by_cases isQuote : b = quote
  · subst isQuote
    have named := (meets_skipText v).andThen (K := fun _ => drops readColon)
      (fun _ u _ => .stops (stops_readColon u)) (fun _ s _ rest read => nomatch read)
    refine named.of_iff fun s _ rest => ?_
    rw [drops, skipName_eq_ok_iff (dropped s), Reading.drops_andThen_iff]
  · exact .stops (stops_drops_of_error fun s => ⟨.nameNotText, by simp [skipName, dropped, isQuote]⟩)

variable {outer : List Container} {s rest : Bytes}

theorem skip_member_iff : skip .member outer s = .ok rest ↔
    ∃ mid, skipName s = .ok mid ∧ skip .value outer mid = .ok rest := by
  cases name : skipName s with
  | ok mid =>
    rw [skip_member outer name]
    simp
  | error fault =>
    refine iff_of_false (fun skipped => ?_) (by simp)
    rw [skip] at skipped
    split at skipped
    next => cases skipped
    next again => cases name.symm.trans again

/-- What is due next once a value has begun. -/
def afterScalar (outer : List Container) : Option Container → Reading Unit
  | none => drops (skip .more outer)
  | some c => drops (skip (.first c) outer)

theorem skip_value_iff {u : Bytes} {b : UInt8} (blanks : Blanks u) (visible : isBlank b = false) :
    skip .value outer (u ++ b :: s) = .ok rest ↔
      (reads (skipScalar b)).andThen (afterScalar outer) s () rest := by
  rw [skip_value blanks visible]
  simp only [reads, Reading.andThen]
  cases skipScalar b s with
  | error => simp
  | ok pair =>
    obtain ⟨_ | c, left⟩ := pair <;> simp [afterScalar, drops]

/-- No value or name begins with a backslash, and it is no comma or bracket. -/
theorem eq_of_skip_backslash {due : Due}
    (skipped : skip due outer (backslash :: s) = .ok rest) : rest = backslash :: s := by
  have visible : isBlank backslash = false := by decide
  have notName : skipName (backslash :: s) = .error .nameNotText := rfl
  have value (outer : List Container) : skip .value outer (backslash :: s) ≠ .ok rest := by
    intro skipped
    obtain ⟨_, _, scalar, -⟩ := (skip_value_iff .nil visible).mp skipped
    cases scalar
  have member (outer : List Container) : skip .member outer (backslash :: s) ≠ .ok rest := by
    intro skipped
    obtain ⟨_, named, -⟩ := skip_member_iff.mp skipped
    cases notName.symm.trans named
  cases due with
  | value => exact absurd skipped (value outer)
  | member => exact absurd skipped (member outer)
  | first c =>
    cases c with
    | list => exact absurd ((skip_first .nil visible).symm.trans skipped) (value _)
    | object => exact absurd ((skip_first .nil visible).symm.trans skipped) (member _)
  | more =>
    cases outer with
    | nil =>
      rw [skip] at skipped
      exact (Except.ok.inj skipped).symm
    | cons c outer => cases c <;> cases (skip_more .nil visible).symm.trans skipped

theorem skip_value_quote_iff {u : Bytes} (blanks : Blanks u) :
    skip .value outer (u ++ quote :: s) = .ok rest ↔
      ∃ left, skipText s = .ok left ∧ skip .more outer left = .ok rest := by
  have scalar : skipScalar quote s = (skipText s).map (none, ·) := rfl
  rw [skip_value blanks (by decide), scalar]
  cases skipText s <;> simp [Except.map]

theorem meets_skip (due : Due) (outer : List Container) (w : Bytes) :
    Meets (drops (skip due outer)) w := by
  have step {due' : Due} {outer' : List Container} {v : Bytes}
      (later : Meets (drops (skip due' outer')) v)
      (same : ∀ s, skip due outer (w ++ quote :: s) = skip due' outer' (v ++ quote :: s)) :
      Meets (drops (skip due outer)) w :=
    later.of_iff fun s _ rest => by rw [drops, drops, same]
  cases due with
  | value =>
    obtain blanks | ⟨u, b, v, blanks, visible, shorter, whole⟩ := blanks_or_visible w
    · exact .skips (fun left _ rest => skip .more outer left = .ok rest) fun s _ rest =>
        skip_value_quote_iff blanks
    · have value := (meets_skipScalar b v).andThen (K := afterScalar outer)
        (fun o u taken => by
          have notLonger : u.length ≤ v.length := by
            simpa using length_le_of_skipScalar (taken [])
          cases o with
          | none => exact meets_skip .more outer u
          | some c => exact meets_skip (.first c) outer u)
        (fun o s _ rest skipped => by cases o <;> exact eq_of_skip_backslash skipped)
      refine value.of_iff fun s _ rest => ?_
      rw [drops, whole]
      exact skip_value_iff blanks visible
  | member =>
    have member := (meets_skipName w).andThen (K := fun _ => drops (skip .value outer))
      (fun _ v named => by
        have shorter : v.length < w.length := by simpa using length_lt_of_skipName (named [])
        exact meets_skip .value outer v)
      (fun _ _ _ _ => eq_of_skip_backslash)
    refine member.of_iff fun s _ rest => ?_
    rw [drops, skip_member_iff, Reading.drops_andThen_iff]
  | first c =>
    obtain blanks | ⟨u, b, v, blanks, visible, shorter, whole⟩ := blanks_or_visible w
    · have other : quote ≠ c.closing := by cases c <;> decide
      exact step (meets_skip (.part c) (c :: outer) []) fun s =>
        (skip_first blanks (by decide)).trans (if_neg other)
    by_cases closing : b = c.closing
    · exact step (meets_skip .more outer v) fun s => by
        rw [whole, skip_first blanks visible, if_pos closing]
    · exact step (meets_skip (.part c) (c :: outer) (b :: v)) fun s => by
        rw [whole, skip_first blanks visible, if_neg closing, List.cons_append]
  | more =>
    cases outer with
    | nil => exact .stops (stops_drops_of_ok fun s => by rw [skip])
    | cons c outer =>
      obtain blanks | ⟨u, b, v, blanks, visible, shorter, whole⟩ := blanks_or_visible w
      · refine .stops (stops_drops_of_error fun s => ⟨c.unseparated, ?_⟩)
        rw [skip_more blanks (by decide), if_neg (by decide), if_neg (by cases c <;> decide)]
      by_cases separated : b = comma
      · exact step (meets_skip (.part c) (c :: outer) v) fun s => by
          rw [whole, skip_more blanks visible, if_pos separated]
      by_cases closing : b = c.closing
      · exact step (meets_skip .more outer v) fun s => by
          rw [whole, skip_more blanks visible, if_neg separated, if_pos closing]
      · refine .stops (stops_drops_of_error fun s => ⟨c.unseparated, ?_⟩)
        rw [whole, skip_more blanks visible, if_neg separated, if_neg closing]
termination_by (w.length, due.rank)
decreasing_by
  all_goals simp only [Prod.lex_def, Due.rank_part]
  all_goals try simp only [Due.rank, List.length_nil, List.length_cons]
  all_goals omega

end ReplicatedKv.Json
