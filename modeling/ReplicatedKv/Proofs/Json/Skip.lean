import ReplicatedKv.Json.Skip
import ReplicatedKv.Proofs.Json.Strings

/-! # Skipping spelled values

A value that nobody wants is passed over, however it is written and however deeply it nests.  Only
a number does not tell by itself where it ends, so it matters what follows.

* `Ends` — what may follow a value.
* `skipNumber_of_unsigned` — a number is taken to its end.
* `Spelling.skip`, `Elements.skip`, `Members.skip` — values, and the parts of an open container.
-/

namespace ReplicatedKv.Json

/-! ## Numbers -/

/-- The byte string may follow a value: it is empty or begins with a blank, a comma or the end of a
    container. -/
def Ends (s : Bytes) : Prop :=
  ∀ b ∈ s.head?, b ∈ [0x20, 0x09, 0x0a, 0x0d, comma, closeList, closeObject]

theorem ends_cons {b : UInt8} (s : Bytes)
    (ending : b ∈ [0x20, 0x09, 0x0a, 0x0d, comma, closeList, closeObject]) : Ends (b :: s) := by
  intro b' head
  obtain rfl := Option.some.inj head
  exact ending

theorem Ends.append {u s : Bytes} (ends : Ends s) (blanks : Blanks u) : Ends (u ++ s) := by
  cases u with
  | nil => exact ends
  | cons b u =>
    refine ends_cons _ ?_
    obtain rfl | rfl | rfl | rfl := (blanks_cons_iff.mp blanks).1 <;> decide

theorem isDigit_eq_true_iff {b : UInt8} : isDigit b = true ↔ IsDigit b := by
  simp [isDigit, IsDigit]

theorem takeDigits_append {w s : Bytes} (digits : ∀ b ∈ w, IsDigit b)
    (stops : startsWithDigit s = false) : (takeDigits (w ++ s)).2 = s := by
  rw [takeDigits, List.dropWhile_append_of_pos
    fun b member => isDigit_eq_true_iff.mpr (digits b member)]
  cases s with
  | nil => rfl
  | cons b s => rw [List.dropWhile_cons_of_neg (by simpa [startsWithDigit] using stops)]

-- where a number is cut off is another fault, but what is left after a whole one is the same
variable (atEnd : Fault)

theorem readDigits_of_digits {w s : Bytes} (digits : Digits w)
    (stops : startsWithDigit s = false) : ∃ n, readDigits atEnd (w ++ s) = .ok (n, s) := by
  obtain ⟨b, v, rfl, digit⟩ := digits.exists_cons
  have taken := takeDigits_append digits.2 stops
  rw [List.cons_append] at taken ⊢
  rw [readDigits, if_pos (isDigit_eq_true_iff.mpr digit)]
  exact ⟨_, congrArg Except.ok (Prod.ext rfl taken)⟩

theorem readInteger_of_integer {w s : Bytes} (integer : IsInteger w)
    (stops : startsWithDigit s = false) : ∃ n, readInteger atEnd (w ++ s) = .ok (n, s) := by
  cases integer with
  | zero =>
    refine ⟨[0], ?_⟩
    rw [List.singleton_append, readInteger, if_pos rfl, if_neg (by simp [stops])]
  | digits notZero digits =>
    have taken := takeDigits_append digits.2 stops
    have digit := digits.2 _ List.mem_cons_self
    rw [List.cons_append] at taken ⊢
    rw [readInteger, if_neg notZero, if_pos (isDigit_eq_true_iff.mpr digit)]
    exact ⟨_, congrArg Except.ok (Prod.ext rfl taken)⟩

theorem readFraction_of_fraction {w s : Bytes} (fraction : IsFraction w)
    (stops : startsWithDigit s = false) (noPoint : s.head? ≠ some 0x2e) :
    ∃ n, readFraction atEnd (w ++ s) = .ok (n, s) := by
  cases fraction with
  | absent =>
    rw [List.nil_append]
    unfold readFraction
    split
    next => exact absurd rfl noPoint
    next => exact ⟨none, rfl⟩
  | point digits =>
    obtain ⟨n, read⟩ := readDigits_of_digits atEnd digits stops
    exact ⟨some n, by simp only [List.cons_append, readFraction, read]⟩

/-- The sign of an exponent is dropped, if there is one. -/
theorem readSign_append {sign w s : Bytes} (signed : sign ∈ [[], [0x2b], [0x2d]])
    (digits : Digits w) : (readSign (sign ++ (w ++ s))).2 = w ++ s := by
  simp only [List.mem_cons, List.not_mem_nil, or_false] at signed
  obtain rfl | rfl | rfl := signed
  · obtain ⟨b, v, rfl, digit⟩ := digits.exists_cons
    rw [List.nil_append, List.cons_append]
    unfold readSign
    split
    next same => obtain ⟨rfl, -⟩ := List.cons.inj same; exact absurd digit (by decide)
    next same => obtain ⟨rfl, -⟩ := List.cons.inj same; exact absurd digit (by decide)
    next => rfl
  · rfl
  · rfl

theorem Ends.stops {s : Bytes} (ends : Ends s) :
    startsWithDigit s = false ∧ s.head? ≠ some 0x2e ∧
      s.head? ≠ some 0x65 ∧ s.head? ≠ some 0x45 := by
  have others : ∀ b ∈ [0x20, 0x09, 0x0a, 0x0d, comma, closeList, closeObject],
      isDigit b = false ∧ b ≠ 0x2e ∧ b ≠ 0x65 ∧ b ≠ 0x45 := by
    simp [isDigit, comma, closeList, closeObject]
  cases s with
  | nil => exact ⟨rfl, nofun, nofun, nofun⟩
  | cons b s => simpa [startsWithDigit] using others b (ends b rfl)

theorem readExponent_of_exponent {w s : Bytes} (exponent : IsExponent w) (ends : Ends s) :
    ∃ n, readExponent atEnd (w ++ s) = .ok (n, s) := by
  obtain ⟨noDigit, -, noSmall, noCapital⟩ := ends.stops
  cases exponent with
  | absent =>
    cases s with
    | nil => exact ⟨none, rfl⟩
    | cons b s =>
      refine ⟨none, ?_⟩
      rw [List.nil_append, readExponent, if_neg]
      rintro (rfl | rfl)
      · exact noSmall rfl
      · exact noCapital rfl
  | letter letter signed digits =>
    obtain ⟨n, read⟩ := readDigits_of_digits atEnd digits noDigit
    rw [List.cons_append, List.append_assoc, readExponent, if_pos letter,
      readSign_append signed digits, read]
    exact ⟨_, rfl⟩

theorem IsExponent.stops {w s : Bytes} (exponent : IsExponent w) (ends : Ends s) :
    startsWithDigit (w ++ s) = false ∧ (w ++ s).head? ≠ some 0x2e := by
  cases exponent with
  | absent => exact ⟨ends.stops.1, ends.stops.2.1⟩
  | letter letter =>
    obtain rfl | rfl := letter
    · exact ⟨rfl, nofun⟩
    · exact ⟨rfl, nofun⟩

theorem IsFraction.stops {w s : Bytes} (fraction : IsFraction w)
    (stops : startsWithDigit s = false) : startsWithDigit (w ++ s) = false := by
  cases fraction with
  | absent => exact stops
  | point => rfl

theorem skipNumber_of_unsigned {integer fraction exponent s : Bytes} (isInteger : IsInteger integer)
    (isFraction : IsFraction fraction) (isExponent : IsExponent exponent) (ends : Ends s) :
    skipNumber (integer ++ (fraction ++ exponent) ++ s) = .ok s := by
  obtain ⟨noDigit, noPoint⟩ := isExponent.stops ends
  obtain ⟨n, integerRead⟩ := readInteger_of_integer .invalidNumber isInteger
    (isFraction.stops noDigit)
  obtain ⟨m, fractionRead⟩ := readFraction_of_fraction .invalidNumber isFraction noDigit
    noPoint
  obtain ⟨e, exponentRead⟩ := readExponent_of_exponent .invalidNumber isExponent ends
  rw [skipNumber, readNumeral, List.append_assoc, List.append_assoc]
  simp only [integerRead, fractionRead, exponentRead]
  rfl

/-! ## Scalars -/

theorem skipScalar_of_digit {b : UInt8} (digit : IsDigit b) (s : Bytes) :
    skipScalar b s = (skipNumber (b :: s)).map (none, ·) := by
  rw [skipScalar, if_neg (digit.ne (by decide)), if_neg (digit.ne (by decide)),
    if_neg (digit.ne (by decide)), if_neg (digit.ne (by decide)),
    if_pos (isDigit_eq_true_iff.mpr digit)]

/-- The byte string is taken as a scalar where the given bytes follow. -/
def SkippedBefore (s w : Bytes) : Prop :=
  ∃ b v, w = b :: v ∧ isBlank b = false ∧ skipScalar b (v ++ s) = .ok (none, s)

theorem IsNumber.skippedBefore {w s : Bytes} (number : IsNumber w) (ends : Ends s) :
    SkippedBefore s w := by
  cases number with
  | @parts sign integer fraction exponent signed isInteger isFraction isExponent =>
    have skipped := skipNumber_of_unsigned isInteger isFraction isExponent ends
    simp only [List.mem_cons, List.not_mem_nil, or_false] at signed
    obtain rfl | rfl := signed
    · obtain ⟨b, v, rfl, digit⟩ := isInteger.exists_cons
      refine ⟨b, v ++ (fraction ++ exponent), rfl, isBlank_of_lt (by have := digit.1; omega), ?_⟩
      rw [List.cons_append, List.cons_append] at skipped
      rw [skipScalar_of_digit digit, skipped]
      rfl
    · refine ⟨minus, integer ++ (fraction ++ exponent), rfl, rfl, ?_⟩
      rw [skipScalar, if_neg (by decide), if_neg (by decide), if_neg (by decide), if_pos rfl,
        skipped]
      rfl

theorem SpelledText.skippedBefore {t : String} {w : Bytes} (spelled : SpelledText t w)
    (s : Bytes) : SkippedBefore s w := by
  obtain ⟨v, rfl, -, skipped⟩ := spelled.exists_content
  refine ⟨quote, v ++ [quote], rfl, rfl, ?_⟩
  have start : skipScalar quote (v ++ [quote] ++ s) =
      (skipText (v ++ [quote] ++ s)).map (none, ·) := rfl
  rw [start, List.append_assoc, List.singleton_append, skipped]
  rfl

/-! ## Steps -/

variable {outer : List Container} {c : Container} {b : UInt8} {u s : Bytes}

theorem skip_value (blanks : Blanks u) (visible : isBlank b = false) :
    skip .value outer (u ++ b :: s) =
      match skipScalar b s with
      | .error fault => .error fault
      | .ok (none, s) => skip .more outer s
      | .ok (some c, s) => skip (.first c) outer s := by
  have dropped := dropBlank_append_cons blanks visible s
  rw [skip]
  split
  next empty => rw [dropped] at empty; cases empty
  next b' s' again =>
    rw [dropped] at again
    cases again
    split
    next failed => rw [failed]
    next scalar => rw [scalar]
    next opened => rw [opened]

theorem skip_first (blanks : Blanks u) (visible : isBlank b = false) :
    skip (.first c) outer (u ++ b :: s) =
      if b = c.closing then skip .more outer s else skip (.part c) (c :: outer) (b :: s) := by
  have dropped := dropBlank_append_cons blanks visible s
  rw [skip]
  split
  next empty => rw [dropped] at empty; cases empty
  next b' s' again => rw [dropped] at again; cases again; rfl

theorem skip_more (blanks : Blanks u) (visible : isBlank b = false) :
    skip .more (c :: outer) (u ++ b :: s) =
      if b = comma then skip (.part c) (c :: outer) s
      else if b = c.closing then skip .more outer s
      else .error c.unseparated := by
  have dropped := dropBlank_append_cons blanks visible s
  rw [skip]
  split
  next empty => rw [dropped] at empty; cases empty
  next b' s' again => rw [dropped] at again; cases again; rfl

theorem skip_member (outer : List Container) {rest : Bytes} (name : skipName s = .ok rest) :
    skip .member outer s = skip .value outer rest := by
  conv_lhs => rw [skip]
  split
  next failed => rw [name] at failed; cases failed
  next again => rw [name] at again; cases again; rfl

theorem skipName_of_spelled {name : String} {m x : Bytes} (spelled : SpelledText name m)
    (before : Blanks u) (after : Blanks x) (s : Bytes) :
    skipName (u ++ (m ++ (x ++ colon :: s))) = .ok s := by
  obtain ⟨v, rfl, -, skipped⟩ := spelled.exists_content
  rw [skipName, List.cons_append, dropBlank_append_cons before (by decide), List.append_assoc,
    List.singleton_append]
  simp only [if_true, skipped, dropBlank_append_cons after (b := colon) (by decide)]

/-! ## Values -/

/-- Skips from inside a container to the end of the outer ones. -/
def skipParts (isFirst : Bool) (c : Container) (outer : List Container) (s : Bytes) :
    Except Fault Bytes :=
  if isFirst then skip (.first c) outer s else skip .more (c :: outer) s

theorem Container.closing_visible (c : Container) :
    isBlank c.closing = false ∧ c.closing ≠ comma := by
  cases c <;> decide

theorem skipParts_closing (isFirst : Bool) (blanks : Blanks u) :
    skipParts isFirst c outer (u ++ c.closing :: s) = skip .more outer s := by
  obtain ⟨visible, notComma⟩ := c.closing_visible
  cases isFirst with
  | true => exact (skip_first blanks visible).trans (if_pos rfl)
  | false => exact (skip_more blanks visible).trans ((if_neg notComma).trans (if_pos rfl))

theorem skipParts_part (outer : List Container) {isFirst : Bool} (separator : Separator isFirst u)
    (visible : isBlank b = false) (part : b ≠ c.closing) :
    ∃ v, Blanks v ∧ skipParts isFirst c outer (u ++ b :: s) =
      skip (.part c) (c :: outer) (v ++ b :: s) := by
  cases separator with
  | first blanks => exact ⟨[], .nil, (skip_first blanks visible).trans (if_neg part)⟩
  | @comma u v blanks after =>
    refine ⟨v, after, ?_⟩
    rw [List.append_assoc, List.cons_append]
    exact (skip_more blanks (by decide)).trans (if_pos rfl)

theorem Separator.ends {isFirst : Bool} (separator : Separator isFirst u) (next : isFirst = false)
    (s : Bytes) : Ends (u ++ s) := by
  cases separator with
  | first => cases next
  | comma blanks _ =>
    rw [List.append_assoc]
    exact Ends.append (ends_cons _ (by decide)) blanks

theorem Elements.ends {ts : List Tree} {w : Bytes} (elements : Elements false ts w)
    (ends : Ends s) : Ends (w ++ s) := by
  cases elements with
  | nil => exact ends
  | cons separator => rw [List.append_assoc]; exact separator.ends rfl _

theorem Members.ends {ms : List (String × Tree)} {w : Bytes} (members : Members false ms w)
    (ends : Ends s) : Ends (w ++ s) := by
  cases members with
  | nil => exact ends
  | cons separator => rw [List.append_assoc]; exact separator.ends rfl _

theorem ends_closing (c : Container) (blanks : Blanks u) (s : Bytes) :
    Ends (u ++ c.closing :: s) :=
  Ends.append (ends_cons s (by cases c <;> decide)) blanks

-- the induction is on how the value is written; what is open around it stays untouched
mutual
theorem Spelling.skip {t : Tree} {w : Bytes} (spelled : Spelling t w) {u s : Bytes}
    (blanks : Blanks u) (ends : Ends s) (outer : List Container) :
    skip .value outer (u ++ (w ++ s)) = skip .more outer s := by
  have scalar (skipped : SkippedBefore s w) :
      Json.skip .value outer (u ++ (w ++ s)) = Json.skip .more outer s := by
    obtain ⟨b, v, rfl, visible, skipped⟩ := skipped
    rw [List.cons_append, skip_value blanks visible, skipped]
  cases spelled with
  | null => exact scalar ⟨_, _, rfl, rfl, rfl⟩
  | true => exact scalar ⟨_, _, rfl, rfl, rfl⟩
  | false => exact scalar ⟨_, _, rfl, rfl, rfl⟩
  | number number => exact scalar (number.skippedBefore ends)
  | text text => exact scalar (text.skippedBefore s)
  | list elements after =>
    simp only [List.cons_append, List.append_assoc, List.nil_append]
    exact (skip_value blanks (by decide)).trans (elements.skip after outer s)
  | object members after =>
    simp only [List.cons_append, List.append_assoc, List.nil_append]
    exact (skip_value blanks (by decide)).trans (members.skip after outer s)

theorem Elements.skip {isFirst : Bool} {ts : List Tree} {w : Bytes}
    (elements : Elements isFirst ts w) {v : Bytes} (blanks : Blanks v) (outer : List Container)
    (s : Bytes) :
    skipParts isFirst .list outer (w ++ (v ++ closeList :: s)) = skip .more outer s := by
  cases elements with
  | nil => exact skipParts_closing isFirst blanks
  | @cons _ t ts u w x separator spelled others =>
    have ends := others.ends (ends_closing .list blanks s)
    obtain ⟨b, y, rfl, starts⟩ := spelled.exists_cons
    obtain ⟨visible, part⟩ := starts.visible
    obtain ⟨z, after, due⟩ := skipParts_part (c := .list) outer
      (s := y ++ (x ++ (v ++ closeList :: s))) separator visible part
    rw [List.append_assoc, List.append_assoc]
    exact due.trans ((spelled.skip after ends (.list :: outer)).trans
      (others.skip blanks outer s))

theorem Members.skip {isFirst : Bool} {ms : List (String × Tree)} {w : Bytes}
    (members : Members isFirst ms w) {v : Bytes} (blanks : Blanks v) (outer : List Container)
    (s : Bytes) :
    skipParts isFirst .object outer (w ++ (v ++ closeObject :: s)) = skip .more outer s := by
  cases members with
  | nil => exact skipParts_closing isFirst blanks
  | @cons _ name t ms u m x y w z separator named before colonAfter spelled others =>
    have ends := others.ends (ends_closing .object blanks s)
    obtain ⟨text, quoted, -, -⟩ := named.exists_content
    obtain ⟨p, after, due⟩ := skipParts_part (c := .object) outer (b := quote)
      (s := text ++ [quote] ++ (x ++ colon :: (y ++ (w ++ (z ++ (v ++ closeObject :: s))))))
      separator (by decide) (by decide)
    rw [← List.cons_append, ← quoted] at due
    have name := skip_member (.object :: outer)
      (skipName_of_spelled named after before (y ++ (w ++ (z ++ (v ++ closeObject :: s)))))
    simp only [List.append_assoc, List.cons_append]
    exact due.trans (name.trans ((spelled.skip colonAfter ends (.object :: outer)).trans
      (others.skip blanks outer s)))
end

/-- A value that nobody wants is passed over, with the blanks before it. -/
theorem skipValue_of_spelling {t : Tree} {u w s : Bytes} (spelled : Spelling t w)
    (blanks : Blanks u) (ends : Ends s) : skipValue (u ++ (w ++ s)) = .ok s := by
  rw [skipValue, spelled.skip blanks ends, skip]

end ReplicatedKv.Json
