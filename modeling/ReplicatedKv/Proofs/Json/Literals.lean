import ReplicatedKv.Proofs.Json.Strings
import ReplicatedKv.Proofs.Text.Rendering

/-! # String literals

Which literals are strings.  A literal is any sequence of raw bytes and escapes, and it is read where
its runs of raw bytes are well-formed and its surrogates come in pairs.

* `Item`, `literal` — the parts of a literal and its bytes.
* `RunsWellFormed`, `Paired` — what is asked of a literal.
* `Decodes` — the bytes of the text that a literal stands for.
* `readContent_literal_iff`, `readText_literal_iff` — what is read of a literal.
* `exists_decodes_iff` — the literals that stand for a text.
-/

namespace ReplicatedKv.Json

/-! ## Literals -/

/-- A part of a literal: bytes that stand for themselves, an escape of two characters, or a unit of
    16 bits in hexadecimal digits. -/
inductive Item where
  | raw (run : Bytes) (nonempty : run ≠ []) (plain : ∀ b ∈ run, IsPlain b)
  | short (letter : UInt8) (c : Char) (listed : (letter, c) ∈ shortEscapes)
  | unit (n : Nat) (digits : Bytes) (spelled : UnitDigits n digits)

namespace Item

def written : Item → Bytes
  | raw run _ _ => run
  | short letter _ _ => [backslash, letter]
  | unit _ digits _ => backslash :: 0x75 :: digits

def isEscape : Item → Bool
  | raw _ _ _ => false
  | short _ _ _ => true
  | unit _ _ _ => true

def isLeading : Item → Bool
  | unit n _ _ => Json.isLeading n
  | raw _ _ _ | short _ _ _ => false

def isTrailing : Item → Bool
  | unit n _ _ => Json.isTrailing n
  | raw _ _ _ | short _ _ _ => false

end Item

/-- The bytes between the quotes. -/
def literal (items : List Item) : Bytes := items.flatMap Item.written

/-- Between two escapes, the raw bytes are well-formed. -/
def RunsWellFormed (items : List Item) : Prop :=
  ∀ run ∈ items.splitOnP Item.isEscape, Utf8.WellFormed (literal run)

/-- Surrogates come in pairs of neighbours. -/
structure Paired (items : List Item) : Prop where
  followed (k : Nat) (i : Item) : items[k]? = some i → i.isLeading →
    ∃ j, items[k + 1]? = some j ∧ j.isTrailing
  preceded (k : Nat) (j : Item) : items[k]? = some j → j.isTrailing →
    ∃ l i, k = l + 1 ∧ items[l]? = some i ∧ i.isLeading

/-- The bytes of the text that a literal stands for. -/
inductive Decodes : List Item → Bytes → Prop where
  | nil : Decodes [] []
  | raw {run : Bytes} {nonempty : run ≠ []} {plain : ∀ b ∈ run, IsPlain b} {items : List Item}
      {s : Bytes} : Decodes items s → Decodes (.raw run nonempty plain :: items) (run ++ s)
  | short {letter : UInt8} {c : Char} {listed : (letter, c) ∈ shortEscapes} {items : List Item}
      {s : Bytes} : Decodes items s →
        Decodes (.short letter c listed :: items) (String.utf8EncodeChar c ++ s)
  | unit {n : Nat} {digits : Bytes} {spelled : UnitDigits n digits} {items : List Item}
      {s : Bytes} : isLeading n = false → isTrailing n = false → Decodes items s →
        Decodes (.unit n digits spelled :: items) (String.utf8EncodeChar (Char.ofNat n) ++ s)
  | pair {n m : Nat} {digits digits' : Bytes} {spelled : UnitDigits n digits}
      {spelled' : UnitDigits m digits'} {items : List Item} {s : Bytes} : isLeading n →
        isTrailing m → Decodes items s →
          Decodes (.unit n digits spelled :: .unit m digits' spelled' :: items)
            (String.utf8EncodeChar (pairedChar n m) ++ s)

theorem literal_cons (i : Item) (items : List Item) :
    literal (i :: items) = i.written ++ literal items := List.flatMap_cons

theorem literal_singleton (i : Item) : literal [i] = i.written := List.flatMap_singleton _ _

theorem literal_append (items others : List Item) :
    literal (items ++ others) = literal items ++ literal others := List.flatMap_append

/-! ## Runs -/

theorem splitOnP_cons_escape {i : Item} {items : List Item} (escape : i.isEscape) :
    (i :: items).splitOnP Item.isEscape = [] :: items.splitOnP Item.isEscape :=
  List.splitOnP_append_cons_of_forall_mem (List.forall_mem_nil _) i escape items

/-- The bytes of a text are well-formed where its raw runs are: no escape completes them. -/
theorem Decodes.wellFormed_iff {items : List Item} {s : Bytes} (decodes : Decodes items s) :
    Utf8.WellFormed s ↔ RunsWellFormed items := by
  -- the raw bytes since the last escape are kept apart
  suffices general : ∀ run : List Item, (∀ i ∈ run, i.isEscape = false) →
      (Utf8.WellFormed (literal run ++ s) ↔ RunsWellFormed (run ++ items)) from
    general [] (List.forall_mem_nil _)
  have escape {c : Char} {i : Item} {items : List Item} {s : Bytes} (isEscape : i.isEscape)
      (others : Utf8.WellFormed s ↔ RunsWellFormed items) (run : List Item)
      (raw : ∀ i ∈ run, i.isEscape = false) :
      Utf8.WellFormed (literal run ++ (String.utf8EncodeChar c ++ s)) ↔
        RunsWellFormed (run ++ i :: items) := by
    rw [Utf8.wellFormed_append_char_iff, others, RunsWellFormed, RunsWellFormed,
      List.splitOnP_append_cons_of_forall_mem raw i isEscape, List.forall_mem_cons]
  induction decodes with
  | nil =>
    intro run raw
    rw [List.append_nil, List.append_nil, RunsWellFormed, List.splitOnP_eq_singleton raw,
      List.forall_mem_singleton]
  | @raw bytes nonempty plain items s _ ih =>
    intro run raw
    have longer := ih (run ++ [.raw bytes nonempty plain]) (by
      rw [List.forall_mem_append, List.forall_mem_singleton]
      exact ⟨raw, rfl⟩)
    rwa [literal_append, literal_singleton, List.append_assoc, List.append_assoc] at longer
  | short _ ih => exact escape rfl (ih [] (List.forall_mem_nil _))
  | unit _ _ _ ih => exact escape rfl (ih [] (List.forall_mem_nil _))
  | @pair n m digits digits' spelled spelled' items s _ _ _ ih =>
    refine escape rfl ((ih [] (List.forall_mem_nil _)).trans ?_)
    -- there are no raw bytes between the two units
    rw [RunsWellFormed, RunsWellFormed, splitOnP_cons_escape rfl, List.forall_mem_cons]
    exact (and_iff_right Utf8.wellFormed_nil).symm

/-! ## Pairs -/

theorem not_isTrailing_of_isLeading {n : Nat} (leading : isLeading n) : isTrailing n = false := by
  simp [isLeading, isTrailing] at leading ⊢
  omega

theorem not_isLeading_of_isTrailing {n : Nat} (trailing : isTrailing n) : isLeading n = false := by
  rw [← Bool.not_eq_true]
  exact fun leading => nomatch (not_isTrailing_of_isLeading leading).symm.trans trailing

theorem Item.not_isTrailing_of_isLeading {i : Item} (leading : i.isLeading) :
    i.isTrailing = false := by
  cases i with
  | raw | short => rfl
  | unit => exact Json.not_isTrailing_of_isLeading leading

theorem Item.exists_unit_of_isTrailing {i : Item} (trailing : i.isTrailing) :
    ∃ n digits spelled, i = .unit n digits spelled ∧ Json.isTrailing n := by
  cases i with
  | raw | short => nomatch trailing
  | unit n digits spelled => exact ⟨n, digits, spelled, rfl, trailing⟩

theorem Paired.nil : Paired [] where
  followed _ _ there := nomatch there
  preceded _ _ there := nomatch there

/-- Behind an item that asks for no other, the surrogates are paired among themselves. -/
theorem Paired.of_append_cons (before : List Item) {i : Item} {items : List Item}
    (paired : Paired (before ++ i :: items)) (notLeading : i.isLeading = false) :
    Paired items := by
  have shift (k : Nat) : (before ++ i :: items)[before.length + 1 + k]? = items[k]? := by
    rw [Nat.add_assoc, List.getElem?_append_right (Nat.le_add_right _ _),
      Nat.add_sub_cancel_left, Nat.add_comm 1, List.getElem?_cons_succ]
  refine ⟨fun k j there leading => ?_, fun k j there trailing => ?_⟩
  · rw [← shift] at there
    obtain ⟨j', next, trailing⟩ := paired.followed _ j there leading
    exact ⟨j', (shift (k + 1)).symm.trans next, trailing⟩
  · rw [← shift] at there
    obtain ⟨l, i', place, previous, leading⟩ := paired.preceded _ j there trailing
    cases k with
    | zero =>
      obtain rfl : before.length = l := by omega
      rw [List.getElem?_append_right (Nat.le_refl _), Nat.sub_self] at previous
      obtain rfl := Option.some.inj previous
      nomatch notLeading.symm.trans leading
    | succ k =>
      obtain rfl : before.length + 1 + k = l := by omega
      exact ⟨k, i', rfl, (shift k).symm.trans previous, leading⟩

theorem Paired.cons {i : Item} {items : List Item} (paired : Paired items)
    (notLeading : i.isLeading = false) (notTrailing : i.isTrailing = false) :
    Paired (i :: items) where
  followed k j there leading := by
    cases k with
    | zero =>
      obtain rfl := Option.some.inj there
      nomatch notLeading.symm.trans leading
    | succ k => exact paired.followed k j there leading
  preceded k j there trailing := by
    cases k with
    | zero =>
      obtain rfl := Option.some.inj there
      nomatch notTrailing.symm.trans trailing
    | succ k =>
      obtain ⟨l, i', rfl, before, leading⟩ := paired.preceded k j there trailing
      exact ⟨l + 1, i', rfl, before, leading⟩

theorem Paired.pair {i j : Item} {items : List Item} (paired : Paired items)
    (leading : i.isLeading) (trailing : j.isTrailing) : Paired (i :: j :: items) where
  followed k i' there leading' := by
    match k with
    | 0 => exact ⟨j, rfl, trailing⟩
    | 1 =>
      obtain rfl := Option.some.inj there
      nomatch (Item.not_isTrailing_of_isLeading leading').symm.trans trailing
    | k + 2 => exact paired.followed k i' there leading'
  preceded k j' there trailing' := by
    match k with
    | 0 =>
      obtain rfl := Option.some.inj there
      nomatch (Item.not_isTrailing_of_isLeading leading).symm.trans trailing'
    | 1 => exact ⟨0, i, rfl, rfl, leading⟩
    | k + 2 =>
      obtain ⟨l, i', rfl, previous, leading'⟩ := paired.preceded k j' there trailing'
      exact ⟨l + 2, i', rfl, previous, leading'⟩

theorem Decodes.paired {items : List Item} {s : Bytes} (decodes : Decodes items s) :
    Paired items := by
  induction decodes with
  | nil => exact .nil
  | raw _ ih | short _ ih => exact ih.cons rfl rfl
  | unit notLeading notTrailing _ ih => exact ih.cons notLeading notTrailing
  | pair leading trailing _ ih => exact ih.pair leading trailing

/-- The items of a literal, one after another and surrogate pairs together, down to the end or to a
    surrogate without its partner. -/
theorem items_induction {motive : List Item → Prop} (nil : motive [])
    (raw : ∀ run nonempty plain items, motive items → motive (.raw run nonempty plain :: items))
    (short : ∀ letter c listed items, motive items → motive (.short letter c listed :: items))
    (unit : ∀ n digits spelled items, isLeading n = false → isTrailing n = false → motive items →
      motive (.unit n digits spelled :: items))
    (pair : ∀ n digits spelled m digits' spelled' items, isLeading n → isTrailing m → motive items →
      motive (.unit n digits spelled :: .unit m digits' spelled' :: items))
    (lone : ∀ n digits spelled items, isTrailing n ∨
      isLeading n ∧ (∀ j ∈ items.head?, j.isTrailing = false) →
        motive (.unit n digits spelled :: items))
    (items : List Item) : motive items := by
  cases items with
  | nil => exact nil
  | cons i items =>
    have others := items_induction nil raw short unit pair lone items
    cases i with
    | raw run nonempty plain => exact raw run nonempty plain items others
    | short letter c listed => exact short letter c listed items others
    | unit n digits spelled =>
      cases trailing : isTrailing n with
      | true => exact lone n digits spelled items (.inl trailing)
      | false =>
      cases leading : isLeading n with
      | false => exact unit n digits spelled items leading trailing others
      | true =>
        cases items with
        | nil => exact lone n digits spelled [] (.inr ⟨leading, nofun⟩)
        | cons j items =>
          cases partner : j.isTrailing with
          | false =>
            refine lone n digits spelled (j :: items) (.inr ⟨leading, fun j' first => ?_⟩)
            obtain rfl := Option.some.inj first
            exact partner
          | true =>
            obtain ⟨m, digits', spelled', rfl, trailing⟩ := Item.exists_unit_of_isTrailing partner
            exact pair n digits spelled m digits' spelled' items leading trailing
              (items_induction nil raw short unit pair lone items)
termination_by items.length

theorem exists_decodes_of_paired {items : List Item} (paired : Paired items) :
    ∃ s, Decodes items s := by
  induction items using items_induction with
  | nil => exact ⟨[], .nil⟩
  | raw run nonempty plain items ih =>
    obtain ⟨s, decodes⟩ := ih (paired.of_append_cons [] rfl)
    exact ⟨run ++ s, decodes.raw⟩
  | short letter c listed items ih =>
    obtain ⟨s, decodes⟩ := ih (paired.of_append_cons [] rfl)
    exact ⟨String.utf8EncodeChar c ++ s, decodes.short⟩
  | unit n digits spelled items notLeading notTrailing ih =>
    obtain ⟨s, decodes⟩ := ih (paired.of_append_cons [] notLeading)
    exact ⟨_, .unit notLeading notTrailing decodes⟩
  | pair n digits spelled m digits' spelled' items leading trailing ih =>
    obtain ⟨s, decodes⟩ := ih (paired.of_append_cons [_] (not_isLeading_of_isTrailing trailing))
    exact ⟨_, .pair leading trailing decodes⟩
  | lone n digits spelled items lone =>
    obtain trailing | ⟨leading, noPartner⟩ := lone
    · obtain ⟨l, i, place, -⟩ := paired.preceded 0 _ rfl trailing
      nomatch place
    · obtain ⟨j, next, trailing⟩ := paired.followed 0 _ rfl leading
      have first : j ∈ items.head? := by rwa [List.head?_eq_getElem?]
      nomatch (noPartner j first).symm.trans trailing

theorem paired_iff {items : List Item} : Paired items ↔ ∃ s, Decodes items s := by
  constructor
  · exact exists_decodes_of_paired
  · rintro ⟨s, decodes⟩
    exact decodes.paired

/-- A literal stands for a text where its raw runs are well-formed and its surrogates are in
    pairs. -/
theorem exists_decodes_iff {items : List Item} :
    (∃ text, Decodes items (Utf8.encode text)) ↔ RunsWellFormed items ∧ Paired items := by
  rw [paired_iff]
  constructor
  · rintro ⟨text, decodes⟩
    exact ⟨decodes.wellFormed_iff.mp ⟨text, rfl⟩, _, decodes⟩
  · rintro ⟨runs, s, decodes⟩
    obtain ⟨text, rfl⟩ := decodes.wellFormed_iff.mpr runs
    exact ⟨text, decodes⟩

/-! ## Reading -/

theorem readEscape_of_listed {letter : UInt8} {c : Char} (listed : (letter, c) ∈ shortEscapes)
    (s : Bytes) : readEscape (letter :: s) = .ok (c, s) := by
  simp only [readEscape, shortEscape?_of_mem listed]

theorem single_of_not {n : Nat} (notLeading : isLeading n = false)
    (notTrailing : isTrailing n = false) : n < 0xd800 ∨ 0xdfff < n := by
  simp [isLeading, isTrailing] at notLeading notTrailing
  omega

theorem readContent_of_decodes {items : List Item} {t : Bytes} (decodes : Decodes items t)
    (done s : Bytes) :
    readContent done (literal items ++ quote :: s) = .ok (done.reverse ++ t, s) := by
  have escape {w : Bytes} {c : Char} {items : List Item} {t : Bytes}
      (read : ∀ rest, readEscape (w ++ rest) = .ok (c, rest)) (others : ∀ done,
        readContent done (literal items ++ quote :: s) = .ok (done.reverse ++ t, s)) (done : Bytes) :
      readContent done (backslash :: (w ++ (literal items ++ quote :: s))) =
        .ok (done.reverse ++ (String.utf8EncodeChar c ++ t), s) := by
    rw [readContent_of_escape (read _), others, List.reverse_append, List.reverse_reverse,
      List.append_assoc]
  induction decodes generalizing done with
  | nil =>
    rw [List.append_nil]
    exact readContent_quote done s
  | @raw run nonempty plain items t _ ih =>
    rw [literal_cons, List.append_assoc, Item.written, readContent_raw plain, ih,
      List.reverse_append, List.reverse_reverse, List.append_assoc]
  | @short letter c listed items t _ ih =>
    exact escape (w := [letter]) (readEscape_of_listed listed) ih done
  | @unit n digits spelled items t notLeading notTrailing _ ih =>
    have read := readEscape_of_unit spelled (single_of_not notLeading notTrailing)
    rw [literal_cons, List.append_assoc]
    exact escape (w := 0x75 :: digits) read ih done
  | @pair n m digits digits' spelled spelled' items t leading trailing _ ih =>
    have read := readEscape_of_pair spelled spelled' leading trailing
    rw [literal_cons, literal_cons, ← List.append_assoc, List.append_assoc]
    exact escape (w := 0x75 :: (digits ++ backslash :: 0x75 :: digits')) read ih done

/-- A unit is the character itself or the first of a pair. -/
theorem readEscape_unit_cases {n : Nat} {w s rest : Bytes} {c : Char} (digits : UnitDigits n w)
    (read : readEscape (0x75 :: (w ++ s)) = .ok (c, rest)) :
    isTrailing n = false ∧
      (isLeading n → ∃ m left, readSecondUnit s = .ok (m, left) ∧ isTrailing m) := by
  simp only [readEscape, shortEscape?_unit, if_true, readUnicode,
    readUnit_of_unitDigits digits] at read
  cases trailing : isTrailing n with
  | true => simp [trailing] at read
  | false =>
    refine ⟨rfl, fun leading => ?_⟩
    simp only [trailing, leading, if_true, Bool.false_eq_true, if_false] at read
    cases second : readSecondUnit s with
    | error => simp [second] at read
    | ok pair =>
      refine ⟨pair.1, pair.2, rfl, ?_⟩
      by_contra lone
      simp [second, lone] at read

/-- Only another unit gives the second one of a pair. -/
theorem exists_unit_of_readSecondUnit {items : List Item} {m : Nat} {s left : Bytes}
    (read : readSecondUnit (literal items ++ quote :: s) = .ok (m, left)) :
    ∃ digits spelled others, items = .unit m digits spelled :: others := by
  have unpaired {b : UInt8} {t : Bytes} (other : b ≠ backslash) :
      readSecondUnit (b :: t) = .error .unpairedEscape := by
    rw [readSecondUnit, readPairing, if_neg other]
  cases items with
  | nil => cases read.symm.trans (unpaired (by decide))
  | cons i items =>
    rw [literal_cons, List.append_assoc] at read
    cases i with
    | raw run nonempty plain =>
      obtain ⟨b, run, rfl⟩ := List.exists_cons_of_ne_nil nonempty
      cases read.symm.trans (unpaired (plain b List.mem_cons_self).2.1)
    | short letter c listed =>
      have other : ∀ p ∈ shortEscapes, p.1 ≠ 0x75 := by decide
      simp [Item.written, readSecondUnit, readPairing, other _ listed] at read
    | unit n digits spelled =>
      simp [Item.written, readSecondUnit, readPairing, readUnit_of_unitDigits spelled] at read
      obtain ⟨rfl, -⟩ := read
      exact ⟨digits, spelled, items, rfl⟩

theorem Decodes.unique {items : List Item} {t t' : Bytes} (decodes : Decodes items t)
    (again : Decodes items t') : t = t' := by
  have same := (readContent_of_decodes decodes [] []).symm.trans (readContent_of_decodes again [] [])
  exact (Prod.mk.inj (Except.ok.inj same)).1

theorem exists_decodes_of_readContent {items : List Item} {done content s rest : Bytes}
    (read : readContent done (literal items ++ quote :: s) = .ok (content, rest)) :
    ∃ t, Decodes items t := by
  have behind {w left : Bytes} {c : Char} (escape : readEscape w = .ok (c, left)) (done : Bytes)
      (read : readContent done (backslash :: w) = .ok (content, rest)) :
      readContent ((String.utf8EncodeChar c).reverse ++ done) left = .ok (content, rest) :=
    (readContent_of_escape escape done).symm.trans read
  induction items using items_induction generalizing done with
  | nil => exact ⟨[], .nil⟩
  | raw run nonempty plain items ih =>
    rw [literal_cons, List.append_assoc, Item.written, readContent_raw plain] at read
    obtain ⟨t, decodes⟩ := ih read
    exact ⟨run ++ t, decodes.raw⟩
  | short letter c listed items ih =>
    obtain ⟨t, decodes⟩ := ih (behind (readEscape_of_listed listed _) done read)
    exact ⟨String.utf8EncodeChar c ++ t, decodes.short⟩
  | unit n digits spelled items notLeading notTrailing ih =>
    have escape := readEscape_of_unit spelled (single_of_not notLeading notTrailing)
    rw [literal_cons, List.append_assoc] at read
    obtain ⟨t, decodes⟩ := ih (behind (escape _) done read)
    exact ⟨_, .unit notLeading notTrailing decodes⟩
  | pair n digits spelled m digits' spelled' items leading trailing ih =>
    have escape := readEscape_of_pair spelled spelled' leading trailing
    rw [literal_cons, literal_cons, ← List.append_assoc, List.append_assoc] at read
    obtain ⟨t, decodes⟩ := ih (behind (escape _) done read)
    exact ⟨_, .pair leading trailing decodes⟩
  | lone n digits spelled items lone =>
    rw [literal_cons, List.append_assoc] at read
    obtain ⟨c, left, escape⟩ := exists_of_readContent_escape read
    obtain ⟨notTrailing, second⟩ := readEscape_unit_cases spelled escape
    obtain trailing | ⟨leading, noPartner⟩ := lone
    · nomatch notTrailing.symm.trans trailing
    · obtain ⟨m, _, second, trailing⟩ := second leading
      obtain ⟨digits', spelled', others, rfl⟩ := exists_unit_of_readSecondUnit second
      nomatch (noPartner _ rfl).symm.trans trailing

theorem readContent_literal_iff {items : List Item} {done content s rest : Bytes} :
    readContent done (literal items ++ quote :: s) = .ok (content, rest) ↔
      ∃ t, Decodes items t ∧ content = done.reverse ++ t ∧ rest = s := by
  constructor
  · intro read
    obtain ⟨t, decodes⟩ := exists_decodes_of_readContent read
    obtain ⟨rfl, rfl⟩ := Prod.mk.inj
      (Except.ok.inj (read.symm.trans (readContent_of_decodes decodes done s)))
    exact ⟨t, decodes, rfl, rfl⟩
  · rintro ⟨t, decodes, rfl, rfl⟩
    exact readContent_of_decodes decodes done rest

theorem readText_eq_ok_iff {text : String} {s rest : Bytes} :
    readText s = .ok (text, rest) ↔ readContent [] s = .ok (Utf8.encode text, rest) := by
  rw [readText]
  cases readContent [] s with
  | error => simp
  | ok pair =>
    obtain ⟨content, left⟩ := pair
    simp only [Except.ok.injEq, Prod.mk.injEq, ← Utf8.decode?_eq_some_iff]
    cases Utf8.decode? content <;> simp

/-- A literal is read as the text that it stands for, up to its quote. -/
theorem readText_literal_iff {items : List Item} {text : String} {s rest : Bytes} :
    readText (literal items ++ quote :: s) = .ok (text, rest) ↔
      Decodes items (Utf8.encode text) ∧ rest = s := by
  rw [readText_eq_ok_iff, readContent_literal_iff]
  constructor
  · rintro ⟨t, decodes, rfl, left⟩
    exact ⟨decodes, left⟩
  · rintro ⟨decodes, left⟩
    exact ⟨_, decodes, rfl, left⟩

end ReplicatedKv.Json
