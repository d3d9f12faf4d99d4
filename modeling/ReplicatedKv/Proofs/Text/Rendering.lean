import Mathlib.Data.List.Forall2
import Mathlib.Data.Set.List
import ReplicatedKv.Proofs.Text.Sequences

/-! # Readable text of raw bytes

A byte string falls into encoded characters and maximal ill-formed parts in one way only, and its
readable text has the characters and one U+FFFD for every ill-formed part.

* `IsTruncated`, `MaximalPart`, `FirstPart`, `Splits` — the parts of a byte string, said without the
  table of lead bytes.
* `firstPart_firstPiece`, `splits_iff` — `split` finds these parts, and there are no others.
* `split_append` — bytes before a text, and the text, are split on their own.
* `WellFormed`, `wellFormed_iff` — byte strings that encode a text have no ill-formed part.
* `ShownAs` — the character for a part.
* `Rendering`, `rendering_decodeLossy` — what readable text is.
-/

namespace ReplicatedKv.Utf8

/-! ## Parts -/

/-- A beginning of an encoded character, but neither nothing nor the whole of it. -/
def IsTruncated (part : Bytes) : Prop :=
  part ≠ [] ∧ ∃ c, part <+: String.utf8EncodeChar c ∧ part ≠ String.utf8EncodeChar c

/-- The ill-formed part at the front of a byte string where no encoded character stands: the longest
    truncated one that stands there, or else a single byte. -/
inductive MaximalPart (s : Bytes) : Bytes → Prop where
  | truncated {part : Bytes} : IsTruncated part → part <+: s →
      (∀ other, IsTruncated other → other <+: s → other.length ≤ part.length) → MaximalPart s part
  | single {b : UInt8} : [b] <+: s → (∀ part, IsTruncated part → ¬ part <+: s) → MaximalPart s [b]

/-- The part at the front of a byte string, and what is behind it. -/
inductive FirstPart (s : Bytes) : Piece → Bytes → Prop where
  | scalar {c : Char} {rest : Bytes} : s = String.utf8EncodeChar c ++ rest →
      FirstPart s (.scalar c) rest
  | illFormed {part rest : Bytes} : s = part ++ rest → (∀ c, ¬ String.utf8EncodeChar c <+: s) →
      MaximalPart s part → FirstPart s (.illFormed part) rest

/-- The parts of a byte string from left to right. -/
inductive Splits : Bytes → List Piece → Prop where
  | nil : Splits [] []
  | cons {s rest : Bytes} {piece : Piece} {pieces : List Piece} : FirstPart s piece rest →
      Splits rest pieces → Splits s (piece :: pieces)

variable {s t rest part other : Bytes} {piece : Piece} {pieces : List Piece}

/-! ## One way only -/

theorem MaximalPart.isPrefix (maximal : MaximalPart s part) : part <+: s := by
  cases maximal with
  | truncated _ front => exact front
  | single front => exact front

theorem MaximalPart.ne_nil (maximal : MaximalPart s part) : part ≠ [] := by
  cases maximal with
  | truncated truncated => exact truncated.1
  | single => exact List.cons_ne_nil _ _

theorem MaximalPart.unique (maximal : MaximalPart s part) (again : MaximalPart s other) :
    part = other := by
  have sameLength : part.length = other.length := by
    cases maximal with
    | truncated truncated front longest =>
      cases again with
      | truncated truncated' front' longest' =>
        exact Nat.le_antisymm (longest' _ truncated front) (longest _ truncated' front')
      | single _ none => exact absurd front (none _ truncated)
    | single front none =>
      cases again with
      | truncated truncated front' => exact absurd front' (none _ truncated)
      | single => rfl
  have front := List.prefix_of_prefix_length_le maximal.isPrefix again.isPrefix
    (Nat.le_of_eq sameLength)
  exact front.eq_of_length sameLength

theorem FirstPart.ne_nil (first : FirstPart s piece rest) : s ≠ [] := by
  cases first with
  | @scalar c _ whole =>
    obtain ⟨b, following, -, encoded, -⟩ := exists_lead_utf8EncodeChar c
    rw [whole, encoded]
    exact List.cons_ne_nil _ _
  | illFormed whole _ maximal =>
    rw [whole]
    exact List.append_ne_nil_of_left_ne_nil maximal.ne_nil _

theorem FirstPart.unique {piece' : Piece} {rest' : Bytes} (first : FirstPart s piece rest)
    (again : FirstPart s piece' rest') : piece = piece' ∧ rest = rest' := by
  cases first with
  | @scalar c _ whole =>
    cases again with
    | @scalar c' _ whole' =>
      have same : (.scalar c :: split rest) = (.scalar c' :: split rest') := by
        rw [← split_utf8EncodeChar, ← split_utf8EncodeChar, ← whole, ← whole']
      obtain rfl := Piece.scalar.inj (List.cons.inj same).1
      exact ⟨rfl, List.append_cancel_left (whole.symm.trans whole')⟩
    | illFormed _ noChar => exact absurd ⟨rest, whole.symm⟩ (noChar c)
  | illFormed whole noChar maximal =>
    cases again with
    | @scalar c _ whole' => exact absurd ⟨rest', whole'.symm⟩ (noChar c)
    | illFormed whole' _ maximal' =>
      obtain rfl := maximal.unique maximal'
      exact ⟨rfl, List.append_cancel_left (whole.symm.trans whole')⟩

theorem Splits.unique {pieces' : List Piece} (splits : Splits s pieces)
    (again : Splits s pieces') : pieces = pieces' := by
  induction splits generalizing pieces' with
  | nil =>
    cases again with
    | nil => rfl
    | cons first => exact absurd rfl first.ne_nil
  | cons first _ ih =>
    cases again with
    | nil => exact absurd rfl first.ne_nil
    | cons first' others =>
      obtain ⟨rfl, rfl⟩ := first.unique first'
      rw [ih others]

/-! ## Splitting -/

/-- Where no encoded character stands, a beginning of one is truncated. -/
theorem isTruncated_iff_of_noChar (noChar : ∀ c, ¬ String.utf8EncodeChar c <+: s)
    (front : part <+: s) :
    IsTruncated part ↔ part ≠ [] ∧ ∃ c, part <+: String.utf8EncodeChar c := by
  constructor
  · rintro ⟨nonempty, c, begins, -⟩
    exact ⟨nonempty, c, begins⟩
  · rintro ⟨nonempty, c, begins⟩
    refine ⟨nonempty, c, begins, ?_⟩
    rintro rfl
    exact noChar c front

theorem fitting_le (ranges : List Range) (s : Bytes) :
    fitting ranges s ≤ ranges.length ∧ fitting ranges s ≤ s.length := by
  fun_induction fitting ranges s with
  | case1 => simp only [List.length_cons]; omega
  | case2 => exact ⟨Nat.zero_le _, Nat.zero_le _⟩
  | case3 => exact ⟨Nat.zero_le _, Nat.zero_le _⟩

/-- What stands at the front begins an encoded character as long as it fits what the lead byte
    announces. -/
theorem begins_iff {b : UInt8} (front : part <+: b :: s) (nonempty : part ≠ []) :
    (∃ c, part <+: String.utf8EncodeChar c) ↔
      ∃ lead, lead? b = some lead ∧ part.length ≤ fitting lead.following s + 1 := by
  obtain rfl | ⟨q, rfl, inside⟩ := List.prefix_cons_iff.mp front
  · exact absurd rfl nonempty
  · simp only [exists_prefix_utf8EncodeChar_iff inside, List.length_cons,
      Nat.add_le_add_iff_right]

/-- An encoded character at the front takes all the bytes that its lead byte announces. -/
theorem exists_lead_of_prefix {b : UInt8} {c : Char}
    (standing : String.utf8EncodeChar c <+: b :: s) :
    ∃ lead, lead? b = some lead ∧ lead.following.length ≤ fitting lead.following s := by
  obtain ⟨b', following, lead, encoded, found, holds, -⟩ := exists_lead_utf8EncodeChar c
  rw [encoded] at standing
  obtain ⟨rfl, front⟩ := List.cons_prefix_cons.mp standing
  refine ⟨lead, found, ?_⟩
  rw [holds.length_eq, length_le_fitting_iff front, ← holds.length_eq, List.take_length]
  exact holds

theorem firstPart_of_noLead {b : UInt8} (found : lead? b = none) :
    FirstPart (b :: s) (.illFormed [b]) s := by
  have noChar (c : Char) : ¬ String.utf8EncodeChar c <+: b :: s := by
    intro standing
    obtain ⟨lead, again, -⟩ := exists_lead_of_prefix standing
    nomatch found.symm.trans again
  refine .illFormed rfl noChar (.single ⟨s, rfl⟩ fun part truncated front => ?_)
  obtain ⟨nonempty, c, begins, -⟩ := truncated
  obtain ⟨lead, again, -⟩ := (begins_iff front nonempty).mp ⟨c, begins⟩
  nomatch found.symm.trans again

theorem firstPart_of_complete {b : UInt8} {lead : Lead} (found : lead? b = some lead)
    (complete : fitting lead.following s = lead.following.length) :
    FirstPart (b :: s)
      (.scalar (Char.ofNat (codePoint lead.bits (s.take (fitting lead.following s)))))
      (s.drop (fitting lead.following s)) := by
  obtain ⟨-, inside⟩ := fitting_le lead.following s
  have holds := (length_le_fitting_iff (List.take_prefix (fitting lead.following s) s)).mp
    (List.length_take_le _ s)
  rw [List.length_take, Nat.min_eq_left inside,
    List.take_of_length_le (Nat.le_of_eq complete.symm)] at holds
  refine .scalar ?_
  rw [utf8EncodeChar_of_holds found holds, List.cons_append, List.take_append_drop]

theorem firstPart_of_incomplete {b : UInt8} {lead : Lead} (found : lead? b = some lead)
    (incomplete : fitting lead.following s ≠ lead.following.length) :
    FirstPart (b :: s) (.illFormed (b :: s.take (fitting lead.following s)))
      (s.drop (fitting lead.following s)) := by
  obtain ⟨few, inside⟩ := fitting_le lead.following s
  have front : b :: s.take (fitting lead.following s) <+: b :: s :=
    List.cons_prefix_cons.mpr ⟨rfl, List.take_prefix _ s⟩
  have length :
      (b :: s.take (fitting lead.following s)).length = fitting lead.following s + 1 := by
    rw [List.length_cons, List.length_take, Nat.min_eq_left inside]
  have noChar (c : Char) : ¬ String.utf8EncodeChar c <+: b :: s := by
    intro standing
    obtain ⟨lead', again, long⟩ := exists_lead_of_prefix standing
    obtain rfl := Option.some.inj (found.symm.trans again)
    exact incomplete (Nat.le_antisymm few long)
  have truncated : IsTruncated (b :: s.take (fitting lead.following s)) :=
    (isTruncated_iff_of_noChar noChar front).mpr ⟨List.cons_ne_nil _ _,
      (begins_iff front (List.cons_ne_nil _ _)).mpr ⟨lead, found, Nat.le_of_eq length⟩⟩
  have whole : b :: s =
      b :: s.take (fitting lead.following s) ++ s.drop (fitting lead.following s) := by
    rw [List.cons_append, List.take_append_drop]
  refine .illFormed whole noChar (.truncated truncated front fun other truncated front => ?_)
  obtain ⟨nonempty, c, begins, -⟩ := truncated
  obtain ⟨lead', again, short⟩ := (begins_iff front nonempty).mp ⟨c, begins⟩
  obtain rfl := Option.some.inj (found.symm.trans again)
  rwa [length]

theorem firstPart_firstPiece (b : UInt8) (s : Bytes) :
    FirstPart (b :: s) (firstPiece b s).1 (s.drop (firstPiece b s).2) := by
  rw [firstPiece]
  split
  next found => exact firstPart_of_noLead found
  next lead found =>
    dsimp only
    split
    next complete => exact firstPart_of_complete found complete
    next incomplete => exact firstPart_of_incomplete found incomplete

theorem splits_split (s : Bytes) : Splits s (split s) := by
  fun_induction split s with
  | case1 => exact .nil
  | case2 b s ih => exact .cons (firstPart_firstPiece b s) ih

theorem splits_iff : Splits s pieces ↔ pieces = split s := by
  constructor
  · intro splits
    exact splits.unique (splits_split s)
  · rintro rfl
    exact splits_split s

/-! ## Text after raw bytes -/

/-- The byte string is empty or begins with an encoded character. -/
def StartsWhole (t : Bytes) : Prop := t = [] ∨ ∃ c rest, t = String.utf8EncodeChar c ++ rest

theorem startsWhole_encode (t : String) : StartsWhole (encode t) := by
  rw [encode]
  cases t.toList with
  | nil => exact .inl rfl
  | cons c chars => exact .inr ⟨c, _, List.flatMap_cons⟩

/-- No encoded character begins before a text and reaches into it. -/
theorem prefix_of_prefix_append {c : Char} (nonempty : s ≠ []) (whole : StartsWhole t)
    (begins : part <+: String.utf8EncodeChar c) (front : part <+: s ++ t) : part <+: s := by
  obtain within | ⟨beyond, rfl⟩ := List.prefix_or_prefix_of_prefix front (List.prefix_append s t)
  · exact within
  obtain rfl | ⟨c', rest, rfl⟩ := whole
  · rwa [List.append_nil] at front
  -- the first byte of the text would be a lead byte inside the character
  obtain ⟨b', following', lead, encoded', found, -⟩ := exists_lead_utf8EncodeChar c'
  rw [encoded', List.cons_append, List.prefix_append_right_inj, List.prefix_cons_iff] at front
  obtain rfl | ⟨more, rfl, -⟩ := front
  · simp
  · obtain ⟨b, q, rfl⟩ := List.exists_cons_of_ne_nil nonempty
    obtain ⟨tail, encoded⟩ := begins
    have inside : b' ∈ q ++ b' :: more ++ tail := by simp
    nomatch found.symm.trans (lead?_of_mem encoded.symm inside)

theorem MaximalPart.append (nonempty : s ≠ []) (whole : StartsWhole t)
    (maximal : MaximalPart s part) : MaximalPart (s ++ t) part := by
  have within (other : Bytes) (truncated : IsTruncated other) (front : other <+: s ++ t) :
      other <+: s := by
    obtain ⟨-, c, begins, -⟩ := truncated
    exact prefix_of_prefix_append nonempty whole begins front
  cases maximal with
  | truncated truncated front longest =>
    exact .truncated truncated (front.trans (List.prefix_append s t)) fun other truncated front =>
      longest other truncated (within other truncated front)
  | single front none =>
    exact .single (front.trans (List.prefix_append s t)) fun other truncated front =>
      none other truncated (within other truncated front)

theorem FirstPart.append (whole : StartsWhole t) (first : FirstPart s piece rest) :
    FirstPart (s ++ t) piece (rest ++ t) := by
  have nonempty := first.ne_nil
  cases first with
  | scalar parts => exact .scalar (by rw [parts, List.append_assoc])
  | illFormed parts noChar maximal =>
    refine .illFormed (by rw [parts, List.append_assoc]) (fun c standing => ?_)
      (maximal.append nonempty whole)
    exact noChar c (prefix_of_prefix_append nonempty whole (List.prefix_refl _) standing)

theorem Splits.append {others : List Piece} (whole : StartsWhole t) (splits : Splits s pieces)
    (after : Splits t others) : Splits (s ++ t) (pieces ++ others) := by
  induction splits with
  | nil => exact after
  | cons first _ ih => exact .cons (first.append whole) ih

theorem split_append (whole : StartsWhole t) (s : Bytes) : split (s ++ t) = split s ++ split t :=
  (splits_iff.mp ((splits_split s).append whole (splits_split t))).symm

theorem split_encode_append (t : String) (s : Bytes) :
    split (encode t ++ s) = t.toList.map .scalar ++ split s := by
  rw [encode]
  induction t.toList with
  | nil => rfl
  | cons c chars ih =>
    rw [List.flatMap_cons, List.append_assoc, split_utf8EncodeChar, ih, List.map_cons,
      List.cons_append]

/-! ## Well-formed byte strings -/

/-- The byte string is the encoding of a text. -/
def WellFormed (s : Bytes) : Prop := ∃ t : String, s = encode t

theorem Splits.eq_of_scalars {chars : List Char} (splits : Splits s (chars.map .scalar)) :
    s = chars.flatMap String.utf8EncodeChar := by
  induction chars generalizing s with
  | nil =>
    cases splits
    rfl
  | cons c chars ih =>
    cases splits with
    | cons first others =>
      cases first with
      | scalar parts => rw [parts, ih others, List.flatMap_cons]

theorem split_eq_map_scalar_iff {t : String} : split s = t.toList.map .scalar ↔ s = encode t := by
  constructor
  · intro scalars
    exact (splits_iff.mpr scalars.symm).eq_of_scalars
  · rintro rfl
    exact split_encode t

theorem wellFormed_iff : WellFormed s ↔ ∀ piece ∈ split s, ∃ c, piece = .scalar c := by
  constructor
  · rintro ⟨t, rfl⟩ piece member
    rw [split_encode] at member
    obtain ⟨c, -, rfl⟩ := List.mem_map.mp member
    exact ⟨c, rfl⟩
  · intro scalars
    have inRange : split s ∈ Set.range (List.map Piece.scalar) := by
      rw [Set.range_list_map]
      exact fun piece member => (scalars piece member).imp fun _ => Eq.symm
    obtain ⟨chars, parts⟩ := inRange
    refine ⟨String.ofList chars, split_eq_map_scalar_iff.mp ?_⟩
    rw [← parts, String.toList_ofList]

theorem wellFormed_nil : WellFormed [] := ⟨"", rfl⟩

/-- A character cuts a byte string in two that are well-formed or not on their own. -/
theorem wellFormed_append_char_iff {c : Char} :
    WellFormed (s ++ (String.utf8EncodeChar c ++ t)) ↔ WellFormed s ∧ WellFormed t := by
  rw [wellFormed_iff, split_append (.inr ⟨c, t, rfl⟩), split_utf8EncodeChar,
    List.forall_mem_append, List.forall_mem_cons, ← wellFormed_iff, ← wellFormed_iff]
  exact and_congr_right fun _ => and_iff_right ⟨c, rfl⟩

theorem eq_map_scalar_of_mapM {chars : List Char}
    (all : pieces.mapM Piece.scalar? = some chars) : pieces = chars.map .scalar := by
  induction pieces generalizing chars with
  | nil =>
    obtain rfl := Option.some.inj all
    rfl
  | cons piece pieces ih =>
    rw [List.mapM_cons] at all
    cases piece with
    | illFormed => nomatch all
    | scalar c =>
      cases others : pieces.mapM Piece.scalar? with
      | none => simp [Piece.scalar?, others] at all
      | some chars' =>
        have whole : c :: chars' = chars := by simpa [Piece.scalar?, others] using all
        rw [← whole, List.map_cons, ih others]

theorem decode?_eq_some_iff {t : String} : decode? s = some t ↔ s = encode t := by
  constructor
  · intro read
    obtain ⟨chars, all, rfl⟩ := Option.map_eq_some_iff.mp read
    rw [← split_eq_map_scalar_iff, String.toList_ofList]
    exact eq_map_scalar_of_mapM all
  · rintro rfl
    exact decode?_encode t

/-! ## Readable text -/

theorem decodeLossy_append (whole : StartsWhole t) (s : Bytes) :
    decodeLossy (s ++ t) = decodeLossy s ++ decodeLossy t := by
  rw [decodeLossy, split_append whole, List.map_append, String.ofList_append]
  rfl

theorem map_shown_scalar (chars : List Char) :
    (chars.map Piece.scalar).map Piece.shown = chars := by
  rw [List.map_map]
  exact List.map_id chars

theorem decodeLossy_encode_append (t : String) (s : Bytes) :
    decodeLossy (encode t ++ s) = t ++ decodeLossy s := by
  rw [decodeLossy, split_encode_append, List.map_append, map_shown_scalar, String.ofList_append,
    String.ofList_toList]
  rfl

theorem decodeLossy_encode (t : String) : decodeLossy (encode t) = t := by
  rw [decodeLossy, split_encode, map_shown_scalar, String.ofList_toList]

/-- An encoded character is shown as itself, an ill-formed part as the replacement character. -/
inductive ShownAs : Piece → Char → Prop where
  | scalar (c : Char) : ShownAs (.scalar c) c
  | illFormed (part : Bytes) : ShownAs (.illFormed part) (Char.ofNat 0xfffd)

theorem shownAs_shown (piece : Piece) : ShownAs piece piece.shown := by
  cases piece with
  | scalar c => exact .scalar c
  | illFormed part => exact .illFormed part

theorem forall₂_shownAs (pieces : List Piece) :
    List.Forall₂ ShownAs pieces (pieces.map Piece.shown) := by
  rw [List.forall₂_map_right_iff, List.forall₂_same]
  exact fun piece _ => shownAs_shown piece

/-- What is asked of the readable text of raw bytes. -/
structure Rendering (render : Bytes → String) : Prop where
  encoded (t : String) : render (encode t) = t
  encoded_append (t : String) (s : Bytes) : render (encode t ++ s) = t ++ render s
  append_encoded (s : Bytes) (t : String) : render (s ++ encode t) = render s ++ t
  /-- One character for every part, in order, of the only way to split. -/
  splits (s : Bytes) : ∃ pieces, Splits s pieces ∧ (∀ others, Splits s others → others = pieces) ∧
    List.Forall₂ ShownAs pieces (render s).toList
  encode_eq_iff (s : Bytes) : encode (render s) = s ↔ WellFormed s

theorem rendering_decodeLossy : Rendering decodeLossy where
  encoded := decodeLossy_encode
  encoded_append := decodeLossy_encode_append
  append_encoded s t := by rw [decodeLossy_append (startsWhole_encode t), decodeLossy_encode]
  splits s := by
    refine ⟨split s, splits_split s, fun _ => splits_iff.mp, ?_⟩
    rw [decodeLossy, String.toList_ofList]
    exact forall₂_shownAs (split s)
  encode_eq_iff s := by
    constructor
    · intro same
      exact ⟨decodeLossy s, same.symm⟩
    · rintro ⟨t, rfl⟩
      rw [decodeLossy_encode]

/-- A sequence cut by a letter, a form that is longer than needed, a surrogate, and the beginning of
    a number that is too large, with characters between them. -/
def mixedBytes : Bytes :=
  [0x61, 0xe2, 0x82, 0x41, 0xc0, 0x80, 0xed, 0xa0, 0x80, 0xf0, 0x9f, 0x98, 0x80, 0xf4, 0x90]

def mixedPieces : List Piece :=
  [.scalar 'a', .illFormed [0xe2, 0x82], .scalar 'A', .illFormed [0xc0], .illFormed [0x80],
    .illFormed [0xed], .illFormed [0xa0], .illFormed [0x80], .scalar '😀', .illFormed [0xf4],
    .illFormed [0x90]]

def mixedText : String := "a\ufffdA\ufffd\ufffd\ufffd\ufffd\ufffd😀\ufffd\ufffd"

theorem rendering_decodeLossy_mixedBytes :
    Splits mixedBytes mixedPieces ∧ List.Forall₂ ShownAs mixedPieces mixedText.toList ∧
      decodeLossy mixedBytes = mixedText ∧ ¬ WellFormed mixedBytes := by
  have parts : mixedPieces = split mixedBytes := by decide +kernel
  have text : decodeLossy mixedBytes = mixedText := by decide +kernel
  obtain ⟨pieces, splits, only, shown⟩ := rendering_decodeLossy.splits mixedBytes
  obtain rfl := only mixedPieces (splits_iff.mpr parts)
  rw [text] at shown
  refine ⟨splits, shown, text, fun whole => ?_⟩
  have same := (rendering_decodeLossy.encode_eq_iff mixedBytes).mpr whole
  rw [text] at same
  exact absurd same (by decide)

end ReplicatedKv.Utf8
