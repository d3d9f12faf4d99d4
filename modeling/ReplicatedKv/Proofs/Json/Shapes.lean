import ReplicatedKv.Proofs.Json.Fields
import ReplicatedKv.Proofs.Json.Skip

/-! # Shapes

A reader accepts a value by its shape alone: which values, and as what, depends on the tree and not
on how it is written.

* `Reader.Recognizes` — a reader takes every spelling of a tree of its shape, and of no other.
* `recognizes_text`, `recognizes_list`, `recognizes_record` — the readers of strings, lists and
  records.
* `Recognizes.document_iff` — whole documents.
-/

namespace ReplicatedKv.Json

variable {α β : Type} {n : Nat}

namespace Reader

/-- Whatever stands around a spelled value, the reader takes the value if the tree has a shape, as
    what the shape says, and fails if it has none. -/
def Recognizes (r : Reader α) (Shape : Tree → α → Prop) : Prop :=
  ∀ ⦃t : Tree⦄ ⦃w : Bytes⦄, Spelling t w → ∀ ⦃u : Bytes⦄, Blanks u → ∀ (s rest : Bytes) (a : α),
    r.run (u ++ (w ++ s)) = .ok (a, rest) ↔ Shape t a ∧ rest = s

variable {r : Reader α} {Shape : Tree → α → Prop} {u v s rest : Bytes}

theorem Recognizes.congr {Shape' : Tree → α → Prop} (recognizes : r.Recognizes Shape)
    (same : ∀ t a, Shape t a ↔ Shape' t a) : r.Recognizes Shape' := by
  intro t w spelled u blanks s rest a
  rw [← same]
  exact recognizes spelled blanks s rest a

theorem run_map_eq_ok_iff {f : α → β} {b : β} :
    (r.map f).run s = .ok (b, rest) ↔ ∃ a, r.run s = .ok (a, rest) ∧ f a = b := by
  rw [run_map]
  cases r.run s with
  | error => simp [Except.map]
  | ok pair => simp [Except.map, Prod.ext_iff, and_comm]

theorem Recognizes.map (recognizes : r.Recognizes Shape) (f : α → β) :
    (r.map f).Recognizes fun t b => ∃ a, Shape t a ∧ f a = b := by
  intro t w spelled u blanks s rest b
  rw [run_map_eq_ok_iff]
  constructor
  · rintro ⟨a, read, value⟩
    obtain ⟨shape, left⟩ := (recognizes spelled blanks s rest a).mp read
    exact ⟨⟨a, shape, value⟩, left⟩
  · rintro ⟨⟨a, shape, value⟩, left⟩
    exact ⟨a, (recognizes spelled blanks s rest a).mpr ⟨shape, left⟩, value⟩

/-! ## Strings -/

theorem runText_append {b : UInt8} (blanks : Blanks u) (visible : isBlank b = false) :
    runText (u ++ b :: s) =
      if b = quote then readText s else .error (wrongKind "a string" b s) := by
  rw [runText, dropBlank_append_cons blanks visible]

theorem recognizes_text : text.Recognizes fun t a => t = .text a := by
  intro t w spelled u blanks s rest a
  obtain ⟨b, v, rfl, starts⟩ := spelled.exists_cons
  rw [run_text, List.cons_append, runText_append blanks starts.visible.1]
  by_cases is : b = quote
  · obtain ⟨x, rfl⟩ := starts.kind.1 is
    cases spelled with
    | text spelled =>
      obtain ⟨m, same, read, -⟩ := spelled.exists_content
      obtain ⟨rfl, rfl⟩ := List.cons.inj same
      rw [if_pos rfl, List.append_assoc, List.singleton_append, read]
      simp [eq_comm]
  · rw [if_neg is]
    refine ⟨nofun, ?_⟩
    rintro ⟨rfl, -⟩
    exact absurd starts is

/-! ## Lists -/

theorem nextElement_closing (isFirst : Bool) (blanks : Blanks v) (s : Bytes) :
    nextElement isFirst (v ++ closeList :: s) = .ok (.closed s) := by
  rw [nextElement, dropBlank_append_cons blanks (by decide)]
  rfl

theorem nextElement_part {isFirst : Bool} {b : UInt8} (separator : Separator isFirst u)
    (element : isBlank b = false ∧ b ≠ closeList) (s : Bytes) :
    nextElement isFirst (u ++ b :: s) = .ok (.part (b :: s)) := by
  obtain ⟨visible, part⟩ := element
  cases separator with
  | first blanks =>
    rw [nextElement, dropBlank_append_cons blanks visible]
    simp only [if_neg part, if_true]
  | comma before after =>
    rw [List.append_assoc, List.cons_append, nextElement,
      dropBlank_append_cons before (by decide)]
    simp only [dropBlank_append_cons after visible, if_neg part]
    rfl

/-- Where another element stands, the list does not end. -/
theorem dropBlank_separator_ne {isFirst : Bool} {b : UInt8} (separator : Separator isFirst u)
    (element : isBlank b = false ∧ b ≠ closeList) :
    dropBlank (u ++ b :: s) ≠ closeList :: rest := by
  intro closing
  cases separator with
  | first blanks =>
    rw [dropBlank_append_cons blanks element.1] at closing
    exact element.2 (List.cons.inj closing).1
  | comma before =>
    rw [List.append_assoc, List.cons_append, dropBlank_append_cons before (by decide)] at closing
    exact absurd (List.cons.inj closing).1 (by decide)

theorem elements_of_closed {isFirst : Bool}
    (next : nextElement isFirst s = .ok (.closed rest)) :
    elements r isFirst s = .ok ([], rest) := by
  rw [elements]
  split
  next fault failed => rw [next] at failed; cases failed
  next rest' again => rw [next] at again; cases again; rfl
  next part => rw [next] at part; cases part

theorem elements_of_part_iff {isFirst : Bool} {t : Bytes} {as : List α}
    (next : nextElement isFirst s = .ok (.part t)) :
    elements r isFirst s = .ok (as, rest) ↔
      ∃ a others v, r.run t = .ok (a, v) ∧ elements r false v = .ok (others, rest) ∧
        a :: others = as := by
  rw [elements]
  split
  next fault failed => rw [next] at failed; cases failed
  next closed => rw [next] at closed; cases closed
  next t' again =>
    rw [next] at again
    cases again
    split
    next fault failed => simp [failed]
    next a v taken =>
      split
      next fault failed => simp [taken, failed]
      next others rest' found => simp [taken, found, and_comm]

theorem elements_iff (recognizes : r.Recognizes Shape) {isFirst : Bool} {ts : List Tree}
    {w : Bytes} (spelled : Elements isFirst ts w) (blanks : Blanks v) {as : List α} :
    elements r isFirst (w ++ (v ++ closeList :: s)) = .ok (as, rest) ↔
      List.Forall₂ Shape ts as ∧ rest = s := by
  induction ts generalizing isFirst w as with
  | nil =>
    cases spelled
    rw [List.nil_append, elements_of_closed (nextElement_closing isFirst blanks s),
      List.forall₂_nil_left_iff]
    simp [eq_comm]
  | cons t ts ih =>
    cases spelled with
    | @cons _ _ _ u w x separator spelled others =>
      obtain ⟨b, y, rfl, starts⟩ := spelled.exists_cons
      have next := nextElement_part separator starts.visible
        (y ++ (x ++ (v ++ closeList :: s)))
      -- the blanks before the element are gone with its separator
      have element := recognizes spelled .nil (x ++ (v ++ closeList :: s))
      rw [List.append_assoc, List.append_assoc, List.cons_append, elements_of_part_iff next,
        List.forall₂_cons_left_iff]
      constructor
      · rintro ⟨a, as, left, taken, found, rfl⟩
        obtain ⟨shape, rfl⟩ := (element left a).mp taken
        obtain ⟨shapes, left⟩ := (ih others).mp found
        exact ⟨⟨a, as, shape, shapes, rfl⟩, left⟩
      · rintro ⟨⟨a, as, shape, shapes, rfl⟩, left⟩
        exact ⟨a, as, _, (element _ a).mpr ⟨shape, rfl⟩, (ih others).mpr ⟨shapes, left⟩, rfl⟩

theorem runList_append {b : UInt8} (blanks : Blanks u) (visible : isBlank b = false) :
    runList r (u ++ b :: s) =
      if b = openList then elements r true s else .error (wrongKind "a sequence" b s) := by
  rw [runList, dropBlank_append_cons blanks visible]

theorem recognizes_list (recognizes : r.Recognizes Shape) :
    (list r).Recognizes fun t as => ∃ ts, t = .list ts ∧ List.Forall₂ Shape ts as := by
  intro t w spelled u blanks s rest as
  obtain ⟨b, v, rfl, starts⟩ := spelled.exists_cons
  rw [run_list, List.cons_append, runList_append blanks starts.visible.1]
  by_cases is : b = openList
  · obtain ⟨ts, rfl⟩ := starts.kind.2.1 is
    cases spelled with
    | list spelled after =>
      rw [if_pos rfl, List.append_assoc, List.append_assoc, List.singleton_append,
        elements_iff recognizes spelled after]
      simp
  · rw [if_neg is]
    refine ⟨nofun, ?_⟩
    rintro ⟨⟨ts, rfl, -⟩, -⟩
    exact absurd starts is

/-! ## Members -/

theorem nextMember_closing (isFirst : Bool) (blanks : Blanks v) (s : Bytes) :
    nextMember isFirst (v ++ closeObject :: s) = .ok (.closed s) := by
  rw [nextMember, dropBlank_append_cons blanks (by decide)]
  rfl

theorem nextMember_part {isFirst : Bool} (separator : Separator isFirst u) (s : Bytes) :
    nextMember isFirst (u ++ quote :: s) = .ok (.part s) := by
  cases separator with
  | first blanks =>
    rw [nextMember, dropBlank_append_cons blanks (by decide)]
    rfl
  | comma before after =>
    rw [List.append_assoc, List.cons_append, nextMember,
      dropBlank_append_cons before (by decide)]
    simp only [dropBlank_append_cons after (b := quote) (by decide)]
    rfl

variable {form : Form α n} {seen after : Vector (Option α) n}

theorem members_of_closed {isFirst : Bool} (next : nextMember isFirst s = .ok (.closed rest)) :
    members form r isFirst seen s = .ok (seen, rest) := by
  rw [members]
  split
  next fault failed => rw [next] at failed; cases failed
  next again => rw [next] at again; cases again; rfl
  next part => rw [next] at part; cases part

theorem members_of_part_iff {isFirst : Bool} {t : Bytes}
    (next : nextMember isFirst s = .ok (.part t)) :
    members form r isFirst seen s = .ok (after, rest) ↔
      ∃ mid v, readMember form r seen t = .ok (mid, v) ∧
        members form r false mid v = .ok (after, rest) := by
  rw [members]
  split
  next fault failed => rw [next] at failed; cases failed
  next closed => rw [next] at closed; cases closed
  next t' again =>
    rw [next] at again
    cases again
    split
    next fault failed => simp [failed]
    next mid v taken => simp [taken]

theorem readColon_append (blanks : Blanks u) (s : Bytes) :
    readColon (u ++ colon :: s) = .ok s := by
  rw [readColon, dropBlank_append_cons blanks (by decide)]
  rfl

theorem readMemberValue_append (blanks : Blanks u) (s : Bytes) :
    readMemberValue r (u ++ colon :: s) = r.run s := by
  rw [readMemberValue, readColon_append blanks]

theorem readMember_of_unseen_iff {name : String} {t : Bytes} {i : Fin n}
    (named : readText s = .ok (name, t)) (found : form.find? name = some i)
    (unseen : seen.get i = none) :
    readMember form r seen s = .ok (after, rest) ↔
      ∃ a, readMemberValue r t = .ok (a, rest) ∧ see seen i a = after := by
  have unseen : seen[i] = none := unseen
  rw [readMember, named]
  simp only [found, unseen, Option.isSome_none, see_eq_set seen i.isLt]
  cases readMemberValue r t with
  | error => simp
  | ok pair => simp [Prod.ext_iff, and_comm]

/-- A member is taken where it adds to the fields seen so far. -/
theorem readMember_iff (recognizes : r.Recognizes Shape) {name : String} {t : Tree}
    {m x y w : Bytes} (named : ∀ rest, readText (m ++ quote :: rest) = .ok (name, rest))
    (before : Blanks x) (afterColon : Blanks y) (spelled : Spelling t w) (ends : Ends s) :
    readMember form r seen (m ++ quote :: (x ++ colon :: (y ++ (w ++ s)))) = .ok (after, rest) ↔
      form.Adds Shape seen (name, t) after ∧ rest = s := by
  cases found : form.find? name with
  | some i =>
    rw [Form.adds_iff_of_some found]
    cases unseen : seen.get i with
    | some a =>
      have again : seen[i] = some a := unseen
      rw [readMember, named]
      simp [found, again]
    | none =>
      rw [readMember_of_unseen_iff (named _) found unseen, readMemberValue_append before]
      constructor
      · rintro ⟨a, taken, added⟩
        obtain ⟨shape, left⟩ := (recognizes spelled afterColon s rest a).mp taken
        exact ⟨⟨rfl, a, shape, added⟩, left⟩
      · rintro ⟨⟨-, a, shape, added⟩, left⟩
        exact ⟨a, (recognizes spelled afterColon s rest a).mpr ⟨shape, left⟩, added⟩
  | none =>
    rw [Form.adds_iff_of_none found, readMember, named]
    cases form.isClosed with
    | true => simp [found]
    | false =>
      simp [found, skipMemberValue, readColon_append before,
        skipValue_of_spelling spelled afterColon ends, eq_comm]

theorem members_iff (recognizes : r.Recognizes Shape) {isFirst : Bool}
    {ms : List (String × Tree)} {w : Bytes} (spelled : Members isFirst ms w) (blanks : Blanks v) :
    members form r isFirst seen (w ++ (v ++ closeObject :: s)) = .ok (after, rest) ↔
      form.AddsAll Shape seen ms after ∧ rest = s := by
  induction ms generalizing isFirst w seen with
  | nil =>
    cases spelled
    rw [List.nil_append, members_of_closed (nextMember_closing isFirst blanks s),
      Form.addsAll_nil_iff]
    simp [eq_comm]
  | cons m ms ih =>
    cases spelled with
    | @cons _ name t _ u m x y w z separator named before afterColon spelled others =>
      obtain ⟨text, rfl, named, -⟩ := named.exists_content
      have next := nextMember_part separator
        (text ++ quote :: (x ++ colon :: (y ++ (w ++ (z ++ (v ++ closeObject :: s))))))
      have rest := others.ends (ends_closing .object blanks s)
      have member (mid : Vector (Option α) n) (left : Bytes) : readMember form r seen _ =
          .ok (mid, left) ↔ form.Adds Shape seen (name, t) mid ∧ left = _ :=
        readMember_iff recognizes named before afterColon spelled rest
      simp only [List.append_assoc, List.cons_append, List.nil_append]
      rw [members_of_part_iff next, Form.addsAll_cons_iff]
      constructor
      · rintro ⟨mid, left, taken, found⟩
        obtain ⟨adds, rfl⟩ := (member mid left).mp taken
        obtain ⟨addsOthers, left⟩ := (ih others).mp found
        exact ⟨⟨mid, adds, addsOthers⟩, left⟩
      · rintro ⟨⟨mid, adds, addsOthers⟩, left⟩
        exact ⟨mid, _, (member mid _).mpr ⟨adds, rfl⟩, (ih others).mpr ⟨addsOthers, left⟩⟩

/-! ## Lists of fields -/

theorem closeRow_eq_ok_iff : closeRow s = .ok rest ↔ dropBlank s = closeList :: rest := by
  rw [closeRow]
  cases dropBlank s with
  | nil => simp
  | cons b s =>
    by_cases closing : b = closeList
    · simp [closing]
    · simp only [List.cons.injEq, closing, if_false, false_and, iff_false]
      split <;> simp

theorem row_of_closed {i : Nat} (closed : nextElement (i = 0) s = .ok (.closed rest))
    (inside : i < n) : row r i seen s = .ok (seen, rest) := by
  rw [row, dif_pos inside, closed]

theorem row_of_part_iff {i : Nat} {t : Bytes} (inside : i < n)
    (next : nextElement (i = 0) s = .ok (.part t)) :
    row r i seen s = .ok (after, rest) ↔
      ∃ a v, r.run t = .ok (a, v) ∧
        row r (i + 1) (see seen ⟨i, inside⟩ a) v = .ok (after, rest) := by
  simp only [see_eq_set seen inside]
  rw [row, dif_pos inside, next]
  dsimp only
  cases r.run t with
  | error => simp
  | ok pair => simp [Prod.ext_iff]

theorem row_of_full {i : Nat} (full : ¬ i < n) :
    row r i seen s = .ok (after, rest) ↔ dropBlank s = closeList :: rest ∧ seen = after := by
  rw [row, dif_neg full, ← closeRow_eq_ok_iff]
  cases closeRow s with
  | error => simp
  | ok => simp [and_comm]

/-- The fields from the `i`-th on are seen as the elements of the list say. -/
theorem row_iff (recognizes : r.Recognizes Shape) {i : Nat} {ts : List Tree} {w : Bytes}
    (spelled : Elements (i = 0) ts w) (blanks : Blanks v)
    (unseen : ∀ j : Fin n, i ≤ j → seen.get j = none) :
    row r i seen (w ++ (v ++ closeList :: s)) = .ok (after, rest) ↔
      (ts.length ≤ n - i ∧
        ∀ j : Fin n, Gathered Shape (seen.get j) (elementsFor i ts j) (after.get j)) ∧
          rest = s := by
  induction ts generalizing i seen w with
  | nil =>
    cases spelled
    simp only [elementsFor_nil, forall_gathered_nil_iff, List.nil_append, List.length_nil,
      Nat.zero_le, true_and]
    by_cases inside : i < n
    · rw [row_of_closed (nextElement_closing _ blanks s) inside]
      simp [eq_comm]
    · rw [row_of_full inside, dropBlank_append_cons blanks (by decide)]
      simp [eq_comm, and_comm]
  | cons t ts ih =>
    cases spelled with
    | @cons _ _ _ u w x separator spelled others =>
      obtain ⟨b, y, rfl, starts⟩ := spelled.exists_cons
      rw [List.append_assoc, List.append_assoc, List.cons_append]
      by_cases inside : i < n
      · have next := nextElement_part separator starts.visible
          (y ++ (x ++ (v ++ closeList :: s)))
        have element := recognizes spelled .nil (x ++ (v ++ closeList :: s))
        have unseenLater (a : α) (j : Fin n) (later : i + 1 ≤ j) :
            (see seen ⟨i, inside⟩ a).get j = none := by
          have different : j ≠ ⟨i, inside⟩ := Fin.ne_of_gt later
          rw [get_see_of_ne seen different]
          exact unseen j (Nat.le_of_succ_le later)
        have others : Elements (decide (i + 1 = 0)) ts x := by simpa using others
        rw [row_of_part_iff inside next,
          forall_gathered_elementsFor_cons_iff (i := ⟨i, inside⟩)]
        constructor
        · rintro ⟨a, left, taken, found⟩
          obtain ⟨shape, rfl⟩ := (element left a).mp taken
          obtain ⟨⟨few, gathered⟩, left⟩ := (ih others (unseenLater a)).mp found
          exact ⟨⟨by simp only [List.length_cons]; omega, unseen ⟨i, inside⟩ (Nat.le_refl i), a,
            shape, gathered⟩, left⟩
        · rintro ⟨⟨few, -, a, shape, gathered⟩, left⟩
          simp only [List.length_cons] at few
          exact ⟨a, _, (element _ a).mpr ⟨shape, rfl⟩,
            (ih others (unseenLater a)).mpr ⟨⟨by omega, gathered⟩, left⟩⟩
      · -- another element stands where the end of the list is due
        rw [row_of_full inside]
        constructor
        · rintro ⟨closing, -⟩
          exact absurd closing (dropBlank_separator_ne separator starts.visible)
        · rintro ⟨⟨few, -⟩, -⟩
          simp only [List.length_cons] at few
          omega

/-! ## Records -/

theorem get_replicate (i : Fin n) : (Vector.replicate n (none : Option α)).get i = none :=
  Vector.getElem_replicate i.isLt

theorem runRecord_object_iff (blanks : Blanks u) {values : Vector α n} :
    runRecord form r (u ++ openObject :: s) = .ok (values, rest) ↔
      ∃ seen, members form r true (.replicate n none) s = .ok (seen, rest) ∧
        form.complete seen = .ok values := by
  rw [runRecord, dropBlank_append_cons blanks (by decide)]
  simp only [if_true]
  cases members form r true (.replicate n none) s with
  | error => simp
  | ok pair =>
    obtain ⟨seen, left⟩ := pair
    cases filled : form.complete seen <;> simp [filled, and_comm]

theorem runRecord_list_iff (blanks : Blanks u) {values : Vector α n} :
    runRecord form r (u ++ openList :: s) = .ok (values, rest) ↔
      ∃ seen, row r 0 (.replicate n none) s = .ok (seen, rest) ∧
        form.complete seen = .ok values := by
  have list : openList ≠ openObject := by decide
  rw [runRecord, dropBlank_append_cons blanks (by decide)]
  simp only [if_neg list, if_true]
  cases row r 0 (.replicate n none) s with
  | error => simp
  | ok pair =>
    obtain ⟨seen, left⟩ := pair
    cases filled : form.complete seen <;> simp [filled, and_comm]

theorem runRecord_other {b : UInt8} (blanks : Blanks u) (visible : isBlank b = false)
    (notObject : b ≠ openObject) (notList : b ≠ openList) :
    runRecord form r (u ++ b :: s) = .error (wrongKind form.title b s) := by
  rw [runRecord, dropBlank_append_cons blanks visible]
  simp only [if_neg notObject, if_neg notList]

theorem runRecord_members_iff (distinct : form.Distinct) (recognizes : r.Recognizes Shape)
    {ms : List (String × Tree)} {w : Bytes} (spelled : Members true ms w) (blanks : Blanks u)
    (before : Blanks v) {values : Vector α n} :
    runRecord form r (u ++ openObject :: (w ++ (v ++ closeObject :: s))) = .ok (values, rest) ↔
      form.RecordShape Shape (.object ms) values ∧ rest = s := by
  rw [runRecord_object_iff blanks, Form.recordShape_object_iff, ← exists_gathered_iff]
  simp only [members_iff recognizes spelled before, Form.addsAll_iff distinct, get_replicate]
  constructor
  · rintro ⟨seen, ⟨⟨known, gathered⟩, left⟩, filled⟩
    exact ⟨⟨known, seen, gathered, filled⟩, left⟩
  · rintro ⟨⟨known, seen, gathered, filled⟩, left⟩
    exact ⟨seen, ⟨⟨known, gathered⟩, left⟩, filled⟩

theorem runRecord_elements_iff (recognizes : r.Recognizes Shape) {ts : List Tree} {w : Bytes}
    (spelled : Elements true ts w) (blanks : Blanks u) (before : Blanks v)
    {values : Vector α n} :
    runRecord form r (u ++ openList :: (w ++ (v ++ closeList :: s))) = .ok (values, rest) ↔
      form.RecordShape Shape (.list ts) values ∧ rest = s := by
  rw [runRecord_list_iff blanks, Form.recordShape_list_iff, ← exists_gathered_iff]
  simp only [row_iff recognizes (i := 0) spelled before fun j _ => get_replicate j, get_replicate,
    elementsFor_zero]
  constructor
  · rintro ⟨seen, ⟨⟨few, gathered⟩, left⟩, filled⟩
    exact ⟨⟨few, seen, gathered, filled⟩, left⟩
  · rintro ⟨⟨few, seen, gathered, filled⟩, left⟩
    exact ⟨seen, ⟨⟨few, gathered⟩, left⟩, filled⟩

theorem recognizes_record (distinct : form.Distinct) (recognizes : r.Recognizes Shape) :
    (record form r).Recognizes (form.RecordShape Shape) := by
  intro t w spelled u blanks s rest values
  obtain ⟨b, v, rfl, starts⟩ := spelled.exists_cons
  rw [run_record, List.cons_append]
  by_cases object : b = openObject
  · obtain ⟨ms, rfl⟩ := starts.kind.2.2 object
    cases spelled with
    | object spelled before =>
      rw [List.append_assoc, List.append_assoc, List.singleton_append]
      exact runRecord_members_iff distinct recognizes spelled blanks before
  by_cases list : b = openList
  · obtain ⟨ts, rfl⟩ := starts.kind.2.1 list
    cases spelled with
    | list spelled before =>
      rw [List.append_assoc, List.append_assoc, List.singleton_append]
      exact runRecord_elements_iff recognizes spelled blanks before
  · rw [runRecord_other blanks starts.visible.1 object list]
    refine ⟨nofun, ?_⟩
    rintro ⟨shape, -⟩
    cases shape with
    | object => exact absurd starts object
    | list => exact absurd starts list

/-! ## Documents -/

theorem document_eq_ok_iff {a : α} :
    r.document s = .ok a ↔ ∃ rest, r.run s = .ok (a, rest) ∧ dropBlank rest = [] := by
  rw [document]
  cases r.run s with
  | error => simp
  | ok pair => by_cases noMore : dropBlank pair.2 = [] <;> simp [Prod.ext_iff, noMore]

/-- A document is read as the shape of its tree says, however it is written. -/
theorem Recognizes.document_iff (recognizes : r.Recognizes Shape) {t : Tree} {d : Bytes}
    (document : t.Document d) {a : α} : r.document d = .ok a ↔ Shape t a := by
  obtain ⟨before, spelled, after⟩ := document
  rename_i u w v
  have noMore : dropBlank v = [] := by
    simpa [dropBlank] using dropBlank_append after []
  rw [document_eq_ok_iff]
  constructor
  · rintro ⟨rest, read, -⟩
    exact ((recognizes spelled before v rest a).mp read).1
  · intro shape
    exact ⟨v, (recognizes spelled before v v a).mpr ⟨shape, rfl⟩, noMore⟩

end Reader

end ReplicatedKv.Json
