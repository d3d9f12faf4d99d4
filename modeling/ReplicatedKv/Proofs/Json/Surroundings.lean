import ReplicatedKv.Proofs.Json.Compact
import ReplicatedKv.Proofs.Json.StringAhead

/-! # Surroundings of a string

A document with one string left open.  If any text can stand there, then what is read of the document
depends on the text alone, whichever literal stands for it, and a literal that stands for no text makes
the document malformed.

* `Reader.LeftToRight` — a reader lets what stands before a quote decide.
* `leftToRight_text`, `leftToRight_list`, `leftToRight_record` — all readers do.
* `LeftToRight.document_literal_iff` — documents with a literal between given bytes.
-/

namespace ReplicatedKv.Json

variable {α β γ : Type} {n : Nat}

namespace Reader

/-- What stands before a quote decides what becomes of it. -/
def LeftToRight (r : Reader α) : Prop := ∀ w, Meets (reads r.run) w

variable {r : Reader α} {s rest : Bytes}

theorem LeftToRight.map (leftToRight : r.LeftToRight) (f : α → β) : (r.map f).LeftToRight := by
  intro w
  refine ((leftToRight w).give fun a => some (f a)).of_iff fun s b rest => ?_
  rw [reads, run_map]
  cases read : r.run (w ++ quote :: s) <;>
    simp [reads, Reading.andThen, Reading.give, Except.map, read, Prod.ext_iff, and_comm,
      eq_comm (a := rest)]

/-! ## Strings -/

theorem leftToRight_text : text.LeftToRight := by
  intro w
  obtain dropped | ⟨b, v, -, -, dropped⟩ := dropBlank_quote_cases w
  · refine .wants (fun text left whole rest => whole = text ∧ rest = left) fun s whole rest => ?_
    simp only [reads, run_text, runText, dropped, if_true]
    simp [eq_comm]
  by_cases isText : b = quote
  · refine (meets_readText v).of_iff fun s text rest => ?_
    simp only [reads, run_text, runText, dropped, if_pos isText]
  · exact .stops (stops_reads_of_error fun s => ⟨wrongKind "a string" b (v ++ quote :: s), by
      simp only [run_text, runText, dropped, if_neg isText]⟩)

/-! ## Parts -/

/-- What is found of an open container ends before the quote. -/
inductive NextAhead (find : Bytes → Except Fault Next) (w : Bytes) : Prop where
  | fails : (∀ s, ∃ fault, find (w ++ quote :: s) = .error fault) → NextAhead find w
  | closed (v : Bytes) : (∀ s, find (w ++ quote :: s) = .ok (.closed (v ++ quote :: s))) →
      NextAhead find w
  | part (v : Bytes) : v.length ≤ w.length →
      (∀ s, find (w ++ quote :: s) = .ok (.part (v ++ quote :: s))) → NextAhead find w

theorem nextElement_ahead (isFirst : Bool) (w : Bytes) : NextAhead (nextElement isFirst) w := by
  obtain dropped | ⟨b, v, -, shorter, dropped⟩ := dropBlank_quote_cases w
  · cases isFirst with
    | true => exact .part [] (Nat.zero_le _) fun s => by simp only [nextElement, dropped]; rfl
    | false =>
      exact .fails fun s => ⟨.expectedListSeparator, by simp only [nextElement, dropped]; rfl⟩
  by_cases closing : b = closeList
  · exact .closed v fun s => by simp only [nextElement, dropped, if_pos closing]
  cases isFirst with
  | true =>
    exact .part (b :: v) shorter fun s => by
      simp only [nextElement, dropped, if_neg closing, if_true, List.cons_append]
  | false =>
    by_cases separated : b = comma
    · subst separated
      obtain dropped' | ⟨b', v', -, shorter', dropped'⟩ := dropBlank_quote_cases v
      · refine .part [] (Nat.zero_le _) fun s => ?_
        simp only [nextElement, dropped, dropped']
        rfl
      by_cases trailing : b' = closeList
      · exact .fails fun s => ⟨.trailingComma, by
          simp [nextElement, dropped, closing, dropped', trailing]⟩
      · refine .part (b' :: v') (by simp only [List.length_cons]; omega) fun s => ?_
        simp [nextElement, dropped, closing, dropped', trailing]
    · exact .fails fun s => ⟨.expectedListSeparator, by
        simp [nextElement, dropped, closing, separated]⟩

/-- A member is found as well where the quote is the first of its name. -/
theorem nextMember_ahead (isFirst : Bool) (w : Bytes) : NextAhead (nextMember isFirst) w ∨
    ∀ s, nextMember isFirst (w ++ quote :: s) = .ok (.part s) := by
  obtain dropped | ⟨b, v, -, shorter, dropped⟩ := dropBlank_quote_cases w
  · cases isFirst with
    | true => exact .inr fun s => by simp only [nextMember, dropped]; rfl
    | false =>
      exact .inl (.fails fun s => ⟨.expectedObjectSeparator, by
        simp only [nextMember, dropped]; rfl⟩)
  by_cases closing : b = closeObject
  · exact .inl (.closed v fun s => by simp only [nextMember, dropped, if_pos closing])
  cases isFirst with
  | true =>
    by_cases named : b = quote
    · subst named
      exact .inl (.part v (Nat.le_of_lt shorter) fun s => by simp [nextMember, dropped, closing])
    · exact .inl (.fails fun s => ⟨.nameNotText, by simp [nextMember, dropped, closing, named]⟩)
  | false =>
    by_cases separated : b = comma
    · subst separated
      obtain dropped' | ⟨b', v', -, shorter', dropped'⟩ := dropBlank_quote_cases v
      · exact .inr fun s => by simp only [nextMember, dropped, dropped']; rfl
      by_cases named : b' = quote
      · refine .inl (.part v' (by omega) fun s => ?_)
        simp [nextMember, dropped, closing, dropped', named]
      by_cases trailing : b' = closeObject
      · subst trailing
        exact .inl (.fails fun s => ⟨.trailingComma, by
          simp [nextMember, dropped, closing, dropped', named]⟩)
      · exact .inl (.fails fun s => ⟨.nameNotText, by
          simp [nextMember, dropped, closing, dropped', named, trailing]⟩)
    · exact .inl (.fails fun s => ⟨.expectedObjectSeparator, by
        simp [nextMember, dropped, closing, separated]⟩)

/-! ## Lists -/

theorem elements_of_error {isFirst : Bool} {fault : Fault}
    (next : nextElement isFirst s = .error fault) : elements r isFirst s = .error fault := by
  rw [elements]
  split
  next again => rw [next] at again; cases again; rfl
  next closed => nomatch next.symm.trans closed
  next part => nomatch next.symm.trans part

theorem elements_backslash (r : Reader α) (s : Bytes) :
    elements r false (backslash :: s) = .error .expectedListSeparator :=
  elements_of_error rfl

theorem meets_elements (leftToRight : r.LeftToRight) (isFirst : Bool) (w : Bytes) :
    Meets (reads (elements r isFirst)) w := by
  cases nextElement_ahead isFirst w with
  | fails fails =>
    exact .stops (stops_reads_of_error fun s => (fails s).imp fun _ => elements_of_error)
  | closed v closed => exact .stops (stops_reads_of_ok fun s => elements_of_closed (closed s))
  | part v notLonger part =>
    have found := (leftToRight v).andThen
      (K := fun a => (reads (elements r false)).andThen fun others => .give (some (a :: others)))
      (fun a u taken => by
        have shorter : u.length < v.length := by simpa using r.consumes (taken [])
        exact (meets_elements leftToRight false u).give _)
      (fun a s _ _ ⟨_, _, read, _⟩ => nomatch (elements_backslash r s).symm.trans read)
    refine found.of_iff fun s as rest => ?_
    rw [reads, elements_of_part_iff (part s)]
    constructor
    · rintro ⟨a, others, left, taken, read, rfl⟩
      exact ⟨a, left, taken, others, rest, read, rfl, rfl⟩
    · rintro ⟨a, left, taken, others, _, read, given, rfl⟩
      exact ⟨a, others, left, taken, read, Option.some.inj given⟩
termination_by w.length

theorem leftToRight_list (leftToRight : r.LeftToRight) : (list r).LeftToRight := by
  intro w
  obtain dropped | ⟨b, v, -, -, dropped⟩ := dropBlank_quote_cases w
  · exact .stops (stops_reads_of_error fun s => ⟨wrongKind "a sequence" quote s, by
      simp only [run_list, runList, dropped]; rfl⟩)
  by_cases isList : b = openList
  · refine (meets_elements leftToRight true v).of_iff fun s as rest => ?_
    simp only [reads, run_list, runList, dropped, if_pos isList]
  · exact .stops (stops_reads_of_error fun s => ⟨wrongKind "a sequence" b (v ++ quote :: s), by
      simp only [run_list, runList, dropped, if_neg isList]⟩)

/-! ## Records -/

variable {form : Form α n} {seen : Vector (Option α) n}

theorem stops_closeRow (w : Bytes) : Stops (drops closeRow) w := by
  obtain dropped | ⟨b, v, -, -, dropped⟩ := dropBlank_quote_cases w
  · exact stops_drops_of_error fun s => ⟨.trailingInput, by simp only [closeRow, dropped]; rfl⟩
  by_cases closing : b = closeList
  · exact stops_drops_of_ok (v := v) fun s => by simp only [closeRow, dropped, if_pos closing]
  · refine stops_drops_of_error fun s => ?_
    simp only [closeRow, dropped, if_neg closing]
    split
    · exact ⟨_, rfl⟩
    · exact ⟨_, rfl⟩

theorem row_backslash (r : Reader α) (i : Nat) (seen : Vector (Option α) n) (s : Bytes) :
    ∃ fault, row r (i + 1) seen (backslash :: s) = .error fault := by
  rw [row]
  split
  · exact ⟨_, rfl⟩
  · exact ⟨_, rfl⟩

theorem meets_row (leftToRight : r.LeftToRight) (i : Nat) (seen : Vector (Option α) n) (w : Bytes) :
    Meets (reads (row r i seen)) w := by
  by_cases inside : i < n
  · cases nextElement_ahead (i = 0) w with
    | fails fails =>
      refine .stops (stops_reads_of_error fun s => ?_)
      obtain ⟨fault, failed⟩ := fails s
      exact ⟨fault, by rw [row, dif_pos inside, failed]⟩
    | closed v closed =>
      exact .stops (stops_reads_of_ok fun s => row_of_closed (closed s) inside)
    | part v notLonger part =>
      have found := (leftToRight v).andThen
        (K := fun a => reads (row r (i + 1) (see seen ⟨i, inside⟩ a)))
        (fun a u _ => meets_row leftToRight (i + 1) _ u)
        (fun a s _ _ read => by
          obtain ⟨fault, failed⟩ := row_backslash r i (see seen ⟨i, inside⟩ a) s
          cases failed.symm.trans read)
      refine found.of_iff fun s after rest => ?_
      rw [reads, row_of_part_iff inside (part s)]
      rfl
  · refine .stops (((stops_closeRow w).give fun _ => some seen).of_iff fun s after rest => ?_)
    rw [reads, row, dif_neg inside]
    cases close : closeRow (w ++ quote :: s) <;>
      simp [drops, Reading.andThen, Reading.give, close, and_comm, eq_comm (a := rest)]
termination_by n - i

theorem reads_readMemberValue (r : Reader α) :
    reads (readMemberValue r) = (drops readColon).andThen fun _ => reads r.run := by
  refine Reading.ext fun s a rest => ?_
  simp only [reads, drops, Reading.andThen, readMemberValue]
  cases readColon s <;> simp

theorem meets_readMemberValue (leftToRight : r.LeftToRight) (w : Bytes) :
    Meets (reads (readMemberValue r)) w := by
  rw [reads_readMemberValue]
  exact (stops_readColon w).andThen_meets fun _ v _ => leftToRight v

theorem meets_skipMemberValue (w : Bytes) : Meets (drops skipMemberValue) w := by
  have skipped := (stops_readColon w).andThen_meets (K := fun _ => drops skipValue) fun _ v _ =>
    meets_skip .value [] v
  refine skipped.of_iff fun s _ rest => ?_
  rw [Reading.drops_andThen_iff, drops, skipMemberValue]
  cases readColon (w ++ quote :: s) <;> simp

/-- What is read of a member behind its name. -/
def behindName (form : Form α n) (r : Reader α) (seen : Vector (Option α) n) (name : String) :
    Reading (Vector (Option α) n) :=
  match form.find? name with
  | some i => (reads (readMemberValue r)).andThen fun a =>
    .give (if (seen.get i).isSome then none else some (see seen i a))
  | none => (drops skipMemberValue).andThen fun _ =>
    .give (if form.isClosed then none else some seen)

theorem reads_readMember (form : Form α n) (r : Reader α) (seen : Vector (Option α) n) :
    reads (readMember form r seen) = (reads readText).andThen (behindName form r seen) := by
  refine Reading.ext fun s after rest => ?_
  simp only [reads, Reading.andThen]
  cases text : readText s with
  | error fault => simp [readMember, text]
  | ok pair =>
    obtain ⟨name, left⟩ := pair
    simp only [Except.ok.injEq, Prod.mk.injEq, ↓existsAndEq, true_and, behindName]
    cases found : form.find? name with
    | none =>
      rw [readMember, text]
      cases skipped : skipMemberValue left <;> cases form.isClosed <;>
        simp [found, skipped, drops, Reading.andThen, Reading.give, and_comm, eq_comm (a := rest)]
    | some i =>
      cases unseen : seen.get i with
      | none =>
        rw [readMember_of_unseen_iff text found unseen]
        simp [unseen, reads, Reading.andThen, Reading.give, and_comm]
      | some a =>
        have again : seen[i] = some a := unseen
        simp [readMember, text, found, again, unseen, Reading.andThen, Reading.give]

theorem meets_behindName (leftToRight : r.LeftToRight) (name : String) (w : Bytes) :
    Meets (behindName form r seen name) w := by
  rw [behindName]
  split
  · exact (meets_readMemberValue leftToRight w).give _
  · exact (meets_skipMemberValue w).give _

theorem not_behindName_backslash (name : String) (after : Vector (Option α) n) :
    ¬ behindName form r seen name (backslash :: s) after rest := by
  cases found : form.find? name with
  | some i =>
    simp only [behindName, found]
    rintro ⟨_, _, read, -⟩
    nomatch read
  | none =>
    simp only [behindName, found]
    rintro ⟨_, _, skipped, -⟩
    nomatch skipped

theorem meets_readMember (form : Form α n) (leftToRight : r.LeftToRight) (seen : Vector (Option α) n) (w : Bytes) :
    Meets (reads (readMember form r seen)) w := by
  rw [reads_readMember]
  exact (meets_readText w).andThen (fun name v _ => meets_behindName leftToRight name v)
    fun name _ after _ read => absurd read (not_behindName_backslash name after)

theorem members_of_error {isFirst : Bool} {fault : Fault}
    (next : nextMember isFirst s = .error fault) :
    members form r isFirst seen s = .error fault := by
  rw [members]
  split
  next again => rw [next] at again; cases again; rfl
  next closed => nomatch next.symm.trans closed
  next part => nomatch next.symm.trans part

theorem members_backslash (form : Form α n) (r : Reader α) (seen : Vector (Option α) n) (s : Bytes) :
    members form r false seen (backslash :: s) = .error .expectedObjectSeparator :=
  members_of_error rfl

theorem meets_members (form : Form α n) (leftToRight : r.LeftToRight) (isFirst : Bool)
    (seen : Vector (Option α) n) (w : Bytes) : Meets (reads (members form r isFirst seen)) w := by
  obtain ahead | begins := nextMember_ahead isFirst w
  · cases ahead with
    | fails fails =>
      exact .stops (stops_reads_of_error fun s => (fails s).imp fun _ => members_of_error)
    | closed v closed => exact .stops (stops_reads_of_ok fun s => members_of_closed (closed s))
    | part v notLonger part =>
      have found := (meets_readMember form leftToRight seen v).andThen
        (K := fun mid => reads (members form r false mid))
        (fun mid u taken => by
          have shorter : u.length < v.length := by simpa using length_of_readMember (taken [])
          exact meets_members form leftToRight false mid u)
        (fun mid s _ _ read => nomatch (members_backslash form r mid s).symm.trans read)
      refine found.of_iff fun s after rest => ?_
      rw [reads, members_of_part_iff (part s)]
      rfl
  · refine .wants (fun name => (behindName form r seen name).andThen fun mid =>
      reads (members form r false mid)) fun s after rest => ?_
    have named (mid : Vector (Option α) n) (v : Bytes) : readMember form r seen s = .ok (mid, v) ↔
        ∃ name left, readText s = .ok (name, left) ∧ behindName form r seen name left mid v :=
      iff_of_eq (congrFun (congrFun (congrFun (reads_readMember form r seen) s) mid) v)
    rw [reads, members_of_part_iff (begins s)]
    simp only [named]
    constructor
    · rintro ⟨mid, v, ⟨name, left, text, behind⟩, others⟩
      exact ⟨name, left, text, mid, v, behind, others⟩
    · rintro ⟨name, left, text, mid, v, behind, others⟩
      exact ⟨mid, v, ⟨name, left, text, behind⟩, others⟩
termination_by w.length

/-- The fields that are seen, with the absent ones filled in. -/
def completed (form : Form α n) (Q : Reading (Vector (Option α) n)) : Reading (Vector α n) :=
  Q.andThen fun seen => .give (form.complete seen).toOption

theorem completed_iff {Q : Reading (Vector (Option α) n)} {values : Vector α n} :
    completed form Q s values rest ↔
      ∃ seen, Q s seen rest ∧ form.complete seen = .ok values := by
  have filled (seen : Vector (Option α) n) :
      (form.complete seen).toOption = some values ↔ form.complete seen = .ok values := by
    cases form.complete seen <;> simp [Except.toOption]
  simp only [completed, Reading.andThen, Reading.give, filled]
  constructor
  · rintro ⟨seen, _, read, complete, rfl⟩
    exact ⟨seen, read, complete⟩
  · rintro ⟨seen, read, complete⟩
    exact ⟨seen, rest, read, complete, rfl⟩

theorem meets_completed (form : Form α n) {Q : Reading (Vector (Option α) n)} {w : Bytes}
    (meets : Meets Q w) : Meets (completed form Q) w :=
  meets.give _

theorem leftToRight_record (form : Form α n) (leftToRight : r.LeftToRight) :
    (record form r).LeftToRight := by
  intro w
  obtain blanks | ⟨u, b, v, blanks, visible, -, whole⟩ := blanks_or_visible w
  · exact .stops (stops_reads_of_error fun s => ⟨_, runRecord_other blanks (by decide) (by decide)
      (by decide)⟩)
  by_cases object : b = openObject
  · subst object
    have read := meets_members form leftToRight true (.replicate n none) v
    refine (meets_completed form read).of_iff fun s values rest => ?_
    rw [reads, run_record, whole, runRecord_object_iff blanks, completed_iff]
    rfl
  by_cases list : b = openList
  · subst list
    have read := meets_row leftToRight 0 (.replicate n none) v
    refine (meets_completed form read).of_iff fun s values rest => ?_
    rw [reads, run_record, whole, runRecord_list_iff blanks, completed_iff]
    rfl
  · refine .stops (stops_reads_of_error fun s => ⟨wrongKind form.title b (v ++ quote :: s), ?_⟩)
    rw [run_record, whole, runRecord_other blanks visible object list]

/-! ## Documents -/

/-- Where any text can stand between two byte strings and the value varies with it, a literal is read
    there as the text that it stands for, and makes the document malformed if it stands for none. -/
theorem LeftToRight.document_literal_iff (leftToRight : r.LeftToRight) {before after : Bytes}
    {value : String → α} (accepts : ∀ text,
      r.document (before ++ (Utf8.encode (quoted text) ++ after)) = .ok (value text))
    (varies : ∃ text text', value text ≠ value text') (items : List Item) (a : α) :
    r.document (before ++ quote :: (literal items ++ quote :: after)) = .ok a ↔
      ∃ text, Decodes items (Utf8.encode text) ∧ a = value text := by
  have written (text : String) : ∃ v,
      (∀ rest, readText (v ++ quote :: rest) = .ok (text, rest)) ∧
      (∀ rest, skipText (v ++ quote :: rest) = .ok rest) ∧
      r.document (before ++ quote :: (v ++ quote :: after)) = .ok (value text) := by
    obtain ⟨v, spelled, read, skipped⟩ := (spelledText_quoted text).exists_content
    refine ⟨v, read, skipped, ?_⟩
    have accepted := accepts text
    rwa [spelled, List.cons_append, List.append_assoc] at accepted
  cases leftToRight before with
  | stops stops =>
    obtain ⟨v, -, -, accepted⟩ := written ""
    obtain ⟨rest, read, noMore⟩ := document_eq_ok_iff.mp accepted
    cases stops with
    | fails fails => exact absurd read (fails _ _ _)
    | before b u before =>
      obtain ⟨-, rfl⟩ := (before _ _ _).mp read
      obtain dropped | ⟨_, _, -, -, dropped⟩ := dropBlank_quote_cases u <;>
        nomatch noMore.symm.trans (dropped _)
  | closes closes =>
    -- a line feed is written with a backslash
    have accepted := accepts "\n"
    have lineFeed : Utf8.encode (quoted "\n") = [quote, backslash, 0x6e, quote] := by decide
    rw [lineFeed] at accepted
    obtain ⟨rest, read, noMore⟩ := document_eq_ok_iff.mp accepted
    obtain rfl := closes _ _ _ read
    nomatch noMore
  | wants After wants =>
    constructor
    · intro accepted
      obtain ⟨rest, read, noMore⟩ := document_eq_ok_iff.mp accepted
      obtain ⟨text, _, isText, behind⟩ := (wants _ _ _).mp read
      obtain ⟨decodes, rfl⟩ := readText_literal_iff.mp isText
      obtain ⟨v, readsText, -, same⟩ := written text
      have again := (wants _ a rest).mpr ⟨text, _, readsText _, behind⟩
      have accepted' := document_eq_ok_iff.mpr ⟨rest, again, noMore⟩
      exact ⟨text, decodes, Except.ok.inj (accepted'.symm.trans same)⟩
    · rintro ⟨text, decodes, rfl⟩
      obtain ⟨v, readsText, -, accepted⟩ := written text
      obtain ⟨rest, read, noMore⟩ := document_eq_ok_iff.mp accepted
      obtain ⟨text', left, isText, behind⟩ := (wants _ _ _).mp read
      obtain ⟨rfl, rfl⟩ := Prod.mk.inj (Except.ok.inj ((readsText after).symm.trans isText))
      refine document_eq_ok_iff.mpr ⟨rest, ?_, noMore⟩
      exact (wants _ _ _).mpr ⟨text, after, readText_literal_iff.mpr ⟨decodes, rfl⟩, behind⟩
  | skips After skips =>
    obtain ⟨text, text', different⟩ := varies
    obtain ⟨v, -, skipped, accepted⟩ := written text
    obtain ⟨v', -, skipped', accepted'⟩ := written text'
    obtain ⟨rest, read, noMore⟩ := document_eq_ok_iff.mp accepted
    obtain ⟨left, passed, behind⟩ := (skips _ _ _).mp read
    obtain rfl := Except.ok.inj ((skipped after).symm.trans passed)
    have same := document_eq_ok_iff.mpr ⟨rest, (skips _ _ _).mpr ⟨_, skipped' _, behind⟩, noMore⟩
    exact absurd (Except.ok.inj (same.symm.trans accepted')) different

end Reader

end ReplicatedKv.Json
