import ReplicatedKv.Json.Reader

/-! # Records

A record is written as an object, its members in any order, or as the list of its fields in the
order in which the form declares them.

* `Form` — the fields of a record, all of one kind.
* `Form.complete` — fills the fields that are absent, where they may be absent.
* `Reader.record` — reads a record in either way.

A member with an unknown name is a fault of a closed form and is skipped in an open one.  A field
that occurs twice is a fault before its second value is looked at.
-/

namespace ReplicatedKv.Json

/-- A field of a record: its name, and the value it has where it is absent, if it may be. -/
structure Field (α : Type) where
  name : String
  fallback : Option α := none

/-- The fields of a record in the order of declaration. -/
structure Form (α : Type) (n : Nat) where
  title : String
  fields : Vector (Field α) n
  /-- Whether the record may have no other members. -/
  isClosed : Bool := false

namespace Form

variable {α : Type} {n : Nat}

def find? (form : Form α n) (name : String) : Option (Fin n) :=
  (List.finRange n).find? fun i => form.fields[i].name = name

def names (form : Form α n) : List String := form.fields.toList.map Field.name

/-- The value of a field that was seen, or else the one for its absence. -/
def value? (form : Form α n) (seen : Vector (Option α) n) (i : Fin n) : Option α :=
  seen[i].or form.fields[i].fallback

/-- The values of all fields, or the first field that is required and absent. -/
def complete (form : Form α n) (seen : Vector (Option α) n) : Except (Fin n) (Vector α n) :=
  match h : (List.finRange n).find? fun i => (form.value? seen i).isNone with
  | some missing => .error missing
  | none => .ok (.ofFn fun i => (form.value? seen i).get (by
      have := List.find?_eq_none.mp h i (List.mem_finRange i)
      simpa [Option.isSome_iff_ne_none] using this))

end Form

namespace Reader

variable {α : Type} {n : Nat}

/-! ## Objects -/

/-- Looks for a member of an object.  What is left begins after the opening quote of its name. -/
def nextMember (isFirst : Bool) (s : Bytes) : Except Fault Next :=
  match dropBlank s with
  | [] => .error .endInObject
  | b :: s =>
    if b = closeObject then .ok (.closed s)
    else if isFirst then
      if b = quote then .ok (.part s) else .error .nameNotText
    else if b = comma then
      match dropBlank s with
      | [] => .error .endInValue
      | b :: s =>
        if b = quote then .ok (.part s)
        else if b = closeObject then .error .trailingComma
        else .error .nameNotText
    else .error .expectedObjectSeparator

def readColon (s : Bytes) : Except Fault Bytes :=
  match dropBlank s with
  | [] => .error .endInObject
  | b :: s => if b = colon then .ok s else .error .expectedColon

def readMemberValue (r : Reader α) (s : Bytes) : Except Fault (α × Bytes) :=
  match readColon s with
  | .error fault => .error fault
  | .ok s => r.run s

def skipMemberValue (s : Bytes) : Except Fault Bytes :=
  match readColon s with
  | .error fault => .error fault
  | .ok s => skipValue s

/-- Reads a member after the opening quote of its name, and adds it to the fields seen so far. -/
def readMember (form : Form α n) (r : Reader α) (seen : Vector (Option α) n) (s : Bytes) :
    Except Fault (Vector (Option α) n × Bytes) :=
  match readText s with
  | .error fault => .error fault
  | .ok (name, s) =>
    match form.find? name with
    | some i =>
      if seen[i].isSome then .error (.duplicateField name)
      else
        match readMemberValue r s with
        | .error fault => .error fault
        | .ok (a, rest) => .ok (seen.set i (some a), rest)
    | none =>
      if form.isClosed then .error (.unknownField name form.names)
      else
        match skipMemberValue s with
        | .error fault => .error fault
        | .ok rest => .ok (seen, rest)

theorem length_of_nextMember {isFirst : Bool} {s rest : Bytes}
    (h : nextMember isFirst s = .ok (.closed rest) ∨ nextMember isFirst s = .ok (.part rest)) :
    rest.length < s.length := by
  rw [nextMember] at h
  split at h
  · simp at h
  · have := length_of_dropBlank ‹_›
    split at h
    · simp at h; subst h; omega
    · split at h
      · split at h
        · simp at h; subst h; omega
        · simp at h
      · split at h
        · split at h
          · simp at h
          · have := length_of_dropBlank ‹_›
            split at h
            · simp at h; subst h; omega
            · split at h <;> simp at h
        · simp at h

theorem length_of_readColon {s rest : Bytes} (h : readColon s = .ok rest) :
    rest.length < s.length := by
  rw [readColon] at h
  split at h
  · cases h
  · split at h
    · cases h; exact length_of_dropBlank ‹_›
    · cases h

theorem length_of_readMemberValue {r : Reader α} {s rest : Bytes} {a : α}
    (h : readMemberValue r s = .ok (a, rest)) : rest.length < s.length := by
  rw [readMemberValue] at h
  split at h
  · cases h
  · exact Nat.lt_trans (r.consumes h) (length_of_readColon ‹_›)

theorem length_of_skipMemberValue {s rest : Bytes} (h : skipMemberValue s = .ok rest) :
    rest.length < s.length := by
  rw [skipMemberValue] at h
  split at h
  · cases h
  · exact Nat.lt_trans (length_lt_of_skipValue h) (length_of_readColon ‹_›)

theorem length_of_readMember {form : Form α n} {r : Reader α} {seen seen' : Vector (Option α) n}
    {s rest : Bytes} (h : readMember form r seen s = .ok (seen', rest)) :
    rest.length < s.length := by
  rw [readMember] at h
  split at h
  · cases h
  · have := length_lt_of_readText ‹_›
    split at h
    · split at h
      · cases h
      · split at h
        · cases h
        · have := length_of_readMemberValue ‹_›
          cases h
          omega
    · split at h
      · cases h
      · split at h
        · cases h
        · have := length_of_skipMemberValue ‹_›
          cases h
          omega

/-- Reads the members of an open object and its end. -/
def members (form : Form α n) (r : Reader α) (isFirst : Bool) (seen : Vector (Option α) n)
    (s : Bytes) : Except Fault (Vector (Option α) n × Bytes) :=
  match _next : nextMember isFirst s with
  | .error fault => .error fault
  | .ok (.closed rest) => .ok (seen, rest)
  | .ok (.part s) =>
    match _member : readMember form r seen s with
    | .error fault => .error fault
    | .ok (seen, s) => members form r false seen s
termination_by s.length
decreasing_by
  exact Nat.lt_trans (length_of_readMember _member) (length_of_nextMember (.inr _next))

theorem length_of_members {form : Form α n} {r : Reader α} {isFirst : Bool}
    {seen seen' : Vector (Option α) n} {s rest : Bytes}
    (h : members form r isFirst seen s = .ok (seen', rest)) : rest.length < s.length := by
  fun_induction members form r isFirst seen s with
  | case2 isFirst seen s left next => cases h; exact length_of_nextMember (.inl next)
  | case4 isFirst seen s tail next seen left member ih =>
    have := length_of_nextMember (.inr next)
    have := length_of_readMember member
    have := ih h
    omega
  | _ => cases h

/-! ## Lists of fields -/

/-- Reads the end of a list after its last field. -/
def closeRow (s : Bytes) : Except Fault Bytes :=
  match dropBlank s with
  | [] => .error .endInList
  | b :: s =>
    if b = closeList then .ok s
    else if b = comma ∧ (dropBlank s).head? = some closeList then .error .trailingComma
    else .error .trailingInput

/-- Reads the fields from the `i`-th on, and the end of the list. -/
def row (r : Reader α) (i : Nat) (seen : Vector (Option α) n) (s : Bytes) :
    Except Fault (Vector (Option α) n × Bytes) :=
  if _inside : i < n then
    match nextElement (i = 0) s with
    | .error fault => .error fault
    | .ok (.closed rest) => .ok (seen, rest)
    | .ok (.part s) =>
      match r.run s with
      | .error fault => .error fault
      | .ok (a, s) => row r (i + 1) (seen.set i (some a)) s
  else
    match closeRow s with
    | .error fault => .error fault
    | .ok rest => .ok (seen, rest)
termination_by n - i

theorem length_of_closeRow {s rest : Bytes} (h : closeRow s = .ok rest) :
    rest.length < s.length := by
  rw [closeRow] at h
  split at h
  · cases h
  · split at h
    · cases h; exact length_of_dropBlank ‹_›
    · split at h <;> cases h

theorem length_of_row {r : Reader α} {i : Nat} {seen seen' : Vector (Option α) n} {s rest : Bytes}
    (h : row r i seen s = .ok (seen', rest)) : rest.length < s.length := by
  fun_induction row r i seen s with
  | case2 i seen s _ left next => cases h; exact length_of_nextElement_closed next
  | case4 i seen s _ tail next a left element ih =>
    have := length_of_nextElement_part next
    have := r.consumes element
    have := ih h
    omega
  | case6 i seen s _ left close => cases h; exact length_of_closeRow close
  | _ => cases h

/-! ## Records -/

def runRecord (form : Form α n) (r : Reader α) (s : Bytes) : Except Fault (Vector α n × Bytes) :=
  match dropBlank s with
  | [] => .error .endInValue
  | b :: s =>
    if b = openObject then
      match members form r true (.replicate n none) s with
      | .error fault => .error fault
      | .ok (seen, rest) =>
        match form.complete seen with
        | .error missing => .error (.missingField form.fields[missing].name)
        | .ok values => .ok (values, rest)
    else if b = openList then
      match row r 0 (.replicate n none) s with
      | .error fault => .error fault
      | .ok (seen, rest) =>
        match form.complete seen with
        | .error missing => .error (.wrongLength missing form.title n)
        | .ok values => .ok (values, rest)
    else .error (wrongKind form.title b s)

theorem length_of_runRecord {form : Form α n} {r : Reader α} {s rest : Bytes} {values : Vector α n}
    (h : runRecord form r s = .ok (values, rest)) : rest.length < s.length := by
  rw [runRecord] at h
  split at h
  · cases h
  · have := length_of_dropBlank ‹_›
    split at h
    · split at h
      · cases h
      · have := length_of_members ‹_›
        split at h
        · cases h
        · cases h; omega
    · split at h
      · split at h
        · cases h
        · have := length_of_row ‹_›
          split at h
          · cases h
          · cases h; omega
      · cases h

/-- Records of a form, with the reader of their fields. -/
def record (form : Form α n) (r : Reader α) : Reader (Vector α n) where
  run := runRecord form r
  consumes := length_of_runRecord

theorem run_record (form : Form α n) (r : Reader α) : (record form r).run = runRecord form r := rfl

end Reader

end ReplicatedKv.Json
