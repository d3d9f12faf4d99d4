import ReplicatedKv.Json.Skip

/-! # Readers

A reader takes a value of one kind from the front of a document.  Readers are put together from
smaller ones.

* `Reader.text` — a string.
* `Reader.list` — a list of values of one kind.
* `Reader.document` — a document that holds one value and nothing else.
-/

namespace ReplicatedKv.Json

/-- Takes a value from the front, of which there has to be at least one byte. -/
structure Reader (α : Type) where
  run : Bytes → Except Fault (α × Bytes)
  consumes : ∀ {s rest : Bytes} {a : α}, run s = .ok (a, rest) → rest.length < s.length

/-- Names the value that begins with `b`, where one of another kind was expected. -/
def findKind (b : UInt8) (s : Bytes) : Except Fault Found :=
  if b = 0x6e then (readLiteral nullRest s).map fun _ => .null
  else if b = 0x74 then (readLiteral trueRest s).map fun _ => .boolean true
  else if b = 0x66 then (readLiteral falseRest s).map fun _ => .boolean false
  else if b = minus then readNumber true s
  else if isDigit b then readNumber false (b :: s)
  else if b = quote then (readText s).map fun found => .text found.1
  else if b = openList then .ok .list
  else if b = openObject then .ok .object
  else .error .expectedValue

/-- The fault of a value that begins with `b`, where one of another kind was expected.  What is
    wrong with the value itself comes first. -/
def wrongKind (expected : String) (b : UInt8) (s : Bytes) : Fault :=
  match findKind b s with
  | .ok found => .wrongType found expected
  | .error fault => fault

namespace Reader

variable {α β : Type}

def map (f : α → β) (r : Reader α) : Reader β where
  run s := (r.run s).map fun (a, rest) => (f a, rest)
  consumes {s rest b} h := by
    cases found : r.run s with
    | error => rw [found] at h; cases h
    | ok pair => rw [found] at h; cases h; exact r.consumes found

theorem run_map (f : α → β) (r : Reader α) (s : Bytes) :
    (r.map f).run s = (r.run s).map fun (a, rest) => (f a, rest) := rfl

/-! ## Strings -/

def runText (s : Bytes) : Except Fault (String × Bytes) :=
  match dropBlank s with
  | [] => .error .endInValue
  | b :: s => if b = quote then readText s else .error (wrongKind "a string" b s)

theorem length_lt_of_runText {s rest : Bytes} {text : String}
    (h : runText s = .ok (text, rest)) : rest.length < s.length := by
  rw [runText] at h
  split at h
  · cases h
  · have := length_of_dropBlank ‹_›
    split at h
    · have := length_lt_of_readText h
      omega
    · cases h

def text : Reader String where
  run := runText
  consumes := length_lt_of_runText

theorem run_text : text.run = runText := rfl

/-! ## Lists -/

/-- What follows in an open container: its end, or another part, with the bytes after it. -/
inductive Next where
  | closed (rest : Bytes)
  | part (rest : Bytes)

def nextElement (isFirst : Bool) (s : Bytes) : Except Fault Next :=
  match dropBlank s with
  | [] => .error .endInList
  | b :: s =>
    if b = closeList then .ok (.closed s)
    else if isFirst then .ok (.part (b :: s))
    else if b = comma then
      match dropBlank s with
      | [] => .error .endInValue
      | b :: s => if b = closeList then .error .trailingComma else .ok (.part (b :: s))
    else .error .expectedListSeparator

theorem length_of_nextElement_closed {isFirst : Bool} {s rest : Bytes}
    (h : nextElement isFirst s = .ok (.closed rest)) : rest.length < s.length := by
  rw [nextElement] at h
  split at h
  · cases h
  · have := length_of_dropBlank ‹_›
    split at h
    · cases h; assumption
    · split at h
      · cases h
      · split at h
        · split at h
          · cases h
          · split at h <;> cases h
        · cases h

theorem length_of_nextElement_part {isFirst : Bool} {s rest : Bytes}
    (h : nextElement isFirst s = .ok (.part rest)) : rest.length ≤ s.length := by
  rw [nextElement] at h
  split at h
  · cases h
  · have := length_of_dropBlank ‹_›
    split at h
    · cases h
    · split at h
      · cases h; exact this
      · split at h
        · split at h
          · cases h
          · have := length_of_dropBlank ‹_›
            split at h
            · cases h
            · cases h
              simp only [List.length_cons]
              omega
        · cases h

/-- Reads the elements of an open list and its end. -/
def elements (r : Reader α) (isFirst : Bool) (s : Bytes) : Except Fault (List α × Bytes) :=
  match _next : nextElement isFirst s with
  | .error fault => .error fault
  | .ok (.closed rest) => .ok ([], rest)
  | .ok (.part s) =>
    match _element : r.run s with
    | .error fault => .error fault
    | .ok (a, s) =>
      match elements r false s with
      | .error fault => .error fault
      | .ok (others, rest) => .ok (a :: others, rest)
termination_by s.length
decreasing_by
  have := length_of_nextElement_part _next
  have := r.consumes _element
  omega

theorem length_lt_of_elements {r : Reader α} {isFirst : Bool} {s rest : Bytes} {as : List α}
    (h : elements r isFirst s = .ok (as, rest)) : rest.length < s.length := by
  fun_induction elements r isFirst s generalizing as rest with
  | case2 isFirst s left next => cases h; exact length_of_nextElement_closed next
  | case5 isFirst s tail next a left element others last step ih =>
    have := length_of_nextElement_part next
    have := r.consumes element
    have := ih step
    cases h
    omega
  | _ => cases h

def runList (r : Reader α) (s : Bytes) : Except Fault (List α × Bytes) :=
  match dropBlank s with
  | [] => .error .endInValue
  | b :: s => if b = openList then elements r true s else .error (wrongKind "a sequence" b s)

theorem length_lt_of_runList {r : Reader α} {s rest : Bytes} {as : List α}
    (h : runList r s = .ok (as, rest)) : rest.length < s.length := by
  rw [runList] at h
  split at h
  · cases h
  · have := length_of_dropBlank ‹_›
    split at h
    · have := length_lt_of_elements h
      omega
    · cases h

def list (r : Reader α) : Reader (List α) where
  run := runList r
  consumes := length_lt_of_runList

theorem run_list (r : Reader α) : (list r).run = runList r := rfl

/-! ## Documents -/

/-- Reads a document that holds one value, with nothing but blanks after it. -/
def document (r : Reader α) (s : Bytes) : Except Fault α :=
  match r.run s with
  | .error fault => .error fault
  | .ok (a, rest) => if dropBlank rest = [] then .ok a else .error .trailingInput

end Reader

end ReplicatedKv.Json
