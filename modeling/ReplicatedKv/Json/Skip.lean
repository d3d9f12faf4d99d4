import ReplicatedKv.Json.Number

/-! # Skipping values

A value that nobody wants is checked for its form only, whatever it nests and however deeply.  The
containers that are open are kept in a list, the innermost first.
-/

namespace ReplicatedKv.Json

/-- A list or an object. -/
inductive Container where
  | list
  | object
  deriving DecidableEq

namespace Container

def closing : Container → UInt8
  | list => closeList
  | object => closeObject

/-- The fault of a document that ends in a container. -/
def unfinished : Container → Fault
  | list => .endInList
  | object => .endInObject

/-- The fault of a container whose parts are not separated. -/
def unseparated : Container → Fault
  | list => .expectedListSeparator
  | object => .expectedObjectSeparator

end Container

/-- What comes next while values are skipped. -/
inductive Due where
  /-- A value. -/
  | value
  /-- The first part of a container just opened, or its end. -/
  | first (c : Container)
  /-- A member of the innermost container. -/
  | member
  /-- More of the innermost container, or its end. -/
  | more
  deriving DecidableEq

namespace Due

/-- A part of a container: a value or a member. -/
def part : Container → Due
  | .list => value
  | .object => member

/-- Bounds the steps that can be made without reading a byte. -/
def rank : Due → Nat
  | first _ => 1
  | _ => 0

@[simp] theorem rank_part (c : Container) : (part c).rank = 0 := by cases c <;> rfl

end Due

/-- Reads the start of a value: all of a scalar, or the byte that opens a container. -/
def skipScalar (b : UInt8) (s : Bytes) : Except Fault (Option Container × Bytes) :=
  if b = 0x6e then (readLiteral nullRest s).map (none, ·)
  else if b = 0x74 then (readLiteral trueRest s).map (none, ·)
  else if b = 0x66 then (readLiteral falseRest s).map (none, ·)
  else if b = minus then (skipNumber s).map (none, ·)
  else if isDigit b then (skipNumber (b :: s)).map (none, ·)
  else if b = quote then (skipText s).map (none, ·)
  else if b = openList then .ok (some .list, s)
  else if b = openObject then .ok (some .object, s)
  else .error .expectedValue

/-- Drops a member's name and colon, from its opening quote on. -/
def skipName (s : Bytes) : Except Fault Bytes :=
  match dropBlank s with
  | [] => .error .endInObject
  | b :: s =>
    if b = quote then
      match skipText s with
      | .error fault => .error fault
      | .ok s =>
        match dropBlank s with
        | [] => .error .endInObject
        | b :: s => if b = colon then .ok s else .error .expectedColon
    else .error .nameNotText

theorem length_le_of_skipScalar {b : UInt8} {s rest : Bytes} {c : Option Container}
    (h : skipScalar b s = .ok (c, rest)) : rest.length ≤ s.length := by
  have ofMap {opened : Option Container} {step : Except Fault Bytes}
      (h : step.map (opened, ·) = .ok (c, rest)) : step = .ok rest := by
    cases step with
    | error => cases h
    | ok => cases h; rfl
  rw [skipScalar] at h
  split at h
  · exact length_le_of_readLiteral (ofMap h)
  split at h
  · exact length_le_of_readLiteral (ofMap h)
  split at h
  · exact length_le_of_readLiteral (ofMap h)
  split at h
  · exact Nat.le_of_lt (length_lt_of_skipNumber (ofMap h))
  split at h
  · exact Nat.le_of_lt_succ (length_lt_of_skipNumber (ofMap h))
  split at h
  · exact Nat.le_of_lt (length_lt_of_skipText (ofMap h))
  split at h
  · cases h; exact Nat.le_refl _
  split at h
  · cases h; exact Nat.le_refl _
  · cases h

theorem length_lt_of_skipName {s rest : Bytes} (h : skipName s = .ok rest) :
    rest.length < s.length := by
  have blank := length_dropBlank_le s
  rw [skipName] at h
  split at h
  · cases h
  · rename_i eq
    rw [eq, List.length_cons] at blank
    split at h
    · split at h
      · cases h
      · rename_i tail found
        have := length_lt_of_skipText found
        have inner := length_dropBlank_le tail
        split at h
        · cases h
        · rename_i eq
          rw [eq, List.length_cons] at inner
          split at h
          · cases h; omega
          · cases h
    · cases h

/-- Drops what is due and everything up to the end of the open containers. -/
def skip (due : Due) (containers : List Container) (s : Bytes) : Except Fault Bytes :=
  match due, containers with
  | .value, outer =>
    match _blank : dropBlank s with
    | [] => .error .endInValue
    | b :: s =>
      match _scalar : skipScalar b s with
      | .error fault => .error fault
      | .ok (none, s) => skip .more outer s
      | .ok (some c, s) => skip (.first c) outer s
  | .first c, outer =>
    match _blank : dropBlank s with
    | [] => .error c.unfinished
    | b :: s =>
      if b = c.closing then skip .more outer s
      -- the byte belongs to the first part
      else skip (.part c) (c :: outer) (b :: s)
  | .member, outer =>
    match _name : skipName s with
    | .error fault => .error fault
    | .ok s => skip .value outer s
  | .more, [] => .ok s
  | .more, c :: outer =>
    match _blank : dropBlank s with
    | [] => .error c.unfinished
    | b :: s =>
      if b = comma then skip (.part c) (c :: outer) s
      else if b = c.closing then skip .more outer s
      else .error c.unseparated
-- an opened container is looked into without reading a byte
termination_by (s.length, due.rank)
decreasing_by
  all_goals simp only [Prod.lex_def, Due.rank_part]
  all_goals try simp only [Due.rank]
  · have := length_of_dropBlank _blank
    have := length_le_of_skipScalar _scalar
    omega
  · have := length_of_dropBlank _blank
    have := length_le_of_skipScalar _scalar
    omega
  · have := length_of_dropBlank _blank
    omega
  · have := length_of_dropBlank _blank
    simp only [List.length_cons]
    omega
  · have := length_lt_of_skipName _name
    omega
  · have := length_of_dropBlank _blank
    omega
  · have := length_of_dropBlank _blank
    omega

def skipValue (s : Bytes) : Except Fault Bytes := skip .value [] s

theorem length_le_of_skip {due : Due} {containers : List Container} {s rest : Bytes}
    (h : skip due containers s = .ok rest) : rest.length ≤ s.length := by
  fun_induction skip due containers s with
  | case3 outer s b tail blank left scalar ih =>
    have := length_of_dropBlank blank
    have := length_le_of_skipScalar scalar
    have := ih h
    omega
  | case4 outer s b tail blank left c scalar ih =>
    have := length_of_dropBlank blank
    have := length_le_of_skipScalar scalar
    have := ih h
    omega
  | case6 s c outer tail blank ih =>
    have := length_of_dropBlank blank
    have := ih h
    omega
  | case7 s c outer b tail blank _ ih =>
    have := length_of_dropBlank blank
    have := ih h
    simp only [List.length_cons] at this
    omega
  | case9 outer s left name ih =>
    have := length_lt_of_skipName name
    have := ih h
    omega
  | case10 s => cases h; exact Nat.le_refl _
  | case12 s c outer tail blank ih =>
    have := length_of_dropBlank blank
    have := ih h
    omega
  | case13 s c outer tail blank _ ih =>
    have := length_of_dropBlank blank
    have := ih h
    omega
  | _ => cases h

/-- A value that is dropped has at least one byte. -/
theorem length_lt_of_skipValue {s rest : Bytes} (h : skipValue s = .ok rest) :
    rest.length < s.length := by
  rw [skipValue] at h
  rw [skip] at h
  split at h
  · cases h
  · have := length_of_dropBlank ‹_›
    split at h
    · cases h
    · have := length_le_of_skipScalar ‹_›
      have := length_le_of_skip h
      omega
    · have := length_le_of_skipScalar ‹_›
      have := length_le_of_skip h
      omega

end ReplicatedKv.Json
