import ReplicatedKv.Wire.Varint

/-! # Fields

A message is a sequence of fields.  A field is a key, which gives its number and wire type, and a
payload in the form of that wire type.

* `WireFault` — what can be wrong with a field, with its wording.
* `FieldKey.read` — the key at the front.
* `readDelimited`, `skipPayload` — a payload that is wanted, a payload that is not.
* `skipField` — the rest of an unknown field, groups included, within a nesting budget.

A length is checked against all bytes that remain, not against the message that it stands in.
-/

namespace ReplicatedKv.Wire

/-- The form of a payload. -/
inductive WireType where
  | varint
  | sixtyFourBit
  | lengthDelimited
  | startGroup
  | endGroup
  | thirtyTwoBit
  deriving DecidableEq

namespace WireType

def ofCode? : Nat → Option WireType
  | 0 => some varint
  | 1 => some sixtyFourBit
  | 2 => some lengthDelimited
  | 3 => some startGroup
  | 4 => some endGroup
  | 5 => some thirtyTwoBit
  | _ => none

def code : WireType → Nat
  | varint => 0
  | sixtyFourBit => 1
  | lengthDelimited => 2
  | startGroup => 3
  | endGroup => 4
  | thirtyTwoBit => 5

def label : WireType → String
  | varint => "Varint"
  | sixtyFourBit => "SixtyFourBit"
  | lengthDelimited => "LengthDelimited"
  | startGroup => "StartGroup"
  | endGroup => "EndGroup"
  | thirtyTwoBit => "ThirtyTwoBit"

@[simp] theorem ofCode?_code (t : WireType) : ofCode? t.code = some t := by cases t <;> rfl

end WireType

/-- Why a field cannot be read. -/
inductive WireFault where
  /-- The bytes end inside a varint, or it does not fit into 64 bits. -/
  | invalidVarint
  /-- A field key that does not fit into 32 bits. -/
  | keyTooLarge (key : Nat)
  | unknownWireType (code : Nat)
  | zeroNumber
  /-- A known field whose payload is not length-delimited. -/
  | notDelimited (found : WireType)
  /-- A payload that is longer than all bytes that remain. -/
  | underflow
  /-- A message whose last field ends behind the message. -/
  | overrun
  /-- The end of a group that is not the innermost open one. -/
  | strayGroupEnd
  | tooDeep
  deriving DecidableEq

def WireFault.message : WireFault → String
  | invalidVarint => "invalid varint"
  | keyTooLarge key => "invalid key value: " ++ toString key
  | unknownWireType code => "invalid wire type value: " ++ toString code
  | zeroNumber => "invalid tag value: 0"
  | notDelimited found => "invalid wire type: " ++ found.label ++ " (expected LengthDelimited)"
  | underflow => "buffer underflow"
  | overrun => "delimited length exceeded"
  | strayGroupEnd => "unexpected end group tag"
  | tooDeep => "recursion limit reached"

def readVarint (s : Bytes) : Except WireFault (Nat × Bytes) :=
  match Varint.decode? s with
  | some found => .ok found
  | none => .error .invalidVarint

def takeBytes (n : Nat) (s : Bytes) : Except WireFault (Bytes × Bytes) :=
  match s.splitExact? n with
  | some parts => .ok parts
  | none => .error .underflow

def readDelimited (s : Bytes) : Except WireFault (Bytes × Bytes) :=
  match readVarint s with
  | .ok (n, rest) => takeBytes n rest
  | .error fault => .error fault

theorem length_lt_of_readVarint {n : Nat} {s rest : Bytes} (h : readVarint s = .ok (n, rest)) :
    rest.length < s.length := by
  rw [readVarint] at h
  split at h
  · cases h; exact Varint.length_lt_of_decode? ‹_›
  · cases h

theorem length_takeBytes {n : Nat} {s taken rest : Bytes} (h : takeBytes n s = .ok (taken, rest)) :
    s.length = n + rest.length := by
  rw [takeBytes] at h
  split at h
  · cases h
    obtain ⟨rfl, rfl⟩ := Bytes.splitExact?_eq_some_iff.mp ‹_›
    simp
  · cases h

theorem length_lt_of_readDelimited {s payload rest : Bytes}
    (h : readDelimited s = .ok (payload, rest)) : rest.length < s.length := by
  rw [readDelimited] at h
  split at h
  · have := length_lt_of_readVarint ‹_›
    have := length_takeBytes h
    omega
  · cases h

/-! ## Keys -/

/-- The number of a field and the form of its payload. -/
structure FieldKey where
  number : Nat
  wireType : WireType
  deriving DecidableEq

namespace FieldKey

def ofNat (n : Nat) : Except WireFault FieldKey :=
  if UInt32.size ≤ n then .error (.keyTooLarge n)
  else match WireType.ofCode? (n % 8) with
    | none => .error (.unknownWireType (n % 8))
    | some wireType => if n / 8 = 0 then .error .zeroNumber else .ok ⟨n / 8, wireType⟩

def toNat (key : FieldKey) : Nat := 8 * key.number + key.wireType.code

def read (s : Bytes) : Except WireFault (FieldKey × Bytes) :=
  match readVarint s with
  | .error fault => .error fault
  | .ok (n, rest) =>
    match ofNat n with
    | .error fault => .error fault
    | .ok key => .ok (key, rest)

def encode (key : FieldKey) : Bytes := Varint.encode key.toNat

theorem length_lt_of_read {s rest : Bytes} {key : FieldKey} (h : read s = .ok (key, rest)) :
    rest.length < s.length := by
  rw [read] at h
  split at h
  · cases h
  · split at h
    · cases h
    · cases h; exact length_lt_of_readVarint ‹_›

end FieldKey

def encodeDelimited (number : Nat) (payload : Bytes) : Bytes :=
  FieldKey.encode ⟨number, .lengthDelimited⟩ ++ Varint.encode payload.length ++ payload

/-! ## Skipping -/

/-- Drops a payload that is no group.  Keys that open or end a group have no bytes after them. -/
def skipPayload : WireType → Bytes → Except WireFault Bytes
  | .varint, s => (readVarint s).map Prod.snd
  | .sixtyFourBit, s => (takeBytes 8 s).map Prod.snd
  | .lengthDelimited, s => (readDelimited s).map Prod.snd
  | .thirtyTwoBit, s => (takeBytes 4 s).map Prod.snd
  | .startGroup, s => .ok s
  | .endGroup, s => .ok s

theorem length_le_of_skipPayload {t : WireType} {s rest : Bytes}
    (h : skipPayload t s = .ok rest) : rest.length ≤ s.length := by
  cases t <;> simp only [skipPayload] at h
  case varint =>
    obtain ⟨_, h⟩ := exists_of_map_snd h
    exact Nat.le_of_lt (length_lt_of_readVarint h)
  case lengthDelimited =>
    obtain ⟨_, h⟩ := exists_of_map_snd h
    exact Nat.le_of_lt (length_lt_of_readDelimited h)
  case sixtyFourBit =>
    obtain ⟨_, h⟩ := exists_of_map_snd h
    have := length_takeBytes h
    omega
  case thirtyTwoBit =>
    obtain ⟨_, h⟩ := exists_of_map_snd h
    have := length_takeBytes h
    omega
  all_goals cases h; exact Nat.le_refl _

/-- Skips to the end of the open groups, given by their numbers, the innermost first.  A field
    inside as many groups as the budget allows is too deep. -/
def skipGroups (budget : Nat) : (groups : List Nat) → Bytes → Except WireFault Bytes
  | [], s => .ok s
  | number :: outer, s =>
    match _keyRead : FieldKey.read s with
    | .error fault => .error fault
    | .ok (key, rest) =>
      -- an end key is no field, so it may stand where a field would be too deep
      if key.wireType = .endGroup then
        if key.number = number then skipGroups budget outer rest else .error .strayGroupEnd
      else if budget ≤ outer.length + 1 then .error .tooDeep
      else if key.wireType = .startGroup then
        skipGroups budget (key.number :: number :: outer) rest
      else
        match _skipped : skipPayload key.wireType rest with
        | .error fault => .error fault
        | .ok rest => skipGroups budget (number :: outer) rest
termination_by _ s => s.length
decreasing_by
  · exact FieldKey.length_lt_of_read _keyRead
  · exact FieldKey.length_lt_of_read _keyRead
  · exact Nat.lt_of_le_of_lt (length_le_of_skipPayload _skipped)
      (FieldKey.length_lt_of_read _keyRead)

def skipField (budget : Nat) (key : FieldKey) (s : Bytes) : Except WireFault Bytes :=
  -- the budget is looked at before the wire type, so it decides between the two faults
  if budget = 0 then .error .tooDeep
  else match key.wireType with
    | .startGroup => skipGroups budget [key.number] s
    | .endGroup => .error .strayGroupEnd
    | wireType => skipPayload wireType s

theorem length_le_of_skipGroups {budget : Nat} {groups : List Nat} {s rest : Bytes}
    (h : skipGroups budget groups s = .ok rest) : rest.length ≤ s.length := by
  fun_induction skipGroups budget groups s with
  | case1 s => cases h; exact Nat.le_refl _
  | case2 => cases h
  | case3 outer s key tail keyRead _ ih =>
    have := FieldKey.length_lt_of_read keyRead
    have := ih h
    omega
  | case4 => cases h
  | case5 => cases h
  | case6 number outer s key tail keyRead _ _ _ ih =>
    have := FieldKey.length_lt_of_read keyRead
    have := ih h
    omega
  | case7 => cases h
  | case8 number outer s key tail keyRead _ _ _ left skipped ih =>
    have := FieldKey.length_lt_of_read keyRead
    have := length_le_of_skipPayload skipped
    have := ih h
    omega

theorem length_le_of_skipField {budget : Nat} {key : FieldKey} {s rest : Bytes}
    (h : skipField budget key s = .ok rest) : rest.length ≤ s.length := by
  rw [skipField] at h
  split at h
  · cases h
  · split at h
    · exact length_le_of_skipGroups h
    · cases h
    · exact length_le_of_skipPayload h

end ReplicatedKv.Wire
