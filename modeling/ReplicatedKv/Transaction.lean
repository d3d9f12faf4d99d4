import ReplicatedKv.Wire.Field

/-! # Transactions

A transaction is an envelope message whose field 1 holds a command message; a command writes the
value in its field 2 under the key in its field 1.

* `Write.encode`, `Write.encodeWrite` — the canonical bytes: empty key and value omitted, the command
  always present.
* `Write.decode` — reads any spelling that the wire format allows.  Unknown fields are skipped, the
  last key and the last value win, and a repeated command field continues the command before it.
* `DecodeError` — why bytes are no transaction.  The first fault in reading order is reported, with
  the place where it was found.
-/

namespace ReplicatedKv

open Wire

/-- A command: the value to write under a key. -/
structure Write where
  key : Bytes := []
  value : Bytes := []
  deriving DecidableEq

/-- The part of a transaction in which a fault was found. -/
inductive Location where
  | envelope
  /-- The command field: its form, its length, or its body outside key and value. -/
  | command
  | key
  | value
  deriving DecidableEq

/-- The path to a location, innermost part first. -/
def Location.path : Location → String
  | envelope => ""
  | command => "TxProto.command: "
  | key => "WriteMsgProto.key: TxProto.command: "
  | value => "WriteMsgProto.value: TxProto.command: "

/-- A fault and where it was found. -/
structure TransactionFault where
  location : Location
  fault : WireFault
  deriving DecidableEq

def TransactionFault.message (f : TransactionFault) : String :=
  "failed to decode Protobuf message: " ++ f.location.path ++ f.fault.message

/-- Why bytes are no transaction. -/
inductive DecodeError where
  | malformed (fault : TransactionFault)
  | missingCommand
  deriving DecidableEq

namespace DecodeError

/-- The wording of a malformed transaction, given what is wrong with it. -/
def malformedMessage (detail : String) : String := "malformed transaction: " ++ detail

def message : DecodeError → String
  | malformed fault => malformedMessage fault.message
  | missingCommand => "transaction carries no command"

end DecodeError

namespace Write

/-! ## Encoding -/

/-- A field that is left out where its payload is empty. -/
def encodeNonempty (number : Nat) (payload : Bytes) : Bytes :=
  if payload = [] then [] else encodeDelimited number payload

def encodeBody (w : Write) : Bytes := encodeNonempty 1 w.key ++ encodeNonempty 2 w.value

def encode (w : Write) : Bytes := encodeDelimited 1 w.encodeBody

/-- The transaction that writes a value under a key. -/
def encodeWrite (key value : Bytes) : Bytes := encode ⟨key, value⟩

/-! ## Decoding -/

/-- How many groups may nest in the envelope; inside the command there is one level less. -/
def nestingLimit : Nat := 100

/-- Names the place where a reading step failed. -/
def located {α : Type} (location : Location) (step : Except WireFault α) :
    Except TransactionFault α :=
  step.mapError fun fault => ⟨location, fault⟩

/-- Reads the payload of a known field, which has to be length-delimited. -/
def readKnown (key : FieldKey) (s : Bytes) : Except WireFault (Bytes × Bytes) :=
  if key.wireType = .lengthDelimited then readDelimited s
  else .error (.notDelimited key.wireType)

/-- Takes in the field of the body whose key has been read. -/
def mergeField (w : Write) (key : FieldKey) (s : Bytes) : Except TransactionFault (Write × Bytes) :=
  if key.number = 1 then
    (located .key (readKnown key s)).map fun (payload, rest) =>
      ({ w with key := payload }, rest)
  else if key.number = 2 then
    (located .value (readKnown key s)).map fun (payload, rest) =>
      ({ w with value := payload }, rest)
  else
    -- the command itself counts as one level
    (located .command (skipField (nestingLimit - 1) key s)).map fun rest => (w, rest)

theorem length_le_of_readKnown {key : FieldKey} {s payload rest : Bytes}
    (h : readKnown key s = .ok (payload, rest)) : rest.length ≤ s.length := by
  rw [readKnown] at h
  split at h
  · exact Nat.le_of_lt (length_lt_of_readDelimited h)
  · cases h

theorem located_eq_ok_iff {α : Type} {location : Location} {step : Except WireFault α} {a : α} :
    located location step = .ok a ↔ step = .ok a := by
  cases step with
  | error => constructor <;> intro h <;> cases h
  | ok => constructor <;> intro h <;> cases h <;> rfl

theorem length_le_of_mergeField {w w' : Write} {key : FieldKey} {s rest : Bytes}
    (h : mergeField w key s = .ok (w', rest)) : rest.length ≤ s.length := by
  have ofMap {α : Type} {step : Except TransactionFault α} {f : α → Write × Bytes}
      (h : step.map f = .ok (w', rest)) : ∃ a, step = .ok a ∧ (f a).2 = rest := by
    cases step with
    | error => cases h
    | ok a => exact ⟨a, rfl, congrArg Prod.snd (Except.ok.inj h)⟩
  rw [mergeField] at h
  split at h
  · obtain ⟨⟨_, _⟩, read, rfl⟩ := ofMap h
    exact length_le_of_readKnown (located_eq_ok_iff.mp read)
  · split at h
    · obtain ⟨⟨_, _⟩, read, rfl⟩ := ofMap h
      exact length_le_of_readKnown (located_eq_ok_iff.mp read)
    · obtain ⟨_, skipped, rfl⟩ := ofMap h
      exact length_le_of_skipField (located_eq_ok_iff.mp skipped)

/-- Takes in the field at the front of a body. -/
def mergeNext (w : Write) (s : Bytes) : Except TransactionFault (Write × Bytes) :=
  match FieldKey.read s with
  | .error fault => .error ⟨.command, fault⟩
  | .ok (key, rest) => mergeField w key rest

theorem length_lt_of_mergeNext {w w' : Write} {s rest : Bytes}
    (h : mergeNext w s = .ok (w', rest)) : rest.length < s.length := by
  rw [mergeNext] at h
  split at h
  · cases h
  · exact Nat.lt_of_le_of_lt (length_le_of_mergeField h) (FieldKey.length_lt_of_read ‹_›)

/-- What is wrong with a field that cannot be read from the rest of its body alone, where `after`
    stands behind the body.  A length is checked against all bytes that remain, so the field is
    read on into `after`; where that succeeds, it ends behind its body. -/
def bodyFault (after : Bytes) (w : Write) (s : Bytes) : TransactionFault :=
  match mergeNext w (s ++ after) with
  | .error fault => fault
  | .ok _ => ⟨.command, .overrun⟩

/-- Takes in the fields of a body with `after` behind it.  The last field has to end where the body
    does. -/
def mergeBody (after : Bytes) (w : Write) (s : Bytes) : Except TransactionFault Write :=
  if s = [] then .ok w
  else
    match _merged : mergeNext w s with
    -- reading stops at the end of the body, but faults are named as if it went on
    | .error _ => .error (bodyFault after w s)
    | .ok (w, rest) => mergeBody after w rest
termination_by s.length
decreasing_by exact length_lt_of_mergeNext _merged

/-- Takes in a command field whose key has been read. -/
def mergeCommand (w : Write) (key : FieldKey) (s : Bytes) :
    Except TransactionFault (Write × Bytes) :=
  match located .command (readKnown key s) with
  | .error fault => .error fault
  | .ok (body, rest) => (mergeBody rest w body).map fun w => (w, rest)

theorem length_le_of_mergeCommand {w w' : Write} {key : FieldKey} {s rest : Bytes}
    (h : mergeCommand w key s = .ok (w', rest)) : rest.length ≤ s.length := by
  rw [mergeCommand] at h
  split at h
  · cases h
  · rename_i body left read
    cases merged : mergeBody left w body with
    | error => rw [merged] at h; cases h
    | ok =>
      rw [merged] at h
      cases h
      exact length_le_of_readKnown (located_eq_ok_iff.mp read)

/-- Takes in the field of the envelope whose key has been read. -/
def mergeEnvelopeField (command : Option Write) (key : FieldKey) (s : Bytes) :
    Except TransactionFault (Option Write × Bytes) :=
  if key.number = 1 then
    -- a second command field goes on with the command of the first
    (mergeCommand (command.getD {}) key s).map fun (w, rest) => (some w, rest)
  else
    (located .envelope (skipField nestingLimit key s)).map fun rest => (command, rest)

theorem length_le_of_mergeEnvelopeField {command command' : Option Write} {key : FieldKey}
    {s rest : Bytes} (h : mergeEnvelopeField command key s = .ok (command', rest)) :
    rest.length ≤ s.length := by
  rw [mergeEnvelopeField] at h
  split at h
  · cases step : mergeCommand (command.getD {}) key s with
    | error => rw [step] at h; cases h
    | ok found => rw [step] at h; cases h; exact length_le_of_mergeCommand step
  · cases step : located .envelope (skipField nestingLimit key s) with
    | error => rw [step] at h; cases h
    | ok found =>
      rw [step] at h
      cases h
      exact length_le_of_skipField (located_eq_ok_iff.mp step)

/-- Takes in the fields of the envelope, after the command read so far. -/
def mergeEnvelope (command : Option Write) (s : Bytes) : Except TransactionFault (Option Write) :=
  if s = [] then .ok command
  else
    match _keyRead : FieldKey.read s with
    | .error fault => .error ⟨.envelope, fault⟩
    | .ok (key, rest) =>
      match _merged : mergeEnvelopeField command key rest with
      | .error fault => .error fault
      | .ok (command, rest) => mergeEnvelope command rest
termination_by s.length
decreasing_by
  exact Nat.lt_of_le_of_lt (length_le_of_mergeEnvelopeField _merged)
    (FieldKey.length_lt_of_read _keyRead)

def decode (raw : Bytes) : Except DecodeError Write :=
  match mergeEnvelope none raw with
  | .error fault => .error (.malformed fault)
  | .ok none => .error .missingCommand
  | .ok (some w) => .ok w

end Write

end ReplicatedKv
