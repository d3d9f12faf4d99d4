import ReplicatedKv.Proofs.Transaction.Containment
import ReplicatedKv.Proofs.Wire.Length

/-! # Faults of transactions

A malformed transaction is reported with the place that reading had come to and the cause.  Which
causes a place can have follows from what is read there: field keys and unknown fields in the
envelope and in a body, known payloads in a command field, its key and its value.

* `Wire.WireFault.OfKey`, `OfPayload`, `OfUnknown` — what can be wrong with a field key, with a
  payload that is wanted, and with a field that is skipped.
* `TransactionFault.Possible` — these at their places.
* `Wording` — the same as pairs of texts, a path and a cause.
* `Write.exists_malformedAs_iff` — bytes are malformed with these pairs of path and cause, and with
  no others.
-/

namespace ReplicatedKv

open Wire

namespace Wire

/-! ## Reading steps -/

/-- What can be wrong with a field key. -/
inductive WireFault.OfKey : WireFault → Prop where
  | invalidVarint : OfKey .invalidVarint
  | keyTooLarge {n : Nat} : UInt32.size ≤ n → n < UInt64.size → OfKey (.keyTooLarge n)
  | unknownWireType {code : Nat} : code = 6 ∨ code = 7 → OfKey (.unknownWireType code)
  | zeroNumber : OfKey .zeroNumber

/-- What can be wrong with the payload of a known field. -/
inductive WireFault.OfPayload : WireFault → Prop where
  | invalidVarint : OfPayload .invalidVarint
  | underflow : OfPayload .underflow
  | notDelimited {found : WireType} : found ≠ .lengthDelimited → OfPayload (.notDelimited found)

/-- What can be wrong with an unknown field, and with the fields inside it. -/
inductive WireFault.OfUnknown : WireFault → Prop where
  | ofKey {fault : WireFault} : OfKey fault → OfUnknown fault
  | underflow : OfUnknown .underflow
  | strayGroupEnd : OfUnknown .strayGroupEnd
  | tooDeep : OfUnknown .tooDeep

theorem eq_of_readVarint_eq_error {s : Bytes} {fault : WireFault}
    (failed : readVarint s = .error fault) : fault = .invalidVarint := by
  rw [readVarint] at failed
  split at failed
  · cases failed
  · cases failed
    rfl

theorem takeBytes_eq_error_iff {n : Nat} {s : Bytes} {fault : WireFault} :
    takeBytes n s = .error fault ↔ fault = .underflow ∧ s.length < n := by
  rw [takeBytes, Bytes.splitExact?]
  by_cases enough : n ≤ s.length
  · have full : (s.take n).length = n := by rw [List.length_take]; omega
    simp only [if_pos full, reduceCtorEq, false_iff]
    omega
  · have cut : (s.take n).length ≠ n := by rw [List.length_take]; omega
    simp only [if_neg cut, Except.error.injEq]
    constructor
    · intro same
      exact ⟨same.symm, by omega⟩
    · intro given
      exact given.1.symm

theorem readDelimited_error_cases {s : Bytes} {fault : WireFault}
    (failed : readDelimited s = .error fault) : fault = .invalidVarint ∨ fault = .underflow := by
  rw [readDelimited] at failed
  split at failed
  · exact .inr (takeBytes_eq_error_iff.mp failed).1
  next length =>
    cases failed
    exact .inl (eq_of_readVarint_eq_error length)

theorem WireType.code_of_ofCode?_eq_none :
    ∀ n < 8, ofCode? n = none → n = 6 ∨ n = 7 := by decide

namespace FieldKey

theorem ofKey_of_ofNat {n : Nat} {fault : WireFault} (fits : n < UInt64.size)
    (failed : ofNat n = .error fault) : fault.OfKey := by
  rw [ofNat] at failed
  split at failed
  next large =>
    cases failed
    exact .keyTooLarge large fits
  next =>
    split at failed
    next unknown =>
      cases failed
      have code : n % 8 < 8 := Nat.mod_lt n (by decide)
      exact .unknownWireType (WireType.code_of_ofCode?_eq_none _ code unknown)
    next =>
      split at failed
      · cases failed
        exact .zeroNumber
      · cases failed

theorem ofKey_of_read {s : Bytes} {fault : WireFault} (failed : read s = .error fault) :
    fault.OfKey := by
  rw [read] at failed
  split at failed
  next number =>
    cases failed
    rw [eq_of_readVarint_eq_error number]
    exact .invalidVarint
  next n rest number =>
    obtain ⟨t, -, spelled⟩ := readVarint_eq_ok_iff.mp number
    split at failed
    next decoded =>
      cases failed
      exact ofKey_of_ofNat spelled.lt decoded
    next => cases failed

end FieldKey

theorem ofUnknown_of_skipPayload {t : WireType} {s : Bytes} {fault : WireFault}
    (failed : skipPayload t s = .error fault) : fault.OfUnknown := by
  cases t with
  | varint =>
    rw [eq_of_readVarint_eq_error (map_eq_error_iff.mp failed)]
    exact .ofKey .invalidVarint
  | sixtyFourBit | thirtyTwoBit =>
    obtain ⟨rfl, -⟩ := takeBytes_eq_error_iff.mp (map_eq_error_iff.mp failed)
    exact .underflow
  | lengthDelimited =>
    obtain rfl | rfl := readDelimited_error_cases (map_eq_error_iff.mp failed)
    · exact .ofKey .invalidVarint
    · exact .underflow
  | startGroup | endGroup => cases failed

/-- Inside groups nothing goes wrong that could not go wrong with a field outside. -/
theorem ofUnknown_of_skipGroups {budget : Nat} {groups : List Nat} {s : Bytes} {fault : WireFault}
    (failed : skipGroups budget groups s = .error fault) : fault.OfUnknown := by
  -- the faults are those of one turn of the loop; a turn that succeeds leaves them to the next
  fun_induction skipGroups budget groups s with
  | case1 => cases failed
  | case2 number outer s first keyRead =>
    cases failed
    exact .ofKey (FieldKey.ofKey_of_read keyRead)
  | case3 outer s key tail keyRead closing ih => exact ih failed
  | case4 =>
    cases failed
    exact .strayGroupEnd
  | case5 =>
    cases failed
    exact .tooDeep
  | case6 number outer s key tail keyRead notEnd room starting ih => exact ih failed
  | case7 number outer s key tail keyRead notEnd room notStart first skipped =>
    cases failed
    exact ofUnknown_of_skipPayload skipped
  | case8 number outer s key tail keyRead notEnd room notStart left skipped ih => exact ih failed

theorem ofUnknown_of_skipField {budget : Nat} {key : FieldKey} {s : Bytes} {fault : WireFault}
    (failed : skipField budget key s = .error fault) : fault.OfUnknown := by
  rw [skipField] at failed
  split at failed
  · cases failed
    exact .tooDeep
  split at failed
  · exact ofUnknown_of_skipGroups failed
  · cases failed
    exact .strayGroupEnd
  · exact ofUnknown_of_skipPayload failed

end Wire

/-! ## Places -/

/-- What decoding can find at which place. -/
inductive TransactionFault.Possible : TransactionFault → Prop where
  | unknown {place : Location} {fault : WireFault} : place = .envelope ∨ place = .command →
      fault.OfUnknown → Possible ⟨place, fault⟩
  | known {place : Location} {fault : WireFault} : place ≠ .envelope →
      fault.OfPayload → Possible ⟨place, fault⟩
  | overrun : Possible ⟨.command, .overrun⟩

namespace Write

theorem located_eq_error_iff {α : Type} {place : Location} {step : Except WireFault α}
    {f : TransactionFault} :
    located place step = .error f ↔ ∃ fault, step = .error fault ∧ f = ⟨place, fault⟩ := by
  cases step with
  | ok => simp [located, Except.mapError]
  | error fault => simp [located, Except.mapError, eq_comm]

theorem ofPayload_of_readKnown {key : FieldKey} {s : Bytes} {fault : WireFault}
    (failed : readKnown key s = .error fault) : fault.OfPayload := by
  rw [readKnown] at failed
  split at failed
  · obtain rfl | rfl := readDelimited_error_cases failed
    · exact .invalidVarint
    · exact .underflow
  next notDelimited =>
    cases failed
    exact .notDelimited notDelimited

theorem possible_of_readKnown {place : Location} {key : FieldKey} {s : Bytes}
    {f : TransactionFault} (failed : located place (readKnown key s) = .error f)
    (inside : place ≠ .envelope) : f.Possible := by
  obtain ⟨fault, read, rfl⟩ := located_eq_error_iff.mp failed
  exact .known inside (ofPayload_of_readKnown read)

theorem possible_of_skipField {place : Location} {budget : Nat} {key : FieldKey} {s : Bytes}
    {f : TransactionFault} (failed : located place (skipField budget key s) = .error f)
    (outside : place = .envelope ∨ place = .command) : f.Possible := by
  obtain ⟨fault, skipped, rfl⟩ := located_eq_error_iff.mp failed
  exact .unknown outside (ofUnknown_of_skipField skipped)

theorem possible_of_mergeNext {w : Write} {s : Bytes} {f : TransactionFault}
    (failed : mergeNext w s = .error f) : f.Possible := by
  rw [mergeNext] at failed
  split at failed
  next keyRead =>
    cases failed
    exact .unknown (.inr rfl) (.ofKey (FieldKey.ofKey_of_read keyRead))
  next key rest keyRead =>
    rw [mergeField] at failed
    split at failed
    · exact possible_of_readKnown (map_eq_error_iff.mp failed) (by decide)
    split at failed
    · exact possible_of_readKnown (map_eq_error_iff.mp failed) (by decide)
    · exact possible_of_skipField (map_eq_error_iff.mp failed) (.inr rfl)

theorem possible_bodyFault (after : Bytes) (w : Write) (s : Bytes) :
    (bodyFault after w s).Possible := by
  rw [bodyFault]
  split
  next read => exact possible_of_mergeNext read
  next => exact .overrun

theorem possible_of_mergeBody {after : Bytes} {w : Write} {s : Bytes} {f : TransactionFault}
    (failed : mergeBody after w s = .error f) : f.Possible := by
  fun_induction mergeBody after w s with
  | case1 => cases failed
  | case2 w s =>
    cases failed
    exact possible_bodyFault after w s
  | case3 w s _ w' rest step ih => exact ih failed

theorem possible_of_mergeCommand {w : Write} {key : FieldKey} {s : Bytes} {f : TransactionFault}
    (failed : mergeCommand w key s = .error f) : f.Possible := by
  rw [mergeCommand] at failed
  split at failed
  next read =>
    cases failed
    exact possible_of_readKnown read (by decide)
  next => exact possible_of_mergeBody (map_eq_error_iff.mp failed)

theorem possible_of_mergeEnvelopeField {command : Option Write} {key : FieldKey} {s : Bytes}
    {f : TransactionFault} (failed : mergeEnvelopeField command key s = .error f) :
    f.Possible := by
  rw [mergeEnvelopeField] at failed
  split at failed
  · exact possible_of_mergeCommand (map_eq_error_iff.mp failed)
  · exact possible_of_skipField (map_eq_error_iff.mp failed) (.inl rfl)

theorem possible_of_mergeEnvelope {command : Option Write} {s : Bytes} {f : TransactionFault}
    (failed : mergeEnvelope command s = .error f) : f.Possible := by
  fun_induction mergeEnvelope command s with
  | case1 => cases failed
  | case2 command s _ fault keyRead =>
    cases failed
    exact .unknown (.inl rfl) (.ofKey (FieldKey.ofKey_of_read keyRead))
  | case3 command s _ key tail keyRead first step =>
    cases failed
    exact possible_of_mergeEnvelopeField step
  | case4 command s _ key tail keyRead next rest step ih => exact ih failed

/-! ## Every possible fault is found -/

theorem mergeEnvelope_of_unreadableKey {b : Bytes} {fault : WireFault} (nonempty : b ≠ [])
    (failed : FieldKey.read b = .error fault) :
    mergeEnvelope none b = .error ⟨.envelope, fault⟩ := by
  simp only [mergeEnvelope_of_ne_nil nonempty, failed]

/-- With nothing behind the body, its first unreadable field is the fault of the transaction. -/
theorem mergeEnvelope_of_unreadableField {b : Bytes} {f : TransactionFault} (nonempty : b ≠ [])
    (fits : b.length < UInt64.size) (failed : mergeNext {} b = .error f) :
    mergeEnvelope none (encodeDelimited 1 b) = .error f := by
  have body : mergeBody [] {} b = .error f := by
    simp only [mergeBody_of_ne_nil nonempty, failed, bodyFault, List.append_nil]
  have read := mergeEnvelope_encodeDelimited fits none []
  rwa [List.append_nil, Option.getD_none, body] at read

theorem exists_unreadableKey {fault : WireFault} (ofKey : fault.OfKey) :
    ∃ b : Bytes, b ≠ [] ∧ b.length ≤ 10 ∧ FieldKey.read b = .error fault := by
  cases ofKey with
  | invalidVarint => exact ⟨[0x80], List.cons_ne_nil _ _, by simp, rfl⟩
  | @keyTooLarge n large fits =>
    -- the number itself stands where a key is due
    have number : readVarint (Varint.encode n) = .ok (n, []) :=
      readVarint_eq_ok_iff.mpr ⟨_, (List.append_nil _).symm, Varint.spelling_encode fits⟩
    refine ⟨Varint.encode n, List.ne_nil_of_length_pos (Varint.length_encode_pos n), ?_, ?_⟩
    · exact (Varint.length_encode_le_iff (by decide)).mpr (Nat.lt_trans fits (by decide))
    · simp only [FieldKey.read, number, FieldKey.ofNat, if_pos large]
  | unknownWireType code =>
    obtain rfl | rfl := code
    · exact ⟨[0x0e], List.cons_ne_nil _ _, by simp, rfl⟩
    · exact ⟨[0x0f], List.cons_ne_nil _ _, by simp, rfl⟩
  | zeroNumber => exact ⟨[0x00], List.cons_ne_nil _ _, by simp, rfl⟩

/-- Bytes that are unreadable as an envelope and as a body, for the same reason. -/
theorem exists_unreadable {fault : WireFault} (ofUnknown : fault.OfUnknown) :
    ∃ b : Bytes, b ≠ [] ∧ b.length ≤ 101 ∧ mergeEnvelope none b = .error ⟨.envelope, fault⟩ ∧
      mergeNext {} b = .error ⟨.command, fault⟩ := by
  -- a field with the number 3 has no meaning on either level
  cases ofUnknown with
  | ofKey ofKey =>
    obtain ⟨b, nonempty, short, failed⟩ := exists_unreadableKey ofKey
    exact ⟨b, nonempty, by omega, mergeEnvelope_of_unreadableKey nonempty failed,
      by simp only [mergeNext, failed]⟩
  | underflow =>
    exact ⟨[0x19], List.cons_ne_nil _ _, by simp, by decide +kernel, by decide +kernel⟩
  | strayGroupEnd =>
    exact ⟨[0x1c], List.cons_ne_nil _ _, by simp, by decide +kernel, by decide +kernel⟩
  | tooDeep =>
    exact ⟨List.replicate 101 0x1b, List.cons_ne_nil _ _, by simp, by decide +kernel,
      by decide +kernel⟩

/-- A known field without any bytes behind its key, or with a length alone. -/
theorem exists_unreadableKnown {fault : WireFault} (ofPayload : fault.OfPayload) (number : Nat) :
    ∃ (t : WireType) (rest : Bytes), rest.length ≤ 1 ∧
      readKnown ⟨number, t⟩ rest = .error fault := by
  cases ofPayload with
  | invalidVarint => exact ⟨.lengthDelimited, [], by simp, rfl⟩
  | underflow => exact ⟨.lengthDelimited, [0x01], by simp, rfl⟩
  | @notDelimited found other => exact ⟨found, [], by simp, if_neg other⟩

theorem mergeEnvelope_of_unreadableCommand {t : WireType} {rest : Bytes} {fault : WireFault}
    (failed : readKnown ⟨1, t⟩ rest = .error fault) :
    mergeEnvelope none (FieldKey.encode ⟨1, t⟩ ++ rest) = .error ⟨.command, fault⟩ := by
  have key : FieldKey.read (FieldKey.encode ⟨1, t⟩ ++ rest) = .ok (⟨1, t⟩, rest) :=
    FieldKey.read_encode (FieldKey.toNat_lt_of_small _ (Nat.le_succ 1)) (Nat.le_refl 1) rest
  rw [mergeEnvelope_of_read key, mergeEnvelopeField, if_pos rfl, mergeCommand, failed]
  rfl

/-- A key or a value that is unreadable, as the only field of a body. -/
theorem exists_unreadablePart {number : Nat} {place : Location} {fault : WireFault}
    (ofPayload : fault.OfPayload) (positive : 1 ≤ number) (small : number ≤ 2)
    (names : ∀ key s, key.number = number → readKnown key s = .error fault →
      mergeField {} key s = .error ⟨place, fault⟩) :
    ∃ b, mergeEnvelope none b = .error ⟨place, fault⟩ := by
  obtain ⟨t, rest, short, failed⟩ := exists_unreadableKnown ofPayload number
  have fits := FieldKey.toNat_lt_of_small ⟨number, t⟩ small
  have keyRead := FieldKey.read_encode fits positive rest
  refine ⟨encodeDelimited 1 (FieldKey.encode ⟨number, t⟩ ++ rest),
    mergeEnvelope_of_unreadableField ?_ ?_ ?_⟩
  · exact List.append_ne_nil_of_left_ne_nil
      (List.ne_nil_of_length_pos (Varint.length_encode_pos _)) rest
  · have keyLength := FieldKey.length_encode_le fits
    rw [List.length_append]
    exact Nat.lt_of_le_of_lt (Nat.add_le_add keyLength short) (by decide)
  · simp only [mergeNext, keyRead]
    exact names _ _ rfl failed

/-- A fault in the payload of a command field, of a key or of a value. -/
theorem exists_unreadablePayload {place : Location} {fault : WireFault}
    (inside : place ≠ .envelope) (ofPayload : fault.OfPayload) :
    ∃ b, mergeEnvelope none b = .error ⟨place, fault⟩ := by
  cases place with
  | envelope => exact absurd rfl inside
  | command =>
    obtain ⟨t, rest, -, failed⟩ := exists_unreadableKnown ofPayload 1
    exact ⟨_, mergeEnvelope_of_unreadableCommand failed⟩
  | key =>
    apply exists_unreadablePart ofPayload (Nat.le_refl 1) (by decide)
    intro key s isKey failed
    rw [mergeField, if_pos isKey, failed]
    rfl
  | value =>
    apply exists_unreadablePart ofPayload (by decide) (Nat.le_refl 2)
    intro key s isValue failed
    rw [mergeField, if_neg (by omega), if_pos isValue, failed]
    rfl

/-- Each place has exactly these faults. -/
theorem exists_malformed_iff {f : TransactionFault} :
    (∃ raw, decode raw = .error (.malformed f)) ↔ f.Possible := by
  simp only [decode_malformed_iff]
  constructor
  · intro given
    obtain ⟨raw, failed⟩ := given
    exact possible_of_mergeEnvelope failed
  · intro possible
    cases possible with
    | unknown outside ofUnknown =>
      obtain ⟨b, nonempty, short, inEnvelope, inBody⟩ := exists_unreadable ofUnknown
      have fits : b.length < UInt64.size := Nat.lt_of_le_of_lt short (by decide)
      obtain rfl | rfl := outside
      · exact ⟨b, inEnvelope⟩
      · exact ⟨_, mergeEnvelope_of_unreadableField nonempty fits inBody⟩
    | known inside ofPayload => exact exists_unreadablePayload inside ofPayload
    | overrun => exact ⟨[0x0a, 0x02, 0x0a, 0x01, 0x61], by decide +kernel⟩

end Write

/-! ## Texts -/

namespace Wording

/-- The paths of faults in the envelope and in the body of a command. -/
def outerPaths : List String := ["", "TxProto.command: "]

/-- The paths of faults in a command field and in what it holds. -/
def innerPaths : List String :=
  ["TxProto.command: ", "WriteMsgProto.key: TxProto.command: ",
    "WriteMsgProto.value: TxProto.command: "]

/-- The names of the wire types that no known field has. -/
def otherWireTypes : List String :=
  ["Varint", "SixtyFourBit", "StartGroup", "EndGroup", "ThirtyTwoBit"]

theorem path_mem_outerPaths_iff {place : Location} :
    place.path ∈ outerPaths ↔ place = .envelope ∨ place = .command := by
  cases place <;> decide

theorem path_mem_innerPaths_iff {place : Location} :
    place.path ∈ innerPaths ↔ place ≠ .envelope := by
  cases place <;> decide

theorem label_mem_otherWireTypes_iff {t : WireType} :
    t.label ∈ otherWireTypes ↔ t ≠ .lengthDelimited := by
  cases t <;> decide

theorem exists_place_of_outerPaths {path : String} (member : path ∈ outerPaths) :
    ∃ place : Location, place.path = path := by
  simp only [outerPaths, List.mem_cons, List.not_mem_nil, or_false] at member
  obtain rfl | rfl := member
  · exact ⟨.envelope, rfl⟩
  · exact ⟨.command, rfl⟩

theorem exists_place_of_innerPaths {path : String} (member : path ∈ innerPaths) :
    ∃ place : Location, place.path = path := by
  simp only [innerPaths, List.mem_cons, List.not_mem_nil, or_false] at member
  obtain rfl | rfl | rfl := member
  · exact ⟨.command, rfl⟩
  · exact ⟨.key, rfl⟩
  · exact ⟨.value, rfl⟩

theorem exists_wireType_of_otherWireTypes {name : String} (member : name ∈ otherWireTypes) :
    ∃ t : WireType, t.label = name := by
  simp only [otherWireTypes, List.mem_cons, List.not_mem_nil, or_false] at member
  obtain rfl | rfl | rfl | rfl | rfl := member
  · exact ⟨.varint, rfl⟩
  · exact ⟨.sixtyFourBit, rfl⟩
  · exact ⟨.startGroup, rfl⟩
  · exact ⟨.endGroup, rfl⟩
  · exact ⟨.thirtyTwoBit, rfl⟩

end Wording

/-- The path and the cause with which a malformed transaction may be reported. -/
inductive Wording : (path cause : String) → Prop where
  | invalidVarint {path : String} : path ∈ Wording.outerPaths ++ Wording.innerPaths →
      Wording path "invalid varint"
  | underflow {path : String} : path ∈ Wording.outerPaths ++ Wording.innerPaths →
      Wording path "buffer underflow"
  | notDelimited {path name : String} : path ∈ Wording.innerPaths → name ∈ Wording.otherWireTypes →
      Wording path ("invalid wire type: " ++ name ++ " (expected LengthDelimited)")
  | overrun : Wording "TxProto.command: " "delimited length exceeded"
  | zeroNumber {path : String} : path ∈ Wording.outerPaths → Wording path "invalid tag value: 0"
  | keyTooLarge {path : String} {n : Nat} : path ∈ Wording.outerPaths → UInt32.size ≤ n →
      n < UInt64.size → Wording path ("invalid key value: " ++ toString n)
  | unknownWireType {path : String} {n : Nat} : path ∈ Wording.outerPaths → n = 6 ∨ n = 7 →
      Wording path ("invalid wire type value: " ++ toString n)
  | strayGroupEnd {path : String} : path ∈ Wording.outerPaths →
      Wording path "unexpected end group tag"
  | tooDeep {path : String} : path ∈ Wording.outerPaths → Wording path "recursion limit reached"

namespace Wording

theorem of_possible {f : TransactionFault} (possible : f.Possible) :
    Wording f.location.path f.fault.message := by
  cases possible with
  | unknown outside ofUnknown =>
    have outer := path_mem_outerPaths_iff.mpr outside
    have listed := List.mem_append_left innerPaths outer
    cases ofUnknown with
    | ofKey ofKey =>
      cases ofKey with
      | invalidVarint => exact .invalidVarint listed
      | keyTooLarge large fits => exact .keyTooLarge outer large fits
      | unknownWireType code => exact .unknownWireType outer code
      | zeroNumber => exact .zeroNumber outer
    | underflow => exact .underflow listed
    | strayGroupEnd => exact .strayGroupEnd outer
    | tooDeep => exact .tooDeep outer
  | known inside ofPayload =>
    have inner := path_mem_innerPaths_iff.mpr inside
    have listed := List.mem_append_right outerPaths inner
    cases ofPayload with
    | invalidVarint => exact .invalidVarint listed
    | underflow => exact .underflow listed
    | notDelimited other => exact .notDelimited inner (label_mem_otherWireTypes_iff.mpr other)
  | overrun => exact .overrun

/-- A fault that known payloads share with unknown fields may be found at every place. -/
theorem exists_possible_everywhere {fault : WireFault} (ofUnknown : fault.OfUnknown)
    (ofPayload : fault.OfPayload) {path : String} (listed : path ∈ outerPaths ++ innerPaths) :
    ∃ f : TransactionFault, f.Possible ∧ f.location.path = path ∧
      f.fault.message = fault.message := by
  cases List.mem_append.mp listed with
  | inl outer =>
    obtain ⟨place, rfl⟩ := exists_place_of_outerPaths outer
    exact ⟨_, .unknown (path_mem_outerPaths_iff.mp outer) ofUnknown, rfl, rfl⟩
  | inr inner =>
    obtain ⟨place, rfl⟩ := exists_place_of_innerPaths inner
    exact ⟨_, .known (path_mem_innerPaths_iff.mp inner) ofPayload, rfl, rfl⟩

theorem exists_possible_outer {fault : WireFault} (ofUnknown : fault.OfUnknown) {path : String}
    (outer : path ∈ outerPaths) :
    ∃ f : TransactionFault, f.Possible ∧ f.location.path = path ∧
      f.fault.message = fault.message := by
  obtain ⟨place, rfl⟩ := exists_place_of_outerPaths outer
  exact ⟨_, .unknown (path_mem_outerPaths_iff.mp outer) ofUnknown, rfl, rfl⟩

theorem exists_possible {path cause : String} (wording : Wording path cause) :
    ∃ f : TransactionFault, f.Possible ∧ f.location.path = path ∧ f.fault.message = cause := by
  cases wording with
  | invalidVarint listed =>
    exact exists_possible_everywhere (.ofKey .invalidVarint) .invalidVarint listed
  | underflow listed => exact exists_possible_everywhere .underflow .underflow listed
  | notDelimited inner other =>
    obtain ⟨place, rfl⟩ := exists_place_of_innerPaths inner
    obtain ⟨t, rfl⟩ := exists_wireType_of_otherWireTypes other
    have notDelimited := label_mem_otherWireTypes_iff.mp other
    exact ⟨_, .known (path_mem_innerPaths_iff.mp inner) (.notDelimited notDelimited), rfl, rfl⟩
  | overrun => exact ⟨_, .overrun, rfl, rfl⟩
  | zeroNumber outer => exact exists_possible_outer (.ofKey .zeroNumber) outer
  | keyTooLarge outer large fits =>
    exact exists_possible_outer (.ofKey (.keyTooLarge large fits)) outer
  | unknownWireType outer code =>
    exact exists_possible_outer (.ofKey (.unknownWireType code)) outer
  | strayGroupEnd outer => exact exists_possible_outer .strayGroupEnd outer
  | tooDeep outer => exact exists_possible_outer .tooDeep outer

end Wording

namespace Write

/-- Decoding reports the bytes as malformed, with this cause at this path. -/
def MalformedAs (raw : Bytes) (path cause : String) : Prop :=
  ∃ f : TransactionFault, decode raw = .error (.malformed f) ∧ f.location.path = path ∧
    f.fault.message = cause

/-- Bytes are malformed with a path and a cause of the vocabulary, and each such pair is met. -/
theorem exists_malformedAs_iff {path cause : String} :
    (∃ raw, MalformedAs raw path cause) ↔ Wording path cause := by
  constructor
  · intro given
    obtain ⟨raw, f, failed, rfl, rfl⟩ := given
    exact Wording.of_possible (exists_malformed_iff.mp ⟨raw, failed⟩)
  · intro wording
    obtain ⟨f, possible, samePath, sameCause⟩ := wording.exists_possible
    obtain ⟨raw, failed⟩ := exists_malformed_iff.mpr possible
    exact ⟨raw, f, failed, samePath, sameCause⟩

end Write

end ReplicatedKv
