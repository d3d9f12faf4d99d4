import ReplicatedKv.Proofs.Transaction.Faults
import ReplicatedKv.Proofs.Wire.Nesting

/-! # Nested groups in transactions

Groups are unknown fields wherever they stand in a transaction, and they may nest: a hundred deep in
the envelope, and one less in the body of a command, which is one level down itself.

* `Write.mergeEnvelope_opens`, `Write.mergeBody_opens` — more keys that open groups are a fault.
* `Write.mergeEnvelope_nest`, `Write.mergeBody_nest` — so many closed groups are passed over.
* `Write.NestingStops` — both limits, on either side.
* `Write.nestingStops` — they hold behind all readable bytes.
-/

namespace ReplicatedKv

open Wire

/-- A nest is a message where its first group has no meaning and there are not too many. -/
theorem IsMessage.of_nest {known : List Nat} {limit : Nat} {numbers : List Nat} {s : Bytes}
    (nest : Nest numbers s) (unknown : FirstUnknown known numbers)
    (short : numbers.length ≤ limit) : IsMessage known limit (Field.nest numbers) s where
  sequence := nest.sequence
  delimited := by
    intro f member isKnown
    exact absurd isKnown (unknown f.number (Field.number_mem_head?_of_nest member))
  nested := Field.within_nest short

namespace Write

/-! ## The envelope -/

theorem mergeEnvelope_opens {numbers : List Nat} {s : Bytes} (opens : Opens numbers s)
    (many : 101 ≤ numbers.length) (unknown : FirstUnknown [1] numbers) (command : Option Write)
    (after : Bytes) : mergeEnvelope command (s ++ after) = .error ⟨.envelope, .tooDeep⟩ := by
  cases opens with
  | nil =>
    rw [List.length_nil] at many
    omega
  | @cons first numbers k s key opens =>
    have keyRead : FieldKey.read (k ++ s ++ after) = .ok (⟨first, .startGroup⟩, s ++ after) :=
      FieldKey.read_eq_ok_iff.mpr ⟨k, List.append_assoc .., key⟩
    have notCommand : first ≠ 1 := fun isCommand => unknown first rfl (by simp [isCommand])
    have deep : nestingLimit ≤ numbers.length := Nat.le_of_succ_le_succ many
    rw [mergeEnvelope_of_read keyRead, mergeEnvelopeField, if_neg notCommand,
      skipField_opens opens deep after]
    rfl

theorem mergeEnvelope_nest {numbers : List Nat} {s : Bytes} (nest : Nest numbers s)
    (few : numbers.length ≤ 100) (unknown : FirstUnknown [1] numbers) (command : Option Write)
    (after : Bytes) : mergeEnvelope command (s ++ after) = mergeEnvelope command after := by
  have message := IsMessage.of_nest nest unknown few
  have none : mergeEnvelope none s = .ok none := by
    refine mergeEnvelope_eq_none_iff.mpr ⟨_, message, ?_⟩
    intro f member isCommand
    exact unknown f.number (Field.number_mem_head?_of_nest member) (by simp [isCommand])
  exact mergeEnvelope_append (mergeEnvelope_of_eq_none none command) after

/-! ## Bodies -/

theorem mergeBody_append {after : Bytes} {w w' : Write} {s : Bytes}
    (merged : mergeBody after w s = .ok w') (more : Bytes) :
    mergeBody after w (s ++ more) = mergeBody after w' more := by
  fun_induction mergeBody after w s with
  | case1 w =>
    cases merged
    rfl
  | case2 => cases merged
  | case3 w s _ next rest step ih =>
    rw [mergeBody_of_mergeNext (mergeNext_append step more)]
    exact ih merged

/-- The fault of a field is reported also where the body ends inside the field. -/
theorem mergeBody_of_unreadable {after : Bytes} {w : Write} {s : Bytes} {f : TransactionFault}
    (nonempty : s ≠ []) (failed : mergeNext w (s ++ after) = .error f) :
    mergeBody after w s = .error f := by
  rw [mergeBody_of_ne_nil nonempty]
  cases alone : mergeNext w s with
  | error => simp only [bodyFault, failed]
  | ok found =>
    obtain ⟨next, rest⟩ := found
    rw [mergeNext_append alone after] at failed
    cases failed

theorem mergeNext_opens {numbers : List Nat} {s : Bytes} (opens : Opens numbers s)
    (many : 100 ≤ numbers.length) (unknown : FirstUnknown [1, 2] numbers) (w : Write)
    (after : Bytes) : mergeNext w (s ++ after) = .error ⟨.command, .tooDeep⟩ := by
  cases opens with
  | nil =>
    rw [List.length_nil] at many
    omega
  | @cons first numbers k s key opens =>
    have keyRead : FieldKey.read (k ++ s ++ after) = .ok (⟨first, .startGroup⟩, s ++ after) :=
      FieldKey.read_eq_ok_iff.mpr ⟨k, List.append_assoc .., key⟩
    have notKey : first ≠ 1 := fun isKey => unknown first rfl (by simp [isKey])
    have notValue : first ≠ 2 := fun isValue => unknown first rfl (by simp [isValue])
    have deep : nestingLimit - 1 ≤ numbers.length := Nat.le_of_succ_le_succ many
    simp only [mergeNext, keyRead]
    rw [mergeField, if_neg notKey, if_neg notValue, skipField_opens opens deep after]
    rfl

/-- A body that goes on with too many keys behind its first fields, be it for a single byte. -/
theorem mergeBody_opens {fields : List Field} {inner s rest body after : Bytes}
    {numbers : List Nat} (message : IsMessage [1, 2] 99 fields inner) (opens : Opens numbers s)
    (many : 100 ≤ numbers.length) (unknown : FirstUnknown [1, 2] numbers)
    (split : inner ++ (s ++ rest) = body ++ after) (inside : inner.length < body.length)
    (w : Write) : mergeBody after w body = .error ⟨.command, .tooDeep⟩ := by
  have merged : mergeBody after w inner = .ok (fields.foldl absorb w) :=
    mergeBody_eq_ok_iff.mpr ⟨fields, message, rfl⟩
  obtain ⟨begun, rfl, opening⟩ | ⟨beyond, longer, -⟩ := List.append_eq_append_iff.mp split
  · -- the body holds the beginning of the keys, and is read on behind its end
    rw [List.length_append] at inside
    have nonempty : begun ≠ [] := List.ne_nil_of_length_pos (by omega)
    rw [mergeBody_append merged begun]
    apply mergeBody_of_unreadable nonempty
    rw [← opening]
    exact mergeNext_opens opens many unknown _ rest
  · rw [longer, List.length_append] at inside
    omega

theorem foldl_absorb_nest (numbers : List Nat) (w : Write) :
    (Field.nest numbers).foldl absorb w = w := by
  cases numbers with
  | nil => rfl
  | cons number numbers => rfl

/-- Groups anywhere in a body, between its first fields and whatever else it holds. -/
theorem mergeBody_nest {fields : List Field} {inner s : Bytes} {numbers : List Nat}
    (message : IsMessage [1, 2] 99 fields inner) (nest : Nest numbers s)
    (few : numbers.length ≤ 99) (unknown : FirstUnknown [1, 2] numbers) (after : Bytes)
    (w : Write) (more : Bytes) :
    mergeBody after w (inner ++ s ++ more) = mergeBody after w (inner ++ more) := by
  have merged : mergeBody after w inner = .ok (fields.foldl absorb w) :=
    mergeBody_eq_ok_iff.mpr ⟨fields, message, rfl⟩
  have groups := IsMessage.of_nest nest unknown few
  have skipped : mergeBody after (fields.foldl absorb w) s = .ok (fields.foldl absorb w) :=
    mergeBody_eq_ok_iff.mpr ⟨_, groups, (foldl_absorb_nest numbers _).symm⟩
  rw [List.append_assoc, mergeBody_append merged, mergeBody_append skipped,
    mergeBody_append merged]

/-! ## Both levels -/

/-- The byte string is the key of a command field and the length of its body, in any spelling. -/
def CommandHead (length : Nat) (head : Bytes) : Prop :=
  ∃ k l, head = k ++ l ∧ FieldKey.Spelling ⟨1, .lengthDelimited⟩ k ∧ Varint.Spelling length l

/-- What becomes of groups behind the bytes `before`, in the envelope and in the body of a command
    field.  In a body they stand behind some complete fields, `inner`. -/
structure NestingStops (before : Bytes) : Prop where
  envelopeTooDeep (numbers : List Nat) (s after : Bytes) : Opens numbers s →
    101 ≤ numbers.length → FirstUnknown [1] numbers →
      MalformedAs (before ++ s ++ after) "" "recursion limit reached"
  envelopeSkipped (numbers : List Nat) (s after : Bytes) : Nest numbers s →
    numbers.length ≤ 100 → FirstUnknown [1] numbers →
      decode (before ++ s ++ after) = decode (before ++ after)
  /-- The body has at least the first byte of the keys, and need not have more of them. -/
  bodyTooDeep (numbers : List Nat) (length : Nat) (head inner s after : Bytes)
    (fields : List Field) : CommandHead length head → IsMessage [1, 2] 99 fields inner →
      inner.length < length → length ≤ (inner ++ s ++ after).length → Opens numbers s →
        100 ≤ numbers.length → FirstUnknown [1, 2] numbers →
          MalformedAs (before ++ head ++ (inner ++ s ++ after)) "TxProto.command: "
            "recursion limit reached"
  /-- The body has all of the groups, so without them it is shorter. -/
  bodySkipped (numbers : List Nat) (head head' inner s more after : Bytes)
    (fields : List Field) : CommandHead (inner ++ s ++ more).length head →
      CommandHead (inner ++ more).length head' → IsMessage [1, 2] 99 fields inner →
        Nest numbers s → numbers.length ≤ 99 → FirstUnknown [1, 2] numbers →
          decode (before ++ head ++ (inner ++ s ++ more) ++ after) =
            decode (before ++ head' ++ (inner ++ more) ++ after)

theorem exists_of_readable {raw : Bytes}
    (readable : ∀ fault, decode raw ≠ .error (.malformed fault)) :
    ∃ command, mergeEnvelope none raw = .ok command := by
  cases merged : mergeEnvelope none raw with
  | error fault => exact absurd (decode_malformed_iff.mpr merged) (readable fault)
  | ok command => exact ⟨command, rfl⟩

theorem mergeEnvelope_bodyTooDeep {numbers : List Nat} {length : Nat}
    {head inner s after : Bytes} {fields : List Field} (opening : CommandHead length head)
    (message : IsMessage [1, 2] 99 fields inner) (inside : inner.length < length)
    (enough : length ≤ (inner ++ s ++ after).length) (opens : Opens numbers s)
    (many : 100 ≤ numbers.length) (unknown : FirstUnknown [1, 2] numbers)
    (command : Option Write) :
    mergeEnvelope command (head ++ (inner ++ s ++ after)) = .error ⟨.command, .tooDeep⟩ := by
  obtain ⟨k, l, rfl, key, spelled⟩ := opening
  -- the stated length divides what follows into the body and the rest
  obtain ⟨body, rest, split, rfl⟩ : ∃ body rest : Bytes,
      inner ++ s ++ after = body ++ rest ∧ body.length = length :=
    ⟨_, _, (List.take_append_drop length _).symm, by rw [List.length_take]; omega⟩
  have failed : mergeBody rest (command.getD {}) body = .error ⟨.command, .tooDeep⟩ :=
    mergeBody_opens message opens many unknown (by rw [← List.append_assoc, split]) inside _
  rw [split, ← List.append_assoc, mergeEnvelope_commandField key spelled, failed]

theorem mergeEnvelope_bodySkipped {numbers : List Nat} {head head' inner s more : Bytes}
    {fields : List Field} (opening : CommandHead (inner ++ s ++ more).length head)
    (opening' : CommandHead (inner ++ more).length head')
    (message : IsMessage [1, 2] 99 fields inner) (nest : Nest numbers s)
    (few : numbers.length ≤ 99) (unknown : FirstUnknown [1, 2] numbers)
    (command : Option Write) (after : Bytes) :
    mergeEnvelope command (head ++ (inner ++ s ++ more) ++ after) =
      mergeEnvelope command (head' ++ (inner ++ more) ++ after) := by
  obtain ⟨k, l, rfl, key, spelled⟩ := opening
  obtain ⟨k', l', rfl, key', spelled'⟩ := opening'
  rw [mergeEnvelope_commandField key spelled, mergeEnvelope_commandField key' spelled',
    mergeBody_nest message nest few unknown]

/-- Behind whatever bytes are a transaction or lack only a command, groups nest a hundred deep in
    the envelope and ninety-nine deep in a body, and no deeper. -/
theorem nestingStops (before : Bytes)
    (readable : ∀ fault, decode before ≠ .error (.malformed fault)) : NestingStops before := by
  obtain ⟨command, read⟩ := exists_of_readable readable
  refine ⟨?envelopeTooDeep, ?envelopeSkipped, ?bodyTooDeep, ?bodySkipped⟩
  case envelopeTooDeep =>
    intro numbers s after opens many unknown
    have failed : mergeEnvelope none (before ++ s ++ after) = .error ⟨.envelope, .tooDeep⟩ := by
      rw [List.append_assoc, mergeEnvelope_append read]
      exact mergeEnvelope_opens opens many unknown command after
    exact ⟨_, decode_malformed_iff.mpr failed, rfl, rfl⟩
  case envelopeSkipped =>
    intro numbers s after nest few unknown
    apply decode_congr
    rw [List.append_assoc, mergeEnvelope_append read, mergeEnvelope_append read]
    exact mergeEnvelope_nest nest few unknown command after
  case bodyTooDeep =>
    intro numbers length head inner s after fields opening message inside enough opens many unknown
    have failed : mergeEnvelope none (before ++ head ++ (inner ++ s ++ after)) =
        .error ⟨.command, .tooDeep⟩ := by
      rw [List.append_assoc, mergeEnvelope_append read]
      exact mergeEnvelope_bodyTooDeep opening message inside enough opens many unknown command
    exact ⟨_, decode_malformed_iff.mpr failed, rfl, rfl⟩
  case bodySkipped =>
    intro numbers head head' inner s more after fields opening opening' message nest few unknown
    apply decode_congr
    simp only [List.append_assoc before, mergeEnvelope_append read]
    exact mergeEnvelope_bodySkipped opening opening' message nest few unknown command after

/-- Behind a transaction: a hundred and one open groups, a hundred closed ones, a hundred open ones
    in a body of one byte, and ninety-nine closed ones in a body. -/
theorem nestingStops_transaction :
    (∀ fault, decode (encode ⟨[0x6b], [0x76]⟩) ≠ .error (.malformed fault)) ∧
      NestingStops (encode ⟨[0x6b], [0x76]⟩) ∧
      decode (encode ⟨[0x6b], [0x76]⟩ ++ List.replicate 101 0x1b) =
        .error (.malformed ⟨.envelope, .tooDeep⟩) ∧
      decode (encode ⟨[0x6b], [0x76]⟩ ++ List.replicate 100 0x1b ++ List.replicate 100 0x1c) =
        .ok ⟨[0x6b], [0x76]⟩ ∧
      decode (encode ⟨[0x6b], [0x76]⟩ ++ [0x0a, 0x01] ++ List.replicate 100 0x1b) =
        .error (.malformed ⟨.command, .tooDeep⟩) ∧
      decode (encode ⟨[0x6b], [0x76]⟩ ++ [0x0a, 0xc6, 0x01] ++ List.replicate 99 0x1b ++
        List.replicate 99 0x1c) = .ok ⟨[0x6b], [0x76]⟩ := by
  have read : decode (encode ⟨[0x6b], [0x76]⟩) = .ok ⟨[0x6b], [0x76]⟩ := by decide +kernel
  have readable (fault : TransactionFault) :
      decode (encode ⟨[0x6b], [0x76]⟩) ≠ .error (.malformed fault) := by
    rw [read]
    nofun
  exact ⟨readable, nestingStops _ readable, by decide +kernel, by decide +kernel,
    by decide +kernel, by decide +kernel⟩

end Write

end ReplicatedKv
