import ReplicatedKv.Proofs.Transaction.Concatenation

/-! # Bodies end where they say

A length inside a body is checked against all bytes that remain, so reading may well go on behind
the end of the body.  Nothing comes of it: a body that is not complete by itself is a fault, whatever
stands behind it, and a body that is complete is read alike there.

* `Wire.Field.Sequence.payload_inside` — the payloads of a message are parts of it.
* `Write.mergeEnvelope_commandField` — a command field is as good as its body.
* `Write.mergeUntil` — reading a body from all bytes that remain, with its end as a limit.
* `Write.mergeUntil_append` — this is the same as reading the body.
* `Write.contained` — what stands behind a body neither completes it nor gets into its command.
-/

namespace ReplicatedKv

open Wire

/-! ## Payloads inside a message -/

theorem Wire.Field.Sequence.payload_inside {fields : List Field} {s bytes : Bytes} {number : Nat}
    (sequence : Field.Sequence fields s)
    (member : bytes ∈ fields.filterMap (Field.payload? number)) : bytes <:+: s := by
  induction fields generalizing s with
  | nil => cases member
  | cons f fields ih =>
    cases sequence with
    | @cons _ _ k p tail key payload sequence =>
      rw [Field.filterMap_payload?_cons, List.mem_append, Option.mem_toList] at member
      cases member with
      | inl found =>
        rw [Field.eq_lengthDelimited_of_payload? found] at payload
        cases payload with
        | @lengthDelimited _ l _ spelled => exact ⟨k ++ l, tail, by simp⟩
      | inr later =>
        obtain ⟨before, after, split⟩ := ih sequence later
        exact ⟨k ++ p ++ before, after, by rw [← split]; simp⟩

namespace Write

variable {b t : Bytes}

/-! ## A command field -/

/-- Where a body is complete by itself, the envelope goes on behind it with its command; where it is
    not, there is a fault. -/
theorem mergeEnvelope_commandField {k l : Bytes} (key : FieldKey.Spelling ⟨1, .lengthDelimited⟩ k)
    (length : Varint.Spelling b.length l) (command : Option Write) (t : Bytes) :
    mergeEnvelope command (k ++ l ++ b ++ t) =
      match mergeBody t (command.getD {}) b with
      | .error fault => .error fault
      | .ok w => mergeEnvelope (some w) t := by
  have keyRead : FieldKey.read (k ++ l ++ b ++ t) = .ok (⟨1, .lengthDelimited⟩, l ++ b ++ t) :=
    FieldKey.read_eq_ok_iff.mpr ⟨k, by simp, key⟩
  have read : located .command (readKnown ⟨1, .lengthDelimited⟩ (l ++ b ++ t)) = .ok (b, t) := by
    rw [located_eq_ok_iff, readKnown, if_pos rfl]
    exact readDelimited_eq_ok_iff.mpr ⟨l, rfl, length⟩
  rw [mergeEnvelope_of_read keyRead, mergeEnvelopeField, if_pos rfl, mergeCommand, read]
  cases body : mergeBody t (command.getD {}) b <;> simp only [body] <;> rfl

theorem mergeEnvelope_encodeDelimited (fits : b.length < UInt64.size) (command : Option Write)
    (t : Bytes) :
    mergeEnvelope command (encodeDelimited 1 b ++ t) =
      match mergeBody t (command.getD {}) b with
      | .error fault => .error fault
      | .ok w => mergeEnvelope (some w) t :=
  mergeEnvelope_commandField (FieldKey.spelling_encode (by decide) (by decide))
    (Varint.spelling_encode fits) command t

/-! ## A body by itself -/

/-- What stands behind a body that is read through makes no difference. -/
theorem mergeBody_after {after : Bytes} {w w' : Write} (merged : mergeBody after w b = .ok w')
    (after' : Bytes) : mergeBody after' w b = .ok w' :=
  mergeBody_eq_ok_iff.mpr (mergeBody_eq_ok_iff.mp merged)

theorem decode_encodeDelimited (fits : b.length < UInt64.size) {own : Write}
    (merged : mergeBody t {} b = .ok own) : decode (encodeDelimited 1 b) = .ok own := by
  have alone := mergeEnvelope_encodeDelimited fits none []
  simp only [List.append_nil, Option.getD_none, mergeBody_after merged []] at alone
  rw [decode_ok_iff, alone, mergeEnvelope, if_pos rfl]

/-- The key and the value of a body are bytes of the body, or are left out in it. -/
theorem IsPart.inside_body {number : Nat} {part : Write → Bytes}
    (isPart : IsPart number part) (empty : part {} = []) {own : Write}
    (merged : mergeBody t {} b = .ok own) : part own <:+: b := by
  obtain ⟨fields, message, rfl⟩ := mergeBody_eq_ok_iff.mp merged
  rw [isPart.last, empty]
  cases found : (fields.filterMap (Field.payload? number)).getLast? with
  | none => exact List.nil_infix
  | some bytes => exact message.sequence.payload_inside (List.mem_of_getLast? found)

/-- Where bytes are taken in after a command, each part is that of the command, or what the bytes
    say by themselves. -/
theorem IsPart.own_or_later {number : Nat} {part : Write → Bytes} (isPart : IsPart number part)
    {own w : Write} (after : mergeEnvelope (some own) t = .ok (some w)) :
    part w = part own ∨ ∃ later, decode t = .ok later ∧ part w = part later := by
  cases alone : mergeEnvelope none t with
  | error fault =>
    rw [mergeEnvelope_eq_error alone] at after
    cases after
  | ok command =>
    cases command with
    | none =>
      rw [mergeEnvelope_of_eq_none alone] at after
      cases after
      exact .inl rfl
    | some later =>
      have decided := isPart.later alone after
      by_cases has : HasField number t
      · exact .inr ⟨later, decode_ok_iff.mpr alone, decided.1 has⟩
      · exact .inl (decided.2 has)

/-! ## Reading from all bytes

The body is read here by itself, and only its first unreadable field again with what stands behind
it.  A reader that takes the fields of the body from all bytes that remain, and looks after each of
them whether it has come to the end of the body, finds the same. -/

/-- Takes in fields from all bytes that remain, as long as more than `limit` of them remain.  In the
    end not fewer may remain. -/
def mergeUntil (limit : Nat) (w : Write) (s : Bytes) : Except TransactionFault (Write × Bytes) :=
  if s.length = limit then .ok (w, s)
  else if s.length < limit then .error ⟨.command, .overrun⟩
  else
    match _merged : mergeNext w s with
    | .error fault => .error fault
    | .ok (w, rest) => mergeUntil limit w rest
termination_by s.length
decreasing_by exact length_lt_of_mergeNext _merged

/-- One turn of the loop. -/
theorem mergeUntil_of_lt {limit : Nat} {w : Write} {s : Bytes} (more : limit < s.length) :
    mergeUntil limit w s =
      match mergeNext w s with
      | .error fault => .error fault
      | .ok (w', rest) => mergeUntil limit w' rest := by
  rw [mergeUntil, if_neg (by omega), if_neg (by omega)]
  cases mergeNext w s <;> rfl

theorem mergeNext_append {w w' : Write} {s rest : Bytes}
    (merged : mergeNext w s = .ok (w', rest)) (more : Bytes) :
    mergeNext w (s ++ more) = .ok (w', rest ++ more) := by
  obtain ⟨f, k, p, rfl, conditions⟩ := mergeNext_eq_ok_iff.mp merged
  exact mergeNext_eq_ok_iff.mpr ⟨f, k, p, List.append_assoc .., conditions⟩

/-- A field that ends before the bytes behind the body is a field of the body. -/
theorem mergeNext_of_append {w w' : Write} {s rest after : Bytes}
    (merged : mergeNext w (s ++ after) = .ok (w', rest)) (inside : after.length ≤ rest.length) :
    ∃ left, mergeNext w s = .ok (w', left) := by
  obtain ⟨f, k, p, split, conditions⟩ := mergeNext_eq_ok_iff.mp merged
  obtain ⟨between, fieldSplit, afterSplit⟩ | ⟨left, bodySplit, -⟩ :=
    List.append_eq_append_iff.mp split
  · have none : between = [] := by
      rw [afterSplit, List.length_append] at inside
      exact List.length_eq_zero_iff.mp (by omega)
    rw [none, List.append_nil] at fieldSplit
    exact ⟨[], mergeNext_eq_ok_iff.mpr ⟨f, k, p, by rw [fieldSplit, List.append_nil], conditions⟩⟩
  · exact ⟨left, mergeNext_eq_ok_iff.mpr ⟨f, k, p, bodySplit, conditions⟩⟩

theorem mergeUntil_append (after : Bytes) (w : Write) (s : Bytes) :
    mergeUntil after.length w (s ++ after) = (mergeBody after w s).map fun w => (w, after) := by
  fun_induction mergeBody after w s with
  | case1 w =>
    rw [List.nil_append, mergeUntil, if_pos rfl]
    rfl
  | case2 w s nonempty fault step =>
    have more : after.length < (s ++ after).length := by
      have := List.length_pos_of_ne_nil nonempty
      rw [List.length_append]
      omega
    rw [mergeUntil_of_lt more, bodyFault]
    cases read : mergeNext w (s ++ after) with
    | error fault => rfl
    | ok merged =>
      obtain ⟨w', rest⟩ := merged
      -- the field is read after all, so it ends behind the body
      have passed : rest.length < after.length := by
        by_contra inside
        obtain ⟨left, alone⟩ := mergeNext_of_append read (by omega)
        rw [step] at alone
        cases alone
      show mergeUntil after.length w' rest = _
      rw [mergeUntil, if_neg (by omega), if_pos passed]
      rfl
  | case3 w s _ w' rest step ih =>
    have more : after.length < (s ++ after).length := by
      have := length_lt_of_mergeNext step
      rw [List.length_append]
      omega
    simp only [mergeUntil_of_lt more, mergeNext_append step after]
    exact ih

/-! ## Containment -/

/-- The bytes `t` behind a command field with the body `b`.  Reading the fields of the body from all
    bytes gives what the body gives by itself, or the same fault.  If the body is malformed by
    itself, `t` cannot mend it.  If the transaction is accepted, the body by itself is a command too,
    whose key and value are bytes of the body, and what else is decoded comes from `t` by itself. -/
structure Contained (b t : Bytes) : Prop where
  limited : mergeUntil t.length {} (b ++ t) = (mergeBody t {} b).map fun w => (w, t)
  malformed : (∃ fault, decode (encodeDelimited 1 b) = .error (.malformed fault)) →
    ∃ fault, decode (encodeDelimited 1 b ++ t) = .error (.malformed fault)
  accepted (w : Write) : decode (encodeDelimited 1 b ++ t) = .ok w →
    ∃ own, decode (encodeDelimited 1 b) = .ok own ∧ own.key <:+: b ∧ own.value <:+: b ∧
      (w.key = own.key ∨ ∃ later, decode t = .ok later ∧ w.key = later.key) ∧
      (w.value = own.value ∨ ∃ later, decode t = .ok later ∧ w.value = later.value)

/-- A body is never read past its end, whatever it holds and whatever stands behind it. -/
theorem contained (b t : Bytes) (fits : b.length < UInt64.size) : Contained b t := by
  have read := mergeEnvelope_encodeDelimited fits none t
  rw [Option.getD_none] at read
  cases body : mergeBody t {} b with
  | error fault =>
    simp only [body] at read
    refine ⟨mergeUntil_append t {} b, fun _ => ⟨fault, decode_malformed_iff.mpr read⟩, ?_⟩
    intro w accepted
    rw [decode_malformed_iff.mpr read] at accepted
    cases accepted
  | ok own =>
    simp only [body] at read
    have alone := decode_encodeDelimited fits body
    refine ⟨mergeUntil_append t {} b, ?_, ?_⟩
    · intro malformed
      obtain ⟨fault, failed⟩ := malformed
      rw [alone] at failed
      cases failed
    · intro w accepted
      have after := read.symm.trans (decode_ok_iff.mp accepted)
      exact ⟨own, alone, isPart_key.inside_body rfl body,
        isPart_value.inside_body rfl body, isPart_key.own_or_later after,
        isPart_value.own_or_later after⟩

/-- A body with a key of five bytes, of which it holds two. -/
def cutKey : Bytes := [0x0a, 0x05, 0x61, 0x62]

/-- With the missing bytes behind it, the key is read, and found to end behind its body. -/
theorem contained_cutKey :
    cutKey.length < UInt64.size ∧
      decode (encodeDelimited 1 cutKey) = .error (.malformed ⟨.key, .underflow⟩) ∧
      decode (encodeDelimited 1 cutKey ++ [0x63, 0x64, 0x65]) =
        .error (.malformed ⟨.command, .overrun⟩) ∧
      Contained cutKey [0x63, 0x64, 0x65] := by
  have fits : cutKey.length < UInt64.size := by decide
  exact ⟨fits, by decide +kernel, by decide +kernel, contained _ _ fits⟩

end Write

end ReplicatedKv
