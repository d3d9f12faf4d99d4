import ReplicatedKv.Proofs.Transaction.RoundTrip
import ReplicatedKv.Proofs.Wire.Length

/-! # The shortest transaction

A write can be spelled in many ways: with longer numbers, with fields that are overridden later,
with unknown fields in any place, with its key and its value in different command fields.  None is
shorter than the canonical bytes.  What a reader has taken in so far, written out, is never longer
than the bytes that it has read.

* `Write.length_encodeBody_absorb`, `Write.length_encodeBody_foldl` — so it is with the fields of a
  body.
* `Write.writtenLength_mergeEnvelope` — so it is with the fields of an envelope.
* `Write.encode_shortest` — so it is with transactions.
-/

namespace ReplicatedKv

open Wire

namespace Write

/-! ## Bodies -/

theorem length_encodeNonempty_le (number : Nat) (payload : Bytes) :
    (encodeNonempty number payload).length ≤ (encodeDelimited number payload).length := by
  rw [encodeNonempty]
  split
  · exact Nat.zero_le _
  · exact Nat.le_refl _

/-- A field of a body adds no more to the written body than it has bytes. -/
theorem length_encodeBody_absorb (w : Write) {f : Field} {k p : Bytes} (key : f.key.Spelling k)
    (spelled : f.Payload p) :
    (w.absorb f).encodeBody.length ≤ w.encodeBody.length + (k ++ p).length := by
  -- a key and a value are written as the field that they came with, or as less
  have known {number : Nat} {payload : Bytes} (found : f.payload? number = some payload) :
      (encodeNonempty number payload).length ≤ (k ++ p).length := by
    rw [Field.eq_lengthDelimited_of_payload? found] at key spelled
    exact Nat.le_trans (length_encodeNonempty_le number payload)
      (length_encodeDelimited_le_of_spelling key spelled)
  cases isKey : f.payload? 1 with
  | some payload =>
    have added := known isKey
    rw [absorb_of_payload?_one isKey]
    simp only [encodeBody, List.length_append] at added ⊢
    omega
  | none =>
    cases isValue : f.payload? 2 with
    | some payload =>
      have added := known isValue
      rw [absorb_of_payload?_two isValue]
      simp only [encodeBody, List.length_append] at added ⊢
      omega
    | none =>
      rw [absorb, isKey, isValue]
      exact Nat.le_add_right ..

theorem length_encodeBody_foldl {fields : List Field} {s : Bytes}
    (sequence : Field.Sequence fields s) (w : Write) :
    (fields.foldl absorb w).encodeBody.length ≤ w.encodeBody.length + s.length := by
  induction fields generalizing w s with
  | nil =>
    cases sequence
    exact Nat.le_refl _
  | cons f fields ih =>
    cases sequence with
    | @cons _ _ k p tail key payload sequence =>
      have step := length_encodeBody_absorb w key payload
      have others := ih sequence (w.absorb f)
      simp only [List.foldl_cons, List.length_append] at step others ⊢
      omega

/-! ## Envelopes -/

theorem length_encode (w : Write) :
    w.encode.length = (FieldKey.encode ⟨1, .lengthDelimited⟩).length +
      (Varint.encode w.encodeBody.length).length + w.encodeBody.length := by
  simp only [encode, encodeDelimited, List.length_append]

/-- Where the body grows by as many bytes as `b` has, the whole grows by no more than a field for
    `b`: its length needs no more bytes than the two lengths apart. -/
theorem length_encode_le_of_grown {w w' : Write} {b : Bytes}
    (grown : w'.encodeBody.length ≤ w.encodeBody.length + b.length) :
    w'.encode.length ≤ w.encode.length + (encodeDelimited 1 b).length := by
  have lengthField := Nat.le_trans (Varint.length_encode_mono grown)
    (Varint.length_encode_add_le w.encodeBody.length b.length)
  simp only [length_encode, encodeDelimited, List.length_append]
  omega

theorem length_encode_le_of_body {w : Write} {b : Bytes} (small : w.encodeBody.length ≤ b.length) :
    w.encode.length ≤ (encodeDelimited 1 b).length := by
  have lengthField := Varint.length_encode_mono small
  simp only [length_encode, encodeDelimited, List.length_append]
  omega

/-- How many bytes the command read so far takes, if there is one. -/
def writtenLength : Option Write → Nat
  | none => 0
  | some w => w.encode.length

theorem writtenLength_extend (command : Option Write) {body : List Field} {b : Bytes}
    (sequence : Field.Sequence body b) :
    writtenLength (extend command body) ≤
      writtenLength command + (encodeDelimited 1 b).length := by
  cases command with
  | none =>
    have small := length_encodeBody_foldl sequence {}
    have empty : ({} : Write).encodeBody.length = 0 := rfl
    rw [empty, Nat.zero_add] at small
    exact Nat.le_trans (length_encode_le_of_body small) (Nat.le_add_left ..)
  | some w => exact length_encode_le_of_grown (length_encodeBody_foldl sequence w)

theorem writtenLength_mergeEnvelope {command command' : Option Write} {s : Bytes}
    (merged : mergeEnvelope command s = .ok command') :
    writtenLength command' ≤ writtenLength command + s.length := by
  fun_induction mergeEnvelope command s with
  | case1 command =>
    cases merged
    exact Nat.le_refl _
  | case2 | case3 => cases merged
  | case4 command s _ key tail keyRead next rest step ih =>
    have others := ih merged
    obtain ⟨k, rfl, spelledKey⟩ := FieldKey.read_eq_ok_iff.mp keyRead
    obtain ⟨f, p, bodies, rfl, spelled, rfl, -, -, messages, rfl⟩ :=
      mergeEnvelopeField_eq_ok_iff.mp step
    -- only a command field makes the command longer
    have field : writtenLength (bodies.foldl extend command) ≤
        writtenLength command + (k ++ p).length := by
      cases isCommand : f.payload? 1 with
      | none =>
        rw [isCommand] at messages
        cases messages
        exact Nat.le_add_right ..
      | some b =>
        rw [isCommand] at messages
        rw [Field.eq_lengthDelimited_of_payload? isCommand] at spelledKey spelled
        have longer := length_encodeDelimited_le_of_spelling spelledKey spelled
        cases messages with
        | cons message none =>
          cases none
          have extended := writtenLength_extend command message.sequence
          exact Nat.le_trans extended (Nat.add_le_add_left longer _)
    simp only [List.length_append] at field others ⊢
    omega

/-! ## Transactions -/

/-- Whatever bytes a write is decoded from, its canonical bytes decode to it as well and are not
    more.  The length of the transaction has to fit into the 64 bits that a length has. -/
theorem encode_shortest {raw : Bytes} {w : Write} (fits : raw.length < UInt64.size)
    (decoded : decode raw = .ok w) : decode w.encode = .ok w ∧ w.encode.length ≤ raw.length := by
  have shortest : w.encode.length ≤ raw.length := by
    have written := writtenLength_mergeEnvelope (decode_ok_iff.mp decoded)
    rwa [writtenLength, writtenLength, Nat.zero_add] at written
  refine ⟨decode_encode ?_, shortest⟩
  have body : w.encodeBody.length ≤ w.encode.length := by
    rw [length_encode]
    exact Nat.le_add_left ..
  omega

/-- A value in one command field, a key in another that has an earlier key before it, and an unknown
    field between the two.  A length and a field key have a byte more than they need. -/
def scattered : Bytes :=
  [0x0a, 0x83, 0x00, 0x12, 0x01, 0x76] ++ [0x18, 0x01] ++
    [0x0a, 0x07, 0x0a, 0x01, 0x61, 0x8a, 0x00, 0x01, 0x6b]

theorem encode_shortest_scattered :
    scattered.length < UInt64.size ∧ decode scattered = .ok ⟨[0x6b], [0x76]⟩ ∧
      decode (encode ⟨[0x6b], [0x76]⟩) = .ok ⟨[0x6b], [0x76]⟩ ∧
      (encode ⟨[0x6b], [0x76]⟩).length ≤ scattered.length ∧ scattered.length = 17 := by
  have fits : scattered.length < UInt64.size := by decide
  have decoded : decode scattered = .ok ⟨[0x6b], [0x76]⟩ := by decide +kernel
  obtain ⟨again, shortest⟩ := encode_shortest fits decoded
  exact ⟨fits, decoded, again, shortest, rfl⟩

end Write

end ReplicatedKv
