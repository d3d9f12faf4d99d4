import ReplicatedKv.Proofs.Transaction.Grammar

/-! # Written transactions

The canonical bytes of a write spell the fields that it has, so that reading them gives the write
back.

* `Write.fields` — the fields of a command: key and value, as far as they are not empty.
* `Write.isMessage_encodeBody`, `Write.isMessage_encode` — what is written is in the grammar.
* `Write.roundTrip` — decoding undoes encoding, and no two writes have the same bytes.
-/

namespace ReplicatedKv

open Wire

/-! ## Written fields -/

namespace IsMessage

variable {known : List Nat} {limit number : Nat}

theorem cons_encodeDelimited {payload s : Bytes} {fields : List Field}
    (numbered : 1 ≤ number) (small : 8 * number + 2 < UInt32.size) (positive : 0 < limit)
    (fits : payload.length < UInt64.size) (message : IsMessage known limit fields s) :
    IsMessage known limit (.lengthDelimited number payload :: fields)
      (encodeDelimited number payload ++ s) := by
  have key : FieldKey.Spelling ⟨number, .lengthDelimited⟩
      (FieldKey.encode ⟨number, .lengthDelimited⟩) :=
    FieldKey.spelling_encode small numbered
  have payloadSpelled : (Field.lengthDelimited number payload).Payload
      (Varint.encode payload.length ++ payload) :=
    .lengthDelimited (Varint.spelling_encode fits)
  rw [encodeDelimited, List.append_assoc (FieldKey.encode _)]
  exact message.cons key payloadSpelled (fun _ => rfl)
    (Field.within_of_ne_startGroup nofun positive)

end IsMessage

namespace Write

/-- The field of a payload that is left out where it is empty. -/
def nonemptyField (number : Nat) (payload : Bytes) : List Field :=
  if payload = [] then [] else [.lengthDelimited number payload]

def fields (w : Write) : List Field := nonemptyField 1 w.key ++ nonemptyField 2 w.value

theorem isMessage_encodeNonempty {known : List Nat} {limit number : Nat} {payload s : Bytes}
    {fields : List Field} (numbered : 1 ≤ number) (small : 8 * number + 2 < UInt32.size)
    (positive : 0 < limit) (fits : (encodeNonempty number payload).length < UInt64.size)
    (message : IsMessage known limit fields s) :
    IsMessage known limit (nonemptyField number payload ++ fields)
      (encodeNonempty number payload ++ s) := by
  by_cases empty : payload = []
  · simpa [nonemptyField, encodeNonempty, empty] using message
  · simp only [encodeNonempty, nonemptyField, if_neg empty, List.cons_append,
      List.nil_append] at fits ⊢
    refine message.cons_encodeDelimited numbered small positive ?_
    -- a payload is no longer than its field
    simp only [encodeDelimited, List.length_append] at fits
    omega

theorem isMessage_encodeBody {w : Write} (fits : w.encodeBody.length < UInt64.size) :
    IsMessage [1, 2] 99 w.fields w.encodeBody := by
  rw [encodeBody, List.length_append] at fits
  have value : IsMessage [1, 2] 99 (nonemptyField 2 w.value ++ [])
      (encodeNonempty 2 w.value ++ []) :=
    isMessage_encodeNonempty (by decide) (by decide) (by decide) (by omega) .nil
  rw [List.append_nil, List.append_nil] at value
  exact isMessage_encodeNonempty (by decide) (by decide) (by decide) (by omega) value

theorem isMessage_encode {w : Write} (fits : w.encodeBody.length < UInt64.size) :
    IsMessage [1] 100 [.lengthDelimited 1 w.encodeBody] w.encode := by
  have envelope : IsMessage [1] 100 [.lengthDelimited 1 w.encodeBody]
      (encodeDelimited 1 w.encodeBody ++ []) :=
    IsMessage.nil.cons_encodeDelimited (by decide) (by decide) (by decide) fits
  rwa [List.append_nil] at envelope

theorem foldl_absorb_fields (w : Write) : w.fields.foldl absorb {} = w := by
  obtain ⟨key, value⟩ := w
  by_cases noKey : key = [] <;> by_cases noValue : value = [] <;>
    simp [fields, nonemptyField, noKey, noValue, absorb, Field.payload?]

/-! ## Reading what was written -/

theorem decode_encode {w : Write} (fits : w.encodeBody.length < UInt64.size) :
    decode w.encode = .ok w := by
  have bodies : List.Forall₂ (IsMessage [1, 2] 99) [w.fields]
      ([Field.lengthDelimited 1 w.encodeBody].filterMap (Field.payload? 1)) :=
    .cons (isMessage_encodeBody fits) .nil
  apply decode_ok_iff.mpr
  rw [mergeEnvelope_of_isMessage (isMessage_encode fits) bodies]
  exact congrArg (fun w => Except.ok (some w)) (foldl_absorb_fields w)

/-- Whatever a write's key and value are, reading its bytes gives it back, as long as the length of
    the body fits into the 64 bits that a length has.  No other write has its bytes. -/
theorem roundTrip (w : Write) (fits : w.encodeBody.length < UInt64.size) :
    decode w.encode = .ok w ∧ encodeWrite w.key w.value = w.encode ∧
      ∀ other : Write, other.encodeBody.length < UInt64.size → other.encode = w.encode →
        other = w := by
  refine ⟨decode_encode fits, rfl, ?_⟩
  intro other otherFits same
  have read : decode w.encode = .ok other := same ▸ decode_encode otherFits
  exact Except.ok.inj (read.symm.trans (decode_encode fits))

/-- A write without a key, with a value whose length takes two bytes to write. -/
def longValue : Write := ⟨[], List.replicate 128 0x61⟩

theorem roundTrip_longValue :
    (longValue.encodeBody.length < UInt64.size ∧
      (⟨[], []⟩ : Write).encodeBody.length < UInt64.size) ∧
      longValue.encode.length = 134 ∧
      decode longValue.encode = .ok longValue ∧
      ((⟨[], []⟩ : Write).encode = longValue.encode → (⟨[], []⟩ : Write) = longValue) := by
  have fits : longValue.encodeBody.length < UInt64.size := by decide +kernel
  have emptyFits : (⟨[], []⟩ : Write).encodeBody.length < UInt64.size := by decide +kernel
  obtain ⟨read, -, alone⟩ := roundTrip longValue fits
  exact ⟨⟨fits, emptyFits⟩, by decide +kernel, read, alone ⟨[], []⟩ emptyFits⟩

end Write

end ReplicatedKv
