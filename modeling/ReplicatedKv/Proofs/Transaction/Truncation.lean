import ReplicatedKv.Proofs.Transaction.Faults

/-! # Truncated transactions

A transaction states the length of its command before the command, so no part of it that stops
earlier is a transaction: the length itself is cut, or it announces more bytes than there are.  That
the bytes stop at the end of a field inside the command makes no difference.

* `Wire.readVarint_of_cut`, `Wire.readDelimited_of_cut` — the fault of a payload that is cut.
* `Write.header` — what stands before the command.
* `Write.CutOff` — the reports on a transaction that was cut off.
* `Write.decode_cutOff` — these are the reports, wherever it was cut off.
-/

namespace ReplicatedKv

open Wire

namespace Wire

/-! ## Cut payloads -/

theorem Varint.decode?_of_continued {s : Bytes} (continued : ∀ b ∈ s, 128 ≤ b.toNat) :
    Varint.decode? s = none := by
  apply Option.eq_none_iff_forall_ne_some.mpr
  intro found read
  obtain ⟨t, rfl, high, last, rfl, complete, -⟩ := Varint.decode?_eq_some_iff.mp read
  -- the byte that ends the number has its high bit clear
  have low := complete.ended
  have marked := continued last (by simp)
  omega

theorem readVarint_of_cut {n : Nat} {l p : Bytes} (spelled : Varint.Spelling n l) (cut : p <+: l)
    (proper : p ≠ l) : readVarint p = .error .invalidVarint := by
  obtain ⟨high, last, rfl, complete, -⟩ := spelled
  have inside : p <+: high := (List.prefix_concat_iff.mp cut).resolve_left proper
  have none := Varint.decode?_of_continued fun b member =>
    complete.continued b (inside.subset member)
  rw [readVarint, none]

/-- A payload that is cut in its length, or behind it. -/
theorem readDelimited_of_cut {l payload p : Bytes}
    (spelled : Varint.Spelling payload.length l) (cut : p <+: l ++ payload)
    (proper : p ≠ l ++ payload) :
    (¬l <+: p → readDelimited p = .error .invalidVarint) ∧
      (l <+: p → readDelimited p = .error .underflow) := by
  constructor
  · intro incomplete
    have inLength : p <+: l :=
      (List.prefix_or_prefix_of_prefix cut (List.prefix_append l payload)).resolve_right incomplete
    have shorter : p ≠ l := fun same => incomplete (same ▸ List.prefix_rfl)
    rw [readDelimited, readVarint_of_cut spelled inLength shorter]
  · intro complete
    obtain ⟨taken, rfl⟩ := complete
    have length : readVarint (l ++ taken) = .ok (payload.length, taken) :=
      readVarint_eq_ok_iff.mpr ⟨l, rfl, spelled⟩
    have inside : taken <+: payload := (List.prefix_append_right_inj l).mp cut
    have shorter : taken.length < payload.length := by
      have differ : taken ≠ payload := fun same => proper (by rw [same])
      have different := mt inside.eq_of_length differ
      have := inside.length_le
      omega
    rw [readDelimited, length]
    exact takeBytes_eq_error_iff.mpr ⟨rfl, shorter⟩

end Wire

namespace Write

/-! ## Cut transactions -/

/-- What stands before the body in the bytes of a write: the key of the command field and the length
    of the body. -/
def header (w : Write) : Bytes :=
  FieldKey.encode ⟨1, .lengthDelimited⟩ ++ Varint.encode w.encodeBody.length

/-- The report on the first bytes `p` of the transaction of a write. -/
structure CutOff (w : Write) (p : Bytes) : Prop where
  fails : ∃ error, decode p = .error error
  missing : decode p = .error .missingCommand ↔ p = []
  inLength : p ≠ [] → ¬w.header <+: p → MalformedAs p "TxProto.command: " "invalid varint"
  inBody : w.header <+: p → MalformedAs p "TxProto.command: " "buffer underflow"

theorem encode_commandKey : FieldKey.encode ⟨1, .lengthDelimited⟩ = [0x0a] := by
  decide +kernel

theorem decode_commandKey {q : Bytes} {fault : WireFault}
    (failed : readDelimited q = .error fault) :
    decode (0x0a :: q) = .error (.malformed ⟨.command, fault⟩) := by
  have unreadable : readKnown ⟨1, .lengthDelimited⟩ q = .error fault := by
    rw [readKnown, if_pos rfl, failed]
  apply decode_malformed_iff.mpr
  have read := mergeEnvelope_of_unreadableCommand unreadable
  rwa [encode_commandKey] at read

/-- A transaction that stops before its end is reported as such, wherever it stops. -/
theorem decode_cutOff (w : Write) (fits : w.encodeBody.length < UInt64.size) (p : Bytes)
    (cut : p <+: w.encode) (proper : p ≠ w.encode) : CutOff w p := by
  have written : w.encode = 0x0a :: (Varint.encode w.encodeBody.length ++ w.encodeBody) := by
    rw [encode, encodeDelimited, encode_commandKey]
    rfl
  have begins : w.header = 0x0a :: Varint.encode w.encodeBody.length := by
    rw [header, encode_commandKey]
    rfl
  rw [written] at cut proper
  -- the key of the command field is a single byte, so it is not cut itself
  cases p with
  | nil =>
    have missing : decode [] = .error .missingCommand := by decide +kernel
    refine ⟨⟨_, missing⟩, by simp [missing], fun nonempty => absurd rfl nonempty, ?_⟩
    intro complete
    rw [begins] at complete
    cases List.prefix_nil.mp complete
  | cons b q =>
    obtain ⟨rfl, tail⟩ := List.cons_prefix_cons.mp cut
    have shorter : q ≠ Varint.encode w.encodeBody.length ++ w.encodeBody :=
      fun same => proper (by rw [same])
    obtain ⟨inLength, inBody⟩ :=
      readDelimited_of_cut (Varint.spelling_encode fits) tail shorter
    have complete_iff : w.header <+: 0x0a :: q ↔ Varint.encode w.encodeBody.length <+: q := by
      rw [begins, List.cons_prefix_cons]
      exact and_iff_right rfl
    have failed : ∃ fault, readDelimited q = .error fault := by
      by_cases complete : Varint.encode w.encodeBody.length <+: q
      · exact ⟨_, inBody complete⟩
      · exact ⟨_, inLength complete⟩
    obtain ⟨fault, read⟩ := failed
    refine ⟨⟨_, decode_commandKey read⟩, ?_, ?_, ?_⟩
    · simp [decode_commandKey read]
    · intro _ incomplete
      exact ⟨_, decode_commandKey (inLength (mt complete_iff.mpr incomplete)), rfl, rfl⟩
    · intro complete
      exact ⟨_, decode_commandKey (inBody (complete_iff.mp complete)), rfl, rfl⟩

/-- A write whose body takes two bytes for its length. -/
def longKey : Write := ⟨List.replicate 200 0x6b, [0x76]⟩

/-- Cut inside the length, and behind the whole key, where a shorter body could end. -/
theorem decode_cutOff_longKey :
    longKey.encodeBody.length < UInt64.size ∧
      (([0x0a, 0xce] : Bytes) <+: longKey.encode ∧ [0x0a, 0xce] ≠ longKey.encode) ∧
      (longKey.encode.take 206 <+: longKey.encode ∧ longKey.encode.take 206 ≠ longKey.encode) ∧
      CutOff longKey [0x0a, 0xce] ∧ ¬longKey.header <+: [0x0a, 0xce] ∧
      CutOff longKey (longKey.encode.take 206) ∧
      longKey.header <+: longKey.encode.take 206 := by
  have fits : longKey.encodeBody.length < UInt64.size := by decide +kernel
  have early : ([0x0a, 0xce] : Bytes) <+: longKey.encode := by decide +kernel
  have earlyProper : ([0x0a, 0xce] : Bytes) ≠ longKey.encode := by decide +kernel
  have late : longKey.encode.take 206 <+: longKey.encode := List.take_prefix ..
  have lateProper : longKey.encode.take 206 ≠ longKey.encode := by decide +kernel
  exact ⟨fits, ⟨early, earlyProper⟩, ⟨late, lateProper⟩,
    decode_cutOff longKey fits _ early earlyProper, by decide +kernel,
    decode_cutOff longKey fits _ late lateProper, by decide +kernel⟩

end Write

end ReplicatedKv
