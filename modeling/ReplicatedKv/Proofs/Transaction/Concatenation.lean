import ReplicatedKv.Proofs.Transaction.Grammar

/-! # Concatenated transactions

A transaction may be followed by more bytes.  Whatever it was read from is read alike before more
bytes, and what follows only adds to the command that was read: a fault in it is the fault of the
whole, its last key and its last value win, and what it leaves out stays as it was.

* `Write.mergeEnvelope_append` — an envelope that is read through is read through before more bytes.
* `Write.mergeEnvelope_eq_error` — faults do not depend on the command so far.
* `Write.HasField` — some body of a transaction has a key, or a value.
* `Write.Concatenation` — what bytes say after others.
* `Write.decode_append` — that is what they say, wherever the others are no fault.
-/

namespace ReplicatedKv

open Wire

/-! ## Reading before more bytes -/

theorem Wire.FieldKey.read_append {key : FieldKey} {s rest : Bytes}
    (keyRead : FieldKey.read s = .ok (key, rest)) (more : Bytes) :
    FieldKey.read (s ++ more) = .ok (key, rest ++ more) := by
  obtain ⟨k, rfl, spelled⟩ := FieldKey.read_eq_ok_iff.mp keyRead
  exact FieldKey.read_eq_ok_iff.mpr ⟨k, List.append_assoc .., spelled⟩

namespace Write

theorem mergeEnvelopeField_append {command command' : Option Write} {key : FieldKey}
    {s rest : Bytes} (merged : mergeEnvelopeField command key s = .ok (command', rest))
    (more : Bytes) :
    mergeEnvelopeField command key (s ++ more) = .ok (command', rest ++ more) := by
  obtain ⟨f, p, bodies, sameKey, spelled, rfl, conditions⟩ :=
    mergeEnvelopeField_eq_ok_iff.mp merged
  exact mergeEnvelopeField_eq_ok_iff.mpr
    ⟨f, p, bodies, sameKey, spelled, List.append_assoc .., conditions⟩

theorem mergeEnvelope_append {command command' : Option Write} {s : Bytes}
    (merged : mergeEnvelope command s = .ok command') (more : Bytes) :
    mergeEnvelope command (s ++ more) = mergeEnvelope command' more := by
  fun_induction mergeEnvelope command s with
  | case1 command => cases merged; rfl
  | case2 | case3 => cases merged
  | case4 command s _ key tail keyRead command'' rest step ih =>
    simp only [mergeEnvelope_of_read (FieldKey.read_append keyRead more),
      mergeEnvelopeField_append step more]
    exact ih merged

/-! ## Faults

What a step reads, and the fault that it finds, does not depend on the command so far. -/

theorem map_snd_mergeField (w w' : Write) (key : FieldKey) (s : Bytes) :
    (mergeField w key s).map Prod.snd = (mergeField w' key s).map Prod.snd := by
  rw [mergeField, mergeField]
  split
  · cases located .key (readKnown key s) <;> rfl
  split
  · cases located .value (readKnown key s) <;> rfl
  · cases located .command (skipField (nestingLimit - 1) key s) <;> rfl

theorem map_snd_mergeNext (w w' : Write) (s : Bytes) :
    (mergeNext w s).map Prod.snd = (mergeNext w' s).map Prod.snd := by
  rw [mergeNext, mergeNext]
  split
  · rfl
  · exact map_snd_mergeField ..

theorem mergeNext_eq_error {w : Write} {s : Bytes} {fault : TransactionFault}
    (failed : mergeNext w s = .error fault) (w' : Write) : mergeNext w' s = .error fault :=
  map_eq_error_iff.mp ((map_snd_mergeNext w' w s).trans (map_eq_error_iff.mpr failed))

theorem exists_mergeNext_eq_ok {w next : Write} {s rest : Bytes}
    (merged : mergeNext w s = .ok (next, rest)) (w' : Write) :
    ∃ next', mergeNext w' s = .ok (next', rest) := by
  obtain ⟨f, k, p, split, key, payload, delimited, within, -⟩ := mergeNext_eq_ok_iff.mp merged
  exact ⟨w'.absorb f,
    mergeNext_eq_ok_iff.mpr ⟨f, k, p, split, key, payload, delimited, within, rfl⟩⟩

theorem bodyFault_congr (after : Bytes) (w w' : Write) (s : Bytes) :
    bodyFault after w s = bodyFault after w' s := by
  cases read : mergeNext w (s ++ after) with
  | error fault => simp only [bodyFault, read, mergeNext_eq_error read w']
  | ok result =>
    obtain ⟨next', read'⟩ := exists_mergeNext_eq_ok read w'
    simp only [bodyFault, read, read']

theorem mergeBody_eq_error {after s : Bytes} {w : Write} {fault : TransactionFault}
    (failed : mergeBody after w s = .error fault) (w' : Write) :
    mergeBody after w' s = .error fault := by
  fun_induction mergeBody after w s generalizing w' with
  | case1 => cases failed
  | case2 w s nonempty first step =>
    rw [← failed, bodyFault_congr after w w']
    simp only [mergeBody_of_ne_nil nonempty, mergeNext_eq_error step w']
  | case3 w s _ next rest step ih =>
    obtain ⟨next', step'⟩ := exists_mergeNext_eq_ok step w'
    rw [mergeBody_of_mergeNext step']
    exact ih failed next'

theorem mergeCommand_eq_error {w : Write} {key : FieldKey} {s : Bytes} {fault : TransactionFault}
    (failed : mergeCommand w key s = .error fault) (w' : Write) :
    mergeCommand w' key s = .error fault := by
  rw [mergeCommand] at failed ⊢
  split at failed
  · exact failed
  · exact map_eq_error_iff.mpr (mergeBody_eq_error (map_eq_error_iff.mp failed) w')

theorem mergeEnvelopeField_eq_error {command : Option Write} {key : FieldKey} {s : Bytes}
    {fault : TransactionFault} (failed : mergeEnvelopeField command key s = .error fault)
    (command' : Option Write) : mergeEnvelopeField command' key s = .error fault := by
  by_cases isCommand : key.number = 1
  · rw [mergeEnvelopeField, if_pos isCommand, map_eq_error_iff] at failed ⊢
    exact mergeCommand_eq_error failed (command'.getD {})
  · rw [mergeEnvelopeField, if_neg isCommand, map_eq_error_iff] at failed ⊢
    exact failed

theorem exists_mergeEnvelopeField_eq_ok {command next : Option Write} {key : FieldKey}
    {s rest : Bytes} (merged : mergeEnvelopeField command key s = .ok (next, rest))
    (command' : Option Write) :
    ∃ next', mergeEnvelopeField command' key s = .ok (next', rest) := by
  obtain ⟨f, p, bodies, sameKey, spelled, split, delimited, within, messages, -⟩ :=
    mergeEnvelopeField_eq_ok_iff.mp merged
  exact ⟨bodies.foldl extend command', mergeEnvelopeField_eq_ok_iff.mpr
    ⟨f, p, bodies, sameKey, spelled, split, delimited, within, messages, rfl⟩⟩

theorem mergeEnvelope_eq_error {command : Option Write} {s : Bytes} {fault : TransactionFault}
    (failed : mergeEnvelope command s = .error fault) (command' : Option Write) :
    mergeEnvelope command' s = .error fault := by
  fun_induction mergeEnvelope command s generalizing command' with
  | case1 => cases failed
  | case2 command s nonempty first keyRead =>
    simp only [mergeEnvelope_of_ne_nil nonempty, keyRead]
    exact failed
  | case3 command s _ key tail keyRead first step =>
    rw [← failed, mergeEnvelope_of_read keyRead, mergeEnvelopeField_eq_error step command']
  | case4 command s _ key tail keyRead next rest step ih =>
    obtain ⟨next', step'⟩ := exists_mergeEnvelopeField_eq_ok step command'
    simp only [mergeEnvelope_of_read keyRead, step']
    exact ih failed next'

/-! ## Envelopes without a command -/

/-- No command is read exactly where there are only unknown fields. -/
theorem mergeEnvelope_eq_none_iff {raw : Bytes} :
    mergeEnvelope none raw = .ok none ↔
      ∃ fields, IsMessage [1] 100 fields raw ∧ ∀ f ∈ fields, f.number ≠ 1 := by
  constructor
  · intro merged
    obtain ⟨fields, bodies, message, messages, result⟩ := exists_bodies_of_mergeEnvelope merged
    refine ⟨fields, message, ?_⟩
    intro f member isCommand
    have some := (exists_body_iff message).mpr ⟨f, member, isCommand⟩
    cases bodies with
    | nil => exact some (List.forall₂_nil_left_iff.mp messages)
    | cons body bodies =>
      rw [foldl_extend_cons] at result
      cases result
  · intro given
    obtain ⟨fields, message, unknown⟩ := given
    have noBody : fields.filterMap (Field.payload? 1) = [] := by
      by_contra some
      obtain ⟨f, member, isCommand⟩ := (exists_body_iff message).mp some
      exact unknown f member isCommand
    have messages : List.Forall₂ (IsMessage [1, 2] 99) []
        (fields.filterMap (Field.payload? 1)) := by
      rw [noBody]
      exact .nil
    exact mergeEnvelope_of_isMessage message messages none

/-- Unknown fields change no command. -/
theorem mergeEnvelope_of_eq_none {raw : Bytes} (merged : mergeEnvelope none raw = .ok none)
    (command : Option Write) : mergeEnvelope command raw = .ok command := by
  obtain ⟨fields, bodies, message, messages, result⟩ := exists_bodies_of_mergeEnvelope merged
  cases bodies with
  | nil => exact mergeEnvelope_of_isMessage message messages command
  | cons body bodies =>
    rw [foldl_extend_cons] at result
    cases result

/-! ## Commands after commands -/

/-- Some body of a transaction has a field with the number, be it empty. -/
def HasField (number : Nat) (raw : Bytes) : Prop :=
  ∃ (envelope : List Field) (bodies : List (List Field)), IsMessage [1] 100 envelope raw ∧
    List.Forall₂ (IsMessage [1, 2] 99) bodies (envelope.filterMap (Field.payload? 1)) ∧
    ∃ body ∈ bodies, ∃ f ∈ body, f.number = number

theorem delimited_of_messages {known : List Nat} {limit : Nat} {bodies : List (List Field)}
    {payloads : List Bytes} (messages : List.Forall₂ (IsMessage known limit) bodies payloads) :
    ∀ f ∈ bodies.flatten, f.number ∈ known → f.wireType = .lengthDelimited := by
  induction messages with
  | nil => simp
  | cons message _ ih =>
    simp only [List.flatten_cons, List.forall_mem_append]
    exact ⟨message.delimited, ih⟩

/-- A command goes on with the one before it: it may set the key and the value anew. -/
theorem exists_mergeEnvelope_some {raw : Bytes} {second : Write}
    (merged : mergeEnvelope none raw = .ok (some second)) (first : Write) :
    ∃ w, mergeEnvelope (some first) raw = .ok (some w) := by
  obtain ⟨envelope, bodies, message, messages, -⟩ := exists_bodies_of_mergeEnvelope merged
  exact ⟨_, (mergeEnvelope_of_isMessage message messages (some first)).trans
    (congrArg Except.ok (foldl_extend_some bodies first))⟩

/-- A part of a write, key or value: what the fields with its number set. -/
structure IsPart (number : Nat) (part : Write → Bytes) : Prop where
  known : number ∈ [1, 2]
  last (fields : List Field) (w : Write) : part (fields.foldl absorb w) =
    (fields.filterMap (Field.payload? number)).getLast?.getD (part w)

theorem isPart_key : IsPart 1 Write.key where
  known := by simp
  last fields w := by rw [foldl_absorb]

theorem isPart_value : IsPart 2 Write.value where
  known := by simp
  last fields w := by rw [foldl_absorb]

variable {number : Nat} {part : Write → Bytes}

theorem IsPart.of_bodies (isPart : IsPart number part) {raw : Bytes} {envelope : List Field}
    {bodies : List (List Field)} (message : IsMessage [1] 100 envelope raw)
    (messages : List.Forall₂ (IsMessage [1, 2] 99) bodies
      (envelope.filterMap (Field.payload? 1)))
    {command : Option Write} {w : Write} (merged : mergeEnvelope command raw = .ok (some w)) :
    part w = (bodies.flatten.filterMap (Field.payload? number)).getLast?.getD
      (part (command.getD {})) := by
  have result := Except.ok.inj
    ((mergeEnvelope_of_isMessage message messages command).symm.trans merged)
  cases bodies with
  | nil =>
    have same : command = some w := result
    rw [same]
    rfl
  | cons body bodies =>
    rw [foldl_extend_cons] at result
    rw [← Option.some.inj result, isPart.last]

/-- The later command sets a part where it has a field for it, and leaves it otherwise. -/
theorem IsPart.later (isPart : IsPart number part) {raw : Bytes} {first second w : Write}
    (alone : mergeEnvelope none raw = .ok (some second))
    (after : mergeEnvelope (some first) raw = .ok (some w)) :
    (HasField number raw → part w = part second) ∧
      (¬HasField number raw → part w = part first) := by
  constructor
  · intro has
    obtain ⟨envelope, bodies, message, messages, body, inBodies, f, inBody, same⟩ := has
    have sets : bodies.flatten.filterMap (Field.payload? number) ≠ [] := by
      apply (Field.filterMap_payload?_ne_nil_iff ?_).mpr
      · exact ⟨f, List.mem_flatten.mpr ⟨body, inBodies, inBody⟩, same⟩
      · intro g member sameNumber
        exact delimited_of_messages messages g member (sameNumber ▸ isPart.known)
    rw [isPart.of_bodies message messages alone, isPart.of_bodies message messages after,
      List.getLast?_eq_some_getLast sets]
    rfl
  · intro hasNot
    obtain ⟨envelope, bodies, message, messages, -⟩ := exists_bodies_of_mergeEnvelope alone
    have leaves : bodies.flatten.filterMap (Field.payload? number) = [] := by
      apply List.filterMap_eq_nil_iff.mpr
      intro f member
      apply Field.payload?_eq_none
      intro same
      obtain ⟨body, inBodies, inBody⟩ := List.mem_flatten.mp member
      exact hasNot ⟨envelope, bodies, message, messages, body, inBodies, f, inBody, same⟩
    rw [isPart.of_bodies message messages after, leaves]
    rfl

/-! ## The law -/

/-- What the bytes `b` say behind the bytes `a`.  A fault in them is the fault of the whole, with the
    same text.  Where both are commands, `b` sets the key and the value that it has a field for. -/
structure Concatenation (a b : Bytes) : Prop where
  malformed (fault : TransactionFault) :
    decode (a ++ b) = .error (.malformed fault) ↔ decode b = .error (.malformed fault)
  nothingAfter : decode b = .error .missingCommand → decode (a ++ b) = decode a
  nothingBefore : decode a = .error .missingCommand → decode (a ++ b) = decode b
  merged (first second : Write) : decode a = .ok first → decode b = .ok second →
    ∃ w, decode (a ++ b) = .ok w ∧
      (HasField 1 b → w.key = second.key) ∧ (¬HasField 1 b → w.key = first.key) ∧
      (HasField 2 b → w.value = second.value) ∧ (¬HasField 2 b → w.value = first.value)
  /-- Between the two, unknown fields make no difference. -/
  inserted (fields : List Field) (u : Bytes) : IsMessage [1] 100 fields u →
    (∀ f ∈ fields, f.number ≠ 1) → decode (a ++ u ++ b) = decode (a ++ b)

/-- Whatever follows bytes that are a transaction or lack only a command, it continues them in this
    way. -/
theorem decode_append (a b : Bytes) (readable : ∀ fault, decode a ≠ .error (.malformed fault)) :
    Concatenation a b := by
  obtain ⟨command, read⟩ : ∃ command, mergeEnvelope none a = .ok command := by
    cases merged : mergeEnvelope none a with
    | error fault => exact absurd (decode_malformed_iff.mpr merged) (readable fault)
    | ok command => exact ⟨command, rfl⟩
  have continued (more : Bytes) : mergeEnvelope none (a ++ more) = mergeEnvelope command more :=
    mergeEnvelope_append read more
  refine ⟨?malformed, ?nothingAfter, ?nothingBefore, ?merged, ?inserted⟩
  case malformed =>
    intro fault
    rw [decode_malformed_iff, decode_malformed_iff, continued]
    exact ⟨fun failed => mergeEnvelope_eq_error failed none,
      fun failed => mergeEnvelope_eq_error failed command⟩
  case nothingAfter =>
    intro missing
    apply decode_congr
    rw [continued, mergeEnvelope_of_eq_none (decode_missingCommand_iff.mp missing), read]
  case nothingBefore =>
    intro missing
    have none : command = none :=
      Except.ok.inj (read.symm.trans (decode_missingCommand_iff.mp missing))
    apply decode_congr
    rw [continued, none]
  case merged =>
    intro first second readFirst readSecond
    have some : command = some first :=
      Except.ok.inj (read.symm.trans (decode_ok_iff.mp readFirst))
    have alone := decode_ok_iff.mp readSecond
    obtain ⟨w, after⟩ := exists_mergeEnvelope_some alone first
    refine ⟨w, decode_ok_iff.mpr (by rw [continued, some, after]), ?_⟩
    have key := isPart_key.later alone after
    have value := isPart_value.later alone after
    exact ⟨key.1, key.2, value.1, value.2⟩
  case inserted =>
    intro fields u message unknown
    have silent := mergeEnvelope_eq_none_iff.mpr ⟨fields, message, unknown⟩
    apply decode_congr
    rw [List.append_assoc, continued, continued,
      mergeEnvelope_append (mergeEnvelope_of_eq_none silent command) b]

/-- A command whose body has an empty key and no value. -/
def emptyKey : Bytes := [0x0a, 0x02, 0x0a, 0x00]

theorem decode_append_emptyKey :
    (∀ fault, decode (encode ⟨[0x6b], [0x76]⟩) ≠ .error (.malformed fault)) ∧
      decode emptyKey = .ok ⟨[], []⟩ ∧
      decode (encode ⟨[0x6b], [0x76]⟩ ++ emptyKey) = .ok ⟨[], [0x76]⟩ ∧
      Concatenation (encode ⟨[0x6b], [0x76]⟩) emptyKey := by
  have read : decode (encode ⟨[0x6b], [0x76]⟩) = .ok ⟨[0x6b], [0x76]⟩ := by decide +kernel
  have readable (fault : TransactionFault) :
      decode (encode ⟨[0x6b], [0x76]⟩) ≠ .error (.malformed fault) := by
    rw [read]
    nofun
  exact ⟨readable, by decide +kernel, by decide +kernel, decode_append _ _ readable⟩

end Write

end ReplicatedKv
