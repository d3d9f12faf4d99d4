import Mathlib.Data.List.Forall2
import ReplicatedKv.Proofs.Wire.Grammar
import ReplicatedKv.Transaction

/-! # The grammar of transactions

Which byte strings are transactions, and which write each stands for, said over the trees of fields
that they spell.

* `IsMessage` — a concatenation of fields in which the known ones are length-delimited and nothing
  nests too deeply.
* `Field.lastPayload` — the bytes of the last field with a number.
* `Write.decode_eq_ok_iff` — a byte string decodes to a write exactly where it spells an envelope
  with at least one command field, each command field spells a body, and the write has the last key
  and the last value of all bodies in order.
-/

namespace ReplicatedKv

open Wire

namespace Wire.Field

/-- The bytes of a length-delimited field with the given number. -/
def payload? (number : Nat) : Field → Option Bytes
  | .lengthDelimited n bytes => if n = number then some bytes else none
  | _ => none

/-- The bytes of the last length-delimited field with the given number, none at all where there is
    no such field. -/
def lastPayload (number : Nat) (fields : List Field) : Bytes :=
  (fields.filterMap (payload? number)).getLast?.getD []

theorem payload?_eq_none {number : Nat} {f : Field} (other : f.number ≠ number) :
    f.payload? number = none := by
  cases f with
  | lengthDelimited n bytes => exact if_neg other
  | _ => rfl

theorem exists_payload?_eq_some {number : Nat} {f : Field} (same : f.number = number)
    (delimited : f.wireType = .lengthDelimited) : ∃ bytes, f.payload? number = some bytes := by
  cases f with
  | lengthDelimited n bytes => exact ⟨bytes, if_pos same⟩
  | _ => cases delimited

theorem eq_lengthDelimited_of_payload? {number : Nat} {f : Field} {bytes : Bytes}
    (found : f.payload? number = some bytes) : f = .lengthDelimited number bytes := by
  cases f with
  | lengthDelimited n bytes' =>
    simp only [payload?] at found
    split at found
    next same => cases found; rw [same]
    next => cases found
  | _ => cases found

theorem filterMap_payload?_cons (number : Nat) (f : Field) (fields : List Field) :
    (f :: fields).filterMap (payload? number) =
      (f.payload? number).toList ++ fields.filterMap (payload? number) := by
  cases found : f.payload? number with
  | none => rw [List.filterMap_cons_none found]; rfl
  | some bytes => rw [List.filterMap_cons_some found]; rfl

/-- Where the fields with a number are length-delimited, they all have a payload. -/
theorem filterMap_payload?_ne_nil_iff {number : Nat} {fields : List Field}
    (delimited : ∀ f ∈ fields, f.number = number → f.wireType = .lengthDelimited) :
    fields.filterMap (payload? number) ≠ [] ↔ ∃ f ∈ fields, f.number = number := by
  constructor
  · intro nonempty
    obtain ⟨bytes, member⟩ := List.exists_mem_of_ne_nil _ nonempty
    obtain ⟨f, inFields, found⟩ := List.mem_filterMap.mp member
    refine ⟨f, inFields, ?_⟩
    rw [eq_lengthDelimited_of_payload? found]
    rfl
  · intro given
    obtain ⟨f, inFields, same⟩ := given
    obtain ⟨bytes, found⟩ := exists_payload?_eq_some same (delimited f inFields same)
    exact List.ne_nil_of_mem (List.mem_filterMap.mpr ⟨f, inFields, found⟩)

theorem wireType_of_payload? {number : Nat} {f : Field} {bytes : Bytes}
    (found : f.payload? number = some bytes) : f.wireType = .lengthDelimited := by
  rw [eq_lengthDelimited_of_payload? found]
  rfl

theorem within_of_payload? {number limit : Nat} {f : Field} {bytes : Bytes}
    (found : f.payload? number = some bytes) (positive : 0 < limit) : f.Within limit := by
  apply within_of_ne_startGroup _ positive
  rw [wireType_of_payload? found]
  decide

end Wire.Field

/-! ## Messages -/

/-- The byte string is a message with the given fields: the fields with known numbers are
    length-delimited, and every part of a field stands inside fewer groups than the limit. -/
structure IsMessage (known : List Nat) (limit : Nat) (fields : List Field) (s : Bytes) : Prop where
  sequence : Field.Sequence fields s
  delimited : ∀ f ∈ fields, f.number ∈ known → f.wireType = .lengthDelimited
  nested : ∀ f ∈ fields, f.Within limit

namespace IsMessage

variable {known : List Nat} {limit : Nat}

theorem nil : IsMessage known limit [] [] := ⟨.nil, by simp, by simp⟩

theorem cons {f : Field} {fields : List Field} {k p s : Bytes} (key : f.key.Spelling k)
    (payload : f.Payload p) (delimited : f.number ∈ known → f.wireType = .lengthDelimited)
    (nested : f.Within limit) (message : IsMessage known limit fields s) :
    IsMessage known limit (f :: fields) (k ++ p ++ s) where
  sequence := .cons key payload message.sequence
  delimited := List.forall_mem_cons.mpr ⟨delimited, message.delimited⟩
  nested := List.forall_mem_cons.mpr ⟨nested, message.nested⟩

theorem tail {f : Field} {fields : List Field} {s t : Bytes}
    (message : IsMessage known limit (f :: fields) t) (sequence : Field.Sequence fields s) :
    IsMessage known limit fields s where
  sequence := sequence
  delimited := (List.forall_mem_cons.mp message.delimited).2
  nested := (List.forall_mem_cons.mp message.nested).2

end IsMessage

namespace Write

/-! ## The body of a command -/

/-- The write after one more field of the body. -/
def absorb (w : Write) (f : Field) : Write :=
  ⟨(f.payload? 1).getD w.key, (f.payload? 2).getD w.value⟩

theorem absorb_of_ne {w : Write} {f : Field} (notKey : f.number ≠ 1) (notValue : f.number ≠ 2) :
    w.absorb f = w := by
  rw [absorb, Field.payload?_eq_none notKey, Field.payload?_eq_none notValue]
  rfl

/-- Of the fields of a body only the last key and the last value count. -/
theorem foldl_absorb (fields : List Field) (w : Write) :
    fields.foldl absorb w =
      ⟨(fields.filterMap (Field.payload? 1)).getLast?.getD w.key,
       (fields.filterMap (Field.payload? 2)).getLast?.getD w.value⟩ := by
  induction fields generalizing w with
  | nil => rfl
  | cons f fields ih =>
    have last (number : Nat) (before : Bytes) :
        ((f :: fields).filterMap (Field.payload? number)).getLast?.getD before =
          (fields.filterMap (Field.payload? number)).getLast?.getD
            ((f.payload? number).getD before) := by
      rw [Field.filterMap_payload?_cons, List.getLast?_append]
      cases (fields.filterMap (Field.payload? number)).getLast? with
      | none => cases f.payload? number <;> rfl
      | some bytes => rfl
    rw [List.foldl_cons, ih, last, last]
    rfl

theorem absorb_of_payload?_one {w : Write} {f : Field} {payload : Bytes}
    (found : f.payload? 1 = some payload) : w.absorb f = { w with key := payload } := by
  rw [Field.eq_lengthDelimited_of_payload? found]
  rfl

theorem absorb_of_payload?_two {w : Write} {f : Field} {payload : Bytes}
    (found : f.payload? 2 = some payload) : w.absorb f = { w with value := payload } := by
  rw [Field.eq_lengthDelimited_of_payload? found]
  rfl

theorem readKnown_eq_ok_iff {key : FieldKey} {s payload rest : Bytes} :
    readKnown key s = .ok (payload, rest) ↔
      ∃ (f : Field) (p : Bytes), f.key = key ∧ f.Payload p ∧ s = p ++ rest ∧
        f.payload? key.number = some payload := by
  rw [readKnown]
  constructor
  · intro read
    split at read
    next delimited =>
      obtain ⟨l, rfl, spelled⟩ := readDelimited_eq_ok_iff.mp read
      obtain ⟨number, wireType⟩ := key
      cases delimited
      exact ⟨.lengthDelimited number payload, _, rfl, .lengthDelimited spelled, rfl, if_pos rfl⟩
    next => cases read
  · rintro ⟨f, p, rfl, spelled, rfl, found⟩
    have delimited := Field.eq_lengthDelimited_of_payload? found
    generalize f.key.number = number at delimited
    subst delimited
    cases spelled with
    | lengthDelimited spelled => exact readDelimited_eq_ok_iff.mpr ⟨_, rfl, spelled⟩

/-- The key field and the value field are taken in alike: `set` puts the payload into its place. -/
theorem map_readKnown_eq_ok_iff {w w' : Write} {location : Location} {number : Nat}
    {key : FieldKey} {s rest : Bytes} {set : Bytes → Write} (same : key.number = number)
    (known : number ∈ [1, 2])
    (absorbs : ∀ {f : Field} {payload : Bytes}, f.payload? number = some payload →
      w.absorb f = set payload) :
    ((located location (readKnown key s)).map fun (payload, rest) => (set payload, rest)) =
        .ok (w', rest) ↔
      ∃ (f : Field) (p : Bytes), f.key = key ∧ f.Payload p ∧ s = p ++ rest ∧
        (f.number ∈ [1, 2] → f.wireType = .lengthDelimited) ∧ f.Within 99 ∧ w' = w.absorb f := by
  rw [map_eq_ok_iff]
  constructor
  · intro given
    obtain ⟨⟨payload, tail⟩, read, result⟩ := given
    cases result
    obtain ⟨f, p, rfl, spelled, rfl, found⟩ := readKnown_eq_ok_iff.mp (located_eq_ok_iff.mp read)
    rw [same] at found
    exact ⟨f, p, rfl, spelled, rfl, fun _ => Field.wireType_of_payload? found,
      Field.within_of_payload? found (by decide), (absorbs found).symm⟩
  · intro given
    obtain ⟨f, p, keyEq, spelled, split, delimited, _, result⟩ := given
    have sameNumber : f.number = number := by rw [← same, ← keyEq]
    obtain ⟨payload, found⟩ :=
      Field.exists_payload?_eq_some sameNumber (delimited (sameNumber ▸ known))
    refine ⟨(payload, rest), located_eq_ok_iff.mpr (readKnown_eq_ok_iff.mpr ?_), ?_⟩
    · exact ⟨f, p, keyEq, spelled, split, same ▸ found⟩
    · rw [result, absorbs found]

/-- A body field whose key has been read is taken in exactly where a payload of that key stands at
    the front that a body may hold. -/
theorem mergeField_eq_ok_iff {w w' : Write} {key : FieldKey} {s rest : Bytes} :
    mergeField w key s = .ok (w', rest) ↔
      ∃ (f : Field) (p : Bytes), f.key = key ∧ f.Payload p ∧ s = p ++ rest ∧
        (f.number ∈ [1, 2] → f.wireType = .lengthDelimited) ∧ f.Within 99 ∧ w' = w.absorb f := by
  -- two known fields, and all others
  by_cases isKey : key.number = 1
  · rw [mergeField, if_pos isKey]
    exact map_readKnown_eq_ok_iff isKey (by simp) absorb_of_payload?_one
  by_cases isValue : key.number = 2
  · rw [mergeField, if_neg isKey, if_pos isValue]
    exact map_readKnown_eq_ok_iff isValue (by simp) absorb_of_payload?_two
  rw [mergeField, if_neg isKey, if_neg isValue, map_eq_ok_iff]
  constructor
  · intro given
    obtain ⟨tail, skipped, result⟩ := given
    cases result
    obtain ⟨f, p, rfl, spelled, rfl, within⟩ :=
      skipField_eq_ok_iff.mp (located_eq_ok_iff.mp skipped)
    have unknown : f.number ∉ [1, 2] := by simp [Field.number, isKey, isValue]
    exact ⟨f, p, rfl, spelled, rfl, fun known => absurd known unknown, within,
      (absorb_of_ne isKey isValue).symm⟩
  · intro given
    obtain ⟨f, p, keyEq, spelled, split, _, within, result⟩ := given
    subst keyEq
    rw [absorb_of_ne isKey isValue] at result
    refine ⟨rest, located_eq_ok_iff.mpr (skipField_eq_ok_iff.mpr ?_), by rw [result]⟩
    exact ⟨f, p, rfl, spelled, split, within⟩

theorem mergeNext_eq_ok_iff {w w' : Write} {s rest : Bytes} :
    mergeNext w s = .ok (w', rest) ↔
      ∃ (f : Field) (k p : Bytes), s = k ++ p ++ rest ∧ f.key.Spelling k ∧ f.Payload p ∧
        (f.number ∈ [1, 2] → f.wireType = .lengthDelimited) ∧ f.Within 99 ∧ w' = w.absorb f := by
  rw [mergeNext]
  constructor
  · intro merged
    split at merged
    · cases merged
    next key tail keyRead =>
      obtain ⟨k, rfl, spelledKey⟩ := FieldKey.read_eq_ok_iff.mp keyRead
      obtain ⟨f, p, rfl, spelled, rfl, delimited, within, result⟩ :=
        mergeField_eq_ok_iff.mp merged
      exact ⟨f, k, p, by simp, spelledKey, spelled, delimited, within, result⟩
  · intro given
    obtain ⟨f, k, p, split, spelledKey, spelled, delimited, within, result⟩ := given
    have keyRead : FieldKey.read s = .ok (f.key, p ++ rest) :=
      FieldKey.read_eq_ok_iff.mpr ⟨k, by rw [split, List.append_assoc], spelledKey⟩
    rw [keyRead]
    exact mergeField_eq_ok_iff.mpr ⟨f, p, rfl, spelled, rfl, delimited, within, result⟩

/-- One turn of the loop over a body. -/
theorem mergeBody_of_ne_nil {after : Bytes} {w : Write} {s : Bytes} (nonempty : s ≠ []) :
    mergeBody after w s =
      match mergeNext w s with
      | .error _ => .error (bodyFault after w s)
      | .ok (w', rest) => mergeBody after w' rest := by
  rw [mergeBody, if_neg nonempty]
  cases mergeNext w s <;> rfl

theorem mergeBody_of_mergeNext {after : Bytes} {w w' : Write} {s rest : Bytes}
    (merged : mergeNext w s = .ok (w', rest)) : mergeBody after w s = mergeBody after w' rest := by
  have nonempty : s ≠ [] :=
    List.ne_nil_of_length_pos (by have := length_lt_of_mergeNext merged; omega)
  rw [mergeBody_of_ne_nil nonempty, merged]

/-- A body is taken in exactly where it is a message of key, value and unknown fields by itself,
    whatever stands behind it. -/
theorem mergeBody_eq_ok_iff {after : Bytes} {w w' : Write} {s : Bytes} :
    mergeBody after w s = .ok w' ↔
      ∃ fields, IsMessage [1, 2] 99 fields s ∧ w' = fields.foldl absorb w := by
  constructor
  · intro merged
    fun_induction mergeBody after w s with
    | case1 w => cases merged; exact ⟨[], .nil, rfl⟩
    | case2 => cases merged
    | case3 w s _ w'' rest step ih =>
      obtain ⟨f, k, p, rfl, key, payload, delimited, within, rfl⟩ := mergeNext_eq_ok_iff.mp step
      obtain ⟨fields, message, result⟩ := ih merged
      exact ⟨f :: fields, message.cons key payload delimited within, result⟩
  · intro given
    obtain ⟨fields, message, result⟩ := given
    -- the write so far changes with every field, and so does the rest of the body
    induction fields generalizing w s with
    | nil =>
      cases message.sequence
      rw [mergeBody, if_pos rfl, result]
      rfl
    | cons f fields ih =>
      have delimited := message.delimited f (List.mem_cons_self ..)
      have within := message.nested f (List.mem_cons_self ..)
      cases message.sequence with
      | @cons _ _ k p tail key payload sequence =>
        have step : mergeNext w (k ++ p ++ tail) = .ok (w.absorb f, tail) :=
          mergeNext_eq_ok_iff.mpr ⟨f, k, p, rfl, key, payload, delimited, within, rfl⟩
        rw [mergeBody_of_mergeNext step]
        exact ih (message.tail sequence) result

/-! ## The envelope -/

/-- The command after one more body: what the body says is added to what is known. -/
def extend (command : Option Write) (body : List Field) : Option Write :=
  some (body.foldl absorb (command.getD {}))

/-- Several bodies act as one that has all their fields. -/
theorem foldl_extend_some (bodies : List (List Field)) (w : Write) :
    bodies.foldl extend (some w) = some (bodies.flatten.foldl absorb w) := by
  induction bodies generalizing w with
  | nil => rfl
  | cons body bodies ih =>
    simp only [List.foldl_cons, List.flatten_cons, List.foldl_append]
    exact ih _

theorem foldl_extend_cons (body : List Field) (bodies : List (List Field))
    (command : Option Write) :
    (body :: bodies).foldl extend command =
      some ((body :: bodies).flatten.foldl absorb (command.getD {})) := by
  rw [List.foldl_cons, extend, foldl_extend_some, List.flatten_cons, List.foldl_append]

theorem mergeCommand_eq_ok_iff {w w' : Write} {key : FieldKey} {s rest : Bytes} :
    mergeCommand w key s = .ok (w', rest) ↔
      ∃ (f : Field) (p body : Bytes) (fields : List Field), f.key = key ∧ f.Payload p ∧
        s = p ++ rest ∧ f.payload? key.number = some body ∧ IsMessage [1, 2] 99 fields body ∧
        w' = fields.foldl absorb w := by
  rw [mergeCommand]
  constructor
  · intro merged
    split at merged
    · cases merged
    next body tail read =>
      obtain ⟨_, bodyRead, same⟩ := map_eq_ok_iff.mp merged
      cases same
      obtain ⟨f, p, rfl, spelled, rfl, found⟩ :=
        readKnown_eq_ok_iff.mp (located_eq_ok_iff.mp read)
      obtain ⟨fields, message, result⟩ := mergeBody_eq_ok_iff.mp bodyRead
      exact ⟨f, p, body, fields, rfl, spelled, rfl, found, message, result⟩
  · intro given
    obtain ⟨f, p, body, fields, keyEq, spelled, split, found, message, result⟩ := given
    have read : located .command (readKnown key s) = .ok (body, rest) :=
      located_eq_ok_iff.mpr (readKnown_eq_ok_iff.mpr ⟨f, p, keyEq, spelled, split, found⟩)
    rw [read]
    exact map_eq_ok_iff.mpr ⟨w', mergeBody_eq_ok_iff.mpr ⟨fields, message, result⟩, rfl⟩

/-- An envelope field whose key has been read is taken in exactly where a payload of that key stands
    at the front: a command field with a body of its own, or an unknown field. -/
theorem mergeEnvelopeField_eq_ok_iff {command command' : Option Write} {key : FieldKey}
    {s rest : Bytes} :
    mergeEnvelopeField command key s = .ok (command', rest) ↔
      ∃ (f : Field) (p : Bytes) (bodies : List (List Field)), f.key = key ∧ f.Payload p ∧
        s = p ++ rest ∧ (f.number ∈ [1] → f.wireType = .lengthDelimited) ∧ f.Within 100 ∧
        List.Forall₂ (IsMessage [1, 2] 99) bodies (f.payload? 1).toList ∧
        command' = bodies.foldl extend command := by
  by_cases isCommand : key.number = 1
  · rw [mergeEnvelopeField, if_pos isCommand, map_eq_ok_iff]
    -- a command field brings exactly one body
    constructor
    · intro given
      obtain ⟨⟨w, tail⟩, merged, same⟩ := given
      cases same
      obtain ⟨f, p, body, fields, rfl, spelled, rfl, found, message, result⟩ :=
        mergeCommand_eq_ok_iff.mp merged
      rw [isCommand] at found
      refine ⟨f, p, [fields], rfl, spelled, rfl, fun _ => Field.wireType_of_payload? found,
        Field.within_of_payload? found (by decide), ?_, ?_⟩
      · rw [found]
        exact .cons message .nil
      · rw [result]
        rfl
    · intro given
      obtain ⟨f, p, bodies, keyEq, spelled, split, delimited, _, messages, result⟩ := given
      have sameNumber : f.number = 1 := by rw [← isCommand, ← keyEq]
      obtain ⟨body, found⟩ :=
        Field.exists_payload?_eq_some sameNumber (delimited (by simp [sameNumber]))
      rw [found] at messages
      cases messages with
      | @cons fields _ _ _ message none =>
        cases none
        refine ⟨(fields.foldl absorb (command.getD {}), rest), ?_, by rw [result]; rfl⟩
        exact mergeCommand_eq_ok_iff.mpr
          ⟨f, p, body, fields, keyEq, spelled, split, isCommand ▸ found, message, rfl⟩
  rw [mergeEnvelopeField, if_neg isCommand, map_eq_ok_iff]
  constructor
  · intro given
    obtain ⟨tail, skipped, same⟩ := given
    cases same
    obtain ⟨f, p, rfl, spelled, rfl, within⟩ :=
      skipField_eq_ok_iff.mp (located_eq_ok_iff.mp skipped)
    have unknown : f.number ∉ [1] := by simp [Field.number, isCommand]
    refine ⟨f, p, [], rfl, spelled, rfl, fun known => absurd known unknown, within, ?_, rfl⟩
    rw [Field.payload?_eq_none isCommand]
    exact .nil
  · intro given
    obtain ⟨f, p, bodies, keyEq, spelled, split, _, within, messages, result⟩ := given
    subst keyEq
    rw [Field.payload?_eq_none isCommand] at messages
    cases messages
    refine ⟨rest, located_eq_ok_iff.mpr (skipField_eq_ok_iff.mpr ?_), by rw [result]; rfl⟩
    exact ⟨f, p, rfl, spelled, split, within⟩

/-- One turn of the loop over an envelope. -/
theorem mergeEnvelope_of_ne_nil {s : Bytes} (nonempty : s ≠ []) (command : Option Write) :
    mergeEnvelope command s =
      match FieldKey.read s with
      | .error fault => .error ⟨.envelope, fault⟩
      | .ok (key, tail) =>
        match mergeEnvelopeField command key tail with
        | .error fault => .error fault
        | .ok (command', rest) => mergeEnvelope command' rest := by
  rw [mergeEnvelope, if_neg nonempty]
  split
  next fault failed => simp only [failed]
  next key tail keyRead =>
    simp only [keyRead]
    cases mergeEnvelopeField command key tail <;> rfl

theorem mergeEnvelope_of_read {command : Option Write} {key : FieldKey} {s tail : Bytes}
    (keyRead : FieldKey.read s = .ok (key, tail)) :
    mergeEnvelope command s =
      match mergeEnvelopeField command key tail with
      | .error fault => .error fault
      | .ok (command', rest) => mergeEnvelope command' rest := by
  have nonempty : s ≠ [] :=
    List.ne_nil_of_length_pos (by have := FieldKey.length_lt_of_read keyRead; omega)
  simp only [mergeEnvelope_of_ne_nil nonempty, keyRead]

/-- Whatever is taken in as an envelope is a message whose command fields hold bodies. -/
theorem exists_bodies_of_mergeEnvelope {command command' : Option Write} {s : Bytes}
    (merged : mergeEnvelope command s = .ok command') :
    ∃ envelope bodies, IsMessage [1] 100 envelope s ∧
      List.Forall₂ (IsMessage [1, 2] 99) bodies (envelope.filterMap (Field.payload? 1)) ∧
      command' = bodies.foldl extend command := by
  fun_induction mergeEnvelope command s with
  | case1 command => cases merged; exact ⟨[], [], .nil, .nil, rfl⟩
  | case2 => cases merged
  | case3 => cases merged
  | case4 command s _ key tail keyRead command'' rest step ih =>
    obtain ⟨k, rfl, spelledKey⟩ := FieldKey.read_eq_ok_iff.mp keyRead
    obtain ⟨f, p, first, rfl, spelled, rfl, delimited, within, messages, rfl⟩ :=
      mergeEnvelopeField_eq_ok_iff.mp step
    obtain ⟨envelope, bodies, message, others, result⟩ := ih merged
    refine ⟨f :: envelope, first ++ bodies, ?_, ?_, ?_⟩
    · rw [← List.append_assoc]
      exact message.cons spelledKey spelled delimited within
    · rw [Field.filterMap_payload?_cons]
      exact List.rel_append messages others
    · rw [List.foldl_append, result]

/-- A message whose command fields hold bodies is taken in as an envelope. -/
theorem mergeEnvelope_of_isMessage {envelope : List Field} {bodies : List (List Field)} {s : Bytes}
    (message : IsMessage [1] 100 envelope s)
    (messages : List.Forall₂ (IsMessage [1, 2] 99) bodies
      (envelope.filterMap (Field.payload? 1))) (command : Option Write) :
    mergeEnvelope command s = .ok (bodies.foldl extend command) := by
  induction envelope generalizing command s bodies with
  | nil =>
    cases message.sequence
    cases messages
    rw [mergeEnvelope, if_pos rfl]
    rfl
  | cons f envelope ih =>
    have delimited := message.delimited f (List.mem_cons_self ..)
    have within := message.nested f (List.mem_cons_self ..)
    rw [Field.filterMap_payload?_cons] at messages
    cases message.sequence with
    | @cons _ _ k p tail key payload sequence =>
      have keyRead : FieldKey.read (k ++ p ++ tail) = .ok (f.key, p ++ tail) :=
        FieldKey.read_eq_ok_iff.mpr ⟨k, List.append_assoc .., key⟩
      -- the bodies divide into that of this field, if it is a command, and those behind it
      have first := List.forall₂_take_append _ _ _ messages
      have others := List.forall₂_drop_append _ _ _ messages
      generalize (f.payload? 1).toList.length = n at first others
      have step : mergeEnvelopeField command f.key (p ++ tail) =
          .ok ((bodies.take n).foldl extend command, tail) :=
        mergeEnvelopeField_eq_ok_iff.mpr
          ⟨f, p, bodies.take n, rfl, payload, rfl, delimited, within, first, rfl⟩
      simp only [mergeEnvelope_of_read keyRead, step]
      rw [ih (message.tail sequence) others, ← List.foldl_append, List.take_append_drop]

/-- A message has a body for a command field exactly where a field has the command's number. -/
theorem exists_body_iff {known : List Nat} {limit : Nat} {envelope : List Field} {raw : Bytes}
    (message : IsMessage (1 :: known) limit envelope raw) :
    envelope.filterMap (Field.payload? 1) ≠ [] ↔ ∃ f ∈ envelope, f.number = 1 := by
  apply Field.filterMap_payload?_ne_nil_iff
  intro f member isCommand
  exact message.delimited f member (by simp [isCommand])

/-! ## Decoding -/

theorem decode_malformed_iff {raw : Bytes} {fault : TransactionFault} :
    decode raw = .error (.malformed fault) ↔ mergeEnvelope none raw = .error fault := by
  rw [decode]
  split <;> simp_all

theorem decode_missingCommand_iff {raw : Bytes} :
    decode raw = .error .missingCommand ↔ mergeEnvelope none raw = .ok none := by
  rw [decode]
  split <;> simp_all

theorem decode_ok_iff {raw : Bytes} {w : Write} :
    decode raw = .ok w ↔ mergeEnvelope none raw = .ok (some w) := by
  rw [decode]
  split <;> simp_all

theorem decode_congr {raw raw' : Bytes} (same : mergeEnvelope none raw = mergeEnvelope none raw') :
    decode raw = decode raw' := by
  rw [decode, same, decode]

/-- Decoding accepts exactly the transactions of the grammar.  The envelope has a field numbered 1;
    each is length-delimited and holds a body, in which the fields numbered 1 and 2 are
    length-delimited; no part of the envelope stands inside 100 groups or more, and none of a body
    inside 99 or more.  The key and the value are the last ones over all bodies in order. -/
theorem decode_eq_ok_iff {raw key value : Bytes} :
    decode raw = .ok ⟨key, value⟩ ↔
      ∃ (envelope : List Field) (bodies : List (List Field)),
        IsMessage [1] 100 envelope raw ∧
        (∃ f ∈ envelope, f.number = 1) ∧
        List.Forall₂ (IsMessage [1, 2] 99) bodies (envelope.filterMap (Field.payload? 1)) ∧
        key = Field.lastPayload 1 bodies.flatten ∧
        value = Field.lastPayload 2 bodies.flatten := by
  have outcome : decode raw = .ok ⟨key, value⟩ ↔
      mergeEnvelope none raw = .ok (some ⟨key, value⟩) := by
    rw [decode]
    split <;> simp_all
  rw [outcome]
  -- the first body starts from an empty key and an empty value
  have start (body : List Field) (bodies : List (List Field)) :
      (body :: bodies).foldl extend none =
        some ⟨Field.lastPayload 1 (body :: bodies).flatten,
          Field.lastPayload 2 (body :: bodies).flatten⟩ := by
    rw [List.foldl_cons]
    show bodies.foldl extend (some (body.foldl absorb {})) = _
    rw [foldl_extend_some, ← List.foldl_append, ← List.flatten_cons, foldl_absorb]
    rfl
  constructor
  · intro merged
    obtain ⟨envelope, bodies, message, messages, result⟩ := exists_bodies_of_mergeEnvelope merged
    cases bodies with
    | nil => cases result
    | cons body bodies =>
      rw [start] at result
      cases result
      refine ⟨envelope, body :: bodies, message, ?_, messages, rfl, rfl⟩
      apply (exists_body_iff message).mp
      intro none
      rw [none] at messages
      cases messages
  · intro given
    obtain ⟨envelope, bodies, message, hasCommand, messages, keyEq, valueEq⟩ := given
    rw [mergeEnvelope_of_isMessage message messages]
    cases bodies with
    | nil =>
      have noCommand := List.forall₂_nil_left_iff.mp messages
      exact absurd noCommand ((exists_body_iff message).mpr hasCommand)
    | cons body bodies => rw [start, keyEq, valueEq]

end Write

end ReplicatedKv
