import ReplicatedKv.Proofs.Wire.Spelling

/-! # The grammar of fields

What a message is, said without a reader: a concatenation of complete fields, where a field is a
key and a payload of the key's wire type.  A group is a sequence of fields and an end key of its
own number, so fields are trees, and the end key is no field.

* `Field` — a field as a tree, whatever its spelling.
* `Field.Payload`, `Field.Sequence` — the spellings of what follows a key, and of whole fields.
* `Field.Encloses`, `Field.Within` — how many groups lie around a field, and a bound on that.
* `skipField_eq_ok_iff` — skipping takes exactly the payloads that nest within the budget.
-/

namespace ReplicatedKv.Wire

/-! ## Fields -/

/-- A field of a message. -/
inductive Field where
  | varint (number value : Nat)
  | sixtyFourBit (number : Nat) (bytes : Bytes)
  | lengthDelimited (number : Nat) (bytes : Bytes)
  | group (number : Nat) (fields : List Field)
  | thirtyTwoBit (number : Nat) (bytes : Bytes)

namespace Field

/-- The key that announces the field. -/
def key : Field → FieldKey
  | varint number _ => ⟨number, .varint⟩
  | sixtyFourBit number _ => ⟨number, .sixtyFourBit⟩
  | lengthDelimited number _ => ⟨number, .lengthDelimited⟩
  | group number _ => ⟨number, .startGroup⟩
  | thirtyTwoBit number _ => ⟨number, .thirtyTwoBit⟩

abbrev number (f : Field) : Nat := f.key.number

abbrev wireType (f : Field) : WireType := f.key.wireType

theorem wireType_ne_endGroup (f : Field) : f.wireType ≠ .endGroup := by cases f <;> nofun

mutual
/-- The byte string is what stands after the key of the field. -/
inductive Payload : Field → Bytes → Prop where
  | varint {number n : Nat} {s : Bytes} :
      Varint.Spelling n s → Payload (.varint number n) s
  | sixtyFourBit {number : Nat} {s : Bytes} :
      s.length = 8 → Payload (.sixtyFourBit number s) s
  | lengthDelimited {number : Nat} {l s : Bytes} :
      Varint.Spelling s.length l → Payload (.lengthDelimited number s) (l ++ s)
  | group {number : Nat} {fields : List Field} {s e : Bytes} :
      Sequence fields s → FieldKey.Spelling ⟨number, .endGroup⟩ e →
        Payload (.group number fields) (s ++ e)
  | thirtyTwoBit {number : Nat} {s : Bytes} :
      s.length = 4 → Payload (.thirtyTwoBit number s) s

/-- The byte string is the concatenation of the fields, each with its key and payload. -/
inductive Sequence : List Field → Bytes → Prop where
  | nil : Sequence [] []
  | cons {f : Field} {fields : List Field} {k p s : Bytes} :
      f.key.Spelling k → Payload f p → Sequence fields s →
        Sequence (f :: fields) (k ++ p ++ s)
end

/-! ## Nesting -/

/-- The second field stands inside the first, with the given number of groups around it, the first
    field being one of them where the two differ. -/
inductive Encloses : Field → Nat → Field → Prop where
  | itself (f : Field) : Encloses f 0 f
  | inside {number depth : Nat} {fields : List Field} {f g : Field} :
      f ∈ fields → Encloses f depth g → Encloses (.group number fields) (depth + 1) g

/-- Every part of the field stands inside fewer groups than the limit. -/
def Within (limit : Nat) (f : Field) : Prop :=
  ∀ depth g, f.Encloses depth g → depth < limit

theorem Within.pos {limit : Nat} {f : Field} (within : f.Within limit) : 0 < limit :=
  within 0 f (.itself f)

theorem within_group_iff {limit number : Nat} {fields : List Field} :
    (group number fields).Within limit ↔
      0 < limit ∧ ∀ f ∈ fields, f.Within (limit - 1) := by
  constructor
  · intro within
    refine ⟨within.pos, ?_⟩
    intro f member depth g encloses
    have := within (depth + 1) g (.inside member encloses)
    omega
  · rintro ⟨positive, inner⟩ depth g encloses
    cases encloses with
    | itself => exact positive
    | inside member encloses =>
      have := inner _ member _ _ encloses
      omega

theorem within_of_ne_startGroup {limit : Nat} {f : Field} (leaf : f.wireType ≠ .startGroup)
    (positive : 0 < limit) : f.Within limit := by
  intro depth g encloses
  cases encloses with
  | itself => exact positive
  | inside => exact absurd rfl leaf

end Field

/-! ## Skipping

Skipping inside open groups is a run of one loop with the numbers of the groups as its stack.  One
direction follows the grammar and shows that the loop passes over whatever is spelled; the other
follows the loop and gathers, for each open group, the fields up to its end key. -/

theorem skipPayload_of_payload {f : Field} {p : Bytes} (rest : Bytes) (payload : f.Payload p)
    (leaf : f.wireType ≠ .startGroup) : skipPayload f.wireType (p ++ rest) = .ok rest := by
  have drop {α : Type} {step : Except WireFault (α × Bytes)} {a : α}
      (read : step = .ok (a, rest)) : step.map Prod.snd = .ok rest := by rw [read]; rfl
  cases payload with
  | varint spelled => exact drop (readVarint_eq_ok_iff.mpr ⟨p, rfl, spelled⟩)
  | sixtyFourBit length => exact drop (takeBytes_eq_ok_iff.mpr ⟨rfl, length⟩)
  | lengthDelimited spelled => exact drop (readDelimited_eq_ok_iff.mpr ⟨_, rfl, spelled⟩)
  | group => exact absurd rfl leaf
  | thirtyTwoBit length => exact drop (takeBytes_eq_ok_iff.mpr ⟨rfl, length⟩)

/-- Whatever is dropped as a payload that is no group is spelled by a field of that key. -/
theorem payload_of_skipPayload {key : FieldKey} {s rest : Bytes}
    (skipped : skipPayload key.wireType s = .ok rest) (notStart : key.wireType ≠ .startGroup)
    (notEnd : key.wireType ≠ .endGroup) :
    ∃ (f : Field) (p : Bytes), f.key = key ∧ f.Payload p ∧ s = p ++ rest := by
  obtain ⟨number, wireType⟩ := key
  cases wireType with
  | varint =>
    obtain ⟨n, read⟩ := exists_of_map_snd skipped
    obtain ⟨p, rfl, spelled⟩ := readVarint_eq_ok_iff.mp read
    exact ⟨.varint number n, p, rfl, .varint spelled, rfl⟩
  | sixtyFourBit =>
    obtain ⟨p, read⟩ := exists_of_map_snd skipped
    obtain ⟨rfl, length⟩ := takeBytes_eq_ok_iff.mp read
    exact ⟨.sixtyFourBit number p, p, rfl, .sixtyFourBit length, rfl⟩
  | lengthDelimited =>
    obtain ⟨payload, read⟩ := exists_of_map_snd skipped
    obtain ⟨l, rfl, spelled⟩ := readDelimited_eq_ok_iff.mp read
    exact ⟨.lengthDelimited number payload, l ++ payload, rfl, .lengthDelimited spelled, rfl⟩
  | startGroup => exact absurd rfl notStart
  | endGroup => exact absurd rfl notEnd
  | thirtyTwoBit =>
    obtain ⟨p, read⟩ := exists_of_map_snd skipped
    obtain ⟨rfl, length⟩ := takeBytes_eq_ok_iff.mp read
    exact ⟨.thirtyTwoBit number p, p, rfl, .thirtyTwoBit length, rfl⟩

/-- One turn of the loop, once its key is known. -/
theorem skipGroups_of_read {budget number : Nat} {outer : List Nat} {key : FieldKey}
    {s rest : Bytes} (keyRead : FieldKey.read s = .ok (key, rest)) :
    skipGroups budget (number :: outer) s =
      if key.wireType = .endGroup then
        if key.number = number then skipGroups budget outer rest else .error .strayGroupEnd
      else if budget ≤ outer.length + 1 then .error .tooDeep
      else if key.wireType = .startGroup then
        skipGroups budget (key.number :: number :: outer) rest
      else
        match skipPayload key.wireType rest with
        | .error fault => .error fault
        | .ok rest => skipGroups budget (number :: outer) rest := by
  rw [skipGroups]
  split
  next fault read => rw [keyRead] at read; cases read
  next key' rest' read =>
    rw [keyRead] at read
    cases read
    congr 3
    cases skipPayload key.wireType rest <;> rfl

theorem skipGroups_endKey {number : Nat} {e : Bytes}
    (endKey : FieldKey.Spelling ⟨number, .endGroup⟩ e) (budget : Nat) (outer : List Nat)
    (rest : Bytes) :
    skipGroups budget (number :: outer) (e ++ rest) = skipGroups budget outer rest := by
  have endRead : FieldKey.read (e ++ rest) = .ok (⟨number, .endGroup⟩, rest) :=
    FieldKey.read_eq_ok_iff.mpr ⟨e, rfl, endKey⟩
  rw [skipGroups_of_read endRead, if_pos rfl, if_pos rfl]

mutual
/-- Inside open groups the loop passes over a field. -/
theorem skipGroups_field {f : Field} {p : Bytes} (payload : f.Payload p) {k : Bytes}
    (spelled : f.key.Spelling k) (budget number : Nat) (outer : List Nat) (rest : Bytes)
    (within : f.Within (budget - (outer.length + 1))) :
    skipGroups budget (number :: outer) (k ++ p ++ rest) =
      skipGroups budget (number :: outer) rest := by
  have keyRead : FieldKey.read (k ++ p ++ rest) = .ok (f.key, p ++ rest) :=
    FieldKey.read_eq_ok_iff.mpr ⟨k, List.append_assoc .., spelled⟩
  have room : ¬ budget ≤ outer.length + 1 := by have := within.pos; omega
  rw [skipGroups_of_read keyRead, if_neg f.wireType_ne_endGroup, if_neg room]
  by_cases leaf : f.wireType = .startGroup
  · rw [if_pos leaf]
    cases payload with
    | group fields endKey =>
      rename_i number' inner s e
      -- one group more is open while its fields are passed over, and then its end key closes it
      have nested := (Field.within_group_iff.mp within).2
      show skipGroups budget (number' :: number :: outer) _ = _
      rw [List.append_assoc, skipGroups_sequence fields budget number' (number :: outer) _
        (by simpa only [List.length_cons, Nat.sub_sub] using nested)]
      exact skipGroups_endKey endKey budget (number :: outer) rest
    | varint | sixtyFourBit | lengthDelimited | thirtyTwoBit => cases leaf
  · rw [if_neg leaf]
    rw [skipPayload_of_payload rest payload leaf]

theorem skipGroups_sequence {fields : List Field} {s : Bytes}
    (sequence : Field.Sequence fields s) (budget number : Nat) (outer : List Nat)
    (rest : Bytes) (within : ∀ f ∈ fields, f.Within (budget - (outer.length + 1))) :
    skipGroups budget (number :: outer) (s ++ rest) =
      skipGroups budget (number :: outer) rest := by
  cases sequence with
  | nil => rfl
  | @cons f fields k p s key payload sequence =>
    have member := List.forall_mem_cons.mp within
    rw [List.append_assoc, skipGroups_field payload key budget number outer _ member.1]
    exact skipGroups_sequence sequence budget number outer rest member.2
end

/-- The byte string is what the open groups take, the innermost first: for each the fields that are
    left in it, and its end key. -/
inductive Closes (budget : Nat) : List Nat → Bytes → Prop where
  | done : Closes budget [] []
  | close {number : Nat} {outer : List Nat} {fields : List Field} {s e t : Bytes} :
      Field.Sequence fields s → (∀ f ∈ fields, f.Within (budget - (outer.length + 1))) →
        FieldKey.Spelling ⟨number, .endGroup⟩ e → Closes budget outer t →
          Closes budget (number :: outer) (s ++ e ++ t)

theorem Closes.cons {budget number : Nat} {outer : List Nat} {f : Field} {k p t : Bytes}
    (key : f.key.Spelling k) (payload : f.Payload p)
    (within : f.Within (budget - (outer.length + 1)))
    (closes : Closes budget (number :: outer) t) :
    Closes budget (number :: outer) (k ++ p ++ t) := by
  -- the field goes in front of those left in the innermost group
  cases closes with
  | close sequence others endKey closes =>
    rw [← List.append_assoc, ← List.append_assoc]
    exact .close (.cons key payload sequence) (List.forall_mem_cons.mpr ⟨within, others⟩) endKey
      closes

/-- Where the loop ends well, it has passed over what closes its groups. -/
theorem closes_of_skipGroups {budget : Nat} {groups : List Nat} {s rest : Bytes}
    (skipped : skipGroups budget groups s = .ok rest) :
    ∃ t, s = t ++ rest ∧ Closes budget groups t := by
  fun_induction skipGroups budget groups s with
  | case1 s => cases skipped; exact ⟨[], rfl, .done⟩
  | case2 => cases skipped
  | case3 outer s key tail keyRead closing ih =>
    obtain ⟨t, rfl, closes⟩ := ih skipped
    obtain ⟨k, rfl, spelled⟩ := FieldKey.read_eq_ok_iff.mp keyRead
    obtain ⟨number, wireType⟩ := key
    cases closing
    exact ⟨k ++ t, (List.append_assoc ..).symm, .close .nil (by simp) spelled closes⟩
  | case4 => cases skipped
  | case5 => cases skipped
  | case6 number outer s key tail keyRead notEnd room starting ih =>
    obtain ⟨t, rfl, closes⟩ := ih skipped
    obtain ⟨k, rfl, spelled⟩ := FieldKey.read_eq_ok_iff.mp keyRead
    obtain ⟨inner, wireType⟩ := key
    cases starting
    -- the group that this key opens is the first field of the group around it
    cases closes with
    | @close _ _ fields s e t sequence within endKey closes =>
      refine ⟨k ++ (s ++ e) ++ t, by simp, ?_⟩
      refine closes.cons (f := .group inner fields) spelled (.group sequence endKey) ?_
      refine Field.within_group_iff.mpr ⟨by omega, ?_⟩
      simpa only [List.length_cons, Nat.sub_sub] using within
  | case7 => cases skipped
  | case8 number outer s key tail keyRead notEnd room notStart left dropped ih =>
    obtain ⟨t, rfl, closes⟩ := ih skipped
    obtain ⟨k, rfl, spelled⟩ := FieldKey.read_eq_ok_iff.mp keyRead
    obtain ⟨f, p, rfl, payload, rfl⟩ := payload_of_skipPayload dropped notStart notEnd
    refine ⟨k ++ p ++ t, by simp, closes.cons spelled payload ?_⟩
    exact Field.within_of_ne_startGroup notStart (by omega)

/-- Skipping an unknown field takes exactly a payload of its key that nests within the budget. -/
theorem skipField_eq_ok_iff {budget : Nat} {key : FieldKey} {s rest : Bytes} :
    skipField budget key s = .ok rest ↔
      ∃ (f : Field) (p : Bytes), f.key = key ∧ f.Payload p ∧ s = p ++ rest ∧ f.Within budget := by
  rw [skipField]
  constructor
  · intro skipped
    split at skipped
    · cases skipped
    split at skipped
    next starting =>
      obtain ⟨t, rfl, closes⟩ := closes_of_skipGroups skipped
      obtain ⟨number, wireType⟩ := key
      cases starting
      cases closes with
      | close sequence within endKey closes =>
        cases closes
        rw [List.append_nil]
        refine ⟨.group number _, _, rfl, .group sequence endKey, rfl, ?_⟩
        exact Field.within_group_iff.mpr ⟨by omega, within⟩
    next => cases skipped
    next notStart notEnd =>
      obtain ⟨f, p, rfl, payload, rfl⟩ := payload_of_skipPayload skipped notStart notEnd
      exact ⟨f, p, rfl, payload, rfl, Field.within_of_ne_startGroup notStart (by omega)⟩
  · rintro ⟨f, p, rfl, payload, rfl, within⟩
    have positive := within.pos
    rw [if_neg (by omega)]
    cases payload with
    | @group number fields s e sequence endKey =>
      have nested := (Field.within_group_iff.mp within).2
      simp only [Field.key]
      rw [List.append_assoc, skipGroups_sequence sequence budget number [] _ nested,
        skipGroups_endKey endKey, skipGroups]
    | varint spelled => exact skipPayload_of_payload rest (.varint spelled) nofun
    | sixtyFourBit length => exact skipPayload_of_payload rest (.sixtyFourBit length) nofun
    | lengthDelimited spelled => exact skipPayload_of_payload rest (.lengthDelimited spelled) nofun
    | thirtyTwoBit length => exact skipPayload_of_payload rest (.thirtyTwoBit length) nofun

end ReplicatedKv.Wire
