import Mathlib.Data.List.Nodup
import Mathlib.Data.Set.List
import ReplicatedKv.Proofs.Json.Fields

/-! # Records of strings

What the shape of a record comes down to where every field is a string.

* `Form.recordShape_textMembers_iff` — an object of a closed form: strings for some of the fields,
  none of them twice.
* `Form.recordShape_texts_iff` — a list of strings for the first few fields.
-/

namespace ReplicatedKv.Json

variable {n : Nat}

/-! ## Members -/

theorem mem_valuesOf {m : String × Tree} {ms : List (String × Tree)} (member : m ∈ ms) :
    m.2 ∈ valuesOf m.1 ms :=
  List.mem_map.mpr ⟨m, List.mem_filter.mpr ⟨member, decide_eq_true rfl⟩, rfl⟩

theorem length_valuesOf (name : String) (ms : List (String × Tree)) :
    (valuesOf name ms).length = (ms.map Prod.fst).count name := by
  rw [valuesOf, List.length_map, List.count, List.countP_map, List.countP_eq_length_filter]
  rfl

/-- The members of an object that has these strings. -/
def textMembers (fields : List (String × String)) : List (String × Tree) :=
  fields.map fun field => (field.1, .text field.2)

theorem map_fst_textMembers (fields : List (String × String)) :
    (textMembers fields).map Prod.fst = fields.map Prod.fst := by
  rw [textMembers, List.map_map]
  rfl

theorem exists_textMembers {ms : List (String × Tree)} (texts : ∀ m ∈ ms, ∃ s, m.2 = .text s) :
    ∃ fields, textMembers fields = ms := by
  have inRange : ms ∈ Set.range (List.map fun field : String × String =>
      ((field.1, .text field.2) : String × Tree)) := by
    rw [Set.range_list_map]
    intro m member
    obtain ⟨s, value⟩ := texts m member
    exact ⟨(m.1, s), Prod.ext rfl value.symm⟩
  exact inRange

theorem valuesOf_textMembers {fields : List (String × String)}
    (distinct : (fields.map Prod.fst).Nodup) (name : String) :
    valuesOf name (textMembers fields) = ((fields.lookup name).map Tree.text).toList := by
  induction fields with
  | nil => rfl
  | cons field fields ih =>
    obtain ⟨other, s⟩ := field
    obtain ⟨new, distinct⟩ := List.nodup_cons.mp distinct
    have cons : textMembers ((other, s) :: fields) = (other, .text s) :: textMembers fields := rfl
    rw [cons]
    by_cases same : other = name
    · subst same
      have absent : fields.lookup other = none := by
        rw [List.lookup_eq_none_iff]
        intro p member
        rw [bne_iff_ne]
        rintro rfl
        exact new (List.mem_map.mpr ⟨p, member, rfl⟩)
      rw [valuesOf_cons_self, ih distinct, absent, List.lookup_cons_self]
      rfl
    · rw [valuesOf_cons_of_ne same, ih distinct, List.lookup_cons,
        beq_eq_false_iff_ne.mpr (Ne.symm same)]

/-! ## Fields -/

/-- One string or none is given for a field. -/
theorem fieldShape_text_iff {fallback given : Option String} {s : String} :
    FieldShape (fun t s => t = .text s) fallback (given.map Tree.text).toList s ↔
      given.or fallback = some s := by
  cases given with
  | none => simp [fieldShape_iff]
  | some => simp [fieldShape_iff]

theorem FieldShape.forall_text {fallback : Option String} {ts : List Tree} {s : String}
    (shape : FieldShape (fun t s => t = .text s) fallback ts s) :
    ts.length ≤ 1 ∧ ∀ t ∈ ts, ∃ s, t = .text s := by
  cases shape with
  | absent => exact ⟨Nat.zero_le 1, List.forall_mem_nil _⟩
  | present text => exact ⟨Nat.le_refl 1, List.forall_mem_singleton.mpr ⟨_, text⟩⟩

/-! ## Records -/

namespace Form

variable {form : Form String n} {values : Vector String n}

/-- An object with no members but the fields of the form, each of them at most once. -/
theorem recordShape_textMembers_iff (closed : form.isClosed) {ms : List (String × Tree)} :
    form.RecordShape (fun t s => t = .text s) (.object ms) values ↔
      ∃ fields, textMembers fields = ms ∧ (fields.map Prod.fst).Nodup ∧
        (∀ name ∈ fields.map Prod.fst, name ∈ form.names) ∧
          ∀ i : Fin n, (fields.lookup (form.field i).name).or (form.field i).fallback =
            some (values.get i) := by
  rw [recordShape_object_iff]
  constructor
  · rintro ⟨known, shapes⟩
    have known := known closed
    have texts : ∀ m ∈ ms, ∃ s, m.2 = .text s := by
      intro m member
      obtain ⟨i, name⟩ := mem_names_iff.mp (known m member)
      exact (shapes i).forall_text.2 m.2 (name ▸ mem_valuesOf member)
    obtain ⟨fields, rfl⟩ := exists_textMembers texts
    have known : ∀ name ∈ fields.map Prod.fst, name ∈ form.names := by
      rw [← map_fst_textMembers]
      exact List.forall_mem_map.mpr known
    have distinct : (fields.map Prod.fst).Nodup := by
      rw [List.nodup_iff_count_le_one]
      intro name
      by_cases member : name ∈ fields.map Prod.fst
      · obtain ⟨i, rfl⟩ := mem_names_iff.mp (known name member)
        rw [← map_fst_textMembers, ← length_valuesOf]
        exact (shapes i).forall_text.1
      · rw [List.count_eq_zero_of_not_mem member]
        exact Nat.zero_le 1
    refine ⟨fields, rfl, distinct, known, fun i => ?_⟩
    rw [← fieldShape_text_iff, ← valuesOf_textMembers distinct]
    exact shapes i
  · rintro ⟨fields, rfl, distinct, known, filled⟩
    refine ⟨fun _ => ?_, fun i => ?_⟩
    · rw [← map_fst_textMembers] at known
      exact List.forall_mem_map.mp known
    · rw [valuesOf_textMembers distinct, fieldShape_text_iff]
      exact filled i

/-- A list of strings, no more than there are fields. -/
theorem recordShape_texts_iff {ts : List Tree} :
    form.RecordShape (fun t s => t = .text s) (.list ts) values ↔
      ∃ texts : List String, texts.map .text = ts ∧ texts.length ≤ n ∧
        ∀ i : Fin n, texts[i.val]?.or (form.field i).fallback = some (values.get i) := by
  rw [recordShape_list_iff]
  constructor
  · rintro ⟨few, shapes⟩
    have inRange : ts ∈ Set.range (List.map Tree.text) := by
      rw [Set.range_list_map]
      intro t member
      obtain ⟨i, inside, rfl⟩ := List.mem_iff_getElem.mp member
      obtain ⟨s, text⟩ := (shapes ⟨i, by omega⟩).forall_text.2 ts[i] (by simp [inside])
      exact ⟨s, text.symm⟩
    obtain ⟨texts, rfl⟩ := inRange
    refine ⟨texts, rfl, by simpa using few, fun i => ?_⟩
    rw [← fieldShape_text_iff, ← List.getElem?_map]
    exact shapes i
  · rintro ⟨texts, rfl, few, filled⟩
    refine ⟨by simpa using few, fun i => ?_⟩
    rw [List.getElem?_map, fieldShape_text_iff]
    exact filled i

end Form

end ReplicatedKv.Json
