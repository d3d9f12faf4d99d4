import ReplicatedKv.Json.Record
import ReplicatedKv.Proofs.Json.Tree

/-! # Trees of records

What a tree gives for the fields of a form: an object gives a field the values of the members of
its name, and a list gives it the element in its place.

* `Form.RecordShape` — the trees of a record: at most one value for each field, and none only where
  the field may be absent.
* `Gathered` — what is seen of one field once the values for it are read.
* `Form.AddsAll` — what the members of an object add to the fields, one after the other.
* `forall_gathered_cons_iff` — one more value is given for one of the fields.
* `Form.addsAll_iff`, `exists_gathered_iff` — the fields that are seen in the end, and what they are
  once the absent ones are filled.
-/

namespace ReplicatedKv.Json

variable {α : Type} {n : Nat} {Shape : Tree → α → Prop}

/-! ## Shapes of records -/

/-- The values of the members with the given name, in order. -/
def valuesOf (name : String) (ms : List (String × Tree)) : List Tree :=
  (ms.filter fun m => m.1 = name).map Prod.snd

theorem valuesOf_cons_self (name : String) (t : Tree) (ms : List (String × Tree)) :
    valuesOf name ((name, t) :: ms) = t :: valuesOf name ms := by
  simp [valuesOf]

theorem valuesOf_cons_of_ne {name other : String} (different : other ≠ name) (t : Tree)
    (ms : List (String × Tree)) : valuesOf name ((other, t) :: ms) = valuesOf name ms := by
  simp [valuesOf, different]

/-- What the value of a field can be, by the values that are given for it. -/
inductive FieldShape (Shape : Tree → α → Prop) (fallback : Option α) : List Tree → α → Prop where
  | absent {a : α} : fallback = some a → FieldShape Shape fallback [] a
  | present {t : Tree} {a : α} : Shape t a → FieldShape Shape fallback [t] a

theorem fieldShape_iff {fallback : Option α} {ts : List Tree} {a : α} :
    FieldShape Shape fallback ts a ↔
      ts = [] ∧ fallback = some a ∨ ∃ t, ts = [t] ∧ Shape t a := by
  constructor
  · rintro (filled | shape)
    · exact .inl ⟨rfl, filled⟩
    · exact .inr ⟨_, rfl, shape⟩
  · rintro (⟨rfl, filled⟩ | ⟨t, rfl, shape⟩)
    · exact .absent filled
    · exact .present shape

/-- A field that has to be there is given exactly one value. -/
theorem fieldShape_required_iff {ts : List Tree} {a : α} :
    FieldShape Shape none ts a ↔ ∃ t, ts = [t] ∧ Shape t a := by
  simp [fieldShape_iff]

namespace Form

def field (form : Form α n) (i : Fin n) : Field α := form.fields.get i

/-- The trees that are a record of the form, with the values of its fields. -/
inductive RecordShape (form : Form α n) (Shape : Tree → α → Prop) : Tree → Vector α n → Prop where
  | object {ms : List (String × Tree)} {values : Vector α n} :
      (form.isClosed → ∀ m ∈ ms, m.1 ∈ form.names) →
      (∀ i : Fin n, FieldShape Shape (form.field i).fallback
        (valuesOf (form.field i).name ms) (values.get i)) →
      RecordShape form Shape (.object ms) values
  | list {ts : List Tree} {values : Vector α n} :
      ts.length ≤ n →
      (∀ i : Fin n, FieldShape Shape (form.field i).fallback ts[i.val]?.toList (values.get i)) →
      RecordShape form Shape (.list ts) values

variable {form : Form α n}

theorem recordShape_object_iff {ms : List (String × Tree)} {values : Vector α n} :
    form.RecordShape Shape (.object ms) values ↔
      (form.isClosed → ∀ m ∈ ms, m.1 ∈ form.names) ∧
        ∀ i : Fin n, FieldShape Shape (form.field i).fallback
          (valuesOf (form.field i).name ms) (values.get i) := by
  constructor
  · rintro ⟨known, fields⟩
    exact ⟨known, fields⟩
  · rintro ⟨known, fields⟩
    exact .object known fields

theorem recordShape_list_iff {ts : List Tree} {values : Vector α n} :
    form.RecordShape Shape (.list ts) values ↔
      ts.length ≤ n ∧ ∀ i : Fin n, FieldShape Shape (form.field i).fallback
        ts[i.val]?.toList (values.get i) := by
  constructor
  · intro shape
    cases shape with
    | list few fields => exact ⟨few, fields⟩
  · rintro ⟨few, fields⟩
    exact .list few fields

/-! ## Names of fields -/

/-- No two fields have the same name. -/
def Distinct (form : Form α n) : Prop :=
  ∀ i j : Fin n, (form.field i).name = (form.field j).name → i = j

instance (form : Form α n) : Decidable form.Distinct :=
  inferInstanceAs (Decidable (∀ i j : Fin n, (form.field i).name = (form.field j).name → i = j))

theorem mem_names_iff {name : String} :
    name ∈ form.names ↔ ∃ i : Fin n, (form.field i).name = name := by
  simp only [names, List.mem_map, Vector.mem_toList_iff, Vector.mem_iff_getElem]
  constructor
  · rintro ⟨field, ⟨i, inside, rfl⟩, same⟩
    exact ⟨⟨i, inside⟩, same⟩
  · rintro ⟨i, same⟩
    exact ⟨_, ⟨i, i.isLt, rfl⟩, same⟩

theorem find?_eq_none_iff {name : String} : form.find? name = none ↔ name ∉ form.names := by
  rw [mem_names_iff, not_exists, find?, List.find?_eq_none]
  simp only [List.mem_finRange, true_implies, decide_eq_true_eq]
  rfl

theorem name_of_find? {name : String} {i : Fin n} (found : form.find? name = some i) :
    (form.field i).name = name := by
  have named := List.find?_some found
  exact of_decide_eq_true named

end Form

/-! ## Gathering fields -/

/-- The fields that are seen, with one more. -/
def see (seen : Vector (Option α) n) (i : Fin n) (a : α) : Vector (Option α) n :=
  seen.setIfInBounds i (some a)

theorem see_eq_set (seen : Vector (Option α) n) {i : Nat} (inside : i < n) (a : α) :
    see seen ⟨i, inside⟩ a = seen.set i (some a) inside := by
  simp [see, Vector.setIfInBounds, Vector.set, Array.setIfInBounds, inside]

theorem get_see_self (seen : Vector (Option α) n) (i : Fin n) (a : α) :
    (see seen i a).get i = some a :=
  Vector.getElem_setIfInBounds_self i.isLt

theorem get_see_of_ne (seen : Vector (Option α) n) {i j : Fin n} (different : j ≠ i) (a : α) :
    (see seen i a).get j = seen.get j :=
  Vector.getElem_setIfInBounds_ne j.isLt (Fin.val_ne_of_ne different.symm)

/-- What was seen of one field, by the values that were given for it since. -/
inductive Gathered (Shape : Tree → α → Prop) (before : Option α) : List Tree → Option α → Prop where
  | nothing : Gathered Shape before [] before
  | value {t : Tree} {a : α} : before = none → Shape t a → Gathered Shape before [t] (some a)

theorem gathered_nil_iff {before after : Option α} :
    Gathered Shape before [] after ↔ after = before := by
  constructor
  · rintro ⟨⟩
    rfl
  · rintro rfl
    exact .nothing

theorem gathered_cons_iff {before after : Option α} {t : Tree} {ts : List Tree} :
    Gathered Shape before (t :: ts) after ↔
      before = none ∧ ∃ a, Shape t a ∧ Gathered Shape (some a) ts after := by
  constructor
  · intro gathered
    cases gathered with
    | value unseen shape => exact ⟨unseen, _, shape, .nothing⟩
  · rintro ⟨unseen, a, shape, gathered⟩
    cases gathered with
    | nothing => exact .value unseen shape
    | value seen => cases seen

variable {form : Form α n} {seen after : Vector (Option α) n}

theorem forall_gathered_nil_iff :
    (∀ i : Fin n, Gathered Shape (seen.get i) [] (after.get i)) ↔ seen = after := by
  constructor
  · intro gathered
    exact Vector.ext fun i inside => (gathered_nil_iff.mp (gathered ⟨i, inside⟩)).symm
  · rintro rfl i
    exact .nothing

/-- The first value is for the `i`-th field: it must not have been seen, and the others are gathered
    with that value in its place. -/
theorem forall_gathered_cons_iff {i : Fin n} {t : Tree} {given others : Fin n → List Tree}
    (own : given i = t :: others i) (same : ∀ j, j ≠ i → given j = others j) :
    (∀ j : Fin n, Gathered Shape (seen.get j) (given j) (after.get j)) ↔
      seen.get i = none ∧ ∃ a, Shape t a ∧
        ∀ j : Fin n, Gathered Shape ((see seen i a).get j) (others j) (after.get j) := by
  constructor
  · intro gathered
    have first := gathered i
    rw [own, gathered_cons_iff] at first
    obtain ⟨unseen, a, shape, later⟩ := first
    refine ⟨unseen, a, shape, fun j => ?_⟩
    by_cases it : j = i
    · subst it
      rwa [get_see_self]
    · rw [get_see_of_ne seen it, ← same j it]
      exact gathered j
  · rintro ⟨unseen, a, shape, gathered⟩ j
    have later := gathered j
    by_cases it : j = i
    · subst it
      rw [get_see_self] at later
      rw [own, gathered_cons_iff]
      exact ⟨unseen, a, shape, later⟩
    · rwa [get_see_of_ne seen it, ← same j it] at later

/-! ## Members -/

namespace Form

/-- What a member of an object adds to the fields that were seen before it. -/
inductive Adds (form : Form α n) (Shape : Tree → α → Prop) (seen : Vector (Option α) n) :
    String × Tree → Vector (Option α) n → Prop where
  | field {name : String} {t : Tree} {i : Fin n} {a : α} : form.find? name = some i →
      seen.get i = none → Shape t a → Adds form Shape seen (name, t) (see seen i a)
  | other {name : String} {t : Tree} : form.find? name = none → form.isClosed = false →
      Adds form Shape seen (name, t) seen

/-- The fields that are seen after all members. -/
inductive AddsAll (form : Form α n) (Shape : Tree → α → Prop) :
    Vector (Option α) n → List (String × Tree) → Vector (Option α) n → Prop where
  | nil {seen : Vector (Option α) n} : AddsAll form Shape seen [] seen
  | cons {seen mid after : Vector (Option α) n} {m : String × Tree} {ms : List (String × Tree)} :
      Adds form Shape seen m mid → AddsAll form Shape mid ms after →
        AddsAll form Shape seen (m :: ms) after

theorem adds_iff_of_some {name : String} {t : Tree} {i : Fin n}
    (found : form.find? name = some i) :
    form.Adds Shape seen (name, t) after ↔
      seen.get i = none ∧ ∃ a, Shape t a ∧ see seen i a = after := by
  constructor
  · intro adds
    cases adds with
    | field again unseen shape =>
      obtain rfl := Option.some.inj (found.symm.trans again)
      exact ⟨unseen, _, shape, rfl⟩
    | other absent => rw [found] at absent; cases absent
  · rintro ⟨unseen, a, shape, rfl⟩
    exact .field found unseen shape

theorem adds_iff_of_none {name : String} {t : Tree} (absent : form.find? name = none) :
    form.Adds Shape seen (name, t) after ↔ form.isClosed = false ∧ seen = after := by
  constructor
  · intro adds
    cases adds with
    | field found => rw [absent] at found; cases found
    | other _ opened => exact ⟨opened, rfl⟩
  · rintro ⟨opened, rfl⟩
    exact .other absent opened

theorem addsAll_nil_iff : form.AddsAll Shape seen [] after ↔ seen = after := by
  constructor
  · rintro ⟨⟩
    rfl
  · rintro rfl
    exact .nil

theorem addsAll_cons_iff {m : String × Tree} {ms : List (String × Tree)} :
    form.AddsAll Shape seen (m :: ms) after ↔
      ∃ mid, form.Adds Shape seen m mid ∧ form.AddsAll Shape mid ms after := by
  constructor
  · intro adds
    cases adds with
    | cons first others => exact ⟨_, first, others⟩
  · rintro ⟨mid, first, others⟩
    exact .cons first others

/-- Member by member, every field gathers the values of its name. -/
theorem addsAll_iff (distinct : form.Distinct) {ms : List (String × Tree)} :
    form.AddsAll Shape seen ms after ↔
      (form.isClosed → ∀ m ∈ ms, m.1 ∈ form.names) ∧
        ∀ i : Fin n, Gathered Shape (seen.get i) (valuesOf (form.field i).name ms) (after.get i) := by
  induction ms generalizing seen with
  | nil =>
    rw [addsAll_nil_iff, ← forall_gathered_nil_iff]
    exact ⟨fun gathered => ⟨nofun, gathered⟩, And.right⟩
  | cons m ms ih =>
    obtain ⟨name, t⟩ := m
    simp only [addsAll_cons_iff, ih]
    cases found : form.find? name with
    | some i =>
      obtain rfl := name_of_find? found
      have known : (form.field i).name ∈ form.names := mem_names_iff.mpr ⟨i, rfl⟩
      rw [forall_gathered_cons_iff (i := i) (valuesOf_cons_self _ t ms) fun j different =>
        valuesOf_cons_of_ne (fun names => different (distinct j i names.symm)) t ms]
      simp only [adds_iff_of_some found, List.forall_mem_cons]
      constructor
      · rintro ⟨_, ⟨unseen, a, shape, rfl⟩, others, gathered⟩
        exact ⟨fun closed => ⟨known, others closed⟩, unseen, a, shape, gathered⟩
      · rintro ⟨others, unseen, a, shape, gathered⟩
        exact ⟨_, ⟨unseen, a, shape, rfl⟩, fun closed => (others closed).2, gathered⟩
    | none =>
      have unknown := find?_eq_none_iff.mp found
      have untouched (i : Fin n) : valuesOf (form.field i).name ((name, t) :: ms) =
          valuesOf (form.field i).name ms :=
        valuesOf_cons_of_ne (fun names => unknown (mem_names_iff.mpr ⟨i, names.symm⟩)) t ms
      simp only [adds_iff_of_none found, List.forall_mem_cons, untouched]
      constructor
      · rintro ⟨_, ⟨opened, rfl⟩, -, gathered⟩
        exact ⟨by simp [opened], gathered⟩
      · rintro ⟨others, gathered⟩
        have opened : form.isClosed = false := by
          rw [← Bool.not_eq_true]
          exact fun closed => unknown (others closed).1
        exact ⟨seen, ⟨opened, rfl⟩, fun closed => (others closed).2, gathered⟩

end Form

/-! ## Elements -/

/-- The elements that are given for the `j`-th field, if those of the list are given for the fields
    from the `i`-th on. -/
def elementsFor (i : Nat) (ts : List Tree) (j : Nat) : List Tree :=
  if j < i then [] else ts[j - i]?.toList

theorem elementsFor_zero (ts : List Tree) (j : Nat) : elementsFor 0 ts j = ts[j]?.toList := rfl

theorem elementsFor_nil (i j : Nat) : elementsFor i [] j = [] := by simp [elementsFor]

theorem elementsFor_cons_self (i : Nat) (t : Tree) (ts : List Tree) :
    elementsFor i (t :: ts) i = t :: elementsFor (i + 1) ts i := by
  simp [elementsFor]

theorem elementsFor_cons_of_ne {i j : Nat} (different : j ≠ i) (t : Tree) (ts : List Tree) :
    elementsFor i (t :: ts) j = elementsFor (i + 1) ts j := by
  rw [elementsFor, elementsFor]
  by_cases below : j < i
  · rw [if_pos below, if_pos (by omega)]
  · rw [if_neg below, if_neg (by omega), show j - i = j - (i + 1) + 1 by omega,
      List.getElem?_cons_succ]

theorem forall_gathered_elementsFor_cons_iff {i : Fin n} {t : Tree} {ts : List Tree} :
    (∀ j : Fin n, Gathered Shape (seen.get j) (elementsFor i (t :: ts) j) (after.get j)) ↔
      seen.get i = none ∧ ∃ a, Shape t a ∧ ∀ j : Fin n,
        Gathered Shape ((see seen i a).get j) (elementsFor (i + 1) ts j) (after.get j) :=
  forall_gathered_cons_iff (elementsFor_cons_self i t ts) fun _ different =>
    elementsFor_cons_of_ne (fun same => different (Fin.ext same)) t ts

/-! ## Absent fields -/

theorem complete_eq_ok_iff {values : Vector α n} :
    form.complete seen = .ok values ↔ ∀ i : Fin n, form.value? seen i = some (values.get i) := by
  rw [Form.complete]
  split
  next missing absent =>
    refine ⟨nofun, fun known => ?_⟩
    have unknown := List.find?_some absent
    rw [known missing] at unknown
    cases unknown
  next =>
    simp only [Except.ok.injEq, Vector.ext_iff, Vector.getElem_ofFn]
    constructor
    · intro same i
      exact Option.eq_some_iff_get_eq.mpr ⟨_, same i i.isLt⟩
    · intro known i inside
      exact (Option.eq_some_iff_get_eq.mp (known ⟨i, inside⟩)).2

theorem fieldShape_iff_gathered {fallback : Option α} {ts : List Tree} {a : α} :
    FieldShape Shape fallback ts a ↔
      ∃ seen, Gathered Shape none ts seen ∧ seen.or fallback = some a := by
  constructor
  · rintro (filled | shape)
    · exact ⟨none, .nothing, filled⟩
    · exact ⟨some a, .value rfl shape, rfl⟩
  · rintro ⟨seen, gathered, filled⟩
    cases gathered with
    | nothing => exact .absent filled
    | value _ shape =>
      obtain rfl := Option.some.inj filled
      exact .present shape

/-- What is seen of each field, filled where it is absent, is what the shape of the field says. -/
theorem exists_gathered_iff {given : Fin n → List Tree} {values : Vector α n} :
    (∃ seen : Vector (Option α) n, (∀ i : Fin n, Gathered Shape none (given i) (seen.get i)) ∧
        form.complete seen = .ok values) ↔
      ∀ i : Fin n, FieldShape Shape (form.field i).fallback (given i) (values.get i) := by
  simp only [complete_eq_ok_iff, fieldShape_iff_gathered, Form.value?]
  constructor
  · rintro ⟨seen, gathered, filled⟩ i
    exact ⟨seen.get i, gathered i, filled i⟩
  · intro shapes
    choose seen gathered filled using shapes
    have get (i : Fin n) : (Vector.ofFn seen).get i = seen i := Vector.getElem_ofFn i.isLt
    refine ⟨.ofFn seen, fun i => ?_, fun i => ?_⟩
    · rw [get]
      exact gathered i
    · show ((Vector.ofFn seen).get i).or (form.field i).fallback = some (values.get i)
      rw [get]
      exact filled i

end ReplicatedKv.Json
