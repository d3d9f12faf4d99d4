import ReplicatedKv.Store.Faulty
import ReplicatedKv.Store.Memory

/-! # Lawful writes

What callers rely on when they write to a store: an acknowledged write is seen under its key and
nowhere else, a refused one is not seen at all.  The memory store is lawful, and a store that
refuses chosen writes is as lawful as the store inside.
-/

namespace ReplicatedKv

variable {σ : Type}

/-- Writes to the stores described by `P` are lawful.  Such stores stay such stores. -/
structure LawfulWrites [KeyValueStore σ] (P : σ → Prop) : Prop where
  keeps (store : σ) (key value : Bytes) : P store → P (KeyValueStore.set store key value).2
  acknowledged (store after : σ) (key value : Bytes) : P store →
    KeyValueStore.set store key value = (.ok (), after) →
    ∀ other, KeyValueStore.get after other =
      if other = key then .ok (some value) else KeyValueStore.get store other
  refused (store after : σ) (key value : Bytes) (error : StoreError) : P store →
    KeyValueStore.set store key value = (.error error, after) →
    ∀ other, KeyValueStore.get after other = KeyValueStore.get store other

theorem LawfulWrites.kept_of_set [KeyValueStore σ] {P : σ → Prop} (lawful : LawfulWrites P)
    {store after : σ} {key value : Bytes} {answer : Except StoreError Unit} (inside : P store)
    (set : KeyValueStore.set store key value = (answer, after)) : P after := by
  have kept := lawful.keeps store key value inside
  rw [set] at kept
  exact kept

/-! ## The memory store -/

theorem MemStore.get?_set (store : MemStore) (key value other : Bytes) :
    (store.set key value).get? other = if other = key then some value else store.get? other := by
  by_cases same : key = other
  · simp [MemStore.set, MemStore.get?, Overlay.get?_set, same]
  · simp [MemStore.set, MemStore.get?, Overlay.get?_set, same, Ne.symm same]

/-- The memory store acknowledges every write. -/
theorem MemStore.lawfulWrites : LawfulWrites fun _ : MemStore => True where
  keeps _ _ _ _ := trivial
  acknowledged := by
    intro store after key value _ set other
    obtain rfl : store.set key value = after := congrArg Prod.snd set
    show Except.ok ((store.set key value).get? other) = _
    rw [MemStore.get?_set]
    by_cases same : other = key
    · rw [if_pos same, if_pos same]
    · rw [if_neg same, if_neg same]
      rfl
  refused := by
    intro store after key value error _ set
    have impossible : Except.ok () = Except.error error := congrArg Prod.fst set
    nomatch impossible

/-! ## Faulty stores -/

namespace FaultyStore

variable [VersionedStore σ]

theorem get_of_readable (store : FaultyStore σ) (readable : store.plan.unreadableKeys = [])
    (key : Bytes) : KeyValueStore.get store key = KeyValueStore.get store.inner key := by
  show store.read key KeyValueStore.get = _
  simp [FaultyStore.read, FaultPlan.readFault?, readable]

/-- The ways in which a write ends: the plan refuses it, or the store inside does, or it is made. -/
theorem set_cases (store : FaultyStore σ) (key value : Bytes) :
    (∃ fault, KeyValueStore.set store key value = (.error fault, store)) ∨
      (∃ fault inner, KeyValueStore.set store.inner key value = (.error fault, inner) ∧
        KeyValueStore.set store key value = (.error fault, { store with inner })) ∨
      ∃ inner, KeyValueStore.set store.inner key value = (.ok (), inner) ∧
        KeyValueStore.set store key value =
          (.ok (), { store with inner, acknowledged := store.acknowledged + 1 }) := by
  show (∃ fault, store.set key value = _) ∨ (∃ fault inner, _ ∧ store.set key value = _) ∨
    ∃ inner, _ ∧ store.set key value = _
  cases planned : store.plan.writeFault? store.acknowledged key with
  | some fault => exact .inl ⟨fault, by simp only [FaultyStore.set, planned]⟩
  | none =>
    match made : KeyValueStore.set store.inner key value with
    | (.error fault, inner) =>
      exact .inr (.inl ⟨fault, inner, rfl, by simp only [FaultyStore.set, planned, made]⟩)
    | (.ok (), inner) =>
      exact .inr (.inr ⟨inner, rfl, by simp only [FaultyStore.set, planned, made]⟩)

theorem set_eq_ok {store after : FaultyStore σ} {key value : Bytes}
    (set : KeyValueStore.set store key value = (.ok (), after)) :
    ∃ inner, KeyValueStore.set store.inner key value = (.ok (), inner) ∧
      after = { store with inner, acknowledged := store.acknowledged + 1 } := by
  rcases store.set_cases key value with
    ⟨fault, ended⟩ | ⟨fault, inner, made, ended⟩ | ⟨inner, made, ended⟩
  · nomatch (Prod.mk.inj (set.symm.trans ended)).1
  · nomatch (Prod.mk.inj (set.symm.trans ended)).1
  · exact ⟨inner, made, (Prod.mk.inj (set.symm.trans ended)).2⟩

theorem set_eq_error {store after : FaultyStore σ} {key value : Bytes} {error : StoreError}
    (set : KeyValueStore.set store key value = (.error error, after)) :
    after = store ∨ ∃ fault inner, KeyValueStore.set store.inner key value = (.error fault, inner) ∧
      after = { store with inner } := by
  rcases store.set_cases key value with
    ⟨fault, ended⟩ | ⟨fault, inner, made, ended⟩ | ⟨inner, made, ended⟩
  · exact .inl (Prod.mk.inj (set.symm.trans ended)).2
  · exact .inr ⟨fault, inner, made, (Prod.mk.inj (set.symm.trans ended)).2⟩
  · nomatch (Prod.mk.inj (set.symm.trans ended)).1

/-- Refusing writes keeps writes lawful.  Refusing reads would not: an acknowledged write of an
    unreadable key is not seen. -/
theorem lawfulWrites {P : σ → Prop} (lawful : LawfulWrites P) :
    LawfulWrites fun store : FaultyStore σ => P store.inner ∧ store.plan.unreadableKeys = [] where
  keeps := by
    intro store key value ⟨inside, readable⟩
    -- no write changes the plan
    rcases store.set_cases key value with
      ⟨fault, set⟩ | ⟨fault, inner, made, set⟩ | ⟨inner, made, set⟩
    · rw [set]
      exact ⟨inside, readable⟩
    · rw [set]
      exact ⟨lawful.kept_of_set inside made, readable⟩
    · rw [set]
      exact ⟨lawful.kept_of_set inside made, readable⟩
  acknowledged := by
    intro store after key value ⟨inside, readable⟩ acknowledged other
    obtain ⟨inner, made, rfl⟩ := set_eq_ok acknowledged
    rw [get_of_readable { store with inner, acknowledged := store.acknowledged + 1 } readable,
      get_of_readable store readable]
    exact lawful.acknowledged store.inner inner key value inside made other
  refused := by
    intro store after key value error ⟨inside, readable⟩ refused other
    obtain rfl | ⟨fault, inner, made, rfl⟩ := set_eq_error refused
    · rfl
    · rw [get_of_readable { store with inner } readable, get_of_readable store readable]
      exact lawful.refused store.inner inner key value fault inside made other

end FaultyStore

end ReplicatedKv
