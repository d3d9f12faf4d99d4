import ReplicatedKv.Proofs.Store.Writes
import ReplicatedKv.Store.Memory

/-! # The memory store as entries

A memory store is two states: the committed entries, and the working entries that a commit would
make of them.  Every operation is described by what it does to these two.
-/

namespace ReplicatedKv.MemStore

/-- The committed entries with all pending writes made. -/
def working (store : MemStore) : Entries := store.pending.applyTo store.committed

theorem working_eq_overlay (store : MemStore) :
    store.working = store.committed.overlay store.pending.writes.writes := by
  apply Std.ExtTreeMap.ext_getElem?
  intro key
  rw [working, Overlay.getElem?_applyTo, Entries.getElem?_overlay, Entries.lastValue?_writes]
  rfl

theorem working_of_pending_empty {store : MemStore} (nothing : store.pending = .empty) :
    store.working = store.committed := by
  apply Std.ExtTreeMap.ext_getElem?
  intro key
  rw [working, Overlay.getElem?_applyTo, nothing, Overlay.get?_empty, Option.none_or]

theorem working_empty : empty.working = ∅ := working_of_pending_empty rfl

theorem get?_eq_working (store : MemStore) (key : Bytes) :
    store.get? key = store.working[key]? := by
  rw [working, Overlay.getElem?_applyTo, get?]

theorem mem_working_of_mem_pending {store : MemStore} {key : Bytes}
    (member : key ∈ store.pending.writes) : key ∈ store.working :=
  Std.ExtTreeMap.mem_union_iff.mpr (.inr member)

/-! ## Writing -/

theorem working_set (store : MemStore) (key value : Bytes) :
    (store.set key value).working = store.working.insert key value := by
  apply Std.ExtTreeMap.ext_getElem?
  intro other
  simp only [working, set, Overlay.getElem?_applyTo, Overlay.get?_set,
    Std.ExtTreeMap.getElem?_insert, Std.LawfulEqCmp.compare_eq_iff_eq]
  by_cases same : key = other
  · rw [if_pos same, if_pos same, Option.some_or]
  · rw [if_neg same, if_neg same]

def setAll (store : MemStore) (writes : List Write) : MemStore :=
  writes.foldl (fun store w => store.set w.key w.value) store

theorem setAll_cons (store : MemStore) (w : Write) (writes : List Write) :
    store.setAll (w :: writes) = (store.set w.key w.value).setAll writes := rfl

@[simp] theorem committed_setAll (store : MemStore) (writes : List Write) :
    (store.setAll writes).committed = store.committed := by
  induction writes generalizing store with
  | nil => rfl
  | cons w writes ih => exact ih (store.set w.key w.value)

@[simp] theorem lastCommit_setAll (store : MemStore) (writes : List Write) :
    (store.setAll writes).lastCommit = store.lastCommit := by
  induction writes generalizing store with
  | nil => rfl
  | cons w writes ih => exact ih (store.set w.key w.value)

theorem getElem?_working_setAll (store : MemStore) (writes : List Write) (key : Bytes) :
    (store.setAll writes).working[key]? = (lastValue? key writes).or store.working[key]? := by
  induction writes generalizing store with
  | nil => rfl
  | cons w writes ih =>
    rw [setAll_cons, ih, working_set, lastValue?_cons, Option.or_assoc]
    by_cases same : w.key = key
    · simp [same]
    · simp [same, Std.ExtTreeMap.getElem?_insert]

theorem working_setAll_eq_overlay (store : MemStore) (writes : List Write) :
    (store.setAll writes).working = store.working.overlay writes := by
  apply Std.ExtTreeMap.ext_getElem?
  intro key
  rw [getElem?_working_setAll, Entries.getElem?_overlay]

theorem mem_working_setAll {store : MemStore} {writes : List Write} {key : Bytes}
    (member : key ∈ (store.setAll writes).working) :
    (∃ w ∈ writes, w.key = key) ∨ key ∈ store.working := by
  rw [Std.ExtTreeMap.mem_iff_isSome_getElem?, getElem?_working_setAll] at member
  cases written : lastValue? key writes with
  | some value => exact .inl (exists_mem_of_lastValue? written)
  | none =>
    rw [written, Option.none_or] at member
    exact .inr (Std.ExtTreeMap.mem_iff_isSome_getElem?.mpr member)

theorem working_setAll {store : MemStore} {earlier : List Write}
    (working : store.working = .ofWrites earlier) (writes : List Write) :
    (store.setAll writes).working = .ofWrites (earlier ++ writes) := by
  apply Std.ExtTreeMap.ext_getElem?
  intro key
  rw [getElem?_working_setAll, working, Entries.getElem?_ofWrites, Entries.getElem?_ofWrites,
    lastValue?_append]

theorem setAll_eq_overlay (store : MemStore) (writes : List Write) :
    store.setAll writes = { store with pending := ⟨store.pending.writes.overlay writes⟩ } := by
  induction writes generalizing store with
  | nil => rfl
  | cons w writes ih => exact ih (store.set w.key w.value)

/-- What a list of writes leaves depends only on the last write of every key. -/
theorem setAll_congr {writes others : List Write}
    (same : ∀ key, lastValue? key writes = lastValue? key others) (store : MemStore) :
    store.setAll writes = store.setAll others := by
  have overlays : store.pending.writes.overlay writes = store.pending.writes.overlay others := by
    apply Std.ExtTreeMap.ext_getElem?
    intro key
    rw [Entries.getElem?_overlay, Entries.getElem?_overlay, same]
  rw [setAll_eq_overlay, overlays, ← setAll_eq_overlay]

/-! ## Committing -/

@[simp] theorem committed_commit (store : MemStore) : store.commit.committed = store.working := rfl

theorem lastCommit_commit (store : MemStore) :
    store.commit.lastCommit =
      ⟨Saturating.add store.lastCommit.version 1, stateRoot store.working⟩ := rfl

@[simp] theorem working_commit (store : MemStore) : store.commit.working = store.working :=
  working_of_pending_empty rfl

/-! ## Discarding -/

@[simp] theorem working_discard (store : MemStore) : store.discard.working = store.committed :=
  working_of_pending_empty rfl

@[simp] theorem discard_setAll (store : MemStore) (writes : List Write) :
    (store.setAll writes).discard = store.discard := by
  simp only [discard, committed_setAll, lastCommit_setAll]

theorem discard_of_pendingWrites {store : MemStore} (clean : store.pendingWrites = 0) :
    store.discard = store := by
  have nothing : store.pending.writes = ∅ := Std.ExtTreeMap.eq_empty_iff_size_eq_zero.mpr clean
  have empty : store.pending = .empty := congrArg Overlay.mk nothing
  rw [discard, ← empty]

end ReplicatedKv.MemStore
