import ReplicatedKv.Store.Partition
import ReplicatedKv.Store.Entries
import ReplicatedKv.Transaction

/-! # Writes in order

A list of writes as a description of a state: what counts of a key is the last write to it.

* `lastValue?` — the value that a list of writes leaves under a key.
* `Entries.ofWrites` — the entries that it leaves.
* `Entries.overlay` — the entries that it leaves over given ones.
* `Write.inPartition` — a write as the store behind a partition sees it.
-/

namespace ReplicatedKv

/-- The value of the last write to a key, if there is one. -/
def lastValue? (key : Bytes) (writes : List Write) : Option Bytes :=
  (writes.filter (·.key = key)).getLast?.map Write.value

theorem lastValue?_append (key : Bytes) (earlier later : List Write) :
    lastValue? key (earlier ++ later) = (lastValue? key later).or (lastValue? key earlier) := by
  simp only [lastValue?, List.filter_append, List.getLast?_append, Option.map_or]

theorem lastValue?_singleton (key : Bytes) (w : Write) :
    lastValue? key [w] = if w.key = key then some w.value else none := by
  by_cases same : w.key = key
  · simp [lastValue?, same]
  · simp [lastValue?, same]

theorem lastValue?_cons (key : Bytes) (w : Write) (writes : List Write) :
    lastValue? key (w :: writes) =
      (lastValue? key writes).or (if w.key = key then some w.value else none) := by
  rw [← lastValue?_singleton, ← lastValue?_append, List.singleton_append]

theorem exists_mem_of_lastValue? {key value : Bytes} {writes : List Write}
    (found : lastValue? key writes = some value) : ∃ w ∈ writes, w.key = key := by
  obtain ⟨w, last, -⟩ := Option.map_eq_some_iff.mp found
  obtain ⟨member, same⟩ := List.mem_filter.mp (List.mem_of_getLast? last)
  exact ⟨w, member, of_decide_eq_true same⟩

/-! ## Entries -/

namespace Entries

/-- The entries after a list of writes. -/
def ofWrites (writes : List Write) : Entries := ofList (writes.map fun w => (w.key, w.value))

theorem getElem?_foldl_insert (key : Bytes) (writes : List Write) (entries : Entries) :
    ((writes.map fun w => (w.key, w.value)).foldl (fun entries pair => entries.insert pair.1 pair.2)
      entries)[key]? = (lastValue? key writes).or entries[key]? := by
  induction writes generalizing entries with
  | nil => rfl
  | cons w writes ih =>
    rw [List.map_cons, List.foldl_cons, ih, lastValue?_cons, Option.or_assoc]
    by_cases same : w.key = key
    · simp [same]
    · simp [same, Std.ExtTreeMap.getElem?_insert]

theorem getElem?_ofWrites (key : Bytes) (writes : List Write) :
    (ofWrites writes)[key]? = lastValue? key writes := by
  rw [ofWrites, ofList, getElem?_foldl_insert]
  simp

/-- The entries with writes made over them, the last one of every key. -/
def overlay (entries : Entries) (writes : List Write) : Entries :=
  writes.foldl (fun entries w => entries.insert w.key w.value) entries

theorem overlay_append (entries : Entries) (earlier later : List Write) :
    entries.overlay (earlier ++ later) = (entries.overlay earlier).overlay later :=
  List.foldl_append

theorem getElem?_overlay (entries : Entries) (writes : List Write) (key : Bytes) :
    (entries.overlay writes)[key]? = (lastValue? key writes).or entries[key]? := by
  rw [← getElem?_foldl_insert, List.foldl_map]
  rfl

/-- The entries as a list of writes, one for every key. -/
def writes (entries : Entries) : List Write := entries.toList.map fun entry => ⟨entry.1, entry.2⟩

theorem lastValue?_writes (entries : Entries) (key : Bytes) :
    lastValue? key entries.writes = entries[key]? := by
  have pairs : entries.writes.map (fun w => (w.key, w.value)) = entries.toList := by
    rw [writes, List.map_map]
    exact List.map_id _
  have listed : ofWrites entries.writes = Std.ExtTreeMap.ofList entries.toList compare := by
    rw [ofWrites, pairs, ofList, Std.ExtTreeMap.ofList_eq_foldl]
  rw [← getElem?_ofWrites, listed]
  cases found : entries[key]? with
  | some value =>
    exact Std.ExtTreeMap.getElem?_ofList_of_mem Std.ReflCmp.compare_self
      Std.ExtTreeMap.distinct_keys_toList (Std.ExtTreeMap.mem_toList_iff_getElem?_eq_some.mpr found)
  | none =>
    apply Std.ExtTreeMap.getElem?_ofList_of_contains_eq_false
    simpa [List.contains_iff_mem, Std.ExtTreeMap.mem_toList_iff_getElem?_eq_some] using found

theorem exists_write_of_mem {key : Bytes} {writes : List Write} (member : key ∈ ofWrites writes) :
    ∃ w ∈ writes, w.key = key := by
  have found : (lastValue? key writes).isSome := by
    rw [← getElem?_ofWrites]
    exact Std.ExtTreeMap.mem_iff_isSome_getElem?.mp member
  obtain ⟨value, found⟩ := Option.isSome_iff_exists.mp found
  exact exists_mem_of_lastValue? found

end Entries

/-! ## Partitions -/

/-- A write to a partition, as a write to the store behind it. -/
def Write.inPartition (name : String) (w : Write) : Write := ⟨Partition.fullKey name w.key, w.value⟩

theorem Partition.fullKey_inj {name : String} {key other : Bytes} :
    fullKey name key = fullKey name other ↔ key = other := by
  simp [fullKey]

/-- Inside a partition, writes are looked up by their own keys. -/
theorem lastValue?_inPartition (name : String) (key : Bytes) (writes : List Write) :
    lastValue? (Partition.fullKey name key) (writes.map (Write.inPartition name)) =
      lastValue? key writes := by
  induction writes with
  | nil => rfl
  | cons w writes ih =>
    rw [List.map_cons, lastValue?_cons, lastValue?_cons, ih]
    simp only [Write.inPartition, Partition.fullKey_inj]

end ReplicatedKv
