import ReplicatedKv.Config
import ReplicatedKv.Proofs.Store.Writes
import ReplicatedKv.Proofs.Text.Utf8

/-! # Disjoint partitions

A usable configuration names its partition without a separator, so a full key says where the name
ends: partitions with different names share no key, whatever bytes their keys have and even where
one name begins with the other.
-/

namespace ReplicatedKv

namespace Partition

/-- A key of the store that begins with the name of a partition and a separator. -/
def Holds (name : String) (full : Bytes) : Prop := Utf8.encode name ++ [separator] <+: full

theorem holds_iff {name : String} {full : Bytes} :
    Holds name full ↔ ∃ key, fullKey name key = full := by
  simp only [Holds, fullKey, List.IsPrefix, List.append_assoc, List.singleton_append]

theorem holds_fullKey (name : String) (key : Bytes) : Holds name (fullKey name key) :=
  holds_iff.mpr ⟨key, rfl⟩

/-! ## Names without a separator -/

theorem takeWhile_fullKey {name : String} (free : separator ∉ Utf8.encode name) (key : Bytes) :
    (fullKey name key).takeWhile (· ≠ separator) = Utf8.encode name := by
  have allTaken : ∀ b ∈ Utf8.encode name, decide (b ≠ separator) = true := by
    intro b member
    exact decide_eq_true fun same => free (same ▸ member)
  rw [fullKey, List.takeWhile_append_of_pos allTaken, List.takeWhile_cons_of_neg (by simp),
    List.append_nil]

/-- The part of a full key up to the first separator is the name. -/
theorem eq_of_holds {name other : String} {full : Bytes} (free : separator ∉ Utf8.encode name)
    (otherFree : separator ∉ Utf8.encode other) (holds : Holds name full)
    (otherHolds : Holds other full) : name = other := by
  obtain ⟨key, rfl⟩ := holds_iff.mp holds
  obtain ⟨otherKey, same⟩ := holds_iff.mp otherHolds
  have names := congrArg (List.takeWhile (· ≠ separator)) same
  rw [takeWhile_fullKey free, takeWhile_fullKey otherFree] at names
  exact (Utf8.encode_inj.mp names).symm

end Partition

theorem Config.separator_notMem_of_validate {config : Config} (valid : config.validate = .ok ()) :
    Partition.separator ∉ Utf8.encode config.storeKey := by
  intro member
  have inName : '/' ∈ config.storeKey.toList := Utf8.mem_of_mem_encode (by decide) member
  rw [Config.validate, if_pos inName] at valid
  split at valid
  · nomatch valid
  · nomatch valid

theorem Config.not_holds_of_holds {config other : Config} (valid : config.validate = .ok ())
    (otherValid : other.validate = .ok ()) (differ : config.storeKey ≠ other.storeKey)
    {full : Bytes} (holds : Partition.Holds config.storeKey full) :
    ¬Partition.Holds other.storeKey full := by
  intro otherHolds
  exact differ (Partition.eq_of_holds (separator_notMem_of_validate valid)
    (separator_notMem_of_validate otherValid) holds otherHolds)

/-! ## Writes to the other partition -/

theorem lastValue?_inPartition_of_not_holds {name : String} {full : Bytes}
    (outside : ¬Partition.Holds name full) (writes : List Write) :
    lastValue? full (writes.map (Write.inPartition name)) = none := by
  induction writes with
  | nil => rfl
  | cons w writes ih =>
    have different : (w.inPartition name).key ≠ full :=
      fun same => outside (same ▸ Partition.holds_fullKey name w.key)
    rw [List.map_cons, lastValue?_cons, ih, if_neg different, Option.none_or]

/-- Lists of writes with the same last values have them also as the store behind a partition sees
    them. -/
theorem lastValue?_inPartition_congr (name : String) {writes others : List Write}
    (same : ∀ key, lastValue? key writes = lastValue? key others) (full : Bytes) :
    lastValue? full (writes.map (Write.inPartition name)) =
      lastValue? full (others.map (Write.inPartition name)) := by
  by_cases holds : Partition.Holds name full
  · obtain ⟨key, rfl⟩ := Partition.holds_iff.mp holds
    rw [lastValue?_inPartition, lastValue?_inPartition, same]
  · rw [lastValue?_inPartition_of_not_holds holds, lastValue?_inPartition_of_not_holds holds]

end ReplicatedKv
