import Mathlib.Algebra.Group.End
import Mathlib.Data.List.FinRange
import Mathlib.Data.Fin.VecNotation
import ReplicatedKv.Proofs.Execution.Memory
import ReplicatedKv.Proofs.Store.Partition

/-! # Reordering a block

On a memory store, transactions that write different keys do not notice each other, and bytes that
do not decode are noticed by none.  A block may be permuted in any way that keeps the transactions
of every key in their order.

* `KeepsOrder` — the permutations.
* `filterMap_ofFn_comp` — what is selected from a list does not notice a permutation that keeps the
  selected positions in order.
* `Executor.Commutes`, `Executor.runBlock_commutes` — a block and its permutation.
-/

namespace ReplicatedKv

variable {n : Nat}

/-! ## Permutations -/

/-- The key that a transaction writes, if it decodes. -/
def writtenKey? (raw : Bytes) : Option Bytes := (Write.decode raw).toOption.map Write.key

/-- Position `i` of the permuted block takes the transaction at position `π i`.  Those that write
    the same key stay in their order; the others may go anywhere. -/
def KeepsOrder (txs : Fin n → Bytes) (π : Equiv.Perm (Fin n)) : Prop :=
  ∀ i j, i < j → (writtenKey? (txs (π i))).isSome →
    writtenKey? (txs (π i)) = writtenKey? (txs (π j)) → π i < π j

instance (txs : Fin n → Bytes) (π : Equiv.Perm (Fin n)) : Decidable (KeepsOrder txs π) :=
  inferInstanceAs (Decidable (∀ i j, i < j → (writtenKey? (txs (π i))).isSome →
    writtenKey? (txs (π i)) = writtenKey? (txs (π j)) → π i < π j))

section

variable {α β : Type} {π : Equiv.Perm (Fin n)}

theorem filterMap_filter_isSome (select : α → Option β) (xs : List α) :
    (xs.filter fun a => (select a).isSome).filterMap select = xs.filterMap select := by
  rw [List.filterMap_filter]
  congr 1
  funext a
  cases select a <;> rfl

/-- Where a permutation keeps chosen positions in order, listing those that it takes to a chosen
    one and applying it gives the chosen positions in order. -/
theorem map_filter_finRange {chosen : Fin n → Bool}
    (keeps : ∀ i j, i < j → chosen (π i) → chosen (π j) → π i < π j) :
    ((List.finRange n).filter (chosen ∘ π)).map π = (List.finRange n).filter chosen := by
  have permuted : (((List.finRange n).filter (chosen ∘ π)).map π).Perm
      ((List.finRange n).filter chosen) := by
    rw [← List.filter_map]
    exact (Equiv.Perm.map_finRange_perm π).filter chosen
  have ascending : (((List.finRange n).filter (chosen ∘ π)).map π).Pairwise (· < ·) := by
    rw [List.pairwise_map]
    refine ((List.pairwise_lt_finRange n).filter _).imp_of_mem ?_
    intro i j first second lt
    exact keeps i j lt (List.mem_filter.mp first).2 (List.mem_filter.mp second).2
  -- a list in strictly ascending order is determined by its members
  refine permuted.eq_of_pairwise ?_ ascending ((List.pairwise_lt_finRange n).filter _)
  intro i j _ _ lt gt
  exact absurd gt (Fin.lt_asymm lt)

theorem filterMap_ofFn_comp (select : α → Option β) (xs : Fin n → α)
    (keeps : ∀ i j, i < j → (select (xs (π i))).isSome → (select (xs (π j))).isSome → π i < π j) :
    (List.ofFn (xs ∘ π)).filterMap select = (List.ofFn xs).filterMap select := by
  let chosen (i : Fin n) : Bool := (select (xs i)).isSome
  have positions : ((List.finRange n).filter (chosen ∘ π)).map π =
      (List.finRange n).filter chosen := map_filter_finRange keeps
  calc (List.ofFn (xs ∘ π)).filterMap select
    _ = (List.finRange n).filterMap ((select ∘ xs) ∘ π) := by
        rw [List.ofFn_eq_map, List.filterMap_map]
        rfl
    _ = ((List.finRange n).filter (chosen ∘ π)).filterMap ((select ∘ xs) ∘ π) :=
        (filterMap_filter_isSome _ _).symm
    _ = (((List.finRange n).filter (chosen ∘ π)).map π).filterMap (select ∘ xs) :=
        List.filterMap_map.symm
    _ = ((List.finRange n).filter chosen).filterMap (select ∘ xs) := by rw [positions]
    _ = (List.finRange n).filterMap (select ∘ xs) := filterMap_filter_isSome _ _
    _ = (List.ofFn xs).filterMap select := by rw [List.ofFn_eq_map, List.filterMap_map]

end

/-! ## Writes of a permuted block -/

/-- The write of a transaction, if it decodes and writes the key. -/
def writeTo? (key : Bytes) (raw : Bytes) : Option Write :=
  (Write.decode raw).toOption.filter (·.key = key)

theorem writtenKey?_of_isSome {key raw : Bytes} (writes : (writeTo? key raw).isSome) :
    writtenKey? raw = some key := by
  obtain ⟨w, found⟩ := Option.isSome_iff_exists.mp writes
  obtain ⟨decoded, same⟩ := Option.filter_eq_some_iff.mp found
  rw [writtenKey?, decoded, Option.map_some, of_decide_eq_true same]

theorem filter_decodedWrites (key : Bytes) (txs : List Bytes) :
    (decodedWrites txs).filter (·.key = key) = txs.filterMap (writeTo? key) :=
  List.filter_filterMap

variable {txs : Fin n → Bytes} {π : Equiv.Perm (Fin n)}

theorem KeepsOrder.lastValue? (keeps : KeepsOrder txs π) (key : Bytes) :
    lastValue? key (decodedWrites (List.ofFn (txs ∘ π))) =
      lastValue? key (decodedWrites (List.ofFn txs)) := by
  have same : (List.ofFn (txs ∘ π)).filterMap (writeTo? key) =
      (List.ofFn txs).filterMap (writeTo? key) := by
    apply filterMap_ofFn_comp
    intro i j lt first second
    have firstKey := writtenKey?_of_isSome first
    have secondKey := writtenKey?_of_isSome second
    exact keeps i j lt (by rw [firstKey]; rfl) (firstKey.trans secondKey.symm)
  rw [ReplicatedKv.lastValue?, ReplicatedKv.lastValue?, filter_decodedWrites, filter_decodedWrites,
    same]

/-! ## Execution -/

namespace Executor

theorem receipts_memStore (x : Executor) (txs : Fin n → Bytes) (store : MemStore) :
    (x.runBlock (List.ofFn txs) store).1.receipts = List.ofFn (x.receiptOf ∘ txs) := by
  rw [runBlock, runAll_memStore, List.map_ofFn]

/-- A permutation of this kind leaves the same store, down to the pending writes. -/
theorem store_of_keepsOrder (x : Executor) (keeps : KeepsOrder txs π) (store : MemStore) :
    (x.runBlock (List.ofFn (txs ∘ π)) store).2 = (x.runBlock (List.ofFn txs) store).2 := by
  rw [runBlock, runAll_memStore, runBlock, runAll_memStore]
  exact MemStore.setAll_congr (lastValue?_inPartition_congr x.storeKey keeps.lastValue?) store

/-- A block and its permutation: each transaction has one receipt, which goes where the transaction
    goes and is the same whatever store the block is run on, and both orders leave the same working
    state, the same number of pending writes and the same commitment. -/
structure Commutes (x : Executor) (txs : Fin n → Bytes) (π : Equiv.Perm (Fin n)) : Prop where
  receipts : ∃ receipts : Fin n → Receipt, ∀ store : MemStore,
    (x.runBlock (List.ofFn txs) store).1.receipts = List.ofFn receipts ∧
      (x.runBlock (List.ofFn (txs ∘ π)) store).1.receipts = List.ofFn (receipts ∘ π)
  get (store : MemStore) (key : Bytes) :
    KeyValueStore.get (x.runBlock (List.ofFn (txs ∘ π)) store).2 key =
      KeyValueStore.get (x.runBlock (List.ofFn txs) store).2 key
  pendingWrites (store : MemStore) :
    (x.runBlock (List.ofFn (txs ∘ π)) store).2.pendingWrites =
      (x.runBlock (List.ofFn txs) store).2.pendingWrites
  commit (store : MemStore) :
    (VersionedStore.commit (x.runBlock (List.ofFn (txs ∘ π)) store).2).1 =
      (VersionedStore.commit (x.runBlock (List.ofFn txs) store).2).1

theorem runBlock_commutes (x : Executor) (txs : Fin n → Bytes) (π : Equiv.Perm (Fin n))
    (keeps : KeepsOrder txs π) : x.Commutes txs π where
  receipts := ⟨x.receiptOf ∘ txs, fun store =>
    ⟨receipts_memStore x txs store, receipts_memStore x (txs ∘ π) store⟩⟩
  get store key := by rw [store_of_keepsOrder x keeps]
  pendingWrites store := by rw [store_of_keepsOrder x keeps]
  commit store := by rw [store_of_keepsOrder x keeps]

/-- Two writes of one key, a write of another, and bytes that do not decode. -/
def twoKeys : Fin 4 → Bytes :=
  ![Write.encode ⟨[0x61], [0x31]⟩, [0xff], Write.encode ⟨[0x62], [0x32]⟩,
    Write.encode ⟨[0x61], [0x33]⟩]

/-- The other key first, the bytes that do not decode last. -/
def shuffled : Equiv.Perm (Fin 4) := Equiv.swap 0 2 * Equiv.swap 2 3 * Equiv.swap 3 1

theorem runBlock_commutes_shuffled :
    KeepsOrder twoKeys shuffled ∧
      List.ofFn shuffled = [2, 0, 3, 1] ∧
      ({} : Config).executor.Commutes twoKeys shuffled := by
  have keeps : KeepsOrder twoKeys shuffled := by decide +kernel
  exact ⟨keeps, by decide, runBlock_commutes _ twoKeys shuffled keeps⟩

end Executor

end ReplicatedKv
