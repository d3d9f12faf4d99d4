import ReplicatedKv.Store.Basic

/-! # Faulty stores

A store that refuses chosen calls and passes all others to the store inside, to see how the
application behaves when storage fails.  Discarding and asking for the last commit never fail.
-/

namespace ReplicatedKv

/-- Which calls are refused. -/
structure FaultPlan where
  rejectedKeys : List Bytes := []
  /-- How many writes are acknowledged before the store is full. -/
  capacity : Option Nat := none
  /-- The commits that fail, counted from one with failed ones included. -/
  failingCommits : List Nat := []
  unreadableKeys : List Bytes := []

namespace FaultPlan

/-- The refusal of a write to `key` after `acknowledged` writes, if it is refused. -/
def writeFault? (plan : FaultPlan) (acknowledged : Nat) (key : Bytes) : Option StoreError :=
  if key ∈ plan.rejectedKeys then some (.writeRejected ("key " ++ key.toHex))
  else if plan.capacity.any (· ≤ acknowledged) then some (.writeRejected "store full")
  else none

/-- The refusal of the commit with the given number, if it is refused. -/
def commitFault? (plan : FaultPlan) (call : Nat) : Option StoreError :=
  if call ∈ plan.failingCommits then some (.commitFailed ("call " ++ toString call)) else none

/-- The refusal of a read of `key`, if it is refused. -/
def readFault? (plan : FaultPlan) (key : Bytes) : Option StoreError :=
  if key ∈ plan.unreadableKeys then some (.writeRejected "unreadable") else none

end FaultPlan

/-- A store with a fault plan, and the counts that the plan depends on. -/
structure FaultyStore (σ : Type) where
  inner : σ
  plan : FaultPlan := {}
  acknowledged : Nat := 0
  commitCalls : Nat := 0

namespace FaultyStore

variable {σ : Type}

/-- Reads through to the inner store, unless the key is unreadable. -/
def read (store : FaultyStore σ) (key : Bytes)
    (look : σ → Bytes → Except StoreError (Option Bytes)) : Except StoreError (Option Bytes) :=
  match store.plan.readFault? key with
  | some fault => .error fault
  | none => look store.inner key

/-- Writes to the inner store and counts an acknowledged write, unless the write is refused. -/
def set [KeyValueStore σ] (store : FaultyStore σ) (key value : Bytes) :
    Except StoreError Unit × FaultyStore σ :=
  match store.plan.writeFault? store.acknowledged key with
  | some fault => (.error fault, store)
  | none =>
    match KeyValueStore.set store.inner key value with
    | (.ok (), inner) =>
      (.ok (), { store with inner := inner, acknowledged := store.acknowledged + 1 })
    -- the capacity counts acknowledged writes only
    | (.error fault, inner) => (.error fault, { store with inner := inner })

/-- Counts the call and commits the inner store, unless this commit is refused. -/
def commit [VersionedStore σ] (store : FaultyStore σ) :
    Except StoreError CommitInfo × FaultyStore σ :=
  let call := store.commitCalls + 1
  match store.plan.commitFault? call with
  | some fault => (.error fault, { store with commitCalls := call })
  | none =>
    match VersionedStore.commit store.inner with
    | (answer, inner) => (answer, { store with inner := inner, commitCalls := call })

instance [VersionedStore σ] : VersionedStore (FaultyStore σ) where
  get store key := store.read key KeyValueStore.get
  set := set
  commit := commit
  discard store := { store with inner := VersionedStore.discard store.inner }
  lastCommit store := VersionedStore.lastCommit store.inner
  committedGet store key := store.read key VersionedStore.committedGet

end FaultyStore

end ReplicatedKv
