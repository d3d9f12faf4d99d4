import ReplicatedKv.Hash.Digest

/-! # Stores

What the application asks of its storage.

* `KeyValueStore` — reading and writing the working state of the current block.
* `VersionedStore` — in addition committing the working state as a new version, discarding it, and
  reading what was last committed.

A store answers every call; a refused write or commit is an answer too.  Calls that may change the
store return the store that they leave.
-/

namespace ReplicatedKv

/-- Why a store refused a call. -/
inductive StoreError where
  | writeRejected (reason : String)
  | commitFailed (reason : String)
  deriving DecidableEq

def StoreError.message : StoreError → String
  | writeRejected reason => "write rejected: " ++ reason
  | commitFailed reason => "commit failed: " ++ reason

/-- A store of byte strings under byte string keys. -/
class KeyValueStore (σ : Type) where
  /-- The value of a key: a write since the last commit, or else the committed value. -/
  get : σ → Bytes → Except StoreError (Option Bytes)
  /-- Writes a value.  The write counts as made only where the answer is not a refusal. -/
  set : σ → Bytes → Bytes → Except StoreError Unit × σ

/-- What identifies a committed state. -/
structure CommitInfo where
  /-- How many commits led to it; zero before the first. -/
  version : UInt64
  appHash : Digest
  deriving DecidableEq

def CommitInfo.initial : CommitInfo := ⟨0, Digest.zero⟩

/-- A store that keeps committed versions. -/
class VersionedStore (σ : Type) extends KeyValueStore σ where
  /-- Makes every write since the last commit part of a new version. -/
  commit : σ → Except StoreError CommitInfo × σ
  discard : σ → σ
  lastCommit : σ → CommitInfo
  committedGet : σ → Bytes → Except StoreError (Option Bytes)

end ReplicatedKv
