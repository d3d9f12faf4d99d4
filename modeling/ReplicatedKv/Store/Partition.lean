import ReplicatedKv.Store.Basic
import ReplicatedKv.Text.Utf8

/-! # Partitions

A store is divided by key: the keys of a partition are those that begin with its name and a
separator.  Partitions nest, the outermost name coming first in the full key.
-/

namespace ReplicatedKv.Partition

/-- The byte between a partition's name and the keys inside it, a slash. -/
def separator : UInt8 := 0x2f

def fullKey (name : String) (key : Bytes) : Bytes := Utf8.encode name ++ separator :: key

/-- The full key of `key` inside nested partitions, the outermost first. -/
def nestedKey (names : List String) (key : Bytes) : Bytes := names.foldr fullKey key

variable {σ : Type} [KeyValueStore σ]

def get (name : String) (store : σ) (key : Bytes) : Except StoreError (Option Bytes) :=
  KeyValueStore.get store (fullKey name key)

def set (name : String) (store : σ) (key value : Bytes) : Except StoreError Unit × σ :=
  KeyValueStore.set store (fullKey name key) value

end ReplicatedKv.Partition
