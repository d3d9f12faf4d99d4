import ReplicatedKv.Commitment.Merkle
import ReplicatedKv.Hash.Blake3
import ReplicatedKv.Store.Entries

/-! # The state root

The commitment to a whole state: the Merkle root over its entries in ascending key order.

* `leafPreimage` — what is hashed for an entry; the key's length keeps key and value apart.
* `nodePreimage` — what is hashed for two subtrees; its first byte differs from that of a leaf.
* `stateRoot` — the root, which is the zero digest for the empty state.
-/

namespace ReplicatedKv

/-- The bytes hashed for an entry: a zero byte, the key's length as a 32-bit number, key, value. -/
def leafPreimage (key value : Bytes) : Bytes :=
  0x00 :: littleEndian key.length.toUInt32 ++ key ++ value

/-- The bytes hashed for two subtrees: a one byte and both digests. -/
def nodePreimage (left right : Digest) : Bytes := 0x01 :: left.toBytes ++ right.toBytes

def leafDigest (key value : Bytes) : Digest := blake3 (leafPreimage key value)

def nodeDigest (left right : Digest) : Digest := blake3 (nodePreimage left right)

def stateRoot (entries : Entries) : Digest :=
  Merkle.root nodeDigest Digest.zero (entries.toList.map fun entry => leafDigest entry.1 entry.2)

theorem stateRoot_of_toList_nil {entries : Entries} (content : entries.toList = []) :
    stateRoot entries = Digest.zero := by
  rw [stateRoot, content, List.map_nil, Merkle.root]

end ReplicatedKv
