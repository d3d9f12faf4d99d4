import ReplicatedKv.Json.Fault
import ReplicatedKv.Store.Partition

/-! # Genesis

The state that a chain starts with, as a list of entries for one partition.  Entries are written in
order, so the last one of a key wins.
-/

namespace ReplicatedKv

/-- A key and the value it starts with. -/
structure GenesisEntry where
  key : String
  value : String
  deriving DecidableEq

/-- The entries of a genesis document, in document order. -/
structure Genesis where
  entries : List GenesisEntry := []
  deriving DecidableEq

/-- Why a chain could not be seeded. -/
inductive GenesisError where
  | parse (fault : Json.Fault)
  | store (error : StoreError)
  deriving DecidableEq

def GenesisError.message : GenesisError → String
  | parse fault => "genesis parse error: " ++ fault.message
  | store error => "genesis store error: " ++ error.message

namespace Genesis

/-- The entries that local networks start with. -/
def sample : Genesis := ⟨[⟨"hello", "goodbye"⟩, ⟨"foo", "bar"⟩]⟩

def size (g : Genesis) : Nat := g.entries.length

def isEmpty (g : Genesis) : Bool := g.entries.isEmpty

variable {σ : Type} [KeyValueStore σ]

/-- Writes entries into a partition, up to the first that is refused. -/
def writeAll (storeKey : String) : List GenesisEntry → σ → Except StoreError Unit × σ
  | [], store => (.ok (), store)
  | entry :: entries, store =>
    match Partition.set storeKey store (Utf8.encode entry.key) (Utf8.encode entry.value) with
    | (.ok (), store) => writeAll storeKey entries store
    -- what was written before stays written
    | (.error error, store) => (.error error, store)

def apply (g : Genesis) (storeKey : String) (store : σ) : Except GenesisError Unit × σ :=
  match writeAll storeKey g.entries store with
  | (.ok (), store) => (.ok (), store)
  | (.error error, store) => (.error (.store error), store)

end Genesis

end ReplicatedKv
