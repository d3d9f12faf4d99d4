import ReplicatedKv.Genesis
import ReplicatedKv.Json.Quoted
import ReplicatedKv.Json.Record

/-! # Genesis documents

A genesis document is a record with one field, the list of entries; an entry is a record of two
strings.  Unknown members are ignored, and a document without any content is an empty genesis.

* `Genesis.ofDocument` — reads a document.
* `Genesis.toDocument` — writes the compact document of a genesis.
* `Genesis.initChain` — reads a document and writes its entries into a partition.
-/

namespace ReplicatedKv

open Json

namespace GenesisEntry

def form : Form String 2 where
  title := "struct GenesisEntry"
  fields := #v[⟨"key", none⟩, ⟨"value", none⟩]

def reader : Reader GenesisEntry :=
  (Reader.record form .text).map fun fields => ⟨fields[0], fields[1]⟩

def toDocument (e : GenesisEntry) : String :=
  "\x7b\"key\":" ++ quoted e.key ++ ",\"value\":" ++ quoted e.value ++ "\x7d"

end GenesisEntry

namespace Genesis

/-- A genesis has a list of entries, which may be left out. -/
def form : Form (List GenesisEntry) 1 where
  title := "struct GenesisState"
  fields := #v[⟨"values", some []⟩]

def reader : Reader Genesis :=
  (Reader.record form (.list GenesisEntry.reader)).map fun fields => ⟨fields[0]⟩

/-- Whether a byte leaves a document without content: the blanks, and the form feed. -/
def isVoid (b : UInt8) : Bool := isBlank b || b == 0x0c

def ofDocument (document : Bytes) : Except Fault Genesis :=
  if document.all isVoid then .ok {} else reader.document document

def toDocument (g : Genesis) : String :=
  "\x7b\"values\":[" ++ ",".intercalate (g.entries.map GenesisEntry.toDocument) ++ "]\x7d"

/-- Reads a document and writes its entries into a partition; the number of entries.  A malformed
    document writes nothing. -/
def initChain {σ : Type} [KeyValueStore σ] (storeKey : String) (document : Bytes) (store : σ) :
    Except GenesisError Nat × σ :=
  match ofDocument document with
  | .error fault => (.error (.parse fault), store)
  | .ok genesis =>
    match genesis.apply storeKey store with
    | (.error error, store) => (.error error, store)
    | (.ok (), store) => (.ok genesis.size, store)

end Genesis

end ReplicatedKv
