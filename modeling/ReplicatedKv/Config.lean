import ReplicatedKv.Execution
import ReplicatedKv.Json.Record

/-! # Configuration

What an application is told when it starts, and what makes it usable.

* `Config.validate` — the first rule that a configuration breaks, if any.
* `Config.ofDocument` — reads a configuration document, in which every field may be left out and
  no other member may occur.
-/

namespace ReplicatedKv

/-- The configuration of an application. -/
structure Config where
  appName : String := "kvstore"
  storeKey : String := "main"
  codespace : String := "kvstore"
  deriving DecidableEq

/-- A rule that a configuration breaks. -/
inductive ConfigError where
  | emptyStoreKey
  /-- A separator in the name would let two partitions share keys. -/
  | separatorInStoreKey
  | emptyCodespace
  deriving DecidableEq

def ConfigError.message : ConfigError → String
  | emptyStoreKey => "store_key must be non-empty"
  | separatorInStoreKey => "store_key must not contain '/'"
  | emptyCodespace => "codespace must be non-empty"

namespace Config

def validate (c : Config) : Except ConfigError Unit :=
  if c.storeKey = "" then .error .emptyStoreKey
  else if '/' ∈ c.storeKey.toList then .error .separatorInStoreKey
  else if c.codespace = "" then .error .emptyCodespace
  else .ok ()

def executor (c : Config) : Executor := ⟨c.storeKey, c.codespace⟩

def form : Json.Form String 3 where
  title := "struct AppConfig"
  fields :=
    let c : Config := {}
    #v[⟨"app_name", some c.appName⟩,
       ⟨"store_key", some c.storeKey⟩,
       ⟨"codespace", some c.codespace⟩]
  isClosed := true

def reader : Json.Reader Config :=
  (Json.Reader.record form .text).map fun fields => ⟨fields[0], fields[1], fields[2]⟩

def ofDocument (document : Bytes) : Except Json.Fault Config := reader.document document

end Config

end ReplicatedKv
