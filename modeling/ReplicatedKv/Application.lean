import ReplicatedKv.Config
import ReplicatedKv.Genesis.Document

/-! # The application

The state machine that a consensus layer drives over a store: seeded once, then one block after the
other, each followed by a commit.

```text
uninitialized --initChain--> ready --finalizeBlock, commit--> ready
```

Every entry point that may change the application returns the application that it leaves, also
where it fails.
-/

namespace ReplicatedKv

/-- How far the life of an application has come. -/
inductive Phase where
  | uninitialized
  | ready
  deriving DecidableEq

/-- Why an application refused a call. -/
inductive AppError where
  | invalidConfig (error : ConfigError)
  | alreadyInitialized
  | notInitialized
  | genesis (error : GenesisError)
  /-- The store refused a call outside of transactions. -/
  | store (error : StoreError)
  deriving DecidableEq

namespace AppError

/-- The wording for a configuration that is not usable, given what is wrong with it. -/
def invalidConfigMessage (detail : String) : String := "invalid config: " ++ detail

/-- The wording of the error.  A failed genesis speaks for itself. -/
def message : AppError → String
  | invalidConfig error => invalidConfigMessage error.message
  | alreadyInitialized => "chain already initialized"
  | notInitialized => "chain not initialized"
  | genesis error => error.message
  | store error => "store error: " ++ error.message

end AppError

/-- An application over a store.  Its configuration is usable. -/
structure Application (σ : Type) where
  config : Config
  valid : config.validate = .ok ()
  store : σ
  phase : Phase

/-- What an application reports about itself and its last commit. -/
structure AppInfo where
  name : String
  height : UInt64
  appHash : Digest
  deriving DecidableEq

namespace Application

variable {σ : Type} [VersionedStore σ]

/-- The application over a store.  A store with a committed version has been seeded before. -/
def start (config : Config) (store : σ) : Except AppError (Application σ) :=
  match valid : config.validate with
  | .error error => .error (.invalidConfig error)
  | .ok () =>
    let phase := if (VersionedStore.lastCommit store).version > 0 then .ready else .uninitialized
    .ok { config, valid, store, phase }

/-- Another application over the same store, whatever it holds. -/
def restart (app : Application σ) (config : Config) : Except AppError (Application σ) :=
  start config app.store

/-- Seeds the partition from a genesis document.  Where that fails, its writes are discarded and
    the application stays uninitialized. -/
def initChain (app : Application σ) (document : Bytes) : Except AppError Unit × Application σ :=
  match app.phase with
  | .ready => (.error .alreadyInitialized, app)
  | .uninitialized =>
    match Genesis.initChain app.config.storeKey document app.store with
    | (.ok _, store) => (.ok (), { app with store, phase := .ready })
    -- entries may have been written before the one that failed
    | (.error error, store) =>
      (.error (.genesis error), { app with store := VersionedStore.discard store })

def finalizeBlock (app : Application σ) (txs : List Bytes) :
    Except AppError BlockReceipt × Application σ :=
  match app.phase with
  | .uninitialized => (.error .notInitialized, app)
  | .ready =>
    match app.config.executor.runBlock txs app.store with
    | (block, store) => (.ok block, { app with store })

/-- Whether a transaction may enter a block: it has to decode, and no state is looked at. -/
def checkTransaction (app : Application σ) (raw : Bytes) : Receipt :=
  match Write.decode raw with
  | .ok _ => {}
  | .error error => Executor.undecodedReceipt app.config.codespace error

/-- Makes the writes since the last commit a new version of the store. -/
def commit (app : Application σ) : Except AppError CommitInfo × Application σ :=
  match app.phase with
  | .uninitialized => (.error .notInitialized, app)
  | .ready =>
    match VersionedStore.commit app.store with
    | (.ok info, store) => (.ok info, { app with store })
    -- nothing is discarded: the writes may be part of the next commit
    | (.error error, store) => (.error (.store error), { app with store })

/-- The committed value of a key of the partition. -/
def query (app : Application σ) (key : Bytes) : Except AppError (Option Bytes) :=
  let full := Partition.fullKey app.config.storeKey key
  (VersionedStore.committedGet app.store full).mapError .store

/-- The value of a key of the partition, with writes that are not committed yet. -/
def stateGet (app : Application σ) (key : Bytes) : Except AppError (Option Bytes) :=
  (Partition.get app.config.storeKey app.store key).mapError .store

def info (app : Application σ) : AppInfo :=
  let last := VersionedStore.lastCommit app.store
  ⟨app.config.appName, last.version, last.appHash⟩

end Application

end ReplicatedKv
