import ReplicatedKv.Application

/-! # Calls

The entry points of an application as one step function, so that a run is a list of calls.
-/

namespace ReplicatedKv

/-- A call to an application. -/
inductive Call where
  | initChain (document : Bytes)
  | finalizeBlock (txs : List Bytes)
  | commit
  | checkTransaction (raw : Bytes)
  | query (key : Bytes)
  | stateGet (key : Bytes)
  | info

/-- What a call returns. -/
inductive Answer where
  | seeded (result : Except AppError Unit)
  | block (result : Except AppError BlockReceipt)
  | committed (result : Except AppError CommitInfo)
  | checked (receipt : Receipt)
  | value (result : Except AppError (Option Bytes))
  | info (info : AppInfo)

namespace Answer

/-- The call failed. -/
inductive Failed : Answer → Prop where
  | seeded (error : AppError) : Failed (seeded (.error error))
  | block (error : AppError) : Failed (block (.error error))
  | committed (error : AppError) : Failed (committed (.error error))
  | value (error : AppError) : Failed (value (.error error))

end Answer

theorem Config.validate_default : ({} : Config).validate = .ok () := rfl

namespace Application

variable {σ : Type} [VersionedStore σ] {app : Application σ}

/-! ## Starting -/

theorem start_of_valid {config : Config} (valid : config.validate = .ok ()) (store : σ) :
    start config store = .ok { config, valid, store, phase :=
      if (VersionedStore.lastCommit store).version > 0 then .ready else .uninitialized } := by
  rw [start]
  split
  · next error invalid =>
    rw [valid] at invalid
    nomatch invalid
  · rfl

/-! ## Calls in the wrong phase -/

theorem initChain_of_ready (ready : app.phase = .ready) (document : Bytes) :
    app.initChain document = (.error .alreadyInitialized, app) := by
  simp only [initChain, ready]

theorem finalizeBlock_of_uninitialized (uninitialized : app.phase = .uninitialized)
    (txs : List Bytes) : app.finalizeBlock txs = (.error .notInitialized, app) := by
  simp only [finalizeBlock, uninitialized]

theorem commit_of_uninitialized (uninitialized : app.phase = .uninitialized) :
    app.commit = (.error .notInitialized, app) := by
  simp only [commit, uninitialized]

/-! ## Blocks -/

theorem finalizeBlock_of_ready (ready : app.phase = .ready) (txs : List Bytes) :
    app.finalizeBlock txs =
      (.ok (app.config.executor.runBlock txs app.store).1,
        { app with store := (app.config.executor.runBlock txs app.store).2 }) := by
  simp only [finalizeBlock, ready]

/-! ## Runs -/

/-- Makes a call. -/
def call (app : Application σ) : Call → Answer × Application σ
  | .initChain document =>
    let seeding := app.initChain document
    (.seeded seeding.1, seeding.2)
  | .finalizeBlock txs =>
    let execution := app.finalizeBlock txs
    (.block execution.1, execution.2)
  | .commit =>
    let commit := app.commit
    (.committed commit.1, commit.2)
  | .checkTransaction raw => (.checked (app.checkTransaction raw), app)
  | .query key => (.value (app.query key), app)
  | .stateGet key => (.value (app.stateGet key), app)
  | .info => (.info app.info, app)

/-- Makes calls one after the other. -/
def run (app : Application σ) : List Call → List Answer × Application σ
  | [] => ([], app)
  | call :: calls =>
    let first := app.call call
    let others := first.2.run calls
    (first.1 :: others.1, others.2)

theorem config_initChain (app : Application σ) (document : Bytes) :
    (app.initChain document).2.config = app.config := by
  rw [initChain]
  split
  · rfl
  · split <;> rfl

theorem config_finalizeBlock (app : Application σ) (txs : List Bytes) :
    (app.finalizeBlock txs).2.config = app.config := by
  rw [finalizeBlock]
  split <;> rfl

theorem config_commit (app : Application σ) : app.commit.2.config = app.config := by
  rw [commit]
  split
  · rfl
  · split <;> rfl

/-- No call changes the configuration. -/
theorem config_call (app : Application σ) (c : Call) : (app.call c).2.config = app.config := by
  cases c with
  | initChain document => exact config_initChain app document
  | finalizeBlock txs => exact config_finalizeBlock app txs
  | commit => exact config_commit app
  | checkTransaction | query | stateGet | info => rfl

theorem config_run (app : Application σ) (calls : List Call) :
    (app.run calls).2.config = app.config := by
  induction calls generalizing app with
  | nil => rfl
  | cons c calls ih => exact (ih (app.call c).2).trans (config_call app c)

end Application

end ReplicatedKv
