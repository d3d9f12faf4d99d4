import Mathlib.Data.List.Induction
import ReplicatedKv.Proofs.Application.Durability

/-! # Lifecycle

An application may be restarted at any time: it is given up, and another one with its configuration
is constructed over its store.  What the old one knew about its phase is lost by that; what the
store has committed is not.

* `LifeStep`, `Application.live` — a life: calls and restarts, one after the other.
* `Application.phase_call`, `Application.version_call` — what a call makes of phase and version.
* `Application.Coherent` — what every step keeps: an application that has committed is ready.
* `Application.Lifecycle` — what holds at a point of a life.
* `Application.live_lifecycle` — it holds at every point of every life.
-/

namespace ReplicatedKv

/-! ## Lives -/

/-- A step in the life of an application: a call, or a restart with the same configuration. -/
inductive LifeStep where
  | call (c : Call)
  | restart

/-- What a step returns. -/
inductive LifeAnswer where
  | call (answer : Answer)
  | restart (result : Except AppError Unit)

/-- The call came in the wrong phase. -/
def Answer.OutOfPhase : Answer → Prop
  | .seeded result => result = .error .alreadyInitialized
  | .block result => result = .error .notInitialized
  | .committed result => result = .error .notInitialized
  | .checked _ | .value _ | .info _ => False

namespace Application

variable {σ : Type} [VersionedStore σ] {P : σ → Prop} {memory : σ → MemStore}
variable {app : Application σ}

/-- Makes a step.  A configuration that is refused leaves the application as it is. -/
def perform (app : Application σ) : LifeStep → LifeAnswer × Application σ
  | .call c =>
    let made := app.call c
    (.call made.1, made.2)
  | .restart =>
    match app.restart app.config with
    | .ok next => (.restart (.ok ()), next)
    | .error error => (.restart (.error error), app)

/-- Makes steps one after the other. -/
def live (app : Application σ) : List LifeStep → List LifeAnswer × Application σ
  | [] => ([], app)
  | step :: steps =>
    let first := app.perform step
    let others := first.2.live steps
    (first.1 :: others.1, others.2)

/-- The last version that the store has committed. -/
def version (app : Application σ) : UInt64 := (VersionedStore.lastCommit app.store).version

theorem live_append (app : Application σ) (steps later : List LifeStep) :
    app.live (steps ++ later) =
      ((app.live steps).1 ++ ((app.live steps).2.live later).1,
        ((app.live steps).2.live later).2) := by
  induction steps generalizing app with
  | nil => rfl
  | cons step steps ih =>
    rw [List.cons_append, live, ih]
    rfl

/-! ## One restart -/

/-- The application as it is constructed over its store. -/
def resumed (app : Application σ) : Application σ :=
  { app with phase := if app.version > 0 then .ready else .uninitialized }

theorem restart_config (app : Application σ) : app.restart app.config = .ok app.resumed :=
  start_of_valid app.valid app.store

theorem perform_restart (app : Application σ) :
    app.perform .restart = (.restart (.ok ()), app.resumed) := by
  rw [perform, restart_config]

theorem phase_resumed (app : Application σ) : app.resumed.phase = .ready ↔ 0 < app.version := by
  rw [resumed]
  by_cases committed : app.version > 0
  · exact iff_of_true (if_pos committed) committed
  · simp only [if_neg committed, reduceCtorEq, false_iff]
    exact committed

/-- Nothing is lost by a restart where a ready application has committed a version. -/
theorem resumed_eq_self (ready : app.phase = .ready) (committed : 0 < app.version) :
    app.resumed = app := by
  rw [resumed, if_pos committed, ← ready]

/-! ## One call -/

theorem finalizeBlock_notInitialized_iff (txs : List Bytes) :
    (app.finalizeBlock txs).1 = .error .notInitialized ↔ app.phase = .uninitialized := by
  cases phase : app.phase with
  | uninitialized => simp only [finalizeBlock_of_uninitialized phase]
  | ready => simp only [finalizeBlock_of_ready phase, reduceCtorEq]

theorem commit_notInitialized_iff :
    app.commit.1 = .error .notInitialized ↔ app.phase = .uninitialized := by
  cases phase : app.phase with
  | uninitialized => simp only [commit_of_uninitialized phase]
  | ready =>
    simp only [commit, phase]
    split <;> simp

theorem initChain_alreadyInitialized_iff (document : Bytes) :
    (app.initChain document).1 = .error .alreadyInitialized ↔ app.phase = .ready := by
  cases phase : app.phase with
  | ready => simp only [initChain_of_ready phase]
  | uninitialized =>
    simp only [initChain, phase]
    split <;> simp

/-- A call that comes in the wrong phase leaves the application, and so the store, as it is. -/
theorem call_of_outOfPhase (c : Call) (rejected : (app.call c).1.OutOfPhase) :
    (app.call c).2 = app := by
  cases c with
  | initChain document =>
    have ready := (initChain_alreadyInitialized_iff document).mp rejected
    simp only [call, initChain_of_ready ready]
  | finalizeBlock txs =>
    have uninitialized := (finalizeBlock_notInitialized_iff txs).mp rejected
    simp only [call, finalizeBlock_of_uninitialized uninitialized]
  | commit =>
    have uninitialized := commit_notInitialized_iff.mp rejected
    simp only [call, commit_of_uninitialized uninitialized]
  | checkTransaction | query | stateGet | info => rfl

/-- An application gets ready by a successful genesis, and stays ready. -/
theorem phase_call (app : Application σ) (c : Call) :
    (app.call c).2.phase = .ready ↔ app.phase = .ready ∨ (app.call c).1 = .seeded (.ok ()) := by
  cases c with
  | initChain document =>
    cases phase : app.phase with
    | ready => simp [call, initChain_of_ready phase, phase]
    | uninitialized =>
      simp only [call, initChain, phase]
      split <;> simp
  | finalizeBlock txs =>
    cases phase : app.phase with
    | uninitialized => simp [call, finalizeBlock_of_uninitialized phase, phase]
    | ready => simp [call, finalizeBlock_of_ready phase, phase]
  | commit =>
    cases phase : app.phase with
    | uninitialized => simp [call, commit_of_uninitialized phase, phase]
    | ready =>
      simp only [call, commit, phase]
      split <;> simp
  | checkTransaction | query | stateGet | info => simp [call]

theorem ready_of_commit_eq_ok {info : CommitInfo} (committed : app.commit.1 = .ok info) :
    app.phase = .ready := by
  cases phase : app.phase with
  | ready => rfl
  | uninitialized =>
    rw [commit_of_uninitialized phase] at committed
    nomatch committed

/-- Only a commit answers that a version is committed. -/
theorem eq_commit_of_committed {c : Call} {result : Except AppError CommitInfo}
    (answer : (app.call c).1 = .committed result) : c = .commit ∧ app.commit.1 = result := by
  cases c with
  | commit => exact ⟨rfl, Answer.committed.inj answer⟩
  | initChain | finalizeBlock | checkTransaction | query | stateGet | info => nomatch answer

theorem version_eq (lawful : CommitsToMemory P memory) (inside : P app.store) :
    app.version = (memory app.store).lastCommit.version := by
  rw [version, lawful.lastCommit _ inside]

/-- Nothing but a successful commit makes a version, and that version is not zero. -/
theorem version_call (lawful : CommitsToMemory P memory) (inside : P app.store) (c : Call) :
    0 < (app.call c).2.version ↔
      0 < app.version ∨ ∃ info, (app.call c).1 = .committed (.ok info) := by
  have follows : FollowsLedger P memory _ app := .ofMemory app inside
  have recorded := follows.call lawful c
  rw [version_eq lawful recorded.inside, recorded.version]
  by_cases committed : ∃ info, (app.call c).1 = .committed (.ok info)
  · obtain ⟨info, answer⟩ := committed
    obtain ⟨rfl, made⟩ := eq_commit_of_committed answer
    obtain ⟨next, -⟩ := (follows.commitsLedger lawful).committed info _ (Prod.ext made rfl)
    have positive : 0 < info.version.toNat := by
      have size : 1 < UInt64.size := by decide
      omega
    rw [answer]
    exact iff_of_true positive (.inr ⟨info, rfl⟩)
  · rw [Ledger.version_record _ _ _ (not_exists.mp committed), or_iff_left committed,
      version_eq lawful inside]
    rfl

/-! ## Every step -/

/-- What every step keeps.  A version is committed by a ready application only, so a restart finds
    an application that has committed ready again. -/
structure Coherent (P : σ → Prop) (config : Config) (app : Application σ) : Prop where
  inside : P app.store
  sameConfig : app.config = config
  ready_of_committed : 0 < app.version → app.phase = .ready

variable {config : Config}

theorem Coherent.resumed (coherent : Coherent P config app) : Coherent P config app.resumed :=
  ⟨coherent.inside, coherent.sameConfig, (phase_resumed app).mpr⟩

theorem Coherent.call (lawful : CommitsToMemory P memory) (coherent : Coherent P config app)
    (c : Call) : Coherent P config (app.call c).2 where
  inside := ((FollowsLedger.ofMemory app coherent.inside).call lawful c).inside
  sameConfig := (config_call app c).trans coherent.sameConfig
  ready_of_committed := by
    intro committed
    rw [phase_call]
    obtain before | ⟨info, answer⟩ := (version_call lawful coherent.inside c).mp committed
    · exact .inl (coherent.ready_of_committed before)
    · exact .inl (ready_of_commit_eq_ok (eq_commit_of_committed answer).2)

theorem Coherent.perform (lawful : CommitsToMemory P memory) (coherent : Coherent P config app)
    (step : LifeStep) : Coherent P config (app.perform step).2 := by
  cases step with
  | call c => exact coherent.call lawful c
  | restart =>
    rw [perform_restart]
    exact coherent.resumed

theorem Coherent.live (lawful : CommitsToMemory P memory) (coherent : Coherent P config app)
    (steps : List LifeStep) : Coherent P config (app.live steps).2 := by
  induction steps generalizing app with
  | nil => exact coherent
  | cons step steps ih => exact ih (coherent.perform lawful step)

theorem version_perform (lawful : CommitsToMemory P memory) (inside : P app.store)
    (step : LifeStep) :
    0 < (app.perform step).2.version ↔
      0 < app.version ∨ ∃ info, (app.perform step).1 = .call (.committed (.ok info)) := by
  cases step with
  | call c => simpa only [perform, LifeAnswer.call.injEq] using version_call lawful inside c
  | restart =>
    rw [perform_restart]
    simp only [reduceCtorEq, exists_false, or_false]
    rfl

theorem version_live (lawful : CommitsToMemory P memory) (coherent : Coherent P config app)
    (steps : List LifeStep) :
    0 < (app.live steps).2.version ↔
      0 < app.version ∨ ∃ info, .call (.committed (.ok info)) ∈ (app.live steps).1 := by
  induction steps generalizing app with
  | nil => simp only [live, List.not_mem_nil, exists_false, or_false]
  | cons step steps ih =>
    simp only [live, ih (coherent.perform lawful step), version_perform lawful coherent.inside,
      List.mem_cons, exists_or, or_assoc, eq_comm (a := LifeAnswer.call _)]

/-! ## Since the last construction -/

/-- The steps of a life since the application was constructed for the last time. -/
structure SinceConstruction (steps earlier later : List LifeStep) : Prop where
  split : steps = earlier ++ later
  constructed : earlier = [] ∨ ∃ before, earlier = before ++ [.restart]
  callsOnly : .restart ∉ later

theorem exists_sinceConstruction (steps : List LifeStep) :
    ∃ earlier later, SinceConstruction steps earlier later := by
  induction steps using List.reverseRecOn with
  | nil => exact ⟨[], [], rfl, .inl rfl, List.not_mem_nil⟩
  | append_singleton steps step ih =>
    cases step with
    | restart =>
      exact ⟨steps ++ [.restart], [], (List.append_nil _).symm, .inr ⟨steps, rfl⟩,
        List.not_mem_nil⟩
    | call c =>
      obtain ⟨earlier, later, rfl, constructed, callsOnly⟩ := ih
      refine ⟨earlier, later ++ [.call c], List.append_assoc _ _ _, constructed, ?_⟩
      simp only [List.mem_append, callsOnly, List.mem_singleton, reduceCtorEq, or_self,
        not_false_eq_true]

/-- A constructed application is ready where its store has committed a version. -/
theorem phase_live_constructed {first : Application σ}
    (fresh : first.phase = .ready ↔ 0 < first.version) {earlier : List LifeStep}
    (constructed : earlier = [] ∨ ∃ before, earlier = before ++ [.restart]) :
    (first.live earlier).2.phase = .ready ↔ 0 < (first.live earlier).2.version := by
  obtain rfl | ⟨before, rfl⟩ := constructed
  · exact fresh
  · rw [live_append]
    simp only [live, perform_restart]
    exact phase_resumed _

theorem phase_live_callsOnly {later : List LifeStep} (callsOnly : .restart ∉ later) :
    (app.live later).2.phase = .ready ↔
      app.phase = .ready ∨ .call (.seeded (.ok ())) ∈ (app.live later).1 := by
  induction later generalizing app with
  | nil => simp only [live, List.not_mem_nil, or_false]
  | cons step later ih =>
    obtain ⟨notNow, notLater⟩ := not_or.mp (mt List.mem_cons.mpr callsOnly)
    cases step with
    | restart => exact absurd rfl notNow
    | call c =>
      simp only [live, perform, ih notLater, phase_call, List.mem_cons, LifeAnswer.call.injEq,
        or_assoc, eq_comm (a := Answer.seeded (.ok ()))]

/-! ## The lifecycle -/

/-- A point in the life of an application, which was `first` when it started. -/
structure Lifecycle (first : Application σ) (steps : List LifeStep) (app : Application σ) : Prop
    where
  sameConfig : app.config = first.config
  ready_of_committed : 0 < app.version → app.phase = .ready
  /-- It is ready where it has been seeded, or had a version, since it was constructed. -/
  ready_iff : ∃ earlier later, SinceConstruction steps earlier later ∧
    (app.phase = .ready ↔
      .call (.seeded (.ok ())) ∈ ((first.live earlier).2.live later).1 ∨
        0 < (first.live earlier).2.version)
  finalizeBlock_iff (txs : List Bytes) :
    (app.finalizeBlock txs).1 = .error .notInitialized ↔ app.phase = .uninitialized
  commit_iff : app.commit.1 = .error .notInitialized ↔ app.phase = .uninitialized
  initChain_iff (document : Bytes) :
    (app.initChain document).1 = .error .alreadyInitialized ↔ app.phase = .ready
  untouched (c : Call) : (app.call c).1.OutOfPhase → (app.call c).2 = app
  committed_iff : 0 < app.version ↔
    0 < first.version ∨ ∃ info, .call (.committed (.ok info)) ∈ (first.live steps).1
  /-- Genesis is over once a version is committed: it neither writes nor discards. -/
  genesisOver (document : Bytes) : 0 < app.version →
    app.initChain document = (.error .alreadyInitialized, app)
  /-- A restart right after a successful commit makes no difference to the rest of the life. -/
  restarted (info : CommitInfo) (later : List LifeStep) : app.commit.1 = .ok info →
    ∃ answers last,
      first.live (steps ++ .call .commit :: later) =
        ((first.live steps).1 ++ .call (.committed (.ok info)) :: answers, last) ∧
      first.live (steps ++ .call .commit :: .restart :: later) =
        ((first.live steps).1 ++ .call (.committed (.ok info)) :: .restart (.ok ()) :: answers,
          last)

/-- After a successful commit a restart gives the same application again. -/
theorem live_commit_restart (lawful : CommitsToMemory P memory) (inside : P app.store)
    {info : CommitInfo} (committed : app.commit.1 = .ok info) (later : List LifeStep) :
    ∃ answers last,
      app.live (.call .commit :: later) = (.call (.committed (.ok info)) :: answers, last) ∧
      app.live (.call .commit :: .restart :: later) =
        (.call (.committed (.ok info)) :: .restart (.ok ()) :: answers, last) := by
  have answer : (app.call .commit).1 = .committed (.ok info) := congrArg Answer.committed committed
  have ready : (app.call .commit).2.phase = .ready :=
    (phase_call app .commit).mpr (.inl (ready_of_commit_eq_ok committed))
  have positive : 0 < (app.call .commit).2.version :=
    (version_call lawful inside .commit).mpr (.inr ⟨info, answer⟩)
  refine ⟨((app.call .commit).2.live later).1, ((app.call .commit).2.live later).2, ?_, ?_⟩
  · rw [live, perform, answer]
  · rw [live, live, perform, answer, perform_restart, resumed_eq_self ready positive]

theorem Lifecycle.of_coherent (lawful : CommitsToMemory P memory) {first : Application σ}
    (fresh : first.phase = .ready ↔ 0 < first.version) (coherent : Coherent P first.config first)
    (steps : List LifeStep) : Lifecycle first steps (first.live steps).2 where
  sameConfig := (coherent.live lawful steps).sameConfig
  ready_of_committed := (coherent.live lawful steps).ready_of_committed
  ready_iff := by
    obtain ⟨earlier, later, since⟩ := exists_sinceConstruction steps
    refine ⟨earlier, later, since, ?_⟩
    rw [since.split, live_append, phase_live_callsOnly since.callsOnly,
      phase_live_constructed fresh since.constructed, or_comm]
  finalizeBlock_iff := finalizeBlock_notInitialized_iff
  commit_iff := commit_notInitialized_iff
  initChain_iff := initChain_alreadyInitialized_iff
  untouched := call_of_outOfPhase
  committed_iff := version_live lawful coherent steps
  genesisOver document committed :=
    initChain_of_ready ((coherent.live lawful steps).ready_of_committed committed) document
  restarted := by
    intro info later committed
    obtain ⟨answers, last, without, within⟩ :=
      live_commit_restart lawful (coherent.live lawful steps).inside committed later
    exact ⟨answers, last, by rw [live_append, without], by rw [live_append, within]⟩

/-- Every life keeps to the lifecycle, whatever writes its store refuses and whatever commits fail
    in it. -/
theorem live_lifecycle (lawful : CommitsToMemory P memory) (config : Config)
    (valid : config.validate = .ok ()) (store : σ) (inside : P store) :
    ∃ first, start config store = .ok first ∧
      ∀ steps, Lifecycle first steps (first.live steps).2 := by
  refine ⟨_, start_of_valid valid store, ?_⟩
  have fresh := phase_resumed ⟨config, valid, store, .ready⟩
  exact .of_coherent lawful fresh ⟨inside, rfl, fresh.mpr⟩

def flakyDocument : Bytes := Utf8.encode (Genesis.mk [⟨"a", "0"⟩]).toDocument

/-- The first commit comes too early, the next two fail.  Between these two the application is
    restarted, which has it seeded again; after the commit that succeeds it is not. -/
def flakyLife : List LifeStep :=
  [.call .commit, .call (.initChain flakyDocument), .call .commit, .restart,
    .call (.initChain flakyDocument), .call .commit, .call .commit, .restart,
    .call (.initChain flakyDocument)]

theorem live_lifecycle_flakyLife :
    (CommitsToMemory (fun store : FaultyStore MemStore => True ∧ store.plan.unreadableKeys = [])
        (fun store => store.inner) ∧
      ({} : Config).validate = .ok () ∧ (True ∧ flakyStore.plan.unreadableKeys = [])) ∧
      start {} flakyStore = .ok flakyApp ∧
      (flakyApp.live (flakyLife.take 3)).2.phase = .ready ∧
      (flakyApp.live (flakyLife.take 4)).2.phase = .uninitialized ∧
      (flakyApp.live flakyLife).2.phase = .ready ∧ (flakyApp.live flakyLife).2.version = 1 ∧
      Lifecycle flakyApp flakyLife (flakyApp.live flakyLife).2 := by
  have lawful := FaultyStore.commitsToMemory MemStore.commitsToMemory
  have valid : ({} : Config).validate = .ok () := Config.validate_default
  have inside : True ∧ flakyStore.plan.unreadableKeys = [] := ⟨trivial, rfl⟩
  have started : start {} flakyStore = .ok flakyApp := start_of_valid valid flakyStore
  obtain ⟨first, same, lifecycle⟩ := live_lifecycle lawful {} valid flakyStore inside
  obtain rfl := Except.ok.inj (started.symm.trans same)
  exact ⟨⟨lawful, valid, inside⟩, started, by decide +kernel, by decide +kernel, by decide +kernel,
    by decide +kernel, lifecycle flakyLife⟩

end Application

end ReplicatedKv
