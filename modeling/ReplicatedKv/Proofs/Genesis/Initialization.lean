import Mathlib.Control.Monad.Basic
import ReplicatedKv.Genesis.Document
import ReplicatedKv.Proofs.Execution.Block
import ReplicatedKv.Proofs.Execution.Memory

/-! # Initialization

A genesis document is read to its end before its first entry is written.  What a store is then asked
for is a first part of the document: all of it, or up to the first entry that the store refuses.

* `RecordingStore` — a store that keeps account of what it is asked for.
* `Genesis.Written`, `Genesis.Seeding` — entries that are all acknowledged, and the three ways in
  which an initialization ends.
* `Genesis.InDocumentOrder`, `Genesis.initChain_inDocumentOrder` — what an initialization asks of a
  store, and what it leaves there.
-/

namespace ReplicatedKv

variable {σ : Type} [KeyValueStore σ]

/-! ## Stores that keep account -/

/-- A store with an account of the writes that it was asked for, refused ones included.  Reads do
    not reach the store inside: each has an answer of its own. -/
structure RecordingStore (σ : Type) where
  inner : σ
  asked : List Write
  answer : Bytes → Except StoreError (Option Bytes)

instance : KeyValueStore (RecordingStore σ) where
  get store key := store.answer key
  set store key value :=
    let made := KeyValueStore.set store.inner key value
    (made.1, ⟨made.2, store.asked ++ [⟨key, value⟩], store.answer⟩)

theorem RecordingStore.set_eq {store after : σ} {key value : Bytes}
    {result : Except StoreError Unit}
    (set : KeyValueStore.set store key value = (result, after)) (asked : List Write)
    (answer : Bytes → Except StoreError (Option Bytes)) :
    KeyValueStore.set (RecordingStore.mk store asked answer) key value =
      (result, ⟨after, asked ++ [⟨key, value⟩], answer⟩) := by
  show (Prod.fst _, RecordingStore.mk (Prod.snd _) _ _) = _
  rw [set]

namespace Genesis

variable {storeKey : String} {store before after : σ} {made later : List GenesisEntry}

/-! ## Entries in order -/

/-- The entries are written to a partition one after the other, and each write is acknowledged. -/
inductive Written (storeKey : String) : σ → List GenesisEntry → σ → Prop where
  | nil {store : σ} : Written storeKey store [] store
  | cons {store next after : σ} {e : GenesisEntry} {entries : List GenesisEntry} :
      Partition.set storeKey store e.write.key e.write.value = (.ok (), next) →
        Written storeKey next entries after → Written storeKey store (e :: entries) after

theorem written_or_refused (storeKey : String) (entries : List GenesisEntry) (store : σ) :
    (∃ after, Written storeKey store entries after) ∨
      ∃ made e later before error after, entries = made ++ e :: later ∧
        Written storeKey store made before ∧
        Partition.set storeKey before e.write.key e.write.value = (.error error, after) := by
  induction entries generalizing store with
  | nil => exact .inl ⟨store, .nil⟩
  | cons e entries ih =>
    cases set : Partition.set storeKey store e.write.key e.write.value with
    | mk answer next =>
      cases answer with
      | error error => exact .inr ⟨[], e, entries, store, error, next, rfl, .nil, set⟩
      | ok done =>
        obtain ⟨after, written⟩ | ⟨made, refused, later, before, error, after, split, written, last⟩
          := ih next
        · exact .inl ⟨after, .cons set written⟩
        · refine .inr ⟨e :: made, refused, later, before, error, after, ?_, .cons set written, last⟩
          rw [split, List.cons_append]

theorem writeAll_cons_ok {e : GenesisEntry} {next : σ}
    (set : Partition.set storeKey store e.write.key e.write.value = (.ok (), next))
    (entries : List GenesisEntry) :
    writeAll storeKey (e :: entries) store = writeAll storeKey entries next := by
  have answer : Partition.set storeKey store (Utf8.encode e.key) (Utf8.encode e.value) = _ := set
  simp only [writeAll, answer]

theorem writeAll_cons_error {e : GenesisEntry} {error : StoreError}
    (set : Partition.set storeKey store e.write.key e.write.value = (.error error, after))
    (entries : List GenesisEntry) :
    writeAll storeKey (e :: entries) store = (.error error, after) := by
  have answer : Partition.set storeKey store (Utf8.encode e.key) (Utf8.encode e.value) = _ := set
  simp only [writeAll, answer]

theorem Written.writeAll_append (written : Written storeKey store made before)
    (later : List GenesisEntry) :
    writeAll storeKey (made ++ later) store = writeAll storeKey later before := by
  induction written with
  | nil => rfl
  | cons set _ ih => rw [List.cons_append, writeAll_cons_ok set, ih]

/-- The write that the store behind the partition is asked for. -/
def fullWrite (storeKey : String) (e : GenesisEntry) : Write := e.write.inPartition storeKey

theorem Written.recording (written : Written storeKey store made after) (asked : List Write)
    (answer : Bytes → Except StoreError (Option Bytes)) :
    Written storeKey (RecordingStore.mk store asked answer) made
      ⟨after, asked ++ made.map (fullWrite storeKey), answer⟩ := by
  induction written generalizing asked with
  | nil =>
    rw [List.map_nil, List.append_nil]
    exact .nil
  | @cons _ _ _ e entries set _ ih =>
    have others := ih (asked ++ [fullWrite storeKey e])
    rw [List.append_assoc, List.singleton_append] at others
    exact .cons (RecordingStore.set_eq set asked answer) others

theorem Written.reads {P : σ → Prop} (lawful : LawfulWrites P) (inside : P store)
    (written : Written storeKey store made after) :
    P after ∧ ∀ full, KeyValueStore.get after full =
      readAfter storeKey (made.map GenesisEntry.write) store full := by
  induction written with
  | nil => exact ⟨inside, fun full => rfl⟩
  | @cons store next _ e entries set _ ih =>
    obtain ⟨keptAll, others⟩ := ih (lawful.kept_of_set inside set)
    refine ⟨keptAll, fun full => ?_⟩
    rw [others]
    exact readAfter_append (lawful.reads_acknowledged inside set full)

/-! ## One initialization -/

/-- The ways in which an initialization ends: with its result, the entries that were acknowledged,
    the entry that was refused, and the store that is left. -/
inductive Seeding (storeKey : String) (document : Bytes) (store : σ) :
    Except GenesisError Nat → List GenesisEntry → Option GenesisEntry → σ → Prop where
  | malformed {fault : Json.Fault} : ofDocument document = .error fault →
      Seeding storeKey document store (.error (.parse fault)) [] none store
  | refused {g : Genesis} {made later : List GenesisEntry} {e : GenesisEntry} {before after : σ}
      {error : StoreError} : ofDocument document = .ok g → g.entries = made ++ e :: later →
      Written storeKey store made before →
      Partition.set storeKey before e.write.key e.write.value = (.error error, after) →
      Seeding storeKey document store (.error (.store error)) made (some e) after
  | complete {g : Genesis} {after : σ} : ofDocument document = .ok g →
      Written storeKey store g.entries after →
      Seeding storeKey document store (.ok g.entries.length) g.entries none after

variable {document : Bytes} {result : Except GenesisError Nat} {refused : Option GenesisEntry}

theorem exists_seeding (storeKey : String) (document : Bytes) (store : σ) :
    ∃ result made refused after,
      Seeding storeKey document store result made refused after := by
  cases parsed : ofDocument document with
  | error fault => exact ⟨_, _, _, _, .malformed parsed⟩
  | ok g =>
    obtain ⟨after, written⟩ | ⟨made, e, later, before, error, after, split, written, last⟩ :=
      written_or_refused storeKey g.entries store
    · exact ⟨_, _, _, _, .complete parsed written⟩
    · exact ⟨_, _, _, _, .refused parsed split written last⟩

theorem Seeding.initChain_eq (seeding : Seeding storeKey document store result made refused after) :
    initChain storeKey document store = (result, after) := by
  rw [initChain]
  cases seeding with
  | malformed parsed => rw [parsed]
  | refused parsed split written last =>
    simp only [parsed, apply, split, written.writeAll_append, writeAll_cons_error last]
  | complete parsed written =>
    have all := written.writeAll_append []
    rw [List.append_nil] at all
    simp only [parsed, apply, all, writeAll, size]

theorem Seeding.recording (seeding : Seeding storeKey document store result made refused after)
    (asked : List Write) (answer : Bytes → Except StoreError (Option Bytes)) :
    Seeding storeKey document (RecordingStore.mk store asked answer) result made refused
      ⟨after, asked ++ (made ++ refused.toList).map (fullWrite storeKey), answer⟩ := by
  cases seeding with
  | malformed parsed =>
    rw [Option.toList_none, List.append_nil, List.map_nil, List.append_nil]
    exact .malformed parsed
  | refused parsed split written last =>
    rw [Option.toList_some, List.map_append, ← List.append_assoc]
    have made := written.recording asked answer
    exact .refused parsed split made (RecordingStore.set_eq last _ answer)
  | complete parsed written =>
    rw [Option.toList_none, List.append_nil]
    exact .complete parsed (written.recording asked answer)

theorem Seeding.reads {P : σ → Prop} (lawful : LawfulWrites P) (inside : P store)
    (seeding : Seeding storeKey document store result made refused after) (full : Bytes) :
    KeyValueStore.get after full =
      readAfter storeKey (made.map GenesisEntry.write) store full := by
  cases seeding with
  | malformed => rfl
  | refused _ _ written last =>
    obtain ⟨kept, reads⟩ := written.reads lawful inside
    rw [← reads]
    exact lawful.refused _ _ _ _ _ kept last full
  | complete _ written => exact (written.reads lawful inside).2 full

/-- An initialization writes entries in document order and asks nothing else of the store. -/
structure InDocumentOrder (storeKey : String) (document : Bytes) (store : σ)
    (result : Except GenesisError Nat) (made : List GenesisEntry) (refused : Option GenesisEntry)
    (after : σ) : Prop where
  seeding : Seeding storeKey document store result made refused after
  ran : initChain storeKey document store = (result, after)
  /-- However reads are answered. -/
  asked (earlier : List Write) (answer : Bytes → Except StoreError (Option Bytes)) :
    initChain storeKey document (RecordingStore.mk store earlier answer) =
      (result, ⟨after, earlier ++ (made ++ refused.toList).map (fullWrite storeKey), answer⟩)
  /-- Every key reads as the last value written to it, every other one as before. -/
  reads {P : σ → Prop} : LawfulWrites P → P store → ∀ full, KeyValueStore.get after full =
    readAfter storeKey (made.map GenesisEntry.write) store full

theorem initChain_inDocumentOrder (storeKey : String) (document : Bytes) (store : σ) :
    ∃ result made refused after,
      InDocumentOrder storeKey document store result made refused after := by
  obtain ⟨result, made, refused, after, seeding⟩ := exists_seeding storeKey document store
  exact ⟨result, made, refused, after, seeding, seeding.initChain_eq,
    fun earlier answer => (seeding.recording earlier answer).initChain_eq, seeding.reads⟩

/-- A key twice, then one that `refusingStore` refuses, and an entry behind it. -/
def refusedSeed : Bytes :=
  Utf8.encode (Genesis.mk [⟨"a", "1"⟩, ⟨"a", "3"⟩, ⟨"b", "2"⟩, ⟨"c", "4"⟩]).toDocument

theorem initChain_inDocumentOrder_refusedSeed :
    (initChain "main" refusedSeed Executor.refusingStore).1 =
        .error (.store (.writeRejected "key 6d61696e2f62")) ∧
      (initChain "main" refusedSeed
          (RecordingStore.mk Executor.refusingStore [] fun _ => .ok none)).2.asked.map Write.value =
        [[0x31], [0x33], [0x32]] ∧
      ∃ result made refused after,
        InDocumentOrder "main" refusedSeed Executor.refusingStore result made refused after :=
  ⟨by decide +kernel, by decide +kernel, initChain_inDocumentOrder "main" refusedSeed _⟩

end Genesis

end ReplicatedKv
