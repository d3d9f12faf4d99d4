import Mathlib.Data.List.Dedup
import Mathlib.Data.List.Induction
import ReplicatedKv.Proofs.Store.Changes

/-! # The memory store as a versioned map

A memory store keeps no history, but everything that can be read from it is determined by one: which
writes were committed, which are still open, and how often there was a commit.

* `CommitFollows`, `NothingFollows` — what becomes of a write, seen from the changes after it.
* `committedWrites`, `openWrites` — the writes of a history by what became of them.
* `MemStore.Records` — the invariant: a store holds what a history says.
* `MemStore.VersionedMap`, `MemStore.changeAll_versionedMap` — what is read wherever a history ends.
-/

namespace ReplicatedKv

deriving instance DecidableEq for StoreChange

/-! ## What becomes of a write -/

/-- A commit follows, with no discard between. -/
def CommitFollows (later : List StoreChange) : Prop :=
  ∃ between after, later = between ++ .commit :: after ∧ .discard ∉ between

/-- There is no commit and no discard any more. -/
def NothingFollows (later : List StoreChange) : Prop := .commit ∉ later ∧ .discard ∉ later

instance (later : List StoreChange) : Decidable (NothingFollows later) :=
  inferInstanceAs (Decidable (_ ∧ _))

section

variable {later : List StoreChange} {key value : Bytes}

theorem not_commitFollows_nil : ¬CommitFollows [] := by
  rintro ⟨between, after, split, -⟩
  exact List.cons_ne_nil _ _ (List.append_eq_nil_iff.mp split.symm).2

theorem commitFollows_cons_set :
    CommitFollows (.set key value :: later) ↔ CommitFollows later := by
  constructor
  · rintro ⟨_ | ⟨c, between⟩, after, split, kept⟩
    · nomatch (List.cons.inj split).1
    · exact ⟨between, after, (List.cons.inj split).2, fun found => kept (.tail c found)⟩
  · rintro ⟨between, after, rfl, kept⟩
    exact ⟨.set key value :: between, after, rfl, by simpa using kept⟩

theorem commitFollows_cons_commit : CommitFollows (.commit :: later) :=
  ⟨[], later, rfl, List.not_mem_nil⟩

theorem not_commitFollows_cons_discard : ¬CommitFollows (.discard :: later) := by
  rintro ⟨_ | ⟨c, between⟩, after, split, kept⟩
  · nomatch (List.cons.inj split).1
  · obtain ⟨rfl, -⟩ := List.cons.inj split
    exact kept List.mem_cons_self

theorem CommitFollows.mem (follows : CommitFollows later) : .commit ∈ later := by
  obtain ⟨between, after, rfl, -⟩ := follows
  simp

instance decidableCommitFollows : (later : List StoreChange) → Decidable (CommitFollows later)
  | [] => .isFalse not_commitFollows_nil
  | .set _ _ :: later =>
    have := decidableCommitFollows later
    decidable_of_iff (CommitFollows later) commitFollows_cons_set.symm
  | .commit :: _ => .isTrue commitFollows_cons_commit
  | .discard :: _ => .isFalse not_commitFollows_cons_discard

end

/-! ### One more change -/

theorem commitFollows_append_commit (later : List StoreChange) :
    CommitFollows (later ++ [.commit]) ↔ CommitFollows later ∨ .discard ∉ later := by
  induction later with
  | nil => simp [commitFollows_cons_commit]
  | cons c later ih =>
    cases c with
    | set => simp [commitFollows_cons_set, ih]
    | commit => simp [commitFollows_cons_commit]
    | discard => simp [not_commitFollows_cons_discard]

theorem commitFollows_append_of_ne {c : StoreChange} (other : c ≠ .commit)
    (later : List StoreChange) : CommitFollows (later ++ [c]) ↔ CommitFollows later := by
  induction later with
  | nil =>
    cases c with
    | set => exact commitFollows_cons_set
    | commit => exact absurd rfl other
    | discard => exact iff_of_false not_commitFollows_cons_discard not_commitFollows_nil
  | cons first later ih =>
    cases first with
    | set => simp [commitFollows_cons_set, ih]
    | commit => simp [commitFollows_cons_commit]
    | discard => simp [not_commitFollows_cons_discard]

theorem count_commit_append_of_ne {c : StoreChange} (other : c ≠ .commit)
    (changes : List StoreChange) : (changes ++ [c]).count .commit = changes.count .commit := by
  rw [List.count_append, List.count_singleton, if_neg (by simpa using other), Nat.add_zero]

/-! ## The writes of a history -/

def StoreChange.write? : StoreChange → Option Write
  | .set key value => some ⟨key, value⟩
  | .commit => none
  | .discard => none

/-- The writes of a history that are followed by changes of the given kind, in order. -/
def writesWhere (follows : List StoreChange → Prop) [DecidablePred follows] :
    List StoreChange → List Write
  | [] => []
  | c :: later => (if follows later then c.write?.toList else []) ++ writesWhere follows later

/-- The writes that a commit made permanent. -/
def committedWrites (changes : List StoreChange) : List Write := writesWhere CommitFollows changes

/-- The writes since the latest commit or discard. -/
def openWrites (changes : List StoreChange) : List Write := writesWhere NothingFollows changes

section

variable {follows : List StoreChange → Prop} [DecidablePred follows]

/-- A change that makes no difference to what follows adds at most a write of its own. -/
theorem writesWhere_append_of_iff {c : StoreChange}
    (same : ∀ later, follows (later ++ [c]) ↔ follows later) (changes : List StoreChange) :
    writesWhere follows (changes ++ [c]) =
      writesWhere follows changes ++ if follows [] then c.write?.toList else [] := by
  induction changes with
  | nil => simp [writesWhere]
  | cons first later ih => simp [writesWhere, ih, same later]

theorem writesWhere_append_of_not {c : StoreChange} (noWrite : c.write? = none)
    (never : ∀ later, ¬follows (later ++ [c])) (changes : List StoreChange) :
    writesWhere follows (changes ++ [c]) = [] := by
  induction changes with
  | nil => simp [writesWhere, noWrite]
  | cons first later ih => simp [writesWhere, ih, never later]

end

variable (changes : List StoreChange) (key value : Bytes)

theorem openWrites_append_set :
    openWrites (changes ++ [.set key value]) = openWrites changes ++ [⟨key, value⟩] := by
  have same (later : List StoreChange) :
      NothingFollows (later ++ [.set key value]) ↔ NothingFollows later := by
    simp [NothingFollows]
  rw [openWrites, writesWhere_append_of_iff same, if_pos (by simp [NothingFollows])]
  rfl

theorem openWrites_append_commit : openWrites (changes ++ [.commit]) = [] :=
  writesWhere_append_of_not rfl (by simp [NothingFollows]) changes

theorem openWrites_append_discard : openWrites (changes ++ [.discard]) = [] :=
  writesWhere_append_of_not rfl (by simp [NothingFollows]) changes

theorem committedWrites_append_of_ne {c : StoreChange} (other : c ≠ .commit) :
    committedWrites (changes ++ [c]) = committedWrites changes := by
  rw [committedWrites, writesWhere_append_of_iff (commitFollows_append_of_ne other),
    if_neg not_commitFollows_nil, List.append_nil, committedWrites]

theorem committedWrites_of_notMem {changes : List StoreChange} (noCommit : .commit ∉ changes) :
    committedWrites changes = [] := by
  induction changes with
  | nil => rfl
  | cons c later ih =>
    have noneLater : .commit ∉ later := fun found => noCommit (.tail c found)
    have notFollowed : ¬CommitFollows later := fun follows => noneLater follows.mem
    rw [committedWrites, writesWhere, if_neg notFollowed, List.nil_append]
    exact ih noneLater

/-- A commit makes the open writes permanent, after all that were permanent before. -/
theorem committedWrites_append_commit :
    committedWrites (changes ++ [.commit]) = committedWrites changes ++ openWrites changes := by
  induction changes with
  | nil => rfl
  | cons c later ih =>
    simp only [committedWrites, openWrites] at ih
    simp only [committedWrites, openWrites, List.cons_append, writesWhere, ih,
      commitFollows_append_commit]
    by_cases follows : CommitFollows later
    · have closed : ¬NothingFollows later := fun nothing => nothing.1 follows.mem
      simp [follows, closed]
    · by_cases discarded : .discard ∈ later
      · have closed : ¬NothingFollows later := fun nothing => nothing.2 discarded
        simp [follows, discarded, closed]
      · -- nothing of the rest was committed, so the write of `c` comes first of all
        have noCommit : .commit ∉ later := by
          intro found
          obtain ⟨between, after, rfl⟩ := List.append_of_mem found
          exact follows ⟨between, after, rfl, fun early =>
            discarded (List.mem_append_left _ early)⟩
        have nothing : NothingFollows later := ⟨noCommit, discarded⟩
        have before : writesWhere CommitFollows later = [] := committedWrites_of_notMem noCommit
        simp [follows, discarded, nothing, before]

/-! ## The entries that writes leave -/

namespace Entries

theorem ofWrites_append_singleton (writes : List Write) (w : Write) :
    ofWrites (writes ++ [w]) = (ofWrites writes).insert w.key w.value := by
  rw [ofWrites, ofList, List.map_append, List.foldl_append]
  rfl

theorem mem_ofWrites_iff {key : Bytes} {writes : List Write} :
    key ∈ ofWrites writes ↔ key ∈ writes.map Write.key := by
  constructor
  · intro member
    obtain ⟨w, written, rfl⟩ := exists_write_of_mem member
    exact List.mem_map_of_mem written
  · intro written
    obtain ⟨w, member, same⟩ := List.mem_map.mp written
    have found : w ∈ writes.filter (·.key = key) :=
      List.mem_filter.mpr ⟨member, by simpa using same⟩
    rw [Std.ExtTreeMap.mem_iff_isSome_getElem?, getElem?_ofWrites, lastValue?, Option.isSome_map,
      List.getLast?_isSome]
    simpa using List.ne_nil_of_mem found

theorem nodup_keys (entries : Entries) : entries.keys.Nodup := by
  refine Std.ExtTreeMap.distinct_keys.imp ?_
  rintro key other distinct rfl
  exact distinct Std.ReflCmp.compare_self

/-- A key counts once, however often it is written. -/
theorem size_ofWrites (writes : List Write) :
    (ofWrites writes).size = (writes.map Write.key).dedup.length := by
  rw [← Std.ExtTreeMap.length_keys]
  have sameKeys : (ofWrites writes).keys.Perm (writes.map Write.key).dedup := by
    refine (List.perm_ext_iff_of_nodup (nodup_keys _) (List.nodup_dedup _)).mpr ?_
    intro key
    rw [Std.ExtTreeMap.mem_keys, mem_ofWrites_iff, List.mem_dedup]
  exact sameKeys.length_eq

end Entries

/-- Byte strings are compared byte by byte from the left. -/
theorem Bytes.lex_of_compare {a b : Bytes} (less : compare a b = .lt) :
    List.Lex (fun x y : UInt8 => x < y) a b := by
  rw [List.compare_eq_compareLex] at less
  induction a generalizing b with
  | nil =>
    cases b with
    | nil => nomatch less
    | cons y b => exact .nil
  | cons x a ih =>
    cases b with
    | nil => nomatch less
    | cons y b =>
      rw [List.compareLex_cons_cons] at less
      cases heads : compare x y with
      | lt => exact .rel (Std.compare_eq_lt.mp heads)
      | eq =>
        rw [heads] at less
        obtain rfl := Std.LawfulEqCmp.eq_of_compare heads
        exact .cons (ih less)
      | gt =>
        rw [heads] at less
        nomatch less

/-! ## The store -/

namespace MemStore

/-- What a store holds after a history that began with the empty store. -/
structure Records (changes : List StoreChange) (store : MemStore) : Prop where
  committed : store.committed = .ofWrites (committedWrites changes)
  pending : store.pending.writes = .ofWrites (openWrites changes)
  version : store.lastCommit.version.toNat = min (changes.count .commit) (UInt64.size - 1)
  sealed : store.Sealed

namespace Records

theorem empty : Records [] .empty where
  committed := rfl
  pending := rfl
  version := rfl
  sealed := .empty

variable {changes : List StoreChange} {store : MemStore}

theorem set (records : Records changes store) (key value : Bytes) :
    Records (changes ++ [.set key value]) (store.set key value) where
  committed := by
    rw [committedWrites_append_of_ne changes (by simp)]
    exact records.committed
  pending := by
    show store.pending.writes.insert key value = _
    rw [openWrites_append_set, Entries.ofWrites_append_singleton, records.pending]
  version := by
    rw [count_commit_append_of_ne (by simp)]
    exact records.version
  sealed := records.sealed

theorem commit (records : Records changes store) :
    Records (changes ++ [.commit]) store.commit where
  committed := by
    apply Std.ExtTreeMap.ext_getElem?
    intro key
    rw [committed_commit, working, Overlay.getElem?_applyTo, Overlay.get?, records.pending,
      records.committed, committedWrites_append_commit, Entries.getElem?_ofWrites,
      Entries.getElem?_ofWrites, Entries.getElem?_ofWrites, lastValue?_append]
  pending := by
    rw [openWrites_append_commit]
    rfl
  version := by
    have one : (1 : UInt64).toNat = 1 := rfl
    rw [lastCommit_commit, Saturating.toNat_add, records.version, List.count_append,
      List.count_singleton_self, one]
    omega
  sealed := sealed_commit store

theorem discard (records : Records changes store) :
    Records (changes ++ [.discard]) store.discard where
  committed := by
    rw [committedWrites_append_of_ne changes (by simp)]
    exact records.committed
  pending := by
    rw [openWrites_append_discard]
    rfl
  version := by
    rw [count_commit_append_of_ne (by simp)]
    exact records.version
  sealed := records.sealed

theorem change (records : Records changes store) (c : StoreChange) :
    Records (changes ++ [c]) (store.change c) := by
  cases c with
  | set key value => exact records.set key value
  | commit => exact records.commit
  | discard => exact records.discard

end Records

theorem changeAll_append (store : MemStore) (changes others : List StoreChange) :
    store.changeAll (changes ++ others) = (store.changeAll changes).changeAll others :=
  List.foldl_append

theorem records_changeAll (changes : List StoreChange) :
    Records changes (empty.changeAll changes) := by
  induction changes using List.reverseRecOn with
  | nil => exact .empty
  | append_singleton changes c ih =>
    rw [changeAll_append]
    exact ih.change c

theorem mem_entries_iff (store : MemStore) (key value : Bytes) :
    (key, value) ∈ store.entries ↔ VersionedStore.committedGet store key = .ok (some value) := by
  show (key, value) ∈ store.committed.toList ↔ Except.ok store.committed[key]? = .ok (some value)
  rw [Std.ExtTreeMap.mem_toList_iff_getElem?_eq_some, Except.ok.injEq]

/-- What is read from a store after a history that began with the empty store.  A committed value
    is the last one that was followed by a commit with no discard between; it is hidden by the last
    write since the latest commit or discard.  The version counts the commits, and the hash is the
    root of the committed entries, which before the first commit are none.  They are listed in the
    order of their keys, and a key is listed with the committed value that is read under it. -/
structure VersionedMap (changes : List StoreChange) (store : MemStore) : Prop where
  committedGet (key : Bytes) : VersionedStore.committedGet store key =
    .ok (lastValue? key (committedWrites changes))
  get (key : Bytes) : KeyValueStore.get store key =
    .ok ((lastValue? key (openWrites changes)).or (lastValue? key (committedWrites changes)))
  pendingWrites : store.pendingWrites = ((openWrites changes).map Write.key).dedup.length
  version : (VersionedStore.lastCommit store).version.toNat =
    min (changes.count .commit) (Nat.pow 2 64 - 1)
  committed (key : Bytes) : store.committed[key]? = lastValue? key (committedWrites changes)
  appHash : (VersionedStore.lastCommit store).appHash = stateRoot store.committed
  appHash_initial : .commit ∉ changes → (VersionedStore.lastCommit store).appHash = Digest.zero
  listed (key value : Bytes) : (key, value) ∈ store.entries ↔
    VersionedStore.committedGet store key = .ok (some value)
  ascending : store.entries.Pairwise fun entry later =>
    List.Lex (fun x y : UInt8 => x < y) entry.1 later.1

/-- Every history of writes, commits and discards makes a memory store a versioned map, at every
    point of it. -/
theorem changeAll_versionedMap (changes : List StoreChange) :
    VersionedMap changes (empty.changeAll changes) := by
  have records := records_changeAll changes
  have committed (key : Bytes) : (empty.changeAll changes).committed[key]? =
      lastValue? key (committedWrites changes) := by
    rw [records.committed, Entries.getElem?_ofWrites]
  refine ⟨fun key => congrArg Except.ok (committed key), ?get, ?pendingWrites, records.version,
    committed, records.sealed, ?initial, mem_entries_iff _, ?ascending⟩
  case get =>
    intro key
    show Except.ok ((empty.changeAll changes).get? key) = _
    rw [get?, Overlay.get?, records.pending, records.committed, Entries.getElem?_ofWrites,
      Entries.getElem?_ofWrites]
  case pendingWrites =>
    rw [MemStore.pendingWrites, Overlay.size, records.pending, Entries.size_ofWrites]
  case initial =>
    intro noCommit
    have nothing : (empty.changeAll changes).committed.toList = [] := by
      rw [records.committed, committedWrites_of_notMem noCommit]
      rfl
    exact Eq.trans records.sealed (stateRoot_of_toList_nil nothing)
  case ascending =>
    exact Std.ExtTreeMap.ordered_keys_toList.imp Bytes.lex_of_compare

end MemStore

end ReplicatedKv
