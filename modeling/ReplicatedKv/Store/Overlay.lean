import ReplicatedKv.Store.Entries

/-! # Overlay

The writes made since the last commit.  They are laid over the committed entries by reads, merged
into them by a commit, and dropped by a discard.
-/

namespace ReplicatedKv

/-- Buffered writes, the last one of every key. -/
structure Overlay where
  writes : Entries := ∅

namespace Overlay

def empty : Overlay := {}

/-- Buffers a write in place of any earlier one of its key. -/
def set (o : Overlay) (key value : Bytes) : Overlay := ⟨o.writes.insert key value⟩

/-- The buffered value of a key, if there is one. -/
def get? (o : Overlay) (key : Bytes) : Option Bytes := o.writes[key]?

def size (o : Overlay) : Nat := o.writes.size

def isEmpty (o : Overlay) : Bool := o.writes.isEmpty

def toList (o : Overlay) : List (Bytes × Bytes) := o.writes.toList

-- of two values the union keeps the one on its right
def applyTo (o : Overlay) (entries : Entries) : Entries := entries ∪ o.writes

@[simp] theorem get?_empty (key : Bytes) : empty.get? key = none := by simp [empty, get?]

theorem get?_set (o : Overlay) (key value other : Bytes) :
    (o.set key value).get? other = if key = other then some value else o.get? other := by
  simp [get?, set, Std.ExtTreeMap.getElem?_insert]

theorem getElem?_applyTo (o : Overlay) (entries : Entries) (key : Bytes) :
    (o.applyTo entries)[key]? = (o.get? key).or entries[key]? :=
  Std.ExtTreeMap.getElem?_union

end Overlay

end ReplicatedKv
