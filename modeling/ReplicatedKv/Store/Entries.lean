import Std.Data.ExtTreeMap
import ReplicatedKv.Bytes

/-! # Entries

A finite map from keys to values, in ascending byte order of the keys.  Two maps with the same
look-ups are equal, so a state is its content and nothing else.
-/

namespace ReplicatedKv

/-- The entries of a state, ordered by key. -/
abbrev Entries := Std.ExtTreeMap Bytes Bytes compare

namespace Entries

/-- The map of a list of pairs; a later pair replaces an earlier one with its key. -/
def ofList (pairs : List (Bytes × Bytes)) : Entries :=
  pairs.foldl (fun entries pair => entries.insert pair.1 pair.2) ∅

end Entries

end ReplicatedKv
