import ReplicatedKv.Proofs.Genesis.Shapes
import ReplicatedKv.Proofs.Json.Compact

/-! # Written genesis documents

The compact document of a genesis is read back as that genesis, whatever text its keys and values
are: it spells a tree whose entries are those of the genesis.

* `Genesis.ofDocument_toDocument` — a written genesis is read back.
* `Genesis.RoundTrips`, `Genesis.toDocument_roundTrips` — reading undoes writing, however the
  document is spelled.
-/

namespace ReplicatedKv

open Json

theorem Utf8.encode_intercalate_comma (parts : List String) :
    Utf8.encode (",".intercalate parts) = [comma].intercalate (parts.map Utf8.encode) := by
  have chars : ∀ l : List (List Char), ([','].intercalate l).flatMap String.utf8EncodeChar =
      [comma].intercalate (l.map fun part => part.flatMap String.utf8EncodeChar) := by
    intro l
    induction l with
    | nil => simp
    | cons part l ih =>
      cases l with
      | nil => simp
      | cons next l =>
        simp only [List.intercalate_cons_cons, List.flatMap_append, ih, List.map_cons]
        rfl
  rw [Utf8.encode, String.toList_intercalate]
  show ([','].intercalate _).flatMap _ = _
  rw [chars, List.map_map]
  rfl

namespace GenesisEntry

theorem encode_toDocument (e : GenesisEntry) :
    Utf8.encode e.toDocument = openObject :: (member "key" (Utf8.encode (quoted e.key)) ++
      comma :: member "value" (Utf8.encode (quoted e.value)) ++ [closeObject]) := by
  have start : Utf8.encode "\x7b\"key\":" =
      openObject :: (Utf8.encode (quoted "key") ++ [colon]) := by
    decide
  have between : Utf8.encode ",\"value\":" =
      comma :: (Utf8.encode (quoted "value") ++ [colon]) := by
    decide
  have close : Utf8.encode "\x7d" = [closeObject] := by decide
  simp [toDocument, Utf8.encode_append, start, between, close, member]

theorem oneLine_toDocument (e : GenesisEntry) : OneLine e.toDocument := by
  simp only [toDocument, oneLine_append]
  have start : OneLine "\x7b\"key\":" := by decide
  have between : OneLine ",\"value\":" := by decide
  have close : OneLine "\x7d" := by decide
  exact ⟨⟨⟨⟨start, oneLine_quoted e.key⟩, between⟩, oneLine_quoted e.value⟩, close⟩

/-- The value that the document of an entry spells. -/
def tree (e : GenesisEntry) : Tree := .object [("key", .text e.key), ("value", .text e.value)]

theorem spelling_toDocument (e : GenesisEntry) : Spelling e.tree (Utf8.encode e.toDocument) := by
  have value := members_next "value" (.text (spelledText_quoted e.value)) .nil
  have members := members_first "key" (.text (spelledText_quoted e.key)) value
  rw [encode_toDocument]
  simpa [tree] using Spelling.object members .nil

theorem shape_tree (e : GenesisEntry) : Shape e.tree e := .object rfl rfl

end GenesisEntry

namespace Genesis

theorem encode_toDocument (g : Genesis) :
    Utf8.encode g.toDocument = openObject :: (member "values" (openList ::
      ([comma].intercalate (g.entries.map fun e => Utf8.encode e.toDocument) ++ [closeList])) ++
        [closeObject]) := by
  have start : Utf8.encode "\x7b\"values\":[" =
      openObject :: (Utf8.encode (quoted "values") ++ [colon, openList]) := by
    decide
  have close : Utf8.encode "]\x7d" = [closeList, closeObject] := by decide
  simp [toDocument, Utf8.encode_append, Utf8.encode_intercalate_comma, start, close, member,
    Function.comp_def]

/-- The value that the document of a genesis spells. -/
def tree (g : Genesis) : Tree := .object [("values", .list (g.entries.map GenesisEntry.tree))]

theorem document_toDocument (g : Genesis) : g.tree.Document (Utf8.encode g.toDocument) := by
  have entries : List.Forall₂ Spelling (g.entries.map GenesisEntry.tree)
      (g.entries.map fun e => Utf8.encode e.toDocument) := by
    rw [List.forall₂_map_left_iff, List.forall₂_map_right_iff, List.forall₂_same]
    exact fun e _ => e.spelling_toDocument
  have list := Spelling.list (elements_intercalate entries) .nil
  have object := Spelling.object (members_first "values" list .nil) .nil
  rw [encode_toDocument]
  simpa [tree] using Tree.Document.blanks .nil object .nil

theorem shape_tree (g : Genesis) : Shape g.tree g := by
  refine .object rfl ?_
  rw [List.forall₂_map_left_iff, List.forall₂_same]
  exact fun e _ => e.shape_tree

theorem ofDocument_toDocument (g : Genesis) : ofDocument (Utf8.encode g.toDocument) = .ok g :=
  (ofDocument_eq_ok_iff g.document_toDocument).mpr g.shape_tree

theorem oneLine_toDocument (g : Genesis) : OneLine g.toDocument := by
  simp only [toDocument, oneLine_append]
  have start : OneLine "\x7b\"values\":[" := by decide
  have comma : OneLine "," := by decide
  have close : OneLine "]\x7d" := by decide
  have each : ∀ part ∈ g.entries.map GenesisEntry.toDocument, OneLine part :=
    List.forall_mem_map.mpr fun e _ => e.oneLine_toDocument
  exact ⟨⟨start, oneLine_intercalate comma each⟩, close⟩

/-! ## The round trip -/

/-- A genesis can be written and read back.  Its document is one line, is that of no other genesis,
    and may be spelled in another way, with blanks and other escapes. -/
structure RoundTrips (g : Genesis) : Prop where
  readBack : ofDocument (Utf8.encode g.toDocument) = .ok g
  respelled (document : Bytes) : g.tree.Document document → ofDocument document = .ok g
  distinct (other : Genesis) : other.toDocument = g.toDocument → other = g
  oneLine : OneLine g.toDocument

/-- Entries are read back in their order, duplicates and all, whatever text they are. -/
theorem toDocument_roundTrips (g : Genesis) : g.RoundTrips where
  readBack := g.ofDocument_toDocument
  respelled _ document := (ofDocument_eq_ok_iff document).mpr g.shape_tree
  distinct := by
    intro other same
    have read := other.ofDocument_toDocument
    rw [same, g.ofDocument_toDocument] at read
    exact (Except.ok.inj read).symm
  oneLine := g.oneLine_toDocument

end Genesis

end ReplicatedKv
