import ReplicatedKv.Proofs.Application.Calls
import ReplicatedKv.Proofs.Json.Compact
import ReplicatedKv.Proofs.Json.Shapes
import ReplicatedKv.Proofs.Json.Texts
import ReplicatedKv.Store.Memory

/-! # Configuration documents

From the bytes of a document to an application: which documents are a configuration, which
configuration they are, and whether an application starts with it.

* `Config.Shape` — the trees of a configuration.
* `Config.recognizes_shape` — the reader of a configuration takes these trees and no others.
* `Config.Usable` — what an application asks of its configuration.
* `Config.start_ofDocument` — a document is accepted by its tree alone, and an application starts
  with what it says exactly where that is usable.
-/

namespace ReplicatedKv

open Json Json.Reader

namespace Config

/-! ## Trees -/

/-- The configuration with these texts.  A field without one has its default. -/
def ofTexts (appName storeKey codespace : Option String) : Config :=
  ⟨appName.getD "kvstore", storeKey.getD "main", codespace.getD "kvstore"⟩

/-- The trees of a configuration: an object with strings for some of the fields, in any order and
    none of them twice, or a list of strings for the first few of them. -/
inductive Shape : Tree → Config → Prop where
  | object {fields : List (String × String)} : (fields.map Prod.fst).Nodup →
      (∀ name ∈ fields.map Prod.fst, name ∈ ["app_name", "store_key", "codespace"]) →
        Shape (.object (textMembers fields)) (ofTexts (fields.lookup "app_name")
          (fields.lookup "store_key") (fields.lookup "codespace"))
  | list {texts : List String} : texts.length ≤ 3 →
      Shape (.list (texts.map .text)) (ofTexts texts[0]? texts[1]? texts[2]?)

theorem ofTexts_eq_iff (given : Fin 3 → Option String) {values : Vector String 3} :
    ofTexts (given 0) (given 1) (given 2) = ⟨values.get 0, values.get 1, values.get 2⟩ ↔
      ∀ i : Fin 3, (given i).or (form.field i).fallback = some (values.get i) := by
  have filled (o : Option String) (fallback s : String) :
      o.or (some fallback) = some s ↔ o.getD fallback = s := by
    rw [Option.or_some, Option.some.injEq]
  simp only [Fin.forall_fin_succ, Fin.forall_fin_zero, and_true]
  rw [ofTexts, Config.mk.injEq]
  exact and_congr (filled _ _ _).symm (and_congr (filled _ _ _).symm (filled _ _ _).symm)

theorem shape_of_recordShape {t : Tree} {values : Vector String 3}
    (shape : form.RecordShape (fun t s => t = .text s) t values) :
    Shape t ⟨values.get 0, values.get 1, values.get 2⟩ := by
  cases t with
  | object ms =>
    obtain ⟨fields, rfl, distinct, known, filled⟩ :=
      (Form.recordShape_textMembers_iff rfl).mp shape
    rw [← (ofTexts_eq_iff fun i => fields.lookup (form.field i).name).mpr filled]
    exact .object distinct known
  | list ts =>
    obtain ⟨texts, rfl, few, filled⟩ := Form.recordShape_texts_iff.mp shape
    rw [← (ofTexts_eq_iff fun i => texts[i.val]?).mpr filled]
    exact .list few
  | null | boolean | number | text => nomatch shape

theorem recordShape_of_shape {t : Tree} {c : Config} (shape : Shape t c) :
    form.RecordShape (fun t s => t = .text s) t #v[c.appName, c.storeKey, c.codespace] := by
  cases shape with
  | @object fields distinct known =>
    refine (Form.recordShape_textMembers_iff rfl).mpr ⟨fields, rfl, distinct, known, ?_⟩
    exact (ofTexts_eq_iff fun i => fields.lookup (form.field i).name).mp rfl
  | @list texts few =>
    refine Form.recordShape_texts_iff.mpr ⟨texts, rfl, few, ?_⟩
    exact (ofTexts_eq_iff fun i => texts[i.val]?).mp rfl

theorem recognizes_shape : reader.Recognizes Shape := by
  refine ((recognizes_record (by decide) recognizes_text).map _).congr fun t c => ?_
  constructor
  · rintro ⟨values, shape, rfl⟩
    exact shape_of_recordShape shape
  · intro shape
    exact ⟨_, recordShape_of_shape shape, rfl⟩

/-! ## Starting -/

/-- The partition and the codespace are named, and the name of the partition has no separator. -/
structure Usable (c : Config) : Prop where
  storeKey : c.storeKey ≠ ""
  noSeparator : '/' ∉ c.storeKey.toList
  codespace : c.codespace ≠ ""

theorem validate_eq_ok_iff {c : Config} : c.validate = .ok () ↔ c.Usable := by
  rw [validate]
  constructor
  · intro valid
    split at valid
    · nomatch valid
    split at valid
    · nomatch valid
    split at valid
    · nomatch valid
    · exact ⟨‹_›, ‹_›, ‹_›⟩
  · rintro ⟨storeKey, noSeparator, codespace⟩
    rw [if_neg storeKey, if_neg noSeparator, if_neg codespace]

/-- Over any store, an application starts with the configuration exactly where it is usable, and is
    refused for its configuration otherwise. -/
structure StartsIfUsable (c : Config) : Prop where
  started : c.Usable → ∀ {σ : Type} [VersionedStore σ] (store : σ),
    ∃ app, Application.start c store = .ok app ∧ app.config = c ∧ app.store = store
  refused : ¬ c.Usable → ∀ {σ : Type} [VersionedStore σ] (store : σ),
    ∃ error, Application.start c store = .error (.invalidConfig error)

theorem startsIfUsable (c : Config) : c.StartsIfUsable where
  started usable _ _ store :=
    ⟨_, Application.start_of_valid (validate_eq_ok_iff.mpr usable) store, rfl, rfl⟩
  refused unusable _ _ store := by
    rw [Application.start]
    split
    next error _ => exact ⟨error, rfl⟩
    next valid => exact absurd (validate_eq_ok_iff.mp valid) unusable

/-- A document is accepted exactly where its tree is a configuration, as that configuration, and an
    application starts with it exactly where it is usable. -/
theorem start_ofDocument {t : Tree} {d : Bytes} (document : t.Document d) :
    (∀ c, ofDocument d = .ok c ↔ Shape t c) ∧ ∀ c, ofDocument d = .ok c → c.StartsIfUsable :=
  ⟨fun _ => recognizes_shape.document_iff document, fun c _ => c.startsIfUsable⟩

/-- The members are not in the order of declaration, and one name and the separator are written with
    escapes. -/
def escapedDocument : Bytes :=
  Utf8.encode " \x7b\"codespace\":\"c\", \"\\u0073tore_key\":\"a\\/b\"\x7d"

def escapedTree : Tree := .object (textMembers [("codespace", "c"), ("store_key", "a/b")])

theorem document_escaped : escapedTree.Document escapedDocument := by
  have name : SpelledText "store_key" (Utf8.encode "\"\\u0073tore_key\"") := by
    have s : UnitDigits 's'.toNat [0x30, 0x30, 0x37, 0x33] := unitDigits_of_hexDigit? (by decide)
    have content := Content.escape (.unit s)
      (content_quotedContent ['t', 'o', 'r', 'e', '_', 'k', 'e', 'y'])
    exact .quotes (s := "store_key") content
  have separator : SpelledText "a/b" (Utf8.encode "\"a\\/b\"") := by
    have content := Content.raw (c := 'a') (by decide) (by decide) (by decide)
      (.escape (c := '/') (.short (b := 0x2f) (by decide)) (content_quotedContent ['b']))
    exact .quotes (s := "a/b") content
  have blank : Blanks [0x20] := blanks_cons_iff.mpr ⟨.inl rfl, .nil⟩
  have members := members_first "codespace" (.text (spelledText_quoted "c"))
    (.cons (.comma .nil blank) name .nil .nil (.text separator) .nil)
  have document := Tree.Document.blanks blank (.object members .nil) .nil
  refine Eq.mp (congrArg escapedTree.Document ?_) document
  decide

/-- The first two fields. -/
def rowDocument : Bytes := Utf8.encode "[\"app\",\"other\"]"

def rowTree : Tree := .list (["app", "other"].map .text)

theorem document_row : rowTree.Document rowDocument := by
  have elements := elements_intercalate (.cons (.text (spelledText_quoted "app"))
    (.cons (.text (spelledText_quoted "other")) .nil))
  have document := Tree.Document.blanks .nil (.list elements .nil) .nil
  refine Eq.mp (congrArg rowTree.Document ?_) document
  decide

/-- A separator is one however it is written, and the codespace that is not given is usable. -/
theorem start_ofDocument_escapedSeparator :
    (escapedTree.Document escapedDocument ∧
        ofDocument escapedDocument = .ok ⟨"kvstore", "a/b", "c"⟩ ∧
          ∃ error, Application.start ⟨"kvstore", "a/b", "c"⟩ MemStore.empty =
            .error (.invalidConfig error)) ∧
      rowTree.Document rowDocument ∧
        ofDocument rowDocument = .ok ⟨"app", "other", "kvstore"⟩ ∧
          ∃ app, Application.start ⟨"app", "other", "kvstore"⟩ MemStore.empty = .ok app := by
  have escaped := (start_ofDocument document_escaped).1 ⟨"kvstore", "a/b", "c"⟩
  have row := (start_ofDocument document_row).1 ⟨"app", "other", "kvstore"⟩
  have readEscaped := escaped.mpr (.object (by decide) (by decide))
  have readRow := row.mpr (.list (by decide))
  have refused := ((start_ofDocument document_escaped).2 _ readEscaped).refused
    (fun usable => usable.noSeparator (by decide)) MemStore.empty
  obtain ⟨app, started, -⟩ := ((start_ofDocument document_row).2 _ readRow).started
    ⟨by decide, by decide, by decide⟩ MemStore.empty
  exact ⟨⟨document_escaped, readEscaped, refused⟩, document_row, readRow, app, started⟩

end Config

end ReplicatedKv
