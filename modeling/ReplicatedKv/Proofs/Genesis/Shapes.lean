import ReplicatedKv.Genesis.Document
import ReplicatedKv.Proofs.Json.Compact
import ReplicatedKv.Proofs.Json.Shapes

/-! # Genesis documents by their trees

Which values are a genesis, and which entries they hold, however the document is written.

* `GenesisEntry.Shape`, `Genesis.Shape` — the trees of an entry and of a genesis.
* `Genesis.recognizes_shape` — the reader of a genesis takes these trees and no others.
* `Genesis.ofDocument_spelled` — a document is accepted exactly where its tree is a genesis.
-/

namespace ReplicatedKv

open Json Json.Reader

namespace GenesisEntry

/-- The trees of an entry: an object with one key and one value, both strings, or a list of the
    two. -/
inductive Shape : Tree → GenesisEntry → Prop where
  | object {ms : List (String × Tree)} {key value : String} :
      valuesOf "key" ms = [.text key] → valuesOf "value" ms = [.text value] →
        Shape (.object ms) ⟨key, value⟩
  | list {key value : String} : Shape (.list [.text key, .text value]) ⟨key, value⟩

theorem shape_of_recordShape {t : Tree} {fields : Vector String 2}
    (shape : form.RecordShape (fun t s => t = .text s) t fields) :
    Shape t ⟨fields.get 0, fields.get 1⟩ := by
  cases shape with
  | object _ fieldShapes =>
    obtain ⟨_, key, rfl⟩ := fieldShape_required_iff.mp (fieldShapes 0)
    obtain ⟨_, value, rfl⟩ := fieldShape_required_iff.mp (fieldShapes 1)
    exact .object key value
  | @list ts _ few fieldShapes =>
    obtain ⟨_, key, rfl⟩ := fieldShape_required_iff.mp (fieldShapes 0)
    obtain ⟨_, value, rfl⟩ := fieldShape_required_iff.mp (fieldShapes 1)
    match ts, few with
    | [], _ => cases key
    | [x], _ => cases value
    | [x, y], _ => cases key; cases value; exact .list

theorem recordShape_of_shape {t : Tree} {e : GenesisEntry} (shape : Shape t e) :
    form.RecordShape (fun t s => t = .text s) t #v[e.key, e.value] := by
  cases shape with
  | object key value =>
    refine .object nofun fun i => ?_
    match i with
    | 0 => exact fieldShape_required_iff.mpr ⟨_, key, rfl⟩
    | 1 => exact fieldShape_required_iff.mpr ⟨_, value, rfl⟩
  | list =>
    refine .list (Nat.le_refl 2) fun i => ?_
    match i with
    | 0 => exact fieldShape_required_iff.mpr ⟨_, rfl, rfl⟩
    | 1 => exact fieldShape_required_iff.mpr ⟨_, rfl, rfl⟩

theorem recognizes_shape : reader.Recognizes Shape := by
  refine ((recognizes_record (by decide) recognizes_text).map _).congr fun t e => ?_
  constructor
  · rintro ⟨fields, shape, rfl⟩
    exact shape_of_recordShape shape
  · intro shape
    exact ⟨_, recordShape_of_shape shape, rfl⟩

end GenesisEntry

namespace Genesis

/-- The trees of a genesis: an object with at most one list of entries, or a list of at most one
    list of entries. -/
inductive Shape : Tree → Genesis → Prop where
  | empty {ms : List (String × Tree)} : valuesOf "values" ms = [] → Shape (.object ms) {}
  | object {ms : List (String × Tree)} {ts : List Tree} {entries : List GenesisEntry} :
      valuesOf "values" ms = [.list ts] → List.Forall₂ GenesisEntry.Shape ts entries →
        Shape (.object ms) ⟨entries⟩
  | emptyList : Shape (.list []) {}
  | list {ts : List Tree} {entries : List GenesisEntry} :
      List.Forall₂ GenesisEntry.Shape ts entries → Shape (.list [.list ts]) ⟨entries⟩

/-- The trees of a list of entries. -/
def EntriesShape (t : Tree) (entries : List GenesisEntry) : Prop :=
  ∃ ts, t = .list ts ∧ List.Forall₂ GenesisEntry.Shape ts entries

theorem shape_of_recordShape {t : Tree} {fields : Vector (List GenesisEntry) 1}
    (shape : form.RecordShape EntriesShape t fields) : Shape t ⟨fields.get 0⟩ := by
  cases shape with
  | object _ fieldShapes =>
    obtain ⟨absent, filled⟩ | ⟨_, given, ts, rfl, entries⟩ := fieldShape_iff.mp (fieldShapes 0)
    · have none : [] = fields.get 0 := Option.some.inj filled
      rw [← none]
      exact .empty absent
    · exact .object given entries
  | @list ts _ few fieldShapes =>
    obtain ⟨absent, filled⟩ | ⟨_, given, ts', rfl, entries⟩ := fieldShape_iff.mp (fieldShapes 0)
    · have none : [] = fields.get 0 := Option.some.inj filled
      rw [← none]
      match ts, absent with
      | [], _ => exact .emptyList
    · match ts, few with
      | [], _ => cases given
      | [t], _ => cases given; exact .list entries

theorem recordShape_of_shape {t : Tree} {g : Genesis} (shape : Shape t g) :
    form.RecordShape EntriesShape t #v[g.entries] := by
  cases shape with
  | empty absent =>
    refine .object nofun fun i => ?_
    match i with
    | 0 => exact fieldShape_iff.mpr (.inl ⟨absent, rfl⟩)
  | object given entries =>
    refine .object nofun fun i => ?_
    match i with
    | 0 => exact fieldShape_iff.mpr (.inr ⟨_, given, _, rfl, entries⟩)
  | emptyList =>
    refine .list (Nat.zero_le 1) fun i => ?_
    match i with
    | 0 => exact .absent rfl
  | list entries =>
    refine .list (Nat.le_refl 1) fun i => ?_
    match i with
    | 0 => exact .present ⟨_, rfl, entries⟩

theorem recognizes_shape : reader.Recognizes Shape := by
  refine ((recognizes_record (by decide)
    (recognizes_list GenesisEntry.recognizes_shape)).map _).congr fun t g => ?_
  constructor
  · rintro ⟨fields, shape, rfl⟩
    exact shape_of_recordShape shape
  · intro shape
    exact ⟨_, recordShape_of_shape shape, rfl⟩

/-- A document that holds a value is not void. -/
theorem all_isVoid_of_document {t : Tree} {d : Bytes} (document : t.Document d) :
    d.all isVoid = false := by
  obtain ⟨-, spelled, -⟩ := document
  obtain ⟨b, s, rfl, starts⟩ := spelled.exists_cons
  have solid : isVoid b = false := by
    have := starts.printable.1
    rw [isVoid, starts.visible.1, Bool.false_or, beq_eq_false_iff_ne]
    rintro rfl
    contradiction
  simp [solid]

theorem ofDocument_eq_ok_iff {t : Tree} {d : Bytes} (document : t.Document d) {g : Genesis} :
    ofDocument d = .ok g ↔ Shape t g := by
  rw [ofDocument, if_neg (by simp [all_isVoid_of_document document])]
  exact recognizes_shape.document_iff document

/-- A document is accepted exactly where its tree is a genesis, as that genesis, and otherwise it is
    malformed and seeds nothing. -/
theorem ofDocument_spelled {t : Tree} {d : Bytes} (document : t.Document d) :
    (∀ g, ofDocument d = .ok g ↔ Shape t g) ∧
      ((∀ g, ¬ Shape t g) → ∃ fault, ofDocument d = .error fault ∧
        ∀ {σ : Type} [KeyValueStore σ] (storeKey : String) (store : σ),
          initChain storeKey d store = (.error (.parse fault), store)) := by
  refine ⟨fun g => ofDocument_eq_ok_iff document, fun noShape => ?_⟩
  cases read : ofDocument d with
  | ok g => exact absurd ((ofDocument_eq_ok_iff document).mp read) (noShape g)
  | error fault =>
    refine ⟨fault, rfl, fun storeKey store => ?_⟩
    rw [initChain, read]

/-- A list, an object with its members the other way round, and members that mean nothing. -/
def variedTree : Tree :=
  .object [("x", .number [0x31, 0x65, 0x33]), ("values", .list [.list [.text "a", .text "/"],
    .object [("value", .text "😀"), ("y", .list []), ("key", .text "b")]])]

def variedDocument : Bytes :=
  Utf8.encode (" \x7b\"x\":1e3,\"\\u0076alues\": [[\"a\",\"\\/\"]," ++
    "\x7b\"value\":\"\\uD83d\\ude00\",\"y\":[],\"key\":\"b\"\x7d]\x7d")

theorem document_varied : variedTree.Document variedDocument := by
  have number : IsNumber ([] ++ ([0x31] ++ ([] ++ 0x65 :: ([] ++ [0x33])))) :=
    .parts (by decide) (.digits (by decide) (digits_singleton (by decide))) .absent
      (.letter (.inl rfl) (by decide) (digits_singleton (by decide)))
  have values : SpelledText "values" (Utf8.encode "\"\\u0076alues\"") := by
    have v : UnitDigits 'v'.toNat [0x30, 0x30, 0x37, 0x36] := unitDigits_of_hexDigit? (by decide)
    have content := Content.escape (.unit v) (content_quotedContent ['a', 'l', 'u', 'e', 's'])
    exact .quotes (s := "values") content
  have slash : SpelledText "/" (Utf8.encode "\"\\/\"") := by
    have content := Content.escape (c := '/') (.short (b := 0x2f) (by decide)) .nil
    exact .quotes (s := "/") content
  have face : SpelledText "😀" (Utf8.encode "\"\\uD83d\\ude00\"") := by
    have leading : UnitDigits 0xd83d [0x44, 0x38, 0x33, 0x64] := unitDigits_of_hexDigit? (by decide)
    have trailing : UnitDigits 0xde00 [0x64, 0x65, 0x30, 0x30] :=
      unitDigits_of_hexDigit? (by decide)
    have content := Content.escape (c := '😀') (.pair (by decide) leading trailing) .nil
    exact .quotes (s := "😀") content
  have blank : Blanks [0x20] := blanks_cons_iff.mpr ⟨.inl rfl, .nil⟩
  have row := Spelling.list (.cons (.first .nil) (.text (spelledText_quoted "a"))
    (.cons (.comma .nil .nil) (.text slash) .nil)) .nil
  have object := Spelling.object (members_first "value" (.text face)
    (members_next "y" (.list .nil .nil)
      (members_next "key" (.text (spelledText_quoted "b")) .nil))) .nil
  have list := Spelling.list (.cons (.first .nil) row (.cons (.comma .nil .nil) object .nil)) .nil
  have members := members_first "x" (.number number)
    (.cons (.comma .nil .nil) values .nil blank list .nil)
  have document := Tree.Document.blanks blank (.object members .nil) .nil
  refine Eq.mp (congrArg variedTree.Document ?_) document
  decide

theorem shape_varied : Shape variedTree ⟨[⟨"a", "/"⟩, ⟨"b", "😀"⟩]⟩ :=
  .object rfl (.cons .list (.cons (.object rfl rfl) .nil))

/-- A document that gives the entries twice. -/
def repeatedTree : Tree := .object [("values", .list []), ("values", .list [])]

def repeatedDocument : Bytes := Utf8.encode "\x7b\"values\":[],\"values\":[]\x7d"

theorem document_repeated : repeatedTree.Document repeatedDocument := by
  have list := Spelling.list .nil .nil
  have members := members_first "values" list (members_next "values" list .nil)
  have document := Tree.Document.blanks .nil (.object members .nil) .nil
  refine Eq.mp (congrArg repeatedTree.Document ?_) document
  decide

theorem not_shape_repeated (g : Genesis) : ¬ Shape repeatedTree g := by
  intro shape
  cases shape with
  | empty absent => cases absent
  | object given => cases given

theorem ofDocument_spelled_varied :
    (variedTree.Document variedDocument ∧
        ofDocument variedDocument = .ok ⟨[⟨"a", "/"⟩, ⟨"b", "😀"⟩]⟩) ∧
      repeatedTree.Document repeatedDocument ∧
        ∃ fault, ofDocument repeatedDocument = .error fault := by
  obtain ⟨fault, malformed, -⟩ := (ofDocument_spelled document_repeated).2 not_shape_repeated
  exact ⟨⟨document_varied, ((ofDocument_spelled document_varied).1 _).mpr shape_varied⟩,
    document_repeated, fault, malformed⟩

end Genesis

end ReplicatedKv
