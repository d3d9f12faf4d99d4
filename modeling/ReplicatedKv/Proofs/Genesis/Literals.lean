import ReplicatedKv.Proofs.Genesis.Document
import ReplicatedKv.Proofs.Json.Surroundings

/-! # String literals in genesis documents

Which literals can stand for the key or the value of an entry, and which text they give, whatever
the document around them is.

* `Genesis.Surrounds` — a document with one string left open.
* `Genesis.ReadsLiteral` — what is read of the document with a literal in that place.
* `Genesis.ofDocument_literal` — keys and values.
-/

namespace ReplicatedKv

open Json Json.Reader

theorem GenesisEntry.leftToRight_reader : GenesisEntry.reader.LeftToRight :=
  (leftToRight_record form leftToRight_text).map _

namespace Genesis

theorem leftToRight_reader : reader.LeftToRight :=
  (leftToRight_record form (leftToRight_list GenesisEntry.leftToRight_reader)).map _

theorem ofDocument_of_mem_quote {d : Bytes} (member : quote ∈ d) :
    ofDocument d = reader.document d := by
  refine if_neg fun allVoid => ?_
  nomatch List.all_eq_true.mp allVoid quote member

/-- Whichever text stands between the byte strings, the document is the genesis that the text
    makes. -/
def Surrounds (before after : Bytes) (genesis : String → Genesis) : Prop :=
  ∀ text, ofDocument (before ++ (Utf8.encode (quoted text) ++ after)) = .ok (genesis text)

/-- With the literal between the byte strings, the document is a genesis exactly where the raw runs
    are well-formed and the surrogates are in pairs, and then it is the one of the text that the
    items spell. -/
structure ReadsLiteral (items : List Item) (before after : Bytes) (genesis : String → Genesis) :
    Prop where
  accepted_iff : (∃ g, ofDocument (before ++ quote :: (literal items ++ quote :: after)) = .ok g) ↔
    RunsWellFormed items ∧ Paired items
  decoded (g : Genesis) :
    ofDocument (before ++ quote :: (literal items ++ quote :: after)) = .ok g →
      ∃ text, Decodes items (Utf8.encode text) ∧ g = genesis text

theorem Surrounds.readsLiteral {before after : Bytes} {genesis : String → Genesis}
    (surrounds : Surrounds before after genesis) (varies : genesis "a" ≠ genesis "b")
    (items : List Item) : ReadsLiteral items before after genesis := by
  have accepts (text : String) : reader.document (before ++ (Utf8.encode (quoted text) ++ after)) =
      .ok (genesis text) := by
    rw [← surrounds text, ofDocument_of_mem_quote]
    obtain ⟨v, written, -⟩ := (spelledText_quoted text).exists_content
    simp [written]
  have read (g : Genesis) :
      ofDocument (before ++ quote :: (literal items ++ quote :: after)) = .ok g ↔
        ∃ text, Decodes items (Utf8.encode text) ∧ g = genesis text := by
    rw [ofDocument_of_mem_quote (by simp)]
    exact leftToRight_reader.document_literal_iff accepts ⟨_, _, varies⟩ items g
  refine ⟨?_, fun g => (read g).mp⟩
  rw [← exists_decodes_iff]
  constructor
  · rintro ⟨g, accepted⟩
    obtain ⟨text, decodes, -⟩ := (read g).mp accepted
    exact ⟨text, decodes⟩
  · rintro ⟨text, decodes⟩
    exact ⟨_, (read _).mpr ⟨text, decodes, rfl⟩⟩

/-- The literals that are accepted for a key, and for a value, of a genesis with one entry. -/
theorem ofDocument_literal (items : List Item) (before after : Bytes) :
    (∀ value, Surrounds before after (fun key => ⟨[⟨key, value⟩]⟩) →
      ReadsLiteral items before after fun key => ⟨[⟨key, value⟩]⟩) ∧
    ∀ key, Surrounds before after (fun value => ⟨[⟨key, value⟩]⟩) →
      ReadsLiteral items before after fun value => ⟨[⟨key, value⟩]⟩ := by
  constructor
  · intro value surrounds
    exact surrounds.readsLiteral (by simp) items
  · intro key surrounds
    exact surrounds.readsLiteral (by simp) items

/-- What stands around the key of the only entry in a compact document. -/
def beforeKey : Bytes := Utf8.encode "\x7b\"values\":[\x7b\"key\":"

def afterKey (value : String) : Bytes :=
  Utf8.encode (",\"value\":" ++ quoted value ++ "\x7d]\x7d")

/-- What stands around its value. -/
def beforeValue (key : String) : Bytes :=
  Utf8.encode ("\x7b\"values\":[\x7b\"key\":" ++ quoted key ++ ",\"value\":")

def afterValue : Bytes := Utf8.encode "\x7d]\x7d"

theorem toDocument_singleton (key value : String) :
    (⟨[⟨key, value⟩]⟩ : Genesis).toDocument = "\x7b\"values\":[\x7b\"key\":" ++
      (quoted key ++ (",\"value\":" ++ (quoted value ++ "\x7d]\x7d"))) := by
  have start : "\x7b\"values\":[" ++ "\x7b\"key\":" = "\x7b\"values\":[\x7b\"key\":" := rfl
  simp [toDocument, GenesisEntry.toDocument, String.append_assoc]
  rw [← String.append_assoc, start]

theorem surrounds_key (value : String) :
    Surrounds beforeKey (afterKey value) fun key => ⟨[⟨key, value⟩]⟩ := by
  intro key
  rw [← ofDocument_toDocument, toDocument_singleton, beforeKey, afterKey, String.append_assoc]
  simp only [Utf8.encode_append]

theorem surrounds_value (key : String) :
    Surrounds (beforeValue key) afterValue fun value => ⟨[⟨key, value⟩]⟩ := by
  intro value
  rw [← ofDocument_toDocument, toDocument_singleton, beforeValue, afterValue]
  simp only [Utf8.encode_append, List.append_assoc]

/-- A byte that stands for itself. -/
def rawByte (b : UInt8) (plain : IsPlain b) : Item :=
  .raw [b] (List.cons_ne_nil b []) (List.forall_mem_singleton.mpr plain)

/-- A letter and the two surrogates of a character. -/
def pairedItems : List Item :=
  [rawByte 0x6b (by decide),
    .unit 0xd83d [0x44, 0x38, 0x33, 0x64] (unitDigits_of_hexDigit? (by decide)),
    .unit 0xde00 [0x64, 0x65, 0x30, 0x30] (unitDigits_of_hexDigit? (by decide))]

/-- An escape between the two bytes of a character. -/
def cutItems : List Item :=
  [rawByte 0xc3 (by decide), .short 0x2f '/' (by decide), rawByte 0xa9 (by decide)]

theorem decodes_pairedItems : Decodes pairedItems (Utf8.encode "k😀") := by
  have decodes : Decodes pairedItems _ := .raw (.pair rfl rfl .nil)
  refine Eq.mp (congrArg (Decodes pairedItems) ?_) decodes
  decide

theorem not_runsWellFormed_cutItems : ¬ RunsWellFormed cutItems := by
  intro runs
  have first : Utf8.WellFormed [0xc3] := runs _ List.mem_cons_self
  obtain ⟨text, same⟩ := first
  have cut : Utf8.decode? [0xc3] = none := by decide +kernel
  nomatch cut.symm.trans (Utf8.decode?_eq_some_iff.mpr same)

theorem ofDocument_literal_pairedOrCut :
    (Surrounds beforeKey (afterKey "1") (fun key => ⟨[⟨key, "1"⟩]⟩) ∧
        ofDocument (beforeKey ++ quote :: (literal pairedItems ++ quote :: afterKey "1")) =
          .ok ⟨[⟨"k😀", "1"⟩]⟩) ∧
      Surrounds (beforeValue "k") afterValue (fun value => ⟨[⟨"k", value⟩]⟩) ∧
        ¬ ∃ g, ofDocument (beforeValue "k" ++ quote :: (literal cutItems ++ quote :: afterValue)) =
          .ok g := by
  have key := (ofDocument_literal pairedItems beforeKey (afterKey "1")).1 "1" (surrounds_key "1")
  have value := (ofDocument_literal cutItems (beforeValue "k") afterValue).2 "k" (surrounds_value "k")
  refine ⟨⟨surrounds_key "1", ?_⟩, surrounds_value "k", fun accepted => ?_⟩
  · obtain ⟨g, accepted⟩ := key.accepted_iff.mpr (exists_decodes_iff.mp ⟨_, decodes_pairedItems⟩)
    obtain ⟨text, decodes, rfl⟩ := key.decoded g accepted
    obtain rfl := Utf8.encode_inj.mp (decodes.unique decodes_pairedItems)
    exact accepted
  · exact not_runsWellFormed_cutItems (value.accepted_iff.mp accepted).1

end Genesis

end ReplicatedKv
