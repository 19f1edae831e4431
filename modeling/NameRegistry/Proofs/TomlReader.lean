import NameRegistry.Config.Document
import NameRegistry.Proofs.ByteOrder
import NameRegistry.Proofs.DocumentKeys

/-!
# What readers of documents do

* `Toml.Value.Spells` : a value spells one of several words.
* `Reader.Lawful` : what is relied on. A document spells a table with distinct keys, the entries of
  a table are presented in the order of the bytes of their keys, and a record is read one entry
  after the other, up to the first one that fails.
* `Toml.Value.Misspells` : what the reader of TOML documents fails with where no word is spelled.

Main result: `Toml.reader_lawful`.
-/

namespace NameRegistry

variable {ε ρ : Type}

/-- A value spells a word and what it stands for: it is the word, or a table with the word as its
only key and an empty table or array as its value. -/
inductive Toml.Value.Spells (words : List (String × ρ)) : Toml.Value → ρ → Prop
  | word {w r} : words.lookup w = some r → Spells words (.string w) r
  | table {w r} : words.lookup w = some r → Spells words (.table [(w, .table [])]) r
  | array {w r} : words.lookup w = some r → Spells words (.table [(w, .array [])]) r

theorem Toml.Value.Spells.unique {words : List (String × ρ)} {v : Toml.Value} {r r' : ρ}
    (h : v.Spells words r) (h' : v.Spells words r') : r = r' := by
  cases h <;> cases h'
  all_goals exact Option.some.inj (‹words.lookup _ = some r›.symm.trans ‹_›)

/-- What is relied on in a reader. -/
structure Reader.Lawful (R : Reader ε) : Prop where
  distinct {text t} : R.document text = .ok t → (t.map Prod.fst).Nodup
  perm (t) : (R.present t).Perm t
  ascending (t) : (R.present t).Pairwise fun a b => utf8 a.1 ≤ utf8 b.1
  text_eq_ok_iff {v name} : R.text v = .ok name ↔ v = .string name
  choice_eq_ok_iff {ρ : Type} {words : List (String × ρ)} {v r} :
    R.choice words v = .ok r ↔ v.Spells words r
  record_eq {ρ : Type} (fields : List (String × (Toml.Value → ρ → Except ε ρ))) (r t) :
    R.record fields r t = (R.present t).foldlM (readField R.unknownField fields) r

namespace Toml

/-! ## Words -/

/-- What is wrong with a value that spells no word. Of a table with one key the key is looked at
before the value. -/
inductive Value.Misspells (words : List (String × ρ)) : Value → DocumentError → Prop
  | notTextOrTable {v} : (∀ w, v ≠ .string w) → (∀ t, v ≠ .table t) →
      Misspells words v .notTextOrTable
  | unknownVariant {w} : words.lookup w = none →
      Misspells words (.string w) (.unknownVariant w (words.map Prod.fst))
  | noWord : Misspells words (.table []) .noWord
  | severalWords {e e' t} : Misspells words (.table (e :: e' :: t)) .severalWords
  | unknownKey {w v} : words.lookup w = none →
      Misspells words (.table [(w, v)]) (.unknownVariant w (words.map Prod.fst))
  | tableNotEmpty {w r e t} : words.lookup w = some r →
      Misspells words (.table [(w, .table (e :: t))]) .tableNotEmpty
  | arrayNotEmpty {w r v l} : words.lookup w = some r →
      Misspells words (.table [(w, .array (v :: l))]) .arrayNotEmpty
  | notTable {w r v} : words.lookup w = some r → (∀ t, v ≠ .table t) → (∀ l, v ≠ .array l) →
      Misspells words (.table [(w, v)]) (.notTable v)

variable {words : List (String × ρ)} {v : Value} {r : ρ} {x : DocumentError} {w : String}

theorem variant_of_some (h : words.lookup w = some r) : variant words w = .ok r := by
  rw [variant, h]

theorem variant_of_none (h : words.lookup w = none) :
    variant words w = .error (.unknownVariant w (words.map Prod.fst)) := by
  rw [variant, h]

theorem choice_of_spells (h : v.Spells words r) : v.choice words = .ok r := by
  cases h with
  | word h => exact variant_of_some h
  | table h | array h => rw [Value.choice, variant_of_some h]; rfl

theorem choice_of_misspells (h : v.Misspells words x) : v.choice words = .error x := by
  cases h with
  | notTextOrTable text table =>
    cases v with
    | string w => exact absurd rfl (text w)
    | table t => exact absurd rfl (table t)
    | _ => rfl
  | unknownVariant h => exact variant_of_none h
  | noWord | severalWords => rfl
  | unknownKey h => rw [Value.choice, variant_of_none h]; rfl
  | tableNotEmpty h | arrayNotEmpty h => rw [Value.choice, variant_of_some h]; rfl
  | @notTable w r v h table array =>
    rw [Value.choice, variant_of_some h]
    cases v with
    | table t => exact absurd rfl (table t)
    | array l => exact absurd rfl (array l)
    | _ => rfl

theorem spells_or_misspells (words : List (String × ρ)) (v : Value) :
    (∃ r, v.Spells words r) ∨ ∃ x, v.Misspells words x := by
  cases v with
  | string w =>
    cases h : words.lookup w with
    | some r => exact .inl ⟨r, .word h⟩
    | none => exact .inr ⟨_, .unknownVariant h⟩
  | table t =>
    match t with
    | [] => exact .inr ⟨_, .noWord⟩
    | _ :: _ :: _ => exact .inr ⟨_, .severalWords⟩
    | [(w, v)] =>
      cases h : words.lookup w with
      | none => exact .inr ⟨_, .unknownKey h⟩
      | some r =>
        match v with
        | .table [] => exact .inl ⟨r, .table h⟩
        | .array [] => exact .inl ⟨r, .array h⟩
        | .table (_ :: _) => exact .inr ⟨_, .tableNotEmpty h⟩
        | .array (_ :: _) => exact .inr ⟨_, .arrayNotEmpty h⟩
        | .string _ | .integer _ | .float _ | .boolean _ | .datetime _ =>
          exact .inr ⟨_, .notTable h nofun nofun⟩
  | _ => exact .inr ⟨_, .notTextOrTable nofun nofun⟩

theorem choice_eq_ok_iff : v.choice words = .ok r ↔ v.Spells words r := by
  refine ⟨fun h => ?_, choice_of_spells⟩
  rcases spells_or_misspells words v with ⟨r', h'⟩ | ⟨x, h'⟩
  · obtain rfl := Except.ok.inj ((choice_of_spells h').symm.trans h)
    exact h'
  · cases (choice_of_misspells h').symm.trans h

theorem choice_eq_error_iff : v.choice words = .error x ↔ v.Misspells words x := by
  refine ⟨fun h => ?_, choice_of_misspells⟩
  rcases spells_or_misspells words v with ⟨r, h'⟩ | ⟨x', h'⟩
  · cases (choice_of_spells h').symm.trans h
  · obtain rfl := Except.error.inj ((choice_of_misspells h').symm.trans h)
    exact h'

/-! ## Texts and tables -/

theorem text_eq_ok_iff {name : String} : v.text = .ok name ↔ v = .string name := by
  cases v <;> simp [Value.text]

theorem perm_present (t : Table) : t.present.Perm t := List.mergeSort_perm _ _

theorem pairwise_present (t : Table) :
    t.present.Pairwise fun a b => utf8 a.1 ≤ utf8 b.1 := by
  have trans (a b c : String × Value) (hab : decide (a.1 ≤ b.1)) (hbc : decide (b.1 ≤ c.1)) :
      decide (a.1 ≤ c.1) :=
    decide_eq_true ((of_decide_eq_true hab).trans (of_decide_eq_true hbc))
  have total (a b : String × Value) : decide (a.1 ≤ b.1) || decide (b.1 ≤ a.1) := by
    simpa using le_total a.1 b.1
  have h := List.pairwise_mergeSort trans total t
  simpa only [Table.present, utf8_le_iff, decide_eq_true_eq] using h

theorem document_eq_ok_iff {text : String} {t : Table} :
    reader.document text = .ok t ↔ Document.parse? text = some t := by
  show readDocument text = .ok t ↔ _
  unfold readDocument
  cases Document.parse? text <;> simp

/-- **The reader of TOML documents can be relied on.** -/
theorem reader_lawful : reader.Lawful where
  distinct h := Document.nodup_of_parse? (document_eq_ok_iff.1 h)
  perm := perm_present
  ascending := pairwise_present
  text_eq_ok_iff := text_eq_ok_iff
  choice_eq_ok_iff := choice_eq_ok_iff
  record_eq _ _ _ := rfl

end Toml

end NameRegistry
