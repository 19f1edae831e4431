import Mathlib.Data.List.Nodup
import NameRegistry.Config.Schema
import NameRegistry.Proofs.TomlReader

/-!
# Which documents spell a configuration

The table of a document spells a configuration if each of its entries is a setting. Otherwise its
least entry that is none is what is wrong with the document. This holds for any reader that can be
relied on.

* `Toml.Value.SpellsPolicy`, `IsSetting` : what the value of a policy and an entry may look like.
* `Offends` : what a reader fails with at an entry.
* `Config.SpelledBy` : all entries of a table are settings, and the configuration has them.
* `Config.reads` : what a list of entries with distinct keys is read as, one entry after the other.

An entry is a setting or offends, but not both, and what is wrong with it depends on it alone. The
entries are presented in the order of their keys, so the first one that offends is the least one.
Keys are distinct, so the order does not count otherwise.

Main result: `Config.parse_of_table`.
-/

namespace NameRegistry

/-! ## Settings -/

/-- A value spells a policy: it is the word for it, or a table with this word as its only key and an
empty value. -/
inductive Toml.Value.SpellsPolicy : Toml.Value → DuplicatePolicy → Prop
  | word (p) : SpellsPolicy (.string p.name) p
  | table (p) : SpellsPolicy (.table [(p.name, .table [])]) p
  | array (p) : SpellsPolicy (.table [(p.name, .array [])]) p

/-- An entry of a table is a setting: a display name, or a policy. -/
inductive IsSetting : String × Toml.Value → Prop
  | typeDisplayName (name) : IsSetting ("type-display-name", .string name)
  | duplicatePolicy {v p} : v.SpellsPolicy p → IsSetting ("duplicate-policy", v)

/-- What a reader fails with at an entry of a table. -/
inductive Offends {ε : Type} (R : Reader ε) : String × Toml.Value → ε → Prop
  | unknownField {key v} : key ≠ "type-display-name" → key ≠ "duplicate-policy" →
      Offends R (key, v) (R.unknownField key ["type-display-name", "duplicate-policy"])
  | notText {v x} : R.text v = .error x → Offends R ("type-display-name", v) x
  | notPolicy {v x} : R.choice DuplicatePolicy.words v = .error x →
      Offends R ("duplicate-policy", v) x

theorem DuplicatePolicy.lookup_words_iff {word : String} {p : DuplicatePolicy} :
    words.lookup word = some p ↔ word = p.name := by
  have distinct : (words.map Prod.fst).Nodup := by decide
  rw [lookup_eq_some_iff_mem distinct]
  cases p <;> simp [words, name]

/-- The words for the policies spell the policies. -/
theorem Toml.Value.spells_words_iff {v : Toml.Value} {p : DuplicatePolicy} :
    v.Spells DuplicatePolicy.words p ↔ v.SpellsPolicy p := by
  constructor
  · rintro (h | h | h) <;> obtain rfl := DuplicatePolicy.lookup_words_iff.1 h
    · exact .word p
    · exact .table p
    · exact .array p
  · have h := DuplicatePolicy.lookup_words_iff.2 (Eq.refl p.name)
    rintro (_ | _ | _)
    · exact .word h
    · exact .table h
    · exact .array h

/-! ## Entries -/

variable {ε : Type} {R : Reader ε} {e : String × Toml.Value} {x y : ε}

namespace Config

variable (c : Config) (v : Toml.Value)

/-- A configuration after one more entry of a table. -/
def setting (R : Reader ε) (c : Config) (e : String × Toml.Value) : Except ε Config :=
  readField R.unknownField (fields R) c e

theorem setting_typeDisplayName : c.setting R ("type-display-name", v) =
    (R.text v).map fun name => { c with typeDisplayName := some name } := rfl

theorem setting_duplicatePolicy : c.setting R ("duplicate-policy", v) =
    (R.choice DuplicatePolicy.words v).map fun policy =>
      { c with duplicatePolicy := policy } := rfl

theorem setting_unknownField {key : String} (htype : key ≠ "type-display-name")
    (hpolicy : key ≠ "duplicate-policy") : c.setting R (key, v) =
    .error (R.unknownField key ["type-display-name", "duplicate-policy"]) := by
  rw [setting, readField, fields, lookup_cons_eq_ite, if_neg htype, lookup_cons_eq_ite,
    if_neg hpolicy]
  rfl

end Config

theorem Offends.setting_eq (h : Offends R e x) (c : Config) : c.setting R e = .error x := by
  cases h with
  | unknownField htype hpolicy => exact c.setting_unknownField _ htype hpolicy
  | notText h =>
    rw [Config.setting_typeDisplayName, h]
    rfl
  | notPolicy h =>
    rw [Config.setting_duplicatePolicy, h]
    rfl

theorem Offends.unique (h : Offends R e x) (h' : Offends R e y) : x = y :=
  Except.error.inj ((h.setting_eq {}).symm.trans (h'.setting_eq {}))

section

variable (lawful : R.Lawful)

include lawful

theorem choice_eq_ok_iff {v : Toml.Value} {p : DuplicatePolicy} :
    R.choice DuplicatePolicy.words v = .ok p ↔ v.SpellsPolicy p :=
  lawful.choice_eq_ok_iff.trans Toml.Value.spells_words_iff

theorem isSetting_or_offends (e : String × Toml.Value) : IsSetting e ∨ ∃ x, Offends R e x := by
  obtain ⟨key, v⟩ := e
  by_cases htype : key = "type-display-name"
  · subst htype
    cases h : R.text v with
    | ok name =>
      rw [lawful.text_eq_ok_iff.1 h]
      exact .inl (.typeDisplayName name)
    | error x => exact .inr ⟨x, .notText h⟩
  · by_cases hpolicy : key = "duplicate-policy"
    · subst hpolicy
      cases h : R.choice DuplicatePolicy.words v with
      | ok p => exact .inl (.duplicatePolicy ((choice_eq_ok_iff lawful).1 h))
      | error x => exact .inr ⟨x, .notPolicy h⟩
    · exact .inr ⟨_, .unknownField htype hpolicy⟩

theorem IsSetting.exists_setting_eq (h : IsSetting e) (c : Config) :
    ∃ c', c.setting R e = .ok c' := by
  cases h with
  | typeDisplayName name =>
    rw [Config.setting_typeDisplayName, lawful.text_eq_ok_iff.2 rfl]
    exact ⟨_, rfl⟩
  | duplicatePolicy h =>
    rw [Config.setting_duplicatePolicy, (choice_eq_ok_iff lawful).2 h]
    exact ⟨_, rfl⟩

theorem Offends.not_isSetting (h : Offends R e x) : ¬ IsSetting e := by
  intro hs
  obtain ⟨c, hc⟩ := hs.exists_setting_eq lawful {}
  cases hc.symm.trans (h.setting_eq {})

end

/-! ## Tables -/

namespace Config

variable {c c' : Config} {t t' : Toml.Table}

/-- All entries of a table are settings, and the configuration has just these: there is no display
name if none is given, and duplicates are ignored if no policy is given. -/
structure SpelledBy (c : Config) (t : Toml.Table) : Prop where
  settings : ∀ e ∈ t, IsSetting e
  typeDisplayName : ∀ name,
    c.typeDisplayName = some name ↔ ("type-display-name", .string name) ∈ t
  duplicatePolicy : ∀ v, ("duplicate-policy", v) ∈ t → v.SpellsPolicy c.duplicatePolicy
  ignore : "duplicate-policy" ∉ t.map Prod.fst → c.duplicatePolicy = .ignore

theorem SpelledBy.of_perm (h : c.SpelledBy t) (hp : t'.Perm t) : c.SpelledBy t' where
  settings e he := h.settings e (hp.mem_iff.1 he)
  typeDisplayName name := by rw [h.typeDisplayName, hp.mem_iff]
  duplicatePolicy v hv := h.duplicatePolicy v (hp.mem_iff.1 hv)
  ignore hn := h.ignore (by rwa [← (hp.map Prod.fst).mem_iff])

theorem SpelledBy.unique (h : c.SpelledBy t) (h' : c'.SpelledBy t) : c = c' := by
  have htype : c.typeDisplayName = c'.typeDisplayName := by
    refine Option.ext fun name => ?_
    rw [h.typeDisplayName, h'.typeDisplayName]
  have hpolicy : c.duplicatePolicy = c'.duplicatePolicy := by
    by_cases hkey : "duplicate-policy" ∈ t.map Prod.fst
    · obtain ⟨⟨_, v⟩, hv, rfl⟩ := List.mem_map.1 hkey
      exact (Toml.Value.spells_words_iff.2 (h.duplicatePolicy v hv)).unique
        (Toml.Value.spells_words_iff.2 (h'.duplicatePolicy v hv))
    · rw [h.ignore hkey, h'.ignore hkey]
  cases c
  cases c'
  exact congrArg₂ _ htype hpolicy

theorem SpelledBy.nil : SpelledBy {} [] := ⟨nofun, fun _ => by simp, nofun, fun _ => rfl⟩

def table (c : Config) : Toml.Table :=
  c.typeDisplayName.toList.map (fun name => ("type-display-name", .string name)) ++
    [("duplicate-policy", .string c.duplicatePolicy.name)]

theorem nodup_table (c : Config) : (c.table.map Prod.fst).Nodup := by
  obtain ⟨_ | name, p⟩ := c <;> simp [table]

theorem spelledBy_table (c : Config) : c.SpelledBy c.table := by
  obtain ⟨displayName, p⟩ := c
  refine ⟨?_, fun name => ?_, fun v hv => ?_, fun hn => ?_⟩
  · cases displayName <;> simp [table, IsSetting.typeDisplayName,
      IsSetting.duplicatePolicy (Toml.Value.SpellsPolicy.word p)]
  · cases displayName <;> simp [table, eq_comm]
  · obtain rfl : v = .string p.name := by simpa [table] using hv
    exact .word p
  · simp [table] at hn

section

variable (lawful : R.Lawful)

include lawful

/-- One more setting with a key of its own. -/
theorem SpelledBy.setting (h : c.SpelledBy t) (new : e.1 ∉ t.map Prod.fst)
    (hc : c.setting R e = .ok c') (he : IsSetting e) : c'.SpelledBy (t ++ [e]) := by
  have settings : ∀ e' ∈ t ++ [e], IsSetting e' := by
    rw [List.forall_mem_append, List.forall_mem_singleton]
    exact ⟨h.settings, he⟩
  have absent {v} (hkey : e.1 = "type-display-name" ∨ e.1 = "duplicate-policy") :
      (e.1, v) ∉ t := fun hv => new (List.mem_map.2 ⟨_, hv, rfl⟩)
  cases he with
  | typeDisplayName name =>
    rw [setting_typeDisplayName, lawful.text_eq_ok_iff.2 rfl] at hc
    obtain rfl := Except.ok.inj hc
    refine ⟨settings, fun name' => ?_, fun v hv => ?_, fun hn => h.ignore ?_⟩
    · simp [absent (.inl rfl), eq_comm]
    · exact h.duplicatePolicy v (by simpa using hv)
    · simpa using hn
  | @duplicatePolicy v p hv =>
    rw [setting_duplicatePolicy, (choice_eq_ok_iff lawful).2 hv] at hc
    obtain rfl := Except.ok.inj hc
    refine ⟨settings, fun name => ?_, fun v' hv' => ?_, fun hn => ?_⟩
    · simp [h.typeDisplayName]
    · rcases List.mem_append.1 hv' with hv' | hv'
      · exact absurd hv' (absent (.inr rfl))
      · cases List.mem_singleton.1 hv'
        exact hv
    · simp at hn

omit lawful in
/-- What a list of entries is read as. -/
inductive Reads (R : Reader ε) (t : Toml.Table) : Except ε Config → Prop
  | spelled {c : Config} : c.SpelledBy t → Reads R t (.ok c)
  | offended {before : Toml.Table} {e} {after : Toml.Table} {x} : t = before ++ e :: after →
      (∀ e' ∈ before, IsSetting e') → Offends R e x → Reads R t (.error x)

/-- Entries with distinct keys are read one after the other, up to the first one that offends. -/
theorem reads (distinct : (t.map Prod.fst).Nodup) :
    Reads R t (t.foldlM (Config.setting R) {}) := by
  induction t using List.reverseRecOn with
  | nil => exact .spelled .nil
  | append_singleton t e ih =>
    rw [List.map_append, List.map_singleton, ← List.concat_eq_append, List.nodup_concat] at distinct
    obtain ⟨new, distinct⟩ := distinct
    have last : (t ++ [e]).foldlM (Config.setting R) {} =
        (t.foldlM (Config.setting R) {}).bind fun c => c.setting R e := by
      rw [List.foldlM_append]
      exact congrArg _ (funext fun c => bind_pure (c.setting R e))
    rw [last]
    generalize t.foldlM (Config.setting R) {} = o at ih
    cases ih distinct with
    | @spelled c hc =>
      show Reads R (t ++ [e]) (c.setting R e)
      rcases isSetting_or_offends lawful e with he | ⟨x, hx⟩
      · obtain ⟨c', hc'⟩ := he.exists_setting_eq lawful c
        rw [hc']
        exact .spelled (hc.setting lawful new hc' he)
      · rw [hx.setting_eq]
        exact .offended rfl hc.settings hx
    | @offended before e' after x hl settings hx =>
      have hl' : t ++ [e] = before ++ e' :: (after ++ [e]) := by
        rw [hl, List.append_assoc, List.cons_append]
      exact .offended hl' settings hx

theorem reads_present (distinct : (t.map Prod.fst).Nodup) :
    Reads R (R.present t) (ofTable R t) := by
  rw [ofTable, lawful.record_eq]
  exact reads lawful (((lawful.perm t).map Prod.fst).nodup_iff.2 distinct)

theorem ofTable_eq_ok_iff (distinct : (t.map Prod.fst).Nodup) :
    ofTable R t = .ok c ↔ c.SpelledBy t := by
  have h := reads_present lawful distinct
  generalize ofTable R t = o at h
  cases h with
  | spelled hc =>
    have hc := hc.of_perm (lawful.perm t).symm
    constructor
    · intro heq
      exact Except.ok.inj heq ▸ hc
    · intro hc'
      rw [hc.unique hc']
  | @offended before e after x hl settings hx =>
    have he : e ∈ t := (lawful.perm t).mem_iff.1 (by simp [hl])
    exact ⟨nofun, fun hc => absurd (hc.settings e he) (hx.not_isSetting lawful)⟩

theorem ofTable_eq_error_iff (distinct : (t.map Prod.fst).Nodup) :
    ofTable R t = .error x ↔
      ∃ e ∈ t, Offends R e x ∧ ∀ e' ∈ t, ¬ IsSetting e' → utf8 e.1 ≤ utf8 e'.1 := by
  have h := reads_present lawful distinct
  generalize ofTable R t = o at h
  cases h with
  | spelled hc =>
    refine ⟨nofun, ?_⟩
    rintro ⟨e, he, hx, -⟩
    exact absurd (hc.settings e ((lawful.perm t).mem_iff.2 he)) (hx.not_isSetting lawful)
  | @offended before e after y hl settings hy =>
    have he : e ∈ t := (lawful.perm t).mem_iff.1 (by simp [hl])
    have least : ∀ e' ∈ t, ¬ IsSetting e' → utf8 e.1 ≤ utf8 e'.1 := by
      intro e' he' hno
      rw [← (lawful.perm t).mem_iff, hl, List.mem_append, List.mem_cons] at he'
      rcases he' with hbefore | rfl | hafter
      · exact absurd (settings e' hbefore) hno
      · exact le_rfl
      · have ascending := lawful.ascending t
        rw [hl, List.pairwise_append] at ascending
        exact (List.pairwise_cons.1 ascending.2.1).1 e' hafter
    constructor
    · intro heq
      exact ⟨e, he, Except.error.inj heq ▸ hy, least⟩
    · rintro ⟨e', he', hx, least'⟩
      -- Both keys are the least one that offends.
      have hkey : e'.1 = e.1 := utf8_strictMono.injective
        (le_antisymm (least' e he (hy.not_isSetting lawful))
          (least e' he' (hx.not_isSetting lawful)))
      obtain rfl := List.inj_on_of_nodup_map distinct he' he hkey
      rw [hx.unique hy]

theorem ofTable_eq_of_perm (distinct : (t.map Prod.fst).Nodup) (h : t'.Perm t) :
    ofTable R t' = ofTable R t := by
  have distinct' := ((h.map Prod.fst).nodup_iff).2 distinct
  cases heq : ofTable R t with
  | ok c =>
    rw [ofTable_eq_ok_iff lawful distinct] at heq
    exact (ofTable_eq_ok_iff lawful distinct').2 (heq.of_perm h)
  | error x =>
    rw [ofTable_eq_error_iff lawful distinct] at heq
    rw [ofTable_eq_error_iff lawful distinct']
    simpa only [h.mem_iff] using heq

end

/-! ## Documents -/

variable {text : String}

theorem parse_of_document (valid : R.document text = .ok t) :
    parse R text = (ofTable R t).mapError .parse := by
  rw [parse, valid]
  rfl

/-- **Which documents are configurations.** Let a text be a well-formed document, for a reader that
can be relied on. It is read as a configuration exactly if each of its entries is a setting, and
then the configuration has just these settings. Otherwise what is wrong with it is what is wrong
with one of the entries that are no settings, the one whose key comes first in the order of bytes.

So only the entries count and not their order, and every configuration is what the table that spells
it out is read as. -/
theorem parse_of_table {ε : Type} (R : Reader ε) (lawful : R.Lawful) (text : String)
    (t : Toml.Table) (valid : R.document text = .ok t) :
    ((∃ c, parse R text = .ok c) ↔ ∀ e ∈ t, IsSetting e) ∧
      (∀ c, parse R text = .ok c ↔ c.SpelledBy t) ∧
      (∀ x, parse R text = .error x ↔ ∃ e ∈ t, ∃ y, x = .parse y ∧ Offends R e y ∧
        ∀ e' ∈ t, ¬ IsSetting e' → utf8 e.1 ≤ utf8 e'.1) ∧
      (∀ text' t', R.document text' = .ok t' → t'.Perm t → parse R text' = parse R text) ∧
      ∀ c : Config, ofTable R c.table = .ok c := by
  have distinct := lawful.distinct valid
  have ok_iff (c : Config) : parse R text = .ok c ↔ c.SpelledBy t := by
    rw [parse_of_document valid, ← ofTable_eq_ok_iff lawful distinct]
    cases ofTable R t <;> simp [Except.mapError]
  have error_iff (x : ConfigError ε) : parse R text = .error x ↔ ∃ e ∈ t, ∃ y, x = .parse y ∧
      Offends R e y ∧ ∀ e' ∈ t, ¬ IsSetting e' → utf8 e.1 ≤ utf8 e'.1 := by
    obtain ⟨y⟩ := x
    have h : parse R text = .error (.parse y) ↔ ofTable R t = .error y := by
      rw [parse_of_document valid]
      cases ofTable R t <;> simp [Except.mapError]
    rw [h, ofTable_eq_error_iff lawful distinct]
    simp only [ConfigError.parse.injEq, exists_eq_left']
  refine ⟨⟨?_, fun settings => ?_⟩, ok_iff, error_iff, fun text' t' valid' hp => ?_, fun c => ?_⟩
  · rintro ⟨c, hc⟩
    exact ((ok_iff c).1 hc).settings
  · cases h : parse R text with
    | ok c => exact ⟨c, rfl⟩
    | error x =>
      obtain ⟨e, he, y, -, hy, -⟩ := (error_iff x).1 h
      exact absurd (settings e he) (hy.not_isSetting lawful)
  · rw [parse_of_document valid', parse_of_document valid, ofTable_eq_of_perm lawful distinct hp]
  · exact (ofTable_eq_ok_iff lawful c.nodup_table).2 c.spelledBy_table

/-! A document with two entries that are no settings. The second one comes first in the order of
bytes, as it does in another document with the same entries. And a document without fault. -/

def twoFaults : String := "type-display-name = true\nduplicate-policy = \"explode\"\n"

def twoFaultsTurned : String := "'duplicate-policy' = 'explode'\ntype-display-name = true"

def noFault : String := "type-display-name = \"Task\"\n\n[duplicate-policy]\nfail = []\n"

def nameFault : String × Toml.Value := ("type-display-name", .boolean true)

def policyFault : String × Toml.Value := ("duplicate-policy", .string "explode")

theorem document_twoFaults : Toml.reader.document twoFaults = .ok [nameFault, policyFault] :=
  Toml.document_eq_ok_iff.2 (by decide +kernel)

theorem document_twoFaultsTurned :
    Toml.reader.document twoFaultsTurned = .ok [policyFault, nameFault] :=
  Toml.document_eq_ok_iff.2 (by decide +kernel)

theorem document_noFault : Toml.reader.document noFault =
    .ok [("type-display-name", .string "Task"),
      ("duplicate-policy", .table [("fail", .array [])])] :=
  Toml.document_eq_ok_iff.2 (by decide +kernel)

theorem parse_of_table_toml :
    parse Toml.reader noFault = .ok ⟨some "Task", .fail⟩ ∧
      parse Toml.reader twoFaults =
        .error (.parse (.unknownVariant "explode" ["ignore", "fail"])) ∧
      parse Toml.reader twoFaultsTurned =
        .error (.parse (.unknownVariant "explode" ["ignore", "fail"])) := by
  obtain ⟨-, ok_iff, -⟩ := parse_of_table _ Toml.reader_lawful _ _ document_noFault
  obtain ⟨-, -, error_iff, turned, -⟩ :=
    parse_of_table _ Toml.reader_lawful _ _ document_twoFaults
  have fail : Toml.Value.SpellsPolicy (.table [("fail", .array [])]) .fail := .array .fail
  have spelled : SpelledBy ⟨some "Task", .fail⟩ [("type-display-name", .string "Task"),
      ("duplicate-policy", .table [("fail", .array [])])] := by
    refine ⟨?_, fun name => ?_, fun v hv => ?_, fun hn => ?_⟩
    · simp [IsSetting.typeDisplayName, IsSetting.duplicatePolicy fail]
    · simp [eq_comm]
    · obtain rfl : v = .table [("fail", .array [])] := by simpa using hv
      exact fail
    · simp at hn
  have hkey : utf8 "duplicate-policy" ≤ utf8 "type-display-name" := utf8_le_iff.2 (by decide)
  have error : parse Toml.reader twoFaults =
      .error (.parse (.unknownVariant "explode" ["ignore", "fail"])) := by
    refine (error_iff _).2 ⟨policyFault, by simp, _, rfl, .notPolicy rfl, fun e he _ => ?_⟩
    rcases List.mem_pair.1 he with rfl | rfl
    · exact hkey
    · exact le_rfl
  exact ⟨(ok_iff _).2 spelled, error,
    (turned _ _ document_twoFaultsTurned (.swap _ _ _)).trans error⟩

end Config

end NameRegistry
