import NameRegistry.Error

/-!
# Errors behind errors

A rule that looks up another name may fail with the error of that lookup, which may be that another
rule failed, and so on. So an error stands at the end of a chain of rules.

* `RegistryError.behind`, `RuleError.behind` : an error behind rules that failed one in the other.
* `RegistryError.Missing`, `RegistryError.Stuck` : the errors that end a chain.
* `RegistryError.look`, `RegistryError.rootWithin` : the search for the missing name, one error
  after the other.
* `RuleError.sourceAfter` : what is found when errors are followed to their sources.

Every registry error is a missing name or a stuck error behind a number of rules
(`RegistryError.exists_behind`). So what is said of an error behind rules, by induction on the
rules, is said of all errors.

Main result: `root_of_behind`.
-/

namespace NameRegistry

namespace RegistryError

variable {x b : RegistryError} {ds : List String}

/-- The error of a rule that failed with the error of another rule, and so on, with an error behind
them all. The outermost rule comes first. -/
def behind (x : RegistryError) : List String → RegistryError
  | [] => x
  | d :: ds => .rule d (.registry (x.behind ds))

inductive Missing : RegistryError → Prop
  | notFound (name message : String) : Missing (.notFound name message)

/-- No name is missing, and no registry error is the reason. -/
inductive Stuck : RegistryError → Prop
  | duplicate (typeName name : String) : Stuck (.duplicate typeName name)
  | storeContract (name : String) : Stuck (.storeContract name)
  | text (description message : String) : Stuck (.rule description (.text message))
  /-- It does not matter what is behind an error of another kind. -/
  | wrapped (description message : String) (source : RuleError) :
      Stuck (.rule description (.wrapped message source))

theorem exists_behind : ∀ x : RegistryError, ∃ b ds, x = behind b ds ∧ (b.Missing ∨ b.Stuck)
  | .notFound name message => ⟨_, [], rfl, .inl (.notFound name message)⟩
  | .duplicate typeName name => ⟨_, [], rfl, .inr (.duplicate typeName name)⟩
  | .storeContract name => ⟨_, [], rfl, .inr (.storeContract name)⟩
  | .rule d (.text message) => ⟨_, [], rfl, .inr (.text d message)⟩
  | .rule d (.wrapped message source) => ⟨_, [], rfl, .inr (.wrapped d message source)⟩
  | .rule d (.registry x) => by
    obtain ⟨b, ds, rfl, hb⟩ := exists_behind x
    exact ⟨b, d :: ds, rfl, hb⟩

/-! ## The missing name -/

/-- The missing name at the root of a chain of failed rules is that of the error behind them. -/
theorem rootNotFound?_behind (x : RegistryError) (ds : List String) :
    (x.behind ds).rootNotFound? = x.rootNotFound? := by
  induction ds with
  | nil => rfl
  | cons d ds ih =>
    rw [behind, rootNotFound?, RuleError.rootNotFound?]
    exact ih

theorem Missing.rootNotFound?_eq (h : b.Missing) : b.rootNotFound? = some b := by
  cases h
  rfl

theorem Stuck.rootNotFound?_eq (h : b.Stuck) : b.rootNotFound? = none := by
  cases h <;> rfl

theorem rootNotFound?_eq_some_iff :
    x.rootNotFound? = some b ↔ b.Missing ∧ ∃ ds, x = b.behind ds := by
  constructor
  · intro h
    obtain ⟨b', ds, rfl, missing | stuck⟩ := exists_behind x
    · rw [rootNotFound?_behind, missing.rootNotFound?_eq] at h
      obtain rfl := Option.some.inj h
      exact ⟨missing, ds, rfl⟩
    · rw [rootNotFound?_behind, stuck.rootNotFound?_eq] at h
      cases h
  · rintro ⟨missing, ds, rfl⟩
    rw [rootNotFound?_behind, missing.rootNotFound?_eq]

theorem rootNotFound?_eq_none_iff :
    x.rootNotFound? = none ↔ ∃ b ds, x = behind b ds ∧ b.Stuck := by
  constructor
  · intro h
    obtain ⟨b, ds, rfl, missing | stuck⟩ := exists_behind x
    · rw [rootNotFound?_behind, missing.rootNotFound?_eq] at h
      cases h
    · exact ⟨b, ds, rfl, stuck⟩
  · rintro ⟨b, ds, rfl, stuck⟩
    rw [rootNotFound?_behind, stuck.rootNotFound?_eq]

/-! ## The search -/

/-- What one look at an error gives: the answer of the search, or the error to look at next. -/
def look : RegistryError → Option RegistryError ⊕ RegistryError
  | .notFound name message => .inl (some (.notFound name message))
  | .rule _ (.registry x) => .inr x
  | .rule _ _ | .duplicate _ _ | .storeContract _ => .inl none

/-- The answer of a search that takes at most a number of looks, if it has one by then. -/
def rootWithin : Nat → RegistryError → Option (Option RegistryError)
  | 0, _ => none
  | n + 1, x =>
    match x.look with
    | .inl answer => some answer
    | .inr y => y.rootWithin n

/-- The search looks at every rule once, and at the error behind them. -/
theorem rootWithin_behind (hb : b.Missing ∨ b.Stuck) (ds : List String) :
    (b.behind ds).rootWithin (ds.length + 1) = some b.rootNotFound? := by
  induction ds with
  | nil =>
    rcases hb with missing | stuck
    · cases missing
      rfl
    · cases stuck <;> rfl
  | cons d ds ih => exact ih

theorem exists_rootWithin (x : RegistryError) : ∃ n, x.rootWithin n = some x.rootNotFound? := by
  obtain ⟨b, ds, rfl, hb⟩ := exists_behind x
  refine ⟨ds.length + 1, ?_⟩
  rw [rootWithin_behind hb, rootNotFound?_behind]

end RegistryError

/-! ## The text and the sources -/

namespace RuleError

/-- Any error behind rules that failed one in the other. The outermost rule comes first. -/
def behind (b : RuleError) : List String → RuleError
  | [] => b
  | d :: ds => .registry (.rule d (b.behind ds))

theorem registry_behind (x : RegistryError) (ds : List String) :
    registry (x.behind ds) = (registry x).behind ds := by
  induction ds with
  | nil => rfl
  | cons d ds ih => rw [behind, RegistryError.behind, ih]

/-- What a failed rule says before the text of its error. -/
def preface (description : String) : String := "rule '" ++ description ++ "' failed: "

theorem message_rule (description : String) (source : RuleError) :
    (registry (.rule description source)).message = preface description ++ source.message := rfl

theorem message_behind (b : RuleError) (ds : List String) :
    (b.behind ds).message = String.join (ds.map preface) ++ b.message := by
  induction ds with
  | nil => rw [behind, List.map_nil, String.join_nil, String.empty_append]
  | cons d ds ih =>
    rw [behind, message_rule, ih, List.map_cons, String.join_cons, String.append_assoc]

/-- The error that is found when sources are followed a number of times. -/
def sourceAfter : Nat → RuleError → Option RuleError
  | 0, x => some x
  | n + 1, x => x.source? >>= sourceAfter n

theorem sourceAfter_behind (b : RuleError) (ds : List String) :
    (b.behind ds).sourceAfter ds.length = some b := by
  induction ds with
  | nil => rfl
  | cons d ds ih => exact ih

end RuleError

/-- **Errors behind rules.** The search for the missing name behind a registry error comes to an
end, and its answer is what `RegistryError.rootNotFound?` says.

* It is an error exactly if that error is a missing name, and the given one is that error behind a
  number of rules, each of which failed with the next.
* There is no answer exactly if behind such rules there is a taken name, a store that breaks its
  contract, or a rule that failed with an error which is itself no registry error, whatever is
  behind that one.

The text of any error behind rules is what each of the rules says, from the outermost on, and then
the text of the error. It is reached when sources are followed once for each rule. -/
theorem root_of_behind (x : RegistryError) :
    (∃ looks, x.rootWithin looks = some x.rootNotFound?) ∧
      (∀ b, x.rootNotFound? = some b ↔ b.Missing ∧ ∃ ds, x = b.behind ds) ∧
      (x.rootNotFound? = none ↔ ∃ b ds, x = RegistryError.behind b ds ∧ b.Stuck) ∧
      (∀ ds, RuleError.registry (x.behind ds) = (RuleError.registry x).behind ds) ∧
      ∀ (b : RuleError) (ds : List String),
        (b.behind ds).message =
          String.join (ds.map fun d => "rule '" ++ d ++ "' failed: ") ++ b.message ∧
        (b.behind ds).sourceAfter ds.length = some b := by
  refine ⟨x.exists_rootWithin, ?_, RegistryError.rootNotFound?_eq_none_iff, ?_, ?_⟩
  · intro b
    exact RegistryError.rootNotFound?_eq_some_iff
  · intro ds
    exact RuleError.registry_behind x ds
  · intro b ds
    exact ⟨b.message_behind ds, b.sourceAfter_behind ds⟩

/-- A missing name behind an error of another kind is not seen, though the sources lead to it. -/
example :
    (RegistryError.rule "a" (.wrapped "b" (.registry (.missing "Widget" "c")))).rootNotFound? =
      none := rfl

end NameRegistry
