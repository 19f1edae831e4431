import NameRegistry.Proofs.Family
import NameRegistry.Proofs.NameMap

/-!
# Members of one name

A view looks only at what it shows before it adds, so it may add an entity whose name a hidden
member has. Then two members of the registry behind the view have one name.

* `nameMap_lookup_eq_last` : the plain look-up of a registry finds the first member with a name, and
  its name map holds the last one.
* `not_nameMap_eq_direct` : so they need not be the same.
-/

namespace NameRegistry

variable {μ σ α β : Type}

theorem lookup_filter_fst (l : List (String × α)) (name : String) :
    (l.filter (·.1 == name)).lookup name = l.lookup name := by
  induction l with
  | nil => rfl
  | cons e l ih =>
    rw [List.filter_cons, lookup_cons_eq_ite]
    by_cases h : name = e.1
    · rw [if_pos (by rw [h, beq_self_eq_true]), lookup_cons_eq_ite, if_pos h, if_pos h]
    · rw [if_neg (by simpa using Ne.symm h), if_neg h, ih]

theorem lookup_reverse_of_count_le_one {l : List (String × α)} {name : String}
    (h : (l.map Prod.fst).count name ≤ 1) : l.reverse.lookup name = l.lookup name := by
  have hlen : (l.filter (·.1 == name)).length ≤ 1 := by
    rwa [List.count, List.countP_map, List.countP_eq_length_filter] at h
  have hrev : (l.filter (·.1 == name)).reverse = l.filter (·.1 == name) := by
    rcases Nat.le_one_iff_eq_zero_or_eq_one.1 hlen with hf | hf
    · rw [List.eq_nil_of_length_eq_zero hf, List.reverse_nil]
    · obtain ⟨e, he⟩ := List.length_eq_one_iff.1 hf
      rw [he, List.reverse_singleton]
  rw [← lookup_filter_fst, List.filter_reverse, hrev, lookup_filter_fst]

/-- **The first and the last of a name.** The plain look-up of a registry finds the first member
with a name in store order, and the name map holds the last one. Either both have a member for the
name or none has, and if one member at most has the name, they have the same. -/
theorem nameMap_lookup_eq_last (w : World μ σ α β) (r : Nat) (name : String) :
    w.direct r name = (w.listing r).entries.lookup name ∧
      (w.listing r).nameMap.lookup name = (w.listing r).entries.reverse.lookup name ∧
      ((w.listing r).nameMap.lookup name = none ↔ w.direct r name = none) ∧
      (((w.listing r).entries.map Prod.fst).count name ≤ 1 →
        (w.listing r).nameMap.lookup name = w.direct r name) := by
  have last : (w.listing r).nameMap.lookup name = (w.listing r).entries.reverse.lookup name :=
    NameMap.lookup_ofEntries _ name
  refine ⟨w.direct_eq_lookup r name, last, ?_, fun h => ?_⟩
  · rw [last, w.direct_eq_lookup, lookup_eq_none_iff_not_mem, lookup_eq_none_iff_not_mem,
      List.map_reverse, List.mem_reverse]
  · rw [last, w.direct_eq_lookup, lookup_reverse_of_count_le_one h]

/-! Entities are names, marked or not, and a view shows those that are marked. A name is added
without a mark to the registry, and with one through the view. -/

def markedNames : Parts Unit (Bool × String) := ⟨fun _ e => e.2, "String", .root 0, .root 0⟩

def addNamesakes : State Unit Unit (Bool × String) Unit where
  world :=
    { memory := ()
      client := ()
      stores := [.ofDistinct []]
      channels := [{}]
      registries := [{ markedNames with hooks := .default },
        { markedNames.filtered (.matching fun _ e => e.1) "String" with hooks := .default }] }
  stack := []
  control := .call (.add 0 (false, "x")) fun _ => .call (.add 1 (true, "x")) fun _ =>
    .done (.ok ())

def silentClient : Client Unit Unit (Bool × String) Unit :=
  ⟨fun _ _ _ => .done (.ok ()), fun _ _ => .done ()⟩

/-- In a run in which a family adds to a store that had no members, the name map of a registry of
the family may hold another member than the plain look-up finds. -/
theorem not_nameMap_eq_direct :
    ¬ ∀ ρ : Run silentClient, (ρ 0).world.stores[0]? = some (.ofDistinct []) →
      (∀ n, (ρ n).Within 0 0) → ∀ n r name, Family 0 0 ((ρ n).world.registry r).toParts →
        ((ρ n).world.listing r).nameMap.lookup name = (ρ n).world.direct r name := by
  intro h
  have root : Family 0 0 markedNames := .root _ _
  have within (n : ℕ) : (Run.of silentClient addNamesakes n).Within 0 0 := by
    match n with
    | 0 =>
      intro _ _ h
      cases h
      exact .inl root
    | 2 =>
      intro _ _ h
      cases h
      exact .inl (.view _ _ root)
    | 1 | 3 | 4 | _ + 5 => exact State.Within.of_done rfl
  have hx := h (.of silentClient addNamesakes) rfl within 4 0 "x" root
  exact absurd hx (by decide)

end NameRegistry
