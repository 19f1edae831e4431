import NameRegistry.Proofs.FlatView
import NameRegistry.Proofs.NameMap

/-!
# What a registry says of its members

A registry is asked for its members in many ways: for all of them, for their number, for their
names, for a map from names, or for the one with a name. All answers say the same.

* `World.Answers` : a program asks the library something and is answered at once.
* `Listing.mem_names_iff`, `Listing.names_eq_keys` : the names, and the keys of the name map, are
  the names of the members.
* `toNat_lt_of_lt` : names are ordered by the code points of their characters.

A look-up goes down a chain of views with a property of an entity of the last one, and narrows what
it finds on the way back (`World.seek`), while the members are narrowed one view after the other
(`World.shown`). So a look-up and a list agree by induction on the chain (`World.seek_fst`), and a
list is that of the store behind all views, narrowed by all filters (`World.shown_eq`). A view has
no number of its own: it counts in one visit through the chain what a list collects in another
(`World.len_eq`).

Main result: `readings_agree`.
-/

namespace NameRegistry

variable {μ σ α β : Type}

/-! ## Names -/

/-- Names are ordered by the code points of their characters. -/
theorem toNat_lt_of_lt {a b : String} (h : a < b) :
    a.toList.map Char.toNat < b.toList.map Char.toNat := by
  apply List.map_lt
  · intro x y hxy
    exact hxy
  · exact String.lt_iff_toList_lt.1 h

namespace Listing

variable (l : Listing α)

theorem mem_names_iff (name : String) : name ∈ l.names ↔ ∃ x ∈ l.entries, x.1 = name := by
  rw [names, mem_sortedNames, List.mem_map]

theorem names_eq_keys : l.names = l.nameMap.map Prod.fst := by
  rw [nameMap, NameMap.map_fst_ofEntries, names]

theorem isSome_lookup_nameMap_iff (name : String) :
    (l.nameMap.lookup name).isSome ↔ name ∈ l.names := by
  rw [names_eq_keys, Option.isSome_iff_ne_none, Ne, lookup_eq_none_iff_not_mem, not_not]

end Listing

/-! ## Answers -/

namespace World

theorem exists_entry_iff (w : World μ σ α β) (r : ℕ) (name : String) :
    (∃ x ∈ (w.listing r).entries, x.1 = name) ↔
      ∃ e ∈ (w.listing r).members, w.nameOf r e = name := by
  simp [listing, Listing.members]

theorem isSome_direct_iff (w : World μ σ α β) (r : ℕ) (name : String) :
    (w.direct r name).isSome ↔ ∃ e ∈ (w.listing r).members, w.nameOf r e = name := by
  rw [direct_eq, members_eq_shown, List.find?_isSome]
  simp only [beq_iff_eq]

variable [Memory μ α] (C : Client μ σ α β) (w : World μ σ α β)

/-- A program asks the library something and is answered at once. Nothing changes. -/
def Answers {ρ : Type} (p : Prog μ σ α β ρ) (a : ρ) : Prop :=
  ∀ (stack : List (Frame μ σ α β)) (k : ρ → Prog μ σ α β Verdict),
    State.Step C ⟨w, stack, p.bind k⟩ ⟨w, stack, k a⟩

theorem answers_look (r : ℕ) : w.Answers C (.look r) (w.listing r) := by
  intro stack k
  exact .answer rfl

theorem answers_shown (s : StoreRef μ α) : w.Answers C (.shown s) (w.shown s) := by
  intro stack k
  exact .answer rfl

theorem answers_hasName (r : ℕ) (name : String) :
    w.Answers C (.hasName r name) (w.direct r name).isSome := by
  intro stack k
  exact .answer rfl

/-- A registry without rules looks a name up as it does without applying them. -/
theorem answers_find {r : ℕ} (rules : (w.registry r).rules = []) (name : String) :
    w.Answers C (.find r name) (.ok (w.direct r name)) := by
  intro stack k
  cases hd : w.direct r name with
  | some e =>
    apply State.Step.answer
    simp only [respond, hd]
  | none =>
    by_cases hf : name ∈ (w.registry r).inFlight
    · apply State.Step.answer
      simp only [respond, hd, if_pos hf]
    · have hresp : w.respond C (.find r name) = (w, .resolve r name id) := by
        simp only [respond, hd, if_neg hf]
      rw [← hd]
      exact .miss hresp rules

end World

/-- **All readings agree.** Let a registry without rules be at the end of any chain of views. Its
members, of which several may have one name, are those of the store behind the chain, in their
order, narrowed by one filter after the other; and their number is the length of the list.

For every name, a look-up answers the first member of the list that has it. It finds one, the name
is taken, it is among the names, and it is a key of the name map, exactly if some member of the list
has it. The names are the keys of the name map, and ascend strictly by code point. -/
theorem readings_agree [Memory μ α] (C : Client μ σ α β) (w : World μ σ α β) (r : ℕ)
    (rules : (w.registry r).rules = []) :
    let s := (w.registry r).store
    let l := w.listing r
    w.Answers C (.look r) l ∧ w.Answers C (.shown s) l.members ∧
      l.members = (w.store s.number).members.filterMap (narrowAll w.memory s.filters) ∧
      l.size = l.members.length ∧ (l.isEmpty ↔ l.members = []) ∧
      l.names = l.nameMap.map Prod.fst ∧
      l.names.Pairwise (fun a b => a.toList.map Char.toNat < b.toList.map Char.toNat) ∧
      ∀ name, w.Answers C (.find r name) (.ok (w.direct r name)) ∧
        w.Answers C (.hasName r name) (w.direct r name).isSome ∧
        w.direct r name = l.members.find? (w.nameOf r · == name) ∧
        ((w.direct r name).isSome ↔ ∃ e ∈ l.members, w.nameOf r e = name) ∧
        (name ∈ l.names ↔ ∃ e ∈ l.members, w.nameOf r e = name) ∧
        ((l.nameMap.lookup name).isSome ↔ ∃ e ∈ l.members, w.nameOf r e = name) := by
  intro s l
  have members : l.members = w.shown s := w.members_eq_shown r
  have size : l.size = l.members.length := by
    rw [members]
    exact w.len_eq s
  refine ⟨w.answers_look C r, ?_, ?_, size, ?_, l.names_eq_keys, ?_, fun name =>
    ⟨w.answers_find C rules name, w.answers_hasName C r name, ?_, w.isSome_direct_iff r name,
      ?_, ?_⟩⟩
  · rw [members]
    exact w.answers_shown C s
  · rw [members, w.shown_eq]
  · rw [Listing.isEmpty, beq_iff_eq, size, List.length_eq_zero_iff]
  · exact (pairwise_sortedNames _).imp toNat_lt_of_lt
  · rw [members, w.direct_eq]
  · rw [l.mem_names_iff, w.exists_entry_iff]
  · rw [l.isSome_lookup_nameMap_iff, l.mem_names_iff, w.exists_entry_iff]

/-! A registry of numbers, a view of those that are not zero, and a view of that which counts from
zero. Two of the members that it shows have one name. -/

def numbersWorld : World Unit (List ℕ) ℕ Unit where
  memory := ()
  client := []
  stores := [⟨[0, 3, 5, 1], .distinct fun _ => (· == ·)⟩]
  channels := [{}]
  registries := [{ numbers.through fromZero with hooks := .default }]

theorem readings_agree_fromZero :
    (numbersWorld.registry 0).rules = [] ∧ (numbersWorld.listing 0).members = [2, 4, 0] ∧
      (numbersWorld.listing 0).names = ["one", "other"] ∧
      numbersWorld.Answers notes (.find 0 "other") (.ok (some 2)) ∧
      "other" ∈ (numbersWorld.listing 0).names := by
  obtain ⟨-, -, -, -, -, -, -, h⟩ := readings_agree notes numbersWorld 0 rfl
  obtain ⟨find, -, -, -, names, -⟩ := h "other"
  exact ⟨rfl, by decide, by decide, find, names.2 ⟨2, by decide, by decide⟩⟩

end NameRegistry
