import NameRegistry.Filter

/-!
# Stores

A store is an ordered list of members. Its discipline says which entities it takes in and which
it gives up. A view of a store holds no members itself.

* `Discipline` : the two decisions. A refusal changes nothing.
* `Discipline.distinct` : members are pairwise different, and any may leave.
* `Discipline.keeping`, `Discipline.bounded`, `Discipline.closed` : stores that refuse more.
* `StoreRef` : a store, or a view of a store or view.
* `scan` : the first member with a property, and the members that were looked at.
* `Stores` : what stores do when they are asked. `Stores.listed` is what they do as lists with a
  discipline, and everything else is about these unless it says otherwise.
-/

namespace NameRegistry

variable {μ α : Type}

/-- What a store does with an entity to be taken in or given up: the new list of members, or a
refusal. -/
structure Discipline (μ α : Type) where
  insert : μ → α → List α → Option (List α)
  erase : μ → α → List α → Option (List α)

namespace Discipline

/-- Equal entities are refused, and the first equal member leaves. -/
def distinct (same : μ → α → α → Bool) : Discipline μ α where
  insert m e l := if l.any (same m · e) then none else some (l ++ [e])
  erase m e l := if l.any (same m · e) then some (l.eraseP (same m · e)) else none

/-- No member ever leaves. -/
def keeping (same : μ → α → α → Bool) : Discipline μ α :=
  { distinct same with erase := fun _ _ _ => none }

/-- At most `capacity` members are taken in. -/
def bounded (same : μ → α → α → Bool) (capacity : Nat) : Discipline μ α :=
  { distinct same with
    insert := fun m e l => if capacity ≤ l.length then none else (distinct same).insert m e l }

def closed : Discipline μ α := ⟨fun _ _ _ => none, fun _ _ _ => none⟩

end Discipline

/-- A store: its members in order, and its discipline. -/
structure Store (μ α : Type) where
  members : List α
  discipline : Discipline μ α

/-- A store, by its number, or a view of a store or view. -/
inductive StoreRef (μ α : Type) where
  | root (number : Nat)
  | view (parent : StoreRef μ α) (filter : Filter μ α)

/-- The first entity with a property, and all that were looked at to find it. -/
def scan (p : α → Bool) : List α → Option α × List α
  | [] => (none, [])
  | e :: l =>
    if p e then (some e, [e])
    else
      let (found, looked) := scan p l
      (found, e :: looked)

theorem scan_fst (p : α → Bool) (l : List α) : (scan p l).1 = l.find? p := by
  induction l with
  | nil => rfl
  | cons e l ih => by_cases h : p e <;> simp [scan, h, ih]

/-! ## What stores do -/

/-- What stores do when they are asked, each known by its number. What a store knows besides its
members is part of the memory, which it may write to when it takes in, gives up or refuses an
entity. Reading a store changes nothing. -/
class Stores (μ α : Type) where
  /-- The members, in the order in which they are visited. -/
  visit : μ → Nat → Store μ α → List α
  /-- The member with a property that is found, and those that are looked at to find it. -/
  find : μ → Nat → Store μ α → (α → Bool) → Option α × List α
  /-- The number of members. -/
  len : μ → Nat → Store μ α → Nat
  /-- Takes an entity in: the new members, or a refusal. -/
  insert : μ → Nat → Store μ α → α → Option (List α × μ)
  /-- Gives an entity up: the new members, or a refusal. -/
  erase : μ → Nat → Store μ α → α → Option (List α × μ)
  /-- What is left by a refusal to take an entity in. -/
  refuseInsert : μ → Nat → Store μ α → α → List α × μ
  /-- What is left by a refusal to give an entity up. -/
  refuseErase : μ → Nat → Store μ α → α → List α × μ

/-- Stores that are lists with a discipline. -/
instance Stores.listed : Stores μ α where
  visit _ _ s := s.members
  find _ _ s p := scan p s.members
  len _ _ s := s.members.length
  insert m _ s e := (s.discipline.insert m e s.members).map (·, m)
  erase m _ s e := (s.discipline.erase m e s.members).map (·, m)
  refuseInsert m _ s _ := (s.members, m)
  refuseErase m _ s _ := (s.members, m)

end NameRegistry
