import NameRegistry.Proofs.NameMap
import Mathlib.Data.List.Nodup

/-!
# Ordered maps

A map from names to entities that keeps the order of insertion, as which a registry appears to a
client that knows members by their names.

* `OrderedMap` : a list of bindings with distinct names.
* `OrderedMap.add`, `OrderedMap.erase` : the two changes. A name that is bound stays so, and what
  is left keeps its order.
* `Kind` : how entities are named and compared, and what is configured.
* `OrderedMap.answer` : what the map answers to the operations of a registry, and what becomes of
  it.
* `Listing.Shows` : what a registry shows is what a map holds.

Members are compared by equality and the map by names. Where equal entities have one name, a member
equal to an entity can only be the one that its name is bound to (`OrderedMap.any_values`), so a
store takes out what the map takes out (`OrderedMap.values_erase`).
-/

namespace NameRegistry

variable {μ σ α β : Type}

/-- A map from names to entities, in order of insertion. -/
@[ext]
structure OrderedMap (α : Type) where
  entries : List (String × α)
  nodup : (entries.map Prod.fst).Nodup

namespace OrderedMap

def empty : OrderedMap α := ⟨[], List.nodup_nil⟩

variable (m : OrderedMap α)

/-- The entity that a name is bound to. -/
def get? (name : String) : Option α := m.entries.lookup name

def values : List α := m.entries.map Prod.snd

/-- Binds a name, after all others, unless it is bound. -/
def add (name : String) (e : α) : OrderedMap α :=
  if h : m.get? name = none then
    { entries := m.entries ++ [(name, e)]
      nodup := by
        rw [List.map_append, List.map_singleton]
        exact m.nodup.append (List.nodup_singleton _)
          (List.disjoint_singleton.2 (lookup_eq_none_iff_not_mem.1 h)) }
  else m

/-- Takes the binding of a name away. -/
def erase (name : String) : OrderedMap α where
  entries := m.entries.filter fun x => x.1 ≠ name
  nodup := m.nodup.sublist (List.filter_sublist.map Prod.fst)

variable {m}

theorem entries_add {name : String} (h : m.get? name = none) (e : α) :
    (m.add name e).entries = m.entries ++ [(name, e)] := by
  rw [add, dif_pos h]

theorem get?_eq_some_iff {name : String} {e : α} : m.get? name = some e ↔ (name, e) ∈ m.entries :=
  lookup_eq_some_iff_mem m.nodup

end OrderedMap

/-! ## Kinds of registries -/

/-- How a registry names and compares entities, the full name of their type, and what is
configured. Equal entities have one name. -/
structure Kind (α : Type) where
  namer : α → String
  same : α → α → Bool
  typeName : String
  config : Config
  named : ∀ a b, same a b → namer a = namer b

def Kind.displayName (K : Kind α) : String :=
  K.config.typeDisplayName.getD (simpleTypeName K.typeName)

namespace OrderedMap

variable (K : Kind α) (m : OrderedMap α)

/-- What a map answers to an operation of a registry, and the map after it. There is none for
calls of other kinds. -/
def answer : (c : Call μ σ α β) → Option (c.Reply × OrderedMap α)
  | .add _ e =>
    match m.get? (K.namer e) with
    | none => some (.ok true, m.add (K.namer e) e)
    | some _ =>
      match K.config.duplicatePolicy with
      | .ignore => some (.ok false, m)
      | .fail => some (.error (.duplicate K.displayName (K.namer e)), m)
  | .remove _ e =>
    if (m.get? (K.namer e)).any (K.same · e) then some (true, m.erase (K.namer e))
    else some (false, m)
  | .removeByName _ name =>
    match m.get? name with
    | none => some (.ok none, m)
    | some e => some (.ok (some e), m.erase name)
  | .find _ name => some (.ok (m.get? name), m)
  | .direct _ name => some (m.get? name, m)
  | .missing _ name => some (.missing K.displayName name, m)
  | .look _ => some (⟨K.displayName, m.entries, m.entries.length, []⟩, m)
  | .nameOf _ e => some (K.namer e, m)
  | .settle e => some (e, m)
  | .invoke _ _ => some ((), m)
  | .subscribe _ _ _ => some ((), m)
  | _ => none

/-- Entities are bound to their names. -/
def Named : Prop := ∀ x ∈ m.entries, x.1 = K.namer x.2

variable {K m}

theorem Named.map_values (h : m.Named K) : m.values.map (fun e => (K.namer e, e)) = m.entries := by
  rw [values, List.map_map]
  refine (List.map_congr_left fun x hx => ?_).trans (List.map_id _)
  exact Prod.ext (h x hx).symm rfl

theorem Named.add (h : m.Named K) (e : α) : (m.add (K.namer e) e).Named K := by
  by_cases hn : m.get? (K.namer e) = none
  · intro x hx
    rw [entries_add hn, List.mem_append, List.mem_singleton] at hx
    rcases hx with hx | rfl
    · exact h x hx
    · rfl
  · rw [OrderedMap.add, dif_neg hn]
    exact h

theorem Named.erase (h : m.Named K) (name : String) : (m.erase name).Named K :=
  fun x hx => h x (List.mem_of_mem_filter hx)

/-- A member that equals an entity is the one that its name is bound to. -/
theorem any_values (h : m.Named K) (e : α) :
    m.values.any (K.same · e) = (m.get? (K.namer e)).any (K.same · e) := by
  rw [Bool.eq_iff_iff, List.any_eq_true, Option.any_eq_true]
  constructor
  · rintro ⟨y, hy, hs⟩
    obtain ⟨x, hx, rfl⟩ := List.mem_map.1 hy
    refine ⟨x.2, get?_eq_some_iff.2 ?_, hs⟩
    rw [← K.named _ _ hs, ← h x hx]
    exact hx
  · rintro ⟨y, hy, hs⟩
    exact ⟨y, List.mem_map.2 ⟨_, get?_eq_some_iff.1 hy, rfl⟩, hs⟩

theorem values_erase (h : m.Named K) {e : α} (he : (m.get? (K.namer e)).any (K.same · e)) :
    m.values.eraseP (K.same · e) = (m.erase (K.namer e)).values := by
  obtain ⟨l, hnd⟩ := m
  show (l.map Prod.snd).eraseP _ = (l.filter fun x => x.1 ≠ K.namer e).map Prod.snd
  change ((l.lookup (K.namer e)).any (K.same · e)) = true at he
  induction l with
  | nil => rfl
  | cons x l ih =>
    obtain ⟨hx, hl⟩ := List.nodup_cons.1 hnd
    obtain ⟨hn, h⟩ := List.forall_mem_cons.1 h
    rw [lookup_cons_eq_ite] at he
    by_cases heq : K.namer e = x.1
    · rw [if_pos heq, Option.any_some] at he
      -- Nothing else has the name.
      have rest : l.filter (fun y => y.1 ≠ K.namer e) = l := by
        refine List.filter_eq_self.2 fun y hy => decide_eq_true fun hy' => hx ?_
        exact List.mem_map.2 ⟨y, hy, hy'.trans heq⟩
      rw [List.map_cons, List.eraseP_cons, he, cond_true,
        List.filter_cons_of_neg (by simpa using heq.symm), rest]
    · rw [if_neg heq] at he
      have hs : K.same x.2 e = false := by
        rw [← Bool.not_eq_true]
        exact fun hs => heq (by rw [hn, K.named _ _ hs])
      rw [List.map_cons, List.eraseP_cons, hs, cond_false, ih hl h he,
        List.filter_cons_of_pos (by simpa using Ne.symm heq), List.map_cons]

end OrderedMap

/-! ## Listings -/

/-- What a registry shows is what a map holds: the members in order and their number, the names in
ascending order, and the members by name. -/
structure Listing.Shows (l : Listing α) (m : OrderedMap α) : Prop where
  entries : l.entries = m.entries
  members : l.members = m.values
  size : l.size = m.entries.length
  isEmpty : l.isEmpty ↔ m.entries = []
  names : l.names.Pairwise (· < ·)
  mem_names : ∀ name, name ∈ l.names ↔ (m.get? name).isSome
  nameMap : (l.nameMap.map Prod.fst).Pairwise (· < ·)
  lookup_nameMap : ∀ name, l.nameMap.lookup name = m.get? name

theorem Listing.shows_of_entries {l : Listing α} {m : OrderedMap α} (h : l.entries = m.entries)
    (hsize : l.size = m.entries.length) : l.Shows m where
  entries := h
  members := by rw [members, h, OrderedMap.values]
  size := hsize
  isEmpty := by rw [isEmpty, hsize, beq_iff_eq, List.length_eq_zero_iff]
  names := pairwise_sortedNames _
  mem_names name := by
    rw [names, h, mem_sortedNames, Option.isSome_iff_ne_none, OrderedMap.get?, Ne,
      lookup_eq_none_iff_not_mem, not_not]
  nameMap := by
    rw [nameMap, NameMap.map_fst_ofEntries]
    exact pairwise_sortedNames _
  lookup_nameMap name := by
    rw [nameMap, NameMap.lookup_ofEntries, h]
    exact lookup_eq_of_perm m.nodup (List.reverse_perm _) name

end NameRegistry
