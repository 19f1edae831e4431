import NameRegistry.Proofs.World
import Mathlib.Data.List.Induction
import Mathlib.Data.String.Basic

/-!
# Maps from names

What a name map holds for a name, and what the plain look-up of a registry finds for it.

* `pairwise_sortedNames`, `NameMap.map_fst_ofEntries` : sorted names ascend strictly, and so do
  those of a name map.
* `NameMap.lookup_ofEntries` : of several values for one name the map holds the last one.
* `World.direct_eq_lookup` : the plain look-up of a registry finds the first one.
* `lookup_eq_some_iff_mem` : where names are distinct, a name has one value, wherever it is looked
  up.
* `NameMap.ofEntries_eq_of_perm` : a map from distinct names does not depend on the order in which
  they were set.
-/

namespace NameRegistry

variable {μ σ α β : Type}

/-! ## Sorted names -/

theorem mem_insertName {l : List String} {name n : String} :
    n ∈ insertName name l ↔ n = name ∨ n ∈ l := by
  induction l with
  | nil => simp [insertName]
  | cons a l ih =>
    rw [insertName]
    split_ifs with hlt heq
    · simp
    · simp [heq]
    · rw [List.mem_cons, ih, List.mem_cons, or_left_comm]

theorem pairwise_insertName {l : List String} (h : l.Pairwise (· < ·)) (name : String) :
    (insertName name l).Pairwise (· < ·) := by
  induction l with
  | nil => simp [insertName]
  | cons a l ih =>
    obtain ⟨ha, hl⟩ := List.pairwise_cons.1 h
    rw [insertName]
    split_ifs with hlt heq
    · refine List.pairwise_cons.2 ⟨fun n hn => ?_, h⟩
      rcases List.mem_cons.1 hn with rfl | hn
      · exact hlt
      · exact hlt.trans (ha n hn)
    · exact h
    · refine List.pairwise_cons.2 ⟨fun n hn => ?_, ih hl⟩
      rcases mem_insertName.1 hn with rfl | hn
      · exact lt_of_le_of_ne (not_lt.1 hlt) (Ne.symm heq)
      · exact ha n hn

theorem mem_sortedNames {l : List String} {n : String} : n ∈ sortedNames l ↔ n ∈ l := by
  induction l using List.reverseRecOn with
  | nil => rfl
  | append_singleton l name ih =>
    rw [sortedNames] at ih ⊢
    rw [List.foldl_append, List.foldl_cons, List.foldl_nil, mem_insertName, ih, List.mem_append,
      List.mem_singleton, or_comm]

theorem pairwise_sortedNames (l : List String) : (sortedNames l).Pairwise (· < ·) := by
  induction l using List.reverseRecOn with
  | nil => exact List.Pairwise.nil
  | append_singleton l name ih =>
    rw [sortedNames] at ih ⊢
    rw [List.foldl_append]
    exact pairwise_insertName ih name

namespace NameMap

theorem map_fst_insert (m : NameMap α) (name : String) (a : α) :
    (m.insert name a).map Prod.fst = insertName name (m.map Prod.fst) := by
  induction m with
  | nil => rfl
  | cons e m ih =>
    rw [insert, List.map_cons, insertName]
    split_ifs with hlt heq
    · rfl
    · rw [List.map_cons, heq]
    · rw [List.map_cons, ih]

theorem map_fst_ofEntries (l : List (String × α)) :
    (ofEntries l).map Prod.fst = sortedNames (l.map Prod.fst) := by
  induction l using List.reverseRecOn with
  | nil => rfl
  | append_singleton l e ih =>
    rw [ofEntries, sortedNames] at ih ⊢
    rw [List.foldl_append, List.foldl_cons, List.foldl_nil, map_fst_insert, ih, List.map_append,
      List.foldl_append]
    rfl

end NameMap

/-! ## Values -/

theorem lookup_cons_eq_ite (e : String × α) (l : List (String × α)) (name : String) :
    (e :: l).lookup name = if name = e.1 then some e.2 else l.lookup name := by
  rw [List.lookup_cons]
  by_cases h : name = e.1
  · rw [if_pos h, h, beq_self_eq_true]
  · rw [if_neg h, beq_false_of_ne h]

namespace NameMap

theorem lookup_insert (m : NameMap α) (name n : String) (a : α) :
    (m.insert name a).lookup n = if n = name then some a else m.lookup n := by
  induction m with
  | nil => rw [insert, lookup_cons_eq_ite]
  | cons e m ih =>
    rw [insert]
    by_cases hlt : name < e.1
    · rw [if_pos hlt, lookup_cons_eq_ite]
    · rw [if_neg hlt]
      by_cases heq : name = e.1
      · rw [if_pos heq, lookup_cons_eq_ite, lookup_cons_eq_ite, heq]
        by_cases hn : n = e.1 <;> simp only [hn, if_true, if_false]
      · rw [if_neg heq, lookup_cons_eq_ite, lookup_cons_eq_ite, ih]
        by_cases hn : n = e.1
        · rw [if_pos hn, if_pos hn, if_neg (hn ▸ Ne.symm heq)]
        · rw [if_neg hn, if_neg hn]

/-- Of several values for one name the last one counts. -/
theorem lookup_ofEntries (l : List (String × α)) (n : String) :
    (ofEntries l).lookup n = l.reverse.lookup n := by
  induction l using List.reverseRecOn with
  | nil => rfl
  | append_singleton l e ih =>
    rw [ofEntries] at ih ⊢
    rw [List.foldl_append, List.foldl_cons, List.foldl_nil, lookup_insert, ih,
      List.reverse_append, List.reverse_singleton, List.singleton_append, lookup_cons_eq_ite]

end NameMap

/-- Where names are distinct, a name has one value, wherever it stands. -/
theorem lookup_eq_some_iff_mem {l : List (String × α)} (h : (l.map Prod.fst).Nodup)
    {name : String} {a : α} : l.lookup name = some a ↔ (name, a) ∈ l := by
  induction l with
  | nil => simp
  | cons e l ih =>
    obtain ⟨he, hl⟩ := List.nodup_cons.1 h
    rw [lookup_cons_eq_ite, List.mem_cons, ← ih hl, Prod.ext_iff]
    by_cases hn : name = e.1
    · have hno : l.lookup name ≠ some a := fun ha =>
        he (List.mem_map.2 ⟨_, (ih hl).1 ha, hn⟩)
      simp [hn, hn ▸ hno, eq_comm]
    · simp [hn]

theorem lookup_eq_of_perm {l l' : List (String × α)} (h : (l.map Prod.fst).Nodup)
    (hp : l'.Perm l) (name : String) : l'.lookup name = l.lookup name := by
  have h' : (l'.map Prod.fst).Nodup := (hp.map Prod.fst).nodup_iff.2 h
  refine Option.ext fun a => ?_
  rw [lookup_eq_some_iff_mem h, lookup_eq_some_iff_mem h', hp.mem_iff]

namespace NameMap

variable {l l' : List (String × α)}

theorem mem_ofEntries_iff (distinct : (l.map Prod.fst).Nodup) {e : String × α} :
    e ∈ ofEntries l ↔ e ∈ l := by
  have keys : ((ofEntries l).map Prod.fst).Nodup := by
    rw [map_fst_ofEntries]
    exact (pairwise_sortedNames _).imp ne_of_lt
  rw [← lookup_eq_some_iff_mem keys, lookup_ofEntries,
    lookup_eq_of_perm distinct l.reverse_perm, lookup_eq_some_iff_mem distinct]

theorem pairwise_ofEntries (l : List (String × α)) :
    (ofEntries l).Pairwise fun e e' => e.1 < e'.1 := by
  rw [← List.pairwise_map, map_fst_ofEntries]
  exact pairwise_sortedNames _

theorem ofEntries_eq_of_perm (distinct : (l.map Prod.fst).Nodup) (perm : l'.Perm l) :
    ofEntries l' = ofEntries l := by
  have distinct' : (l'.map Prod.fst).Nodup := (perm.map Prod.fst).nodup_iff.2 distinct
  have nodup (l : List (String × α)) : (ofEntries l).Nodup :=
    (pairwise_ofEntries l).imp fun h heq => h.ne (congrArg Prod.fst heq)
  refine List.Perm.eq_of_pairwise (fun a b _ _ hab hba => absurd hba hab.asymm)
    (pairwise_ofEntries l') (pairwise_ofEntries l) ?_
  refine (List.perm_ext_iff_of_nodup (nodup l') (nodup l)).2 fun e => ?_
  rw [mem_ofEntries_iff distinct', mem_ofEntries_iff distinct, perm.mem_iff]

end NameMap

theorem lookup_eq_none_iff_not_mem {l : List (String × α)} {name : String} :
    l.lookup name = none ↔ name ∉ l.map Prod.fst := by
  simp only [List.lookup_eq_none_iff, bne_iff_ne, List.mem_map, not_exists, not_and]
  exact ⟨fun h e he hn => h e he hn.symm, fun h e he hn => h e he hn.symm⟩

/-! ## Listings -/

namespace World

theorem direct_eq_lookup (w : World μ σ α β) (r : Nat) (name : String) :
    w.direct r name = (w.listing r).entries.lookup name := by
  rw [direct_eq, listing]
  induction w.shown (w.registry r).store with
  | nil => rfl
  | cons e l ih =>
    rw [List.find?_cons, List.map_cons, List.lookup_cons, ih, BEq.comm]

end World

end NameRegistry
