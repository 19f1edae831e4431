import Mathlib.Data.List.Nodup
import Mathlib.Data.Option.Basic
import NameRegistry.Proofs.NameMap
import NameRegistry.Toml.Document

/-!
# The keys of a document

A document that is well-formed gives no key of its table twice.

* `Toml.Section.Sets` : one table comes from another by setting the entry of one key.
* `Toml.Section.sets_within?` : what is done at the end of a path sets one key of the table where
  the path begins.
* `Toml.Document.sets_line?` : so a line sets one key of the table of the document, wherever the
  line belongs.

A key that is set keeps its place if it has one, and comes last otherwise
(`Toml.Section.Sets.nodup`).

Main result: `Toml.Document.nodup_of_parse?`.
-/

namespace NameRegistry.Toml

/-! ## Tables under construction -/

namespace Section

def keys (t : Section) : List String := t.entries.map Prod.fst

/-- One table comes from another by setting the entry of one key. -/
def Sets (t t' : Section) : Prop := ∃ key n, t' = t.set key n

variable {t t' : Section} {path : List String} {key : String}

/-- A key is set once. -/
theorem Sets.nodup (h : t.Sets t') (ht : t.keys.Nodup) : t'.keys.Nodup := by
  obtain ⟨key, n, rfl⟩ := h
  unfold set
  split_ifs with hkey
  · have same : (t.entries.map fun e => if e.1 = key then (key, n) else e).map Prod.fst =
        t.entries.map Prod.fst := by
      rw [List.map_map]
      apply List.map_congr_left
      intro e _
      by_cases he : e.1 = key <;> simp [he]
    rw [keys, same]
    exact ht
  · have new : key ∉ t.entries.map Prod.fst := by
      rw [← lookup_eq_none_iff_not_mem]
      exact Option.not_isSome_iff_eq_none.1 hkey
    rw [keys, List.map_append, List.map_singleton, ← List.concat_eq_append]
    exact ht.concat new

/-- Below a key the table is only set anew. -/
theorem sets_within? {origin : Origin} {f : Section → Option Section}
    (hf : ∀ s s', f s = some s' → s.Sets s') (ht : within? origin f path t = some t') :
    t.Sets t' := by
  cases path with
  | nil => exact hf t t' ht
  | cons key path =>
    unfold within? at ht
    generalize t.get? key = o at ht
    match o, ht with
    | none, ht | some (.tables _ _), ht =>
      obtain ⟨s, -, hs⟩ := Option.bind_eq_some_iff.1 ht
      exact ⟨key, _, (Option.some.inj hs).symm⟩
    | some (.table _ _), ht =>
      obtain ⟨_, -, ht⟩ := Option.bind_eq_some_iff.1 ht
      obtain ⟨s, -, hs⟩ := Option.bind_eq_some_iff.1 ht
      exact ⟨key, _, (Option.some.inj hs).symm⟩
    | some (.value _), ht => cases ht

theorem sets_assign? {v : Value} (ht : t.assign? path key v = some t') : t.Sets t' := by
  refine sets_within? (fun s s' hs => ?_) ht
  obtain ⟨_, -, hs⟩ := Option.bind_eq_some_iff.1 hs
  unfold insert? at hs
  split_ifs at hs
  exact ⟨key, _, (Option.some.inj hs).symm⟩

theorem sets_open? (ht : t.open? path key = some t') : t.Sets t' := by
  refine sets_within? (fun s s' hs => ?_) ht
  split at hs
  · exact ⟨key, _, (Option.some.inj hs).symm⟩
  · exact ⟨key, _, (Option.some.inj hs).symm⟩
  · cases hs

theorem sets_append? (ht : t.append? path key = some t') : t.Sets t' := by
  refine sets_within? (fun s s' hs => ?_) ht
  split at hs
  · exact ⟨key, _, (Option.some.inj hs).symm⟩
  · exact ⟨key, _, (Option.some.inj hs).symm⟩
  · cases hs

theorem map_fst_toTable (t : Section) : t.toTable.map Prod.fst = t.keys := by
  rw [toTable, keys]
  induction t.entries with
  | nil => rfl
  | cons e entries ih => rw [entriesToTable, List.map_cons, List.map_cons, ih]

end Section

/-! ## Documents -/

namespace Document

variable {fuel : ℕ} {p p' : Progress} {s rest : List Char}

/-- A line sets one key of the table of the document. -/
theorem sets_line? (h : line? fuel p s = some (p', rest)) : p.root.Sets p'.root := by
  unfold line? at h
  split at h
  · -- A header of one more table of a list.
    obtain ⟨⟨path, key, s⟩, -, h⟩ := Option.bind_eq_some_iff.1 h
    dsimp only at h
    split at h
    · obtain ⟨root, hroot, h⟩ := Option.bind_eq_some_iff.1 h
      obtain ⟨_, -, h⟩ := Option.bind_eq_some_iff.1 h
      obtain ⟨rfl, -⟩ := Prod.mk.inj (Option.some.inj h)
      exact Section.sets_append? hroot
    · cases h
  · -- A header of a table.
    obtain ⟨⟨path, key, s⟩, -, h⟩ := Option.bind_eq_some_iff.1 h
    dsimp only at h
    split at h
    · obtain ⟨root, hroot, h⟩ := Option.bind_eq_some_iff.1 h
      obtain ⟨_, -, h⟩ := Option.bind_eq_some_iff.1 h
      obtain ⟨rfl, -⟩ := Prod.mk.inj (Option.some.inj h)
      exact Section.sets_open? hroot
    · cases h
  · -- An assignment.
    obtain ⟨⟨path, key, s⟩, -, h⟩ := Option.bind_eq_some_iff.1 h
    dsimp only at h
    split at h
    · obtain ⟨⟨v, s⟩, -, h⟩ := Option.bind_eq_some_iff.1 h
      obtain ⟨p'', hassign, h⟩ := Option.bind_eq_some_iff.1 h
      obtain ⟨_, -, h⟩ := Option.bind_eq_some_iff.1 h
      obtain ⟨rfl, -⟩ := Prod.mk.inj (Option.some.inj h)
      obtain ⟨root, hroot, rfl⟩ := Option.map_eq_some_iff.1 hassign
      exact Section.sets_within? (fun _ _ => Section.sets_assign?) hroot
    · cases h

theorem nodup_lines? (h : p.root.keys.Nodup) (hp : lines? fuel p s = some p') :
    p'.root.keys.Nodup := by
  induction fuel generalizing p s with
  | zero => cases hp
  | succ fuel ih =>
    unfold lines? at hp
    obtain ⟨s, -, hp⟩ := Option.bind_eq_some_iff.1 hp
    split at hp
    · obtain rfl := Option.some.inj hp
      exact h
    · obtain ⟨⟨p₁, s⟩, hline, hp⟩ := Option.bind_eq_some_iff.1 hp
      exact ih ((sets_line? hline).nodup h) hp

/-- **The keys of a document are distinct.** -/
theorem nodup_of_parse? {text : String} {t : Table} (h : parse? text = some t) :
    (t.map Prod.fst).Nodup := by
  obtain ⟨p, hp, rfl⟩ := Option.map_eq_some_iff.1 h
  rw [Section.map_fst_toTable]
  refine nodup_lines? ?_ hp
  exact List.nodup_nil

end Document

end NameRegistry.Toml
