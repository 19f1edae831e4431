import NameRegistry.Proofs.Members

/-!
# Distinct names

No two members of a registry have the same name, though an addition looks only at the members that
the registry it is made through shows.

* `Parts.through` : the parts at the end of a chain of views.
* `Parts.KeepsNames` : the filters of a chain keep names.
* `State.AddsThrough` : additions to the store of a registry are made only through a chain.
* `NamesDistinct` : the members that a chain of filters shows have distinct names in the store.

Where filters keep names, a member has one name in all registries of a chain that show it
(`Parts.through_namer_of_narrowAll`), and what the end of the chain shows, all of the chain show.
So an addition through any of them that finds the name free, finds it free at the end.

Entities are plain values here, which no one can change, and namers, filters and equality are
functions of them.

Main result: `names_nodup`.
-/

namespace NameRegistry

variable {μ σ α β : Type}

/-! ## Chains of views -/

/-- The namer names an entity of a view as it names what the view shows as that entity. -/
def Filter.KeepsNames (f : Filter μ α) (namer : μ → α → String) : Prop :=
  ∀ m t s, f.narrow m t = some s → namer m (f.widen m s) = namer m t

namespace Parts

/-- The parts of a view of a view and so on, by the filters of the views and the names of their
element types. -/
def through (p : Parts μ α) (views : List (Filter μ α × String)) : Parts μ α :=
  views.foldl (fun p v => p.filtered v.1 v.2) p

/-- Each filter of a chain of views keeps the names of the registry that it is applied to. -/
def KeepsNames (p : Parts μ α) (views : List (Filter μ α × String)) : Prop :=
  ∀ before v after, views = before ++ v :: after → v.1.KeepsNames (p.through before).namer

variable {p : Parts μ α} {views : List (Filter μ α × String)}

theorem through_concat (p : Parts μ α) (views : List (Filter μ α × String))
    (v : Filter μ α × String) : p.through (views ++ [v]) = (p.through views).filtered v.1 v.2 := by
  rw [through, List.foldl_append]
  rfl

theorem KeepsNames.of_append {more : List (Filter μ α × String)}
    (h : p.KeepsNames (views ++ more)) : p.KeepsNames views := by
  intro before v after hv
  exact h before v (after ++ more) (by rw [hv, List.append_assoc, List.cons_append])

theorem keepsNames_nil : p.KeepsNames [] := by
  intro before v after h
  simp at h

theorem keepsNames_singleton {f : Filter μ α} {typeName : String} (h : f.KeepsNames p.namer) :
    p.KeepsNames [(f, typeName)] := by
  intro before v after hv
  cases before with
  | nil =>
    obtain ⟨rfl, -⟩ := List.cons.inj hv
    exact h
  | cons u before => simp at hv

theorem through_number (p : Parts μ α) (views : List (Filter μ α × String)) :
    (p.through views).store.number = p.store.number := by
  induction views using List.reverseRecOn with
  | nil => rfl
  | append_singleton views v ih =>
    rw [through_concat]
    exact ih

theorem through_filters (p : Parts μ α) (views : List (Filter μ α × String)) :
    (p.through views).store.filters = p.store.filters ++ views.map Prod.fst := by
  induction views using List.reverseRecOn with
  | nil => simp [through]
  | append_singleton views v ih =>
    rw [through_concat, List.map_append, ← List.append_assoc, ← ih]
    rfl

theorem through_namer {i : Nat} (hp : p.store = .root i) (views : List (Filter μ α × String))
    (m : μ) (e : α) :
    (p.through views).namer m e = p.namer m ((p.through views).store.widen m e) := by
  induction views using List.reverseRecOn generalizing e with
  | nil => rw [show (p.through []) = p from rfl, hp, StoreRef.widen]
  | append_singleton views v ih =>
    rw [through_concat]
    exact ih (v.1.widen m e)

/-- A member has one name in all registries of a chain that show it. -/
theorem through_namer_of_narrowAll (h : p.KeepsNames views) {m : μ} {t s : α}
    (hs : narrowAll m (views.map Prod.fst) t = some s) :
    (p.through views).namer m s = p.namer m t := by
  induction views using List.reverseRecOn generalizing s with
  | nil =>
    obtain rfl := Option.some.inj hs
    rfl
  | append_singleton views v ih =>
    rw [List.map_append, narrowAll_append] at hs
    obtain ⟨u, hu, hv⟩ := Option.bind_eq_some_iff.1 hs
    rw [List.map_singleton, narrowAll, Option.bind_eq_bind, Option.bind_eq_some_iff] at hv
    obtain ⟨s', hv, hs'⟩ := hv
    obtain rfl := Option.some.inj hs'
    calc (p.through (views ++ [v])).namer m s'
        = (p.through views).namer m (v.1.widen m s') := by rw [through_concat]; rfl
      _ = (p.through views).namer m u := h views v [] rfl m u s' hv
      _ = p.namer m t := ih h.of_append hu

end Parts

/-- Additions to the store of a registry are made only through a chain of views of it. -/
def State.AddsThrough (p : Parts μ α) (views : List (Filter μ α × String)) (s : State μ σ α β) :
    Prop :=
  (∀ r e k, s.control = .call (.add r e) k →
      (s.world.registry r).store.number = p.store.number →
      ∃ before, before <+: views ∧ (s.world.registry r).toParts = p.through before) ∧
    ∀ v e k, s.control = .call (.insert v e) k → v.number ≠ p.store.number

theorem State.AddsThrough.of_done {p : Parts μ α} {views : List (Filter μ α × String)}
    {s : State μ σ α β} {v : Verdict} (h : s.control = .done v) : s.AddsThrough p views := by
  refine ⟨fun r e k hc => ?_, fun t e k hc => ?_⟩ <;>
    simp [h] at hc

/-! ## Names in the store -/

/-- The names, in the registry at the beginning of a chain, of the members of its store that the
end of the chain shows. -/
def Parts.namesThrough (p : Parts Unit α) (views : List (Filter Unit α × String)) (l : List α) :
    List String :=
  (l.filter fun t => (narrowAll () (views.map Prod.fst) t).isSome).map (p.namer ())

/-- The store of a registry has pairwise different members, and those that the end of a chain
shows have distinct names. -/
def NamesDistinct (p : Parts Unit α) (views : List (Filter Unit α × String))
    (same : Unit → α → α → Bool) (st : Store Unit α) : Prop :=
  st.discipline = .distinct same ∧ (p.namesThrough views st.members).Nodup

section

variable {p : Parts Unit α} {views : List (Filter Unit α × String)} {i : Nat}
  {same : Unit → α → α → Bool} {st st' : Store Unit α}

namespace Parts

theorem map_namer_through (h : p.KeepsNames views) (l : List α) :
    (l.filterMap (narrowAll () (views.map Prod.fst))).map ((p.through views).namer ()) =
      p.namesThrough views l := by
  induction l with
  | nil => rfl
  | cons t l ih =>
    rw [namesThrough] at ih ⊢
    cases ht : narrowAll () (views.map Prod.fst) t with
    | none => simpa [ht] using ih
    | some s => simpa [ht, through_namer_of_narrowAll h ht] using ih

/-- An entity with a free name leaves names distinct. -/
theorem namesThrough_concat_nodup {l : List α} {t : α} (hl : (p.namesThrough views l).Nodup)
    (ht : p.namer () t ∉ p.namesThrough views l) : (p.namesThrough views (l ++ [t])).Nodup := by
  rw [namesThrough, List.filter_append, List.map_append, List.filter_singleton, ← namesThrough]
  cases (narrowAll () (views.map Prod.fst) t).isSome with
  | false => simpa using hl
  | true =>
    refine List.nodup_append.2 ⟨hl, by simp, fun a ha b hb => ?_⟩
    obtain rfl := List.mem_singleton.1 hb
    exact fun h => ht (h ▸ ha)

theorem exists_narrowAll_of_prefix {before : List (Filter Unit α × String)}
    (hb : before <+: views) {t : α} (ht : (narrowAll () (views.map Prod.fst) t).isSome) :
    ∃ s, narrowAll () (before.map Prod.fst) t = some s := by
  obtain ⟨after, rfl⟩ := hb
  rw [List.map_append, narrowAll_append] at ht
  cases h : narrowAll () (before.map Prod.fst) t with
  | none => simp [h] at ht
  | some s => exact ⟨s, rfl⟩

end Parts

/-- A registry of a chain that finds a name free finds it free at the end of the chain. -/
theorem not_mem_namesThrough {w : World Unit σ α β} {r : Nat} {e : α}
    {before : List (Filter Unit α × String)} (hp : p.store = .root i) (hk : p.KeepsNames views)
    (hb : before <+: views) (hr : (w.registry r).toParts = p.through before)
    (hd : w.direct r (w.nameOf r e) = none) :
    p.namer () ((w.registry r).store.widen () e) ∉ p.namesThrough views (w.store i).members := by
  intro hmem
  obtain ⟨t, ht, hne⟩ := List.mem_map.1 hmem
  obtain ⟨ht, hshown⟩ := List.mem_filter.1 ht
  obtain ⟨s, hs⟩ := Parts.exists_narrowAll_of_prefix hb hshown
  have hkb : p.KeepsNames before := by
    obtain ⟨after, rfl⟩ := hb
    exact hk.of_append
  have hstore : (w.registry r).store = (p.through before).store := congrArg Parts.store hr
  have hname (x : α) : w.nameOf r x = (p.through before).namer () x := by
    rw [World.nameOf, hr]
  -- The registry shows this member, under the name that was found free.
  refine World.direct_eq_none_iff.1 hd s ?_ ?_
  · rw [World.shown_eq, hstore, Parts.through_number, Parts.through_filters, hp]
    exact List.mem_filterMap.2 ⟨t, ht, hs⟩
  · rw [hname, hname, Parts.through_namer_of_narrowAll hkb hs, hne, hstore,
      Parts.through_namer hp]

/-- A step keeps names distinct. -/
theorem StoreChange.namesDistinct {s : State Unit σ α β} (h : StoreChange s i st st')
    (hi : s.world.stores[i]? = some st) (hp : p.store = .root i) (hk : p.KeepsNames views)
    (ha : s.AddsThrough p views) (hd : NamesDistinct p views same st) :
    NamesDistinct p views same st' := by
  obtain ⟨hdis, hnd⟩ := hd
  have hnumber : p.store.number = i := by rw [hp, StoreRef.number]
  cases h with
  | none => exact ⟨hdis, hnd⟩
  | @taken c k v e t m l hc ht hv _ hset hl =>
    refine ⟨hdis, ?_⟩
    obtain ⟨rfl, -⟩ := Prod.mk.inj hset
    rw [hdis] at hl
    obtain ⟨-, rfl⟩ := Discipline.insert_distinct_eq_some_iff.1 hl
    cases ht with
    | insert => exact absurd hv (hnumber ▸ ha.2 _ _ _ hc)
    | @add r e hfree =>
      obtain ⟨before, hb, hr⟩ := ha.1 _ _ _ hc (hv.trans hnumber.symm)
      have hnot := not_mem_namesThrough hp hk hb hr hfree
      rw [World.store_of_getElem? hi] at hnot
      exact Parts.namesThrough_concat_nodup hnd hnot
  | @dropped c k v e l _ _ _ _ hl =>
    refine ⟨hdis, ?_⟩
    rw [hdis] at hl
    obtain ⟨-, rfl⟩ := Discipline.erase_distinct_eq_some_iff.1 hl
    exact hnd.sublist ((List.eraseP_sublist.filter _).map _)

end

/-! ## Runs -/

variable {C : Client Unit σ α β}

theorem Run.namesDistinct (ρ : Run C) {p : Parts Unit α} {views : List (Filter Unit α × String)}
    {i : Nat} {same : Unit → α → α → Bool} (hp : p.store = .root i) (hk : p.KeepsNames views)
    (fresh : (ρ 0).world.stores[i]? = some ⟨[], .distinct same⟩)
    (adds : ∀ n, (ρ n).AddsThrough p views) (n : ℕ) :
    ∃ st, (ρ n).world.stores[i]? = some st ∧ NamesDistinct p views same st := by
  refine ρ.store_invariant (Nat.zero_le n) ⟨_, fresh, rfl, List.nodup_nil⟩ ?_
  intro j _ _ st st' hi change hd
  exact change.namesDistinct hi hp hk (adds j) hd

/-- **Names are distinct.** Let a registry stand on a store that has no members when a run begins,
let `views` be a chain of views of it whose filters keep names, and let additions to the store be
made only through registries of the chain. Then at every moment no two members of a registry at the
end of the chain have the same name. -/
theorem names_nodup (ρ : Run C) (p : Parts Unit α) (views : List (Filter Unit α × String))
    (i : Nat) (same : Unit → α → α → Bool) (root : p.store = .root i) (keeps : p.KeepsNames views)
    (fresh : (ρ 0).world.stores[i]? = some ⟨[], .distinct same⟩)
    (adds : ∀ n, (ρ n).AddsThrough p views) (n : ℕ) (r : Nat)
    (hr : ((ρ n).world.registry r).toParts = p.through views) :
    (((ρ n).world.listing r).entries.map Prod.fst).Nodup := by
  obtain ⟨st, hi, -, hd⟩ := ρ.namesDistinct root keeps fresh adds n
  have hstore : ((ρ n).world.registry r).store = (p.through views).store := congrArg Parts.store hr
  have hname : (ρ n).world.nameOf r = (p.through views).namer () :=
    funext fun e => by rw [World.nameOf, hr]
  have hshown : (ρ n).world.shown ((ρ n).world.registry r).store =
      st.members.filterMap (narrowAll () (views.map Prod.fst)) := by
    rw [World.shown_eq, hstore, Parts.through_number, Parts.through_filters, root,
      StoreRef.number, World.store_of_getElem? hi]
    rfl
  have hnames : ((ρ n).world.listing r).entries.map Prod.fst = p.namesThrough views st.members :=
    calc ((ρ n).world.listing r).entries.map Prod.fst
        = ((ρ n).world.shown ((ρ n).world.registry r).store).map ((ρ n).world.nameOf r) := by
          rw [World.listing, List.map_map]
          rfl
      _ = p.namesThrough views st.members := by
          rw [hshown, hname, Parts.map_namer_through keeps]
  rw [hnames]
  exact hd

/-! A registry of names and a view of those that are not empty. A name is added to the registry,
and again to the view. -/

def plainNames : Parts Unit String := ⟨fun _ e => e, "String", .root 0, .root 0⟩

def nonempty : Filter Unit String × String := (.matching fun _ e => e ≠ "", "String")

def idleClient : Client Unit Unit String Unit := ⟨fun _ _ _ => .done (.ok ()), fun _ _ => .done ()⟩

def addTwice : State Unit Unit String Unit where
  world :=
    { memory := ()
      client := ()
      stores := [⟨[], .distinct fun _ => (· == ·)⟩]
      channels := [{}]
      registries := [{ plainNames with hooks := .default },
        { plainNames.through [nonempty] with hooks := .default }] }
  stack := []
  control := .call (.add 0 "x") fun _ => .call (.add 1 "x") fun _ => .done (.ok ())

theorem names_nodup_addTwice :
    ∃ ρ : Run idleClient, plainNames.KeepsNames [nonempty] ∧
      (∀ n, (ρ n).AddsThrough plainNames [nonempty]) ∧
      (((ρ 3).world.listing 1).entries.map Prod.fst) = ["x"] ∧
      (((ρ 3).world.listing 1).entries.map Prod.fst).Nodup := by
  have keeps : plainNames.KeepsNames [nonempty] := by
    intro before v after h m t s hs
    obtain ⟨rfl, rfl, rfl⟩ : before = [] ∧ v = nonempty ∧ after = [] := by
      cases before <;> simp_all
    simp only [nonempty, Filter.matching, Option.ite_none_right_eq_some] at hs
    rw [Option.some.inj hs.2]
    rfl
  have adds (n : ℕ) : (Run.of idleClient addTwice n).AddsThrough plainNames [nonempty] := by
    match n with
    | 0 =>
      refine ⟨fun _ _ _ h _ => ?_, fun _ _ _ h => by cases h⟩
      cases h
      exact ⟨[], List.nil_prefix, rfl⟩
    | 2 =>
      refine ⟨fun _ _ _ h _ => ?_, fun _ _ _ h => by cases h⟩
      cases h
      exact ⟨[nonempty], List.prefix_rfl, rfl⟩
    | 1 | 3 | _ + 4 => exact State.AddsThrough.of_done rfl
  exact ⟨.of idleClient addTwice, keeps, adds, by decide,
    names_nodup _ plainNames [nonempty] 0 _ rfl keeps rfl adds 3 1 rfl⟩

end NameRegistry
