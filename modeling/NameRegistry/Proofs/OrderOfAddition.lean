import NameRegistry.Proofs.Bulk
import NameRegistry.Proofs.Readings
import NameRegistry.Proofs.ThroughView

/-!
# The order of addition

Two registries to which the same entities were added in different orders differ in the order of
their members. As long as their names are distinct, nothing that goes by name shows it.

* `World.SameByName` : two registries say the same of every name.
* `World.Rooted` : a registry that is no view and has no rules, over a store with some members.
* `Prog.AddsInTurn` : a program has entities added, one by one or several at once.

A map from distinct names does not depend on the order in which they were set
(`NameMap.ofEntries_eq_of_perm`), and a filter that keeps names leaves them distinct. So what goes
by name is the same in two registries whose members are the same but for their order, and in all
views of them (`World.sameByName_through`).

That the members are the entities in the order of their addition is shown by induction on the
program that adds them: one that differs from all members becomes the last one (`Run.adds_cons`).

Main result: `order_not_shown_by_name`.

Entities are plain values here: an entity that is settled is the same entity.
-/

namespace NameRegistry

variable {σ σ' α β β' : Type}

/-! ## What goes by name -/

namespace World

variable {C : Client Unit σ α β} {C' : Client Unit σ' α β'} {w : World Unit σ α β}
  {w' : World Unit σ' α β'} {p p' : Parts Unit α} {views : List (Filter Unit α × String)}
  {i i' v v' : ℕ}

/-- Two registries have the same members, perhaps in another order, and say the same of every
name. -/
structure SameByName (C : Client Unit σ α β) (C' : Client Unit σ' α β') (r r' : ℕ)
    (w : World Unit σ α β) (w' : World Unit σ' α β') : Prop where
  names : (w'.listing r').names = (w.listing r).names
  nameMap : (w'.listing r').nameMap = (w.listing r).nameMap
  find : ∀ name, ∃ found,
    w.Answers C (.find r name) (.ok found) ∧ w'.Answers C' (.find r' name) (.ok found)
  members : (w'.listing r').members.Perm (w.listing r).members

/-- Entries in another order make no difference if their names are distinct. -/
theorem sameByName_of_perm (rules : (w.registry v).rules = [])
    (rules' : (w'.registry v').rules = [])
    (distinct : ((w.listing v).entries.map Prod.fst).Nodup)
    (perm : (w'.listing v').entries.Perm (w.listing v).entries) : w.SameByName C C' v v' w' := by
  have nameMap : (w'.listing v').nameMap = (w.listing v).nameMap :=
    NameMap.ofEntries_eq_of_perm distinct perm
  refine ⟨?_, nameMap, fun name => ⟨w.direct v name, w.answers_find C rules name, ?_⟩, perm.map _⟩
  · rw [Listing.names_eq_keys, Listing.names_eq_keys, nameMap]
  · have direct : w'.direct v' name = w.direct v name := by
      rw [direct_eq_lookup, direct_eq_lookup, lookup_eq_of_perm distinct perm]
    rw [← direct]
    exact w'.answers_find C' rules' name

theorem entries_through (root : p.store = .root i)
    (parts : (w.registry v).toParts = p.through views) :
    (w.listing v).entries = ((w.store i).members.filterMap (narrowAll () (views.map Prod.fst))).map
      fun e => ((p.through views).namer () e, e) := by
  have store : (w.registry v).store = (p.through views).store := congrArg Parts.store parts
  have name : w.nameOf v = (p.through views).namer () := congrArg (Parts.namer · ()) parts
  rw [listing, name, shown_eq, store, Parts.through_number, Parts.through_filters, root]
  rfl

/-- Chains of the same views of two registries that have the same members say the same of every
name, if the filters keep names and these are distinct in the registries. -/
theorem sameByName_through (root : p.store = .root i) (root' : p'.store = .root i')
    (namer : p'.namer = p.namer) (keeps : p.KeepsNames views)
    (parts : (w.registry v).toParts = p.through views)
    (parts' : (w'.registry v').toParts = p'.through views)
    (rules : (w.registry v).rules = []) (rules' : (w'.registry v').rules = [])
    (distinct : ((w.store i).members.map (p.namer ())).Nodup)
    (perm : (w'.store i').members.Perm (w.store i).members) : w.SameByName C C' v v' w' := by
  refine sameByName_of_perm rules rules' ?_ ?_
  · -- The view shows some of the members, each under its name in the registry.
    rw [entries_through root parts, List.map_map]
    show (List.map ((p.through views).namer ()) _).Nodup
    rw [Parts.map_namer_through keeps]
    exact distinct.sublist (List.filter_sublist.map _)
  · have same : (p'.through views).namer = (p.through views).namer := by
      rw [Parts.through_namer_eq, Parts.through_namer_eq, namer]
    rw [entries_through root parts, entries_through root' parts', same]
    exact (perm.filterMap _).map _

/-! ## One addition -/

/-- A registry with these parts is no view and has no rules, and its store has these members. -/
structure Rooted (p : Parts Unit α) (same : α → α → Bool) (r i ch : ℕ) (l : List α)
    (w : World Unit σ α β) : Prop where
  parts : (w.registry r).toParts = p
  rules : (w.registry r).rules = []
  store : p.store = .root i
  channel : p.channel = .root ch
  members : w.stores[i]? = some ⟨l, .distinct fun _ => same⟩

namespace Rooted

variable {same : α → α → Bool} {r ch : ℕ} {l l' : List α} {x : α}
  (h : w.Rooted p same r i ch l)

include h

theorem after {w' : World Unit σ α β} {client : σ} (hw : w' = { w.setMembers i l' with client }) :
    w'.Rooted p same r i ch l' := by
  rw [hw]
  refine ⟨h.parts, h.rules, h.store, h.channel, ?_⟩
  show (w.setMembers i l').stores[i]? = _
  rw [setMembers_getElem? h.members, if_pos rfl]

theorem respond_add (free : ∀ y ∈ l, p.namer () y ≠ p.namer () x) (new : ∀ y ∈ l, ¬ same y x) :
    w.respond C (.add r x) =
      (w.setMembers i (l ++ [x]), .tell (.root ch) .added x (.ok true)) := by
  have store : (w.registry r).store = .root i := (congrArg Parts.store h.parts).trans h.store
  have channel : (w.registry r).channel = .root ch :=
    (congrArg Parts.channel h.parts).trans h.channel
  have name : w.nameOf r = p.namer () := congrArg (Parts.namer · ()) h.parts
  rw [respond_add_distinct h.members store (by rwa [name]), if_pos new, channel]

end Rooted

end World

/-! ## Runs -/

/-- A program has the entities of a list added to a registry, one by one or several at once, and
goes on as `q` does if none of them is refused. -/
inductive Prog.AddsInTurn (r : ℕ) (q : Prog Unit σ α β Verdict) :
    List α → Prog Unit σ α β Verdict → Prop
  | done : AddsInTurn r q [] q
  | add {x xs k} : AddsInTurn r q xs (k (.ok true)) → AddsInTurn r q (x :: xs) (.call (.add r x) k)
  | addAll {xs ys k} : AddsInTurn r q ys (k (.ok !xs.isEmpty)) →
      AddsInTurn r q (xs ++ ys) ((addAll r xs).bind k)

/-- Two entities have different names, and neither equals the other. -/
def Parts.Differ (p : Parts Unit α) (same : α → α → Bool) (x y : α) : Prop :=
  p.namer () x ≠ p.namer () y ∧ ¬ same x y ∧ ¬ same y x

instance (p : Parts Unit α) (same : α → α → Bool) (x y : α) : Decidable (p.Differ same x y) :=
  inferInstanceAs (Decidable (_ ∧ _ ∧ _))

theorem Parts.Differ.symm {p : Parts Unit α} {same : α → α → Bool} {x y : α}
    (h : p.Differ same x y) : p.Differ same y x :=
  ⟨h.1.symm, h.2.2, h.2.1⟩

namespace Run

variable {C : Client Unit σ α β} {ρ : Run C} {p : Parts Unit α} {same : α → α → Bool}
  {n r i ch : ℕ} {l xs ys : List α} {x : α} {q q' : Prog Unit σ α β Verdict}

theorem adds_none (rooted : (ρ n).world.Rooted p same r i ch l) :
    ρ.Adds n i ch l [] (ρ n).control := by
  refine ⟨n, (ρ n).world.client, .refl, ?_, .refl ch n .added⟩
  rw [List.append_nil, World.setMembers_self rooted.members]

theorem Adds.rooted (rooted : (ρ n).world.Rooted p same r i ch l) (h : ρ.Adds n i ch l xs q) :
    ∃ m, ρ.Regains n m ∧ (ρ m).control = q ∧ (ρ m).world.Rooted p same r i ch (l ++ xs) := by
  obtain ⟨m, client, regains, hm, -⟩ := h
  exact ⟨m, regains, congrArg State.control hm, rooted.after (congrArg State.world hm)⟩

section

variable (rooted : (ρ n).world.Rooted p same r i ch l) (observed : (ρ n).world.Observed C ch)

include rooted observed

/-- After additions the registry is there with more members, and the listeners still observe. -/
theorem Adds.andThen (h : ρ.Adds n i ch l xs q')
    (next : ∀ m, (ρ m).world.Rooted p same r i ch (l ++ xs) → (ρ m).world.Observed C ch →
      (ρ m).control = q' → ρ.Adds m i ch (l ++ xs) ys q) : ρ.Adds n i ch l (xs ++ ys) q := by
  refine h.trans fun m client hm => ?_
  have observed' : (ρ m).world.Observed C ch := by
    rw [hm]
    exact observed
  exact next m (rooted.after (congrArg State.world hm)) observed' (congrArg State.control hm)

/-- An entity that differs from all members is added, and then it is the turn of the others. -/
theorem adds_cons {k : Except RegistryError Bool → Prog Unit σ α β Verdict}
    (call : (ρ n).control = .call (.add r x) k) (differ : (l ++ x :: xs).Pairwise (p.Differ same))
    (next : ∀ m, (ρ m).world.Rooted p same r i ch (l ++ [x]) → (ρ m).world.Observed C ch →
      (ρ m).control = k (.ok true) → (l ++ [x] ++ xs).Pairwise (p.Differ same) →
        ρ.Adds m i ch (l ++ [x]) xs q) : ρ.Adds n i ch l (x :: xs) q := by
  have new (y : α) (hy : y ∈ l) : p.Differ same y x :=
    (List.pairwise_append.1 differ).2.2 y hy x List.mem_cons_self
  have hresp := rooted.respond_add (C := C) (fun y hy => (new y hy).1) fun y hy => (new y hy).2.1
  obtain ⟨m, client, ends, hm, tells⟩ := tells_of_tell call hresp observed
  have added : ρ.Adds n i ch l [x] (k (.ok true)) :=
    ⟨m, client, .tail .refl (by rw [call]; trivial) ends, hm, tells⟩
  refine added.andThen rooted observed fun m rooted' observed' call' => ?_
  exact next m rooted' observed' call' (by rwa [List.append_assoc])

theorem adds_addAll {k : Except RegistryError Bool → Prog Unit σ α β Verdict}
    (call : (ρ n).control = (Prog.addAll r xs).bind k)
    (differ : (l ++ xs).Pairwise (p.Differ same)) : ρ.Adds n i ch l xs (k (.ok !xs.isEmpty)) := by
  induction xs generalizing n l k with
  | nil =>
    have h := adds_none rooted
    rw [call] at h
    exact h
  | cons x xs ih =>
    rw [Prog.addAll_cons_bind] at call
    exact adds_cons rooted observed call differ fun m rooted' observed' call' =>
      ih rooted' observed' call'

theorem adds_inTurn (adds : Prog.AddsInTurn r q xs (ρ n).control)
    (differ : (l ++ xs).Pairwise (p.Differ same)) : ρ.Adds n i ch l xs q := by
  generalize hc : (ρ n).control = q' at adds
  induction adds generalizing n l with
  | done => exact hc ▸ adds_none rooted
  | add _ ih =>
    exact adds_cons rooted observed hc differ fun m rooted' observed' hc' differ' =>
      ih rooted' observed' differ' hc'
  | addAll _ ih =>
    rw [← List.append_assoc] at differ
    have bulk := adds_addAll rooted observed hc (List.pairwise_append.1 differ).1
    exact bulk.andThen rooted observed fun m rooted' observed' hc' =>
      ih rooted' observed' differ hc'

end

end Run

/-- **The order of addition does not show by name.** Let the same entities, with pairwise distinct
names and no two of them equal, be added in two orders, one by one or several at once, to two
registries with the same namer, which are no views, have no rules and no members, and whose stores
compare in the same way. They may have any hooks, and the listeners of their channels only observe.

Then all additions end, the members of each registry are the entities in the order in which they
were added, and the two registries have the same names, the same name map, and the same answer to a
look-up of any name. The same holds, as long as these are the members, of all views of the one and
of the other through the same filters that keep names, and of views of views. The members that the
two show are the same but for their order. -/
theorem order_not_shown_by_name {C : Client Unit σ α β} {C' : Client Unit σ' α β'} (ρ : Run C)
    (ρ' : Run C') (n n' : ℕ) {p p' : Parts Unit α} {same : α → α → Bool} {r r' i i' ch ch' : ℕ}
    {xs ys : List α} {q : Prog Unit σ α β Verdict} {q' : Prog Unit σ' α β' Verdict}
    (differ : xs.Pairwise (p.Differ same)) (perm : ys.Perm xs) (namer : p'.namer = p.namer)
    (fresh : (ρ n).world.Rooted p same r i ch [])
    (fresh' : (ρ' n').world.Rooted p' same r' i' ch' [])
    (observed : (ρ n).world.Observed C ch) (observed' : (ρ' n').world.Observed C' ch')
    (adds : Prog.AddsInTurn r q xs (ρ n).control)
    (adds' : Prog.AddsInTurn r' q' ys (ρ' n').control) :
    (∃ m m', ρ.Regains n m ∧ (ρ m).control = q ∧ ((ρ m).world.store i).members = xs ∧
        ρ'.Regains n' m' ∧ (ρ' m').control = q' ∧ ((ρ' m').world.store i').members = ys ∧
        (ρ m).world.SameByName C C' r r' (ρ' m').world) ∧
      ∀ m m', ((ρ m).world.store i).members = xs → ((ρ' m').world.store i').members = ys →
        ∀ views v v', p.KeepsNames views → ((ρ m).world.registry v).toParts = p.through views →
          ((ρ' m').world.registry v').toParts = p'.through views →
          ((ρ m).world.registry v).rules = [] → ((ρ' m').world.registry v').rules = [] →
            (ρ m).world.SameByName C C' v v' (ρ' m').world := by
  have differ' : ys.Pairwise (p'.Differ same) := by
    have h := (perm.pairwise_iff Parts.Differ.symm).2 differ
    unfold Parts.Differ at h ⊢
    rwa [namer]
  have distinct : (xs.map (p.namer ())).Nodup := List.pairwise_map.2 (differ.imp And.left)
  have shows (m m' : ℕ) (members : ((ρ m).world.store i).members = xs)
      (members' : ((ρ' m').world.store i').members = ys) (views v v')
      (keeps : p.KeepsNames views) (parts : ((ρ m).world.registry v).toParts = p.through views)
      (parts' : ((ρ' m').world.registry v').toParts = p'.through views)
      (rules : ((ρ m).world.registry v).rules = [])
      (rules' : ((ρ' m').world.registry v').rules = []) :
      (ρ m).world.SameByName C C' v v' (ρ' m').world := by
    refine World.sameByName_through fresh.store fresh'.store namer keeps parts parts' rules rules'
      ?_ ?_
    · rwa [members]
    · rwa [members, members']
  refine ⟨?_, shows⟩
  obtain ⟨m, regains, control, rooted⟩ := (Run.adds_inTurn fresh observed adds differ).rooted fresh
  obtain ⟨m', regains', control', rooted'⟩ :=
    (Run.adds_inTurn fresh' observed' adds' differ').rooted fresh'
  have members : ((ρ m).world.store i).members = xs := by
    rw [World.store_of_getElem? rooted.members]
    rfl
  have members' : ((ρ' m').world.store i').members = ys := by
    rw [World.store_of_getElem? rooted'.members]
    rfl
  refine ⟨m, m', regains, control, members, regains', control', members', ?_⟩
  exact shows m m' members members' [] r r' Parts.keepsNames_nil rooted.parts rooted'.parts
    rooted.rules rooted'.rules

/-! Three names are added, two of them marked: one by one, and then in another order, two at once
and one by itself. There is a view of those that are marked. -/

def onlyMarked : Filter Unit (Bool × String) × String := (.matching fun _ e => e.1, "String")

def markedStart (control : Prog Unit Unit (Bool × String) Unit Verdict) :
    State Unit Unit (Bool × String) Unit where
  world :=
    { memory := ()
      client := ()
      stores := [⟨[], .distinct fun _ => (· == ·)⟩]
      channels := [{}]
      registries := [{ markedNames with hooks := .default },
        { markedNames.through [onlyMarked] with hooks := .default }] }
  stack := []
  control := control

def addSingly : Prog Unit Unit (Bool × String) Unit Verdict :=
  .call (.add 0 (true, "x")) fun _ => .call (.add 0 (false, "y")) fun _ =>
    .call (.add 0 (true, "z")) fun _ => .done (.ok ())

/-- The last name is added before the others. -/
def addInBulk : Prog Unit Unit (Bool × String) Unit Verdict :=
  .call (.add 0 (true, "z")) fun _ => (Prog.addAll 0 [(true, "x"), (false, "y")]).bind fun _ =>
    .done (.ok ())

theorem order_not_shown_by_name_marked :
    ∃ ρ ρ' : Run silentClient, ρ 0 = markedStart addSingly ∧ ρ' 0 = markedStart addInBulk ∧
      ((ρ 6).world.listing 1).members = [(true, "x"), (true, "z")] ∧
      ((ρ' 6).world.listing 1).members = [(true, "z"), (true, "x")] ∧
      (ρ 6).world.SameByName silentClient silentClient 1 1 (ρ' 6).world := by
  have rooted (control) : (markedStart control).world.Rooted markedNames (· == ·) 0 0 0 [] :=
    ⟨rfl, rfl, rfl, rfl, rfl⟩
  have observed (control) : (markedStart control).world.Observed silentClient 0 := by
    intro change l hl
    cases change <;> cases hl
  have keeps : markedNames.KeepsNames [onlyMarked] :=
    Parts.keepsNames_singleton ((Filter.restores_matching _).keepsNames _)
  have inBulk : Prog.AddsInTurn 0 (.done (.ok ()))
      ((true, "z") :: ([(true, "x"), (false, "y")] ++ [])) addInBulk := .add (.addAll .done)
  have perm : [(true, "z"), (true, "x"), (false, "y")].Perm
      [(true, "x"), (false, "y"), (true, "z")] := by decide
  obtain ⟨-, shows⟩ := order_not_shown_by_name (.of silentClient (markedStart addSingly))
    (.of silentClient (markedStart addInBulk)) 0 0 (by decide) perm rfl (rooted _) (rooted _)
    (observed _) (observed _) (.add (.add (.add .done))) inBulk
  exact ⟨_, _, rfl, rfl, by decide, by decide, shows 6 6 (by decide) (by decide) [onlyMarked] 1 1
    keeps rfl rfl rfl rfl⟩

end NameRegistry
