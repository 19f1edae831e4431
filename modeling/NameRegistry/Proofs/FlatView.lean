import NameRegistry.Proofs.Alike
import NameRegistry.Proofs.Names

/-!
# Views of views

A view of a view, and so on, is the view through the composed filter.

* `Filter.andThen`, `Filter.composed` : one filter after another, and after the last one.
* `Filter.Returns` : what the filter shows of an entity of the view is that entity.
* `Parts.through_alike` : a chain of views of such filters and the one view are alike.

A chain asks each of its filters whether it accepts an entity, and the composed filter asks once,
of the entity widened through all. The answers agree because what the first filter shows of its
own entity is that entity (`Filter.accepts_andThen`).

Main result: `nested_eq_flat`.
-/

namespace NameRegistry

variable {μ σ α β : Type}

/-! ## Composed filters -/

namespace Filter

/-- Narrows by one filter and then by another, and widens the other way. -/
def andThen (f g : Filter μ α) : Filter μ α where
  narrow m e := f.narrow m e >>= g.narrow m
  widen m e := f.widen m (g.widen m e)

/-- Narrows by one filter after the other, and widens the other way. -/
def composed (fs : List (Filter μ α)) : Filter μ α :=
  fs.foldr andThen ⟨fun _ e => some e, fun _ e => e⟩

/-- What the filter shows of an entity of the view, if it does, is that entity. -/
def Returns (f : Filter μ α) : Prop :=
  ∀ m e, f.narrow m (f.widen m e) = none ∨ f.narrow m (f.widen m e) = some e

theorem composed_narrow (fs : List (Filter μ α)) (m : μ) :
    (composed fs).narrow m = narrowAll m fs := by
  induction fs with
  | nil => rfl
  | cons f fs ih =>
    funext e
    show f.narrow m e >>= (composed fs).narrow m = _
    rw [ih, narrowAll]

/-- A composed filter accepts what both filters accept. -/
theorem accepts_andThen {f g : Filter μ α} (hf : f.Returns) (m : μ) (e : α) :
    (f.andThen g).accepts m e = (g.accepts m e && f.accepts m (g.widen m e)) := by
  have hn : (f.andThen g).accepts m e =
      (f.narrow m (f.widen m (g.widen m e)) >>= g.narrow m).isSome := rfl
  have ha : f.accepts m (g.widen m e) = (f.narrow m (f.widen m (g.widen m e))).isSome := rfl
  rw [hn, ha]
  rcases hf m (g.widen m e) with h | h
  · rw [h, Option.isSome_none, Bool.and_false]
    rfl
  · rw [h, Option.isSome_some, Bool.and_true]
    rfl

end Filter

theorem narrowAll_composed (m : μ) (before fs : List (Filter μ α)) (e : α) :
    narrowAll m (before ++ [Filter.composed fs]) e = narrowAll m (before ++ fs) e := by
  rw [narrowAll_append, narrowAll_append]
  refine congrArg _ (funext fun t => ?_)
  rw [narrowAll, Filter.composed_narrow]
  exact bind_pure (narrowAll m fs t)

/-! ## Chains -/

namespace Parts

/-- A chain of views widens and accepts as the view through the composed filter does. -/
theorem through_store (p : Parts μ α) {views : List (Filter μ α × String)}
    (hv : ∀ v ∈ views, v.1.Returns) (m : μ) (e : α) :
    (p.through views).store.widen m e =
        p.store.widen m ((Filter.composed (views.map Prod.fst)).widen m e) ∧
      (p.through views).store.accepts m e =
        ((Filter.composed (views.map Prod.fst)).accepts m e &&
          p.store.accepts m ((Filter.composed (views.map Prod.fst)).widen m e)) := by
  induction views generalizing p with
  | nil => exact ⟨rfl, rfl⟩
  | cons v views ih =>
    obtain ⟨hf, hv⟩ := List.forall_mem_cons.1 hv
    obtain ⟨hw, ha⟩ := ih (p.filtered v.1 v.2) hv
    refine ⟨hw, ha.trans ?_⟩
    show (_ && (v.1.accepts m _ && p.store.accepts m (v.1.widen m _))) =
      ((v.1.andThen (Filter.composed (views.map Prod.fst))).accepts m e && _)
    rw [Filter.accepts_andThen hf, Bool.and_assoc]
    rfl

theorem through_channel (p : Parts μ α) (views : List (Filter μ α × String)) :
    (p.through views).channel.number = p.channel.number ∧
      (p.through views).channel.filters = p.channel.filters ++ views.map Prod.fst ∧
      ∀ m e, (p.through views).channel.widen m e =
        p.channel.widen m ((Filter.composed (views.map Prod.fst)).widen m e) := by
  induction views generalizing p with
  | nil => exact ⟨rfl, (List.append_nil _).symm, fun _ _ => rfl⟩
  | cons v views ih =>
    obtain ⟨hn, hf, hw⟩ := ih (p.filtered v.1 v.2)
    refine ⟨hn, hf.trans ?_, hw⟩
    exact List.append_assoc p.channel.filters [v.1] _

theorem through_isView (p : Parts μ α) {views : List (Filter μ α × String)} (h : views ≠ []) :
    (p.through views).store.isView := by
  induction views generalizing p with
  | nil => exact absurd rfl h
  | cons v views ih =>
    cases views with
    | nil => rfl
    | cons v' views => exact ih (p.filtered v.1 v.2) nofun

theorem through_namer_eq (p : Parts μ α) (views : List (Filter μ α × String)) :
    (p.through views).namer =
      fun m e => p.namer m ((Filter.composed (views.map Prod.fst)).widen m e) := by
  induction views generalizing p with
  | nil => rfl
  | cons v views ih => exact ih (p.filtered v.1 v.2)

/-- **A chain of views and the one view are alike.** -/
theorem through_alike (p : Parts μ α) {views : List (Filter μ α × String)} (nonempty : views ≠ [])
    (hv : ∀ v ∈ views, v.1.Returns) :
    (p.through views).Alike
      (p.filtered (.composed (views.map Prod.fst)) (p.through views).typeName) := by
  obtain ⟨hn, hf, hw⟩ := p.through_channel views
  refine ⟨(p.through_namer_eq views).symm, rfl,
    ⟨(p.through_isView nonempty).symm, (p.through_number views).symm, fun m e => ?_,
      fun m e => ?_, fun m e => ?_⟩,
    ⟨hn.symm, fun m e => ?_, fun m e => (hw m e).symm⟩⟩
  · rw [p.through_filters]
    exact narrowAll_composed m _ _ e
  · exact (p.through_store hv m e).1.symm
  · exact (p.through_store hv m e).2.symm
  · rw [hf]
    exact narrowAll_composed m _ _ e

end Parts

/-! ## Runs -/

namespace World

variable (w : World μ σ α β)

/-- The world in which a registry has other parts. -/
def setParts (v : Nat) (p : Parts μ α) : World μ σ α β :=
  w.modifyRegistry v fun reg => { reg with toParts := p }

/-- Only the registry that gets other parts is another one. -/
theorem setParts_alike {v : Nat} {p : Parts μ α} (h : (w.registry v).toParts.Alike p) :
    w.Alike v (w.setParts v p) where
  memory := rfl
  client := rfl
  stores := rfl
  channels := rfl
  listeners c change := List.forall₂_same.2 fun l _ => .refl l
  registries := by rw [setParts, modifyRegistry, List.length_modify]
  registry r := by
    rw [setParts, registry_modifyRegistry]
    split_ifs with hr
    · obtain ⟨rfl, -⟩ := hr
      exact ⟨h, rfl, rfl, rfl⟩
    · exact .refl _
  parts r hr := by rw [setParts, registry_modifyRegistry, if_neg fun h => hr h.1.symm]

end World

variable [Memory μ α] [Stores μ α] [Channels μ α] {C : Client μ σ α β}

/-- **A chain of views is one view.** Let a registry `v`, over any store and any channel,
whatever these do when they are asked, be at the end of a chain of views, of filters that return
what is theirs, of a registry with the parts `p`; and let a second run begin as the first one
does, but with `v` as the one view of `p` through the composed filter. Let the same programs
begin in both runs, and let none ask for the parts of `v`. Then at every moment the same program
runs in both, with the same answers, as all that it does next is the same; the memory, the
client's state and all stores are the same; every registry shows the same; and every listener is
told the same. -/
theorem nested_eq_flat (ρ ρ' : Run C) (v : Nat) (p : Parts μ α)
    (views : List (Filter μ α × String)) (nonempty : views ≠ [])
    (returns : ∀ x ∈ views, x.1.Returns)
    (nested : ((ρ 0).world.registry v).toParts = p.through views)
    (flat : ρ' 0 = ⟨(ρ 0).world.setParts v (p.filtered (.composed (views.map Prod.fst))
      ((ρ 0).world.registry v).typeName), (ρ 0).stack, (ρ 0).control⟩)
    (programs : ∀ n, (ρ n).step C = none → (ρ' n).step C = none →
      (ρ' (n + 1)).control = (ρ (n + 1)).control)
    (sealed : ∀ n k, (ρ n).control ≠ .call (.parts v) k) (n : ℕ) :
    (ρ' n).control = (ρ n).control ∧
      (ρ' n).world.memory = (ρ n).world.memory ∧
      (ρ' n).world.client = (ρ n).world.client ∧
      (ρ' n).world.stores = (ρ n).world.stores ∧
      (∀ r, (ρ' n).world.listing r = (ρ n).world.listing r) ∧
      (ρ' n).tells = (ρ n).tells := by
  have start : (ρ 0).Alike v (ρ' 0) := by
    rw [flat]
    refine ⟨World.setParts_alike _ ?_, List.forall₂_same.2 fun f _ => .refl f, rfl⟩
    rw [nested]
    exact p.through_alike nonempty returns
  have h := Run.alike start programs sealed n
  exact ⟨h.control, h.world.memory, h.world.client, h.world.stores, h.world.listing_eq, h.tells_eq⟩

/-! A registry of numbers, a view of those that are not zero, and a view of that which counts from
zero. Listeners note what they are told. -/

def numbers {μ : Type} : Parts μ ℕ :=
  ⟨fun _ e => if e = 1 then "one" else "other", "u32", .root 0, .root 0⟩

def fromZero {μ : Type} : List (Filter μ ℕ × String) :=
  [(.matching fun _ e => e ≠ 0, "u32"), (⟨fun _ e => some (e - 1), fun _ e => e + 1⟩, "u32")]

theorem returns_fromZero {μ : Type} : ∀ x ∈ fromZero (μ := μ), x.1.Returns := by
  simp only [fromZero, List.forall_mem_cons]
  refine ⟨fun m e => ?_, fun m e => .inr rfl, nofun⟩
  by_cases h : e ≠ 0 <;> simp [Filter.matching, h]

/-- A listener notes what it is told. -/
def notesIn (μ : Type) : Client μ (List ℕ) ℕ Unit where
  rule _ _ _ := .done (.ok ())
  action _ e := .modify (e :: ·)

abbrev notes : Client Unit (List ℕ) ℕ Unit := notesIn Unit

/-! The registry is over a store that puts what it takes in first, and that counts in the memory
what it refuses, and over a channel that tells the newest listener first. A listener of the last
view is followed by one of the registry. A number is added through the view, and another one is to
be removed that is no member. -/

/-- How often a store refused. -/
structure Tally where
  refusals : ℕ

instance : Memory Tally ℕ where
  settle m e := (e, m)

instance : Stores Tally ℕ where
  visit _ _ s := s.members
  find _ _ s p := scan p s.members
  len _ _ s := s.members.length
  insert m _ s e := if e ∈ s.members then none else some (e :: s.members, m)
  erase m _ s e := if e ∈ s.members then some (s.members.erase e, m) else none
  refuseInsert m _ s _ := (s.members, ⟨m.refusals + 1⟩)
  refuseErase m _ s _ := (s.members, ⟨m.refusals + 1⟩)

instance : Channels Tally ℕ where
  greet m _ _ _ := (none, m)
  turn m event told left _ :=
    let newestFirst := (List.range left).reverse.map (event.change, ·)
    (if told = 0 then some (event.entity, newestFirst) else none, m)

/-- The view with the given parts, and the program that adds and removes through it. -/
def notesStart (view : Parts Tally ℕ) : State Tally (List ℕ) ℕ Unit where
  world :=
    { memory := ⟨0⟩
      client := []
      stores := [⟨[7], .closed⟩]
      channels := [{}]
      registries := [{ numbers with hooks := .default }, { view with hooks := .default }] }
  stack := []
  control :=
    .call (.subscribe 1 .added ()) fun _ => .call (.subscribe 0 .added ()) fun _ =>
      .call (.add 1 0) fun _ => .call (.remove 1 4) fun _ => .done (.ok ())

/-- The run of this program. -/
def notesRun (view : Parts Tally ℕ) : Run (notesIn Tally) := .of _ (notesStart view)

abbrev flatFromZero : Parts Tally ℕ := numbers.filtered (.composed (fromZero.map Prod.fst)) "u32"

theorem sealed_fromZero (n : ℕ) (k) :
    (notesRun (numbers.through fromZero) n).control ≠ .call (.parts 1) k := by
  intro h
  rcases n with _ | _ | _ | _ | _ | _ | _ | _ | _ | _ | n <;> cases h

theorem programs_fromZero (n : ℕ) : (notesRun flatFromZero (n + 1)).control =
    (notesRun (numbers.through fromZero) (n + 1)).control := by
  rcases n with _ | _ | _ | _ | _ | _ | _ | _ | _ | n <;> rfl

theorem nested_eq_flat_fromZero :
    ∃ ρ ρ' : Run (notesIn Tally),
      ((ρ 0).world.registry 1).toParts = numbers.through fromZero ∧
      ((ρ' 0).world.registry 1).toParts =
        numbers.filtered (.composed (fromZero.map Prod.fst)) "u32" ∧
      ((ρ 9).world.client = [0, 1] ∧ (ρ' 9).world.client = [0, 1]) ∧
      ((ρ 9).world.shown (.root 0) = [1, 7] ∧ (ρ' 9).world.shown (.root 0) = [1, 7]) ∧
      ((ρ 9).world.memory.refusals = 1 ∧ (ρ' 9).world.memory.refusals = 1) ∧
      ((ρ 9).world.listing 1).members = [0, 6] ∧
      (ρ' 9).world.listing 1 = (ρ 9).world.listing 1 := by
  let ρ := notesRun (numbers.through fromZero)
  let ρ' := notesRun flatFromZero
  obtain ⟨-, memory, client, stores, listing, -⟩ := nested_eq_flat ρ ρ' 1 numbers fromZero nofun
    returns_fromZero rfl rfl (fun n _ _ => programs_fromZero n) sealed_fromZero 9
  have noted : (ρ 9).world.client = [0, 1] := by decide
  have held : (ρ 9).world.shown (.root 0) = [1, 7] := by decide
  have held' : (ρ' 9).world.shown (.root 0) = [1, 7] := by
    rw [← held, World.shown_eq_filterMap, World.shown_eq_filterMap, World.store, World.store,
      stores, memory]
  have refused : (ρ 9).world.memory.refusals = 1 := by decide
  have seen : ((ρ 9).world.listing 1).members = [0, 6] := by decide
  exact ⟨ρ, ρ', rfl, rfl, ⟨noted, client.trans noted⟩, ⟨held, held'⟩,
    ⟨refused, (congrArg Tally.refusals memory).trans refused⟩, seen, listing 1⟩

end NameRegistry
