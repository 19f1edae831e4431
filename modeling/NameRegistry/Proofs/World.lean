import NameRegistry.Response
import Mathlib.Data.List.Basic

/-!
# What calls leave alone

A call changes few things in the world, and most of what it does not change, it leaves alone for
all registries and channels at once.

* `World.insert?_eq`, `World.erase?_eq` : a view of a store passes an entity on, widened through
  all filters, if all of them accept it.
* `World.Responds` : what the library can do about a call, with one rule for each change that it can
  make to a store and each thing that it can have done before it answers.
* `World.respond_inFlight` : no call by itself puts a name in flight.
* `World.Grows`, `World.respond_grows` : registries keep their parts and channels their listeners;
  new listeners come last.
-/

namespace NameRegistry

variable {μ σ α β : Type}

/-! ## Stores behind views -/

namespace StoreRef

def number : StoreRef μ α → Nat
  | .root i => i
  | .view p _ => p.number

/-- The filters between a store and a view, those next to the store first. -/
def filters : StoreRef μ α → List (Filter μ α)
  | .root _ => []
  | .view p f => p.filters ++ [f]

/-- An entity of a view as one of the store behind it. -/
def widen (m : μ) : StoreRef μ α → α → α
  | .root _, e => e
  | .view p f, e => p.widen m (f.widen m e)

/-- Whether all filters between a view and the store behind it accept an entity. -/
def accepts (m : μ) : StoreRef μ α → α → Bool
  | .root _, _ => true
  | .view p f, e => f.accepts m e && p.accepts m (f.widen m e)

end StoreRef

theorem narrowAll_append (m : μ) (fs gs : List (Filter μ α)) (e : α) :
    narrowAll m (fs ++ gs) e = narrowAll m fs e >>= narrowAll m gs := by
  induction fs generalizing e with
  | nil => rfl
  | cons f fs ih =>
    show (f.narrow m e >>= narrowAll m (fs ++ gs)) = _
    cases h : f.narrow m e with
    | none => simp [narrowAll, h]
    | some t => simpa [narrowAll, h] using ih t

/-- A view of a view narrows what the view before it shows. -/
theorem narrowAll_view (m : μ) (p : StoreRef μ α) (f : Filter μ α) (e : α) :
    narrowAll m (StoreRef.view p f).filters e = narrowAll m p.filters e >>= f.narrow m := by
  rw [StoreRef.filters, narrowAll_append]
  exact congrArg _ (funext fun t => bind_pure (f.narrow m t))

namespace World

section

variable [Stores μ α] (w : World μ σ α β)

/-- A visit to a view is a visit to what all filters show of the members of the store behind it. -/
theorem visit_eq {γ : Type} (s : StoreRef μ α) (see : γ → α → γ) (a : γ) :
    w.visit s see a = ((Stores.visit w.memory s.number (w.store s.number)).filterMap
      (narrowAll w.memory s.filters)).foldl see a := by
  induction s generalizing see with
  | root i => simp [visit, StoreRef.number, StoreRef.filters, narrowAll]
  | view p f ih =>
    rw [visit, ih, funext (narrowAll_view w.memory p f)]
    show _ = List.foldl see a (List.filterMap (fun e => (narrowAll w.memory p.filters e).bind
      (f.narrow w.memory)) _)
    rw [← List.filterMap_filterMap, List.foldl_filterMap (f := f.narrow w.memory)]
    refine congrArg (fun see => List.foldl see a _) (funext fun a => funext fun e => ?_)
    cases f.narrow w.memory e <;> rfl

/-- What is shown is what the filters show of the members of the store behind them. -/
theorem shown_eq_filterMap (s : StoreRef μ α) :
    w.shown s = (Stores.visit w.memory s.number (w.store s.number)).filterMap
      (narrowAll w.memory s.filters) := by
  rw [shown, visit_eq, List.foldl_append_eq_append, List.nil_append, ← List.flatMap_def]
  exact List.flatMap_singleton' _

/-- A visit sees what is shown. -/
theorem visit_eq_foldl {γ : Type} (s : StoreRef μ α) (see : γ → α → γ) (a : γ) :
    w.visit s see a = (w.shown s).foldl see a := by
  rw [visit_eq, shown_eq_filterMap]

theorem len_view (p : StoreRef μ α) (f : Filter μ α) :
    w.len (.view p f) = (w.shown (.view p f)).length := by
  rw [len, visit_eq_foldl, List.foldl_add_const, Nat.one_mul, Nat.zero_add]

/-- What a view finds is what its filters show of what is found in the store behind them. -/
theorem seek_fst_eq (s : StoreRef μ α) (p : α → Bool) :
    (w.seek s p).1 = (Stores.find w.memory s.number (w.store s.number) fun e =>
      (narrowAll w.memory s.filters e).any p).1 >>= narrowAll w.memory s.filters := by
  induction s generalizing p with
  | root i => exact (bind_pure _).symm
  | view parent f ih =>
    have found : (w.seek (.view parent f) p).1 =
        (w.seek parent fun e => (f.narrow w.memory e).any p).1 >>= f.narrow w.memory := rfl
    have any (e : α) : (narrowAll w.memory parent.filters e).any
        (fun e => (f.narrow w.memory e).any p) =
          (narrowAll w.memory (StoreRef.view parent f).filters e).any p := by
      rw [narrowAll_view]
      cases narrowAll w.memory parent.filters e <;> rfl
    rw [found, ih, bind_assoc, funext any, funext (narrowAll_view w.memory parent f)]
    rfl

theorem members_eq_shown (r : Nat) :
    (w.listing r).members = w.shown (w.registry r).store := by
  rw [listing, Listing.members, List.map_map]
  exact List.map_id _

omit [Stores μ α] in
/-- What a view passes on if its filter accepts it, gets to the store if all filters accept it. -/
theorem eq_of_passes {γ : Type} {m : μ} {g : StoreRef μ α → α → γ} {refused : γ}
    (hg : ∀ p f e, g (.view p f) e = if f.accepts m e then g p (f.widen m e) else refused)
    (s : StoreRef μ α) (e : α) :
    g s e = if s.accepts m e then g (.root s.number) (s.widen m e) else refused := by
  induction s generalizing e with
  | root i => simp [StoreRef.accepts, StoreRef.number, StoreRef.widen]
  | view p f ih =>
    rw [hg, ih]
    by_cases h : f.accepts m e <;>
      simp only [StoreRef.accepts, StoreRef.number, StoreRef.widen, h, Bool.true_and,
        Bool.false_and, if_true, Bool.false_eq_true, if_false]

theorem insert?_eq [Memory μ α] (s : StoreRef μ α) (e : α) :
    w.insert? s e =
      if s.accepts w.memory e then w.insert? (.root s.number) (s.widen w.memory e) else none :=
  eq_of_passes (fun _ _ _ => rfl) s e

theorem erase?_eq (s : StoreRef μ α) (e : α) :
    w.erase? s e =
      if s.accepts w.memory e then w.erase? (.root s.number) (s.widen w.memory e) else none :=
  eq_of_passes (fun _ _ _ => rfl) s e

theorem refuseInsert_eq (s : StoreRef μ α) (e : α) :
    w.refuseInsert s e = if s.accepts w.memory e then
      w.refuseInsert (.root s.number) (s.widen w.memory e) else w :=
  eq_of_passes (fun _ _ _ => rfl) s e

theorem refuseErase_eq (s : StoreRef μ α) (e : α) :
    w.refuseErase s e = if s.accepts w.memory e then
      w.refuseErase (.root s.number) (s.widen w.memory e) else w :=
  eq_of_passes (fun _ _ _ => rfl) s e

end

/-! ## Stores that are lists -/

/-- A view shows the members of the store behind it that all filters show. -/
theorem shown_eq (w : World μ σ α β) (s : StoreRef μ α) :
    w.shown s = (w.store s.number).members.filterMap (narrowAll w.memory s.filters) :=
  w.shown_eq_filterMap s

theorem shown_root (w : World μ σ α β) (i : Nat) : w.shown (.root i) = (w.store i).members := by
  rw [shown_eq]
  exact List.filterMap_some

theorem shown_view (w : World μ σ α β) (p : StoreRef μ α) (f : Filter μ α) :
    w.shown (.view p f) = (w.shown p).filterMap (f.narrow w.memory) := by
  rw [shown_eq, shown_eq, List.filterMap_filterMap]
  exact congrArg₂ _ (funext (narrowAll_view w.memory p f)) rfl

theorem len_eq (w : World μ σ α β) (s : StoreRef μ α) : w.len s = (w.shown s).length := by
  cases s with
  | root i => rw [shown_root, len, Stores.len, Stores.listed]
  | view p f => exact w.len_view p f

theorem seek_fst (w : World μ σ α β) (s : StoreRef μ α) (p : α → Bool) :
    (w.seek s p).1 = (w.shown s).find? p := by
  induction s generalizing p with
  | root i =>
    rw [shown_root]
    exact scan_fst p _
  | view parent f ih =>
    rw [shown_view, List.find?_filterMap, ← ih]
    rfl

/-- A plain look-up finds the first member with the name. -/
theorem direct_eq (w : World μ σ α β) (r : Nat) (name : String) :
    w.direct r name = (w.shown (w.registry r).store).find? fun e => w.nameOf r e == name :=
  w.seek_fst _ _

theorem direct_eq_none_iff {w : World μ σ α β} {r : Nat} {name : String} :
    w.direct r name = none ↔ ∀ e ∈ w.shown (w.registry r).store, w.nameOf r e ≠ name := by
  simp [direct_eq, List.find?_eq_none]

theorem of_direct_eq_some {w : World μ σ α β} {r : Nat} {name : String} {e : α}
    (h : w.direct r name = some e) :
    e ∈ w.shown (w.registry r).store ∧ w.nameOf r e = name := by
  rw [direct_eq] at h
  exact ⟨List.mem_of_find?_eq_some h, by simpa using List.find?_some h⟩

/-- A store that is given the members that it has stays as it is. -/
theorem setMembers_store (w : World μ σ α β) (i : Nat) :
    w.setMembers i (w.store i).members = w := by
  have stores : (w.setMembers i (w.store i).members).stores = w.stores := by
    refine List.ext_getElem? fun j => ?_
    rw [setMembers, List.getElem?_modify]
    by_cases hj : i = j
    · subst hj
      cases h : w.stores[i]? with
      | none => rfl
      | some st => simp [store, List.getD_eq_getElem?_getD, h]
    · simp [hj]
  show { w with stores := (w.setMembers i (w.store i).members).stores } = w
  rw [stores]

@[simp] theorem refuseInsert_listed (w : World μ σ α β) (s : StoreRef μ α) (e : α) :
    w.refuseInsert s e = w := by
  rw [refuseInsert_eq]
  exact ite_eq_right_iff.2 fun _ => w.setMembers_store s.number

@[simp] theorem refuseErase_listed (w : World μ σ α β) (s : StoreRef μ α) (e : α) :
    w.refuseErase s e = w := by
  rw [refuseErase_eq]
  exact ite_eq_right_iff.2 fun _ => w.setMembers_store s.number

theorem insert?_root [Memory μ α] (w : World μ σ α β) (i : Nat) (e : α) :
    w.insert? (.root i) e = ((w.store i).discipline.insert (w.settle e).2.memory (w.settle e).1
      (w.store i).members).map ((w.settle e).2.setMembers i) :=
  Option.map_map _ _ _

theorem erase?_root (w : World μ σ α β) (i : Nat) (e : α) :
    w.erase? (.root i) e =
      ((w.store i).discipline.erase w.memory e (w.store i).members).map (w.setMembers i) :=
  Option.map_map _ _ _

/-- A store that takes an entity in has it settled and changes its own members. -/
theorem insert?_eq_some_iff [Memory μ α] {w w' : World μ σ α β} {s : StoreRef μ α} {e : α} :
    w.insert? s e = some w' ↔ s.accepts w.memory e ∧
      ∃ t w₁ l, w.settle (s.widen w.memory e) = (t, w₁) ∧
        (w.store s.number).discipline.insert w₁.memory t (w.store s.number).members = some l ∧
        w' = w₁.setMembers s.number l := by
  rw [insert?_eq]
  split_ifs with h
  · simp only [insert?_root, Option.map_eq_some_iff, h, true_and]
    exact ⟨fun ⟨l, hl, hw⟩ => ⟨_, _, l, rfl, hl, hw.symm⟩,
      fun ⟨_, _, l, ht, hl, hw⟩ => by cases ht; exact ⟨l, hl, hw.symm⟩⟩
  · simp [h]

theorem erase?_eq_some_iff {w w' : World μ σ α β} {s : StoreRef μ α} {e : α} :
    w.erase? s e = some w' ↔ s.accepts w.memory e ∧
      ∃ l, (w.store s.number).discipline.erase w.memory (s.widen w.memory e)
          (w.store s.number).members = some l ∧ w' = w.setMembers s.number l := by
  rw [erase?_eq]
  split_ifs with h
  · simp only [erase?_root, Option.map_eq_some_iff, h, true_and]
    exact ⟨fun ⟨l, hl, hw⟩ => ⟨l, hl, hw.symm⟩, fun ⟨l, hl, hw⟩ => ⟨l, hl, hw.symm⟩⟩
  · simp [h]

/-! ## Registries -/

theorem registry_modifyRegistry (w : World μ σ α β) (r r' : Nat)
    (f : Registry μ σ α β → Registry μ σ α β) :
    (w.modifyRegistry r f).registry r' =
      if r = r' ∧ r' < w.registries.length then f (w.registry r') else w.registry r' := by
  simp only [registry, modifyRegistry, List.getD_eq_getElem?_getD, List.getElem?_modify]
  by_cases hr : r = r' <;> by_cases hlt : r' < w.registries.length <;> simp [hr, hlt]

/-- A number that was never given out stands for a registry that is absent. -/
theorem registry_of_le {w : World μ σ α β} {r : Nat} (h : w.registries.length ≤ r) :
    w.registry r = .absent := by
  rw [registry, List.getD_eq_getElem?_getD, List.getElem?_eq_none h, Option.getD_none]

theorem lt_of_rules_ne_nil {w : World μ σ α β} {r : Nat} (h : (w.registry r).rules ≠ []) :
    r < w.registries.length := by
  by_contra hr
  rw [registry_of_le (by omega)] at h
  exact h rfl

theorem registry_append (w : World μ σ α β) (reg : Registry μ σ α β) (r : Nat) :
    ({ w with registries := w.registries ++ [reg] } : World μ σ α β).registry r =
      if r = w.registries.length then reg else w.registry r := by
  simp only [registry, List.getD_eq_getElem?_getD]
  rcases Nat.lt_trichotomy r w.registries.length with h | rfl | h
  · rw [if_neg (by omega), List.getElem?_append_left h]
  · simp
  · rw [if_neg (by omega), List.getElem?_eq_none (by simp; omega), List.getElem?_eq_none (by omega)]

theorem channel_append (w : World μ σ α β) (c : Nat) :
    ({ w with channels := w.channels ++ [{}] } : World μ σ α β).channel c = w.channel c := by
  simp only [channel, List.getD_eq_getElem?_getD]
  rcases Nat.lt_trichotomy c w.channels.length with h | rfl | h
  · rw [List.getElem?_append_left h]
  · simp
  · rw [List.getElem?_eq_none (by simp; omega), List.getElem?_eq_none (by omega)]

theorem registry_of_eq {w w' : World μ σ α β} (h : w'.registries = w.registries) (r : Nat) :
    w'.registry r = w.registry r := by
  rw [registry, h, registry]

theorem channel_of_eq {w w' : World μ σ α β} (h : w'.channels = w.channels) (c : Nat) :
    w'.channel c = w.channel c := by
  rw [channel, h, channel]

/-! ## Growth -/

/-- What never changes in a world: the parts of its registries, and the listeners that it has. -/
structure Grows (w w' : World μ σ α β) : Prop where
  parts : ∀ r, r < w.registries.length →
    r < w'.registries.length ∧ (w'.registry r).toParts = (w.registry r).toParts
  listeners : ∀ c change, (w.channel c).listeners change <+: (w'.channel c).listeners change

variable {w w' w'' : World μ σ α β}

theorem Grows.refl (w : World μ σ α β) : w.Grows w :=
  ⟨fun _ h => ⟨h, rfl⟩, fun _ _ => List.prefix_rfl⟩

theorem Grows.trans (h : w.Grows w') (h' : w'.Grows w'') : w.Grows w'' where
  parts r hr := by
    obtain ⟨hr', hp⟩ := h.parts r hr
    obtain ⟨hr'', hp'⟩ := h'.parts r hr'
    exact ⟨hr'', hp'.trans hp⟩
  listeners c change := (h.listeners c change).trans (h'.listeners c change)

/-- Only the registries and the channels count. -/
theorem Grows.of_eq (hr : w'.registries = w.registries) (hc : w'.channels = w.channels) :
    w.Grows w' where
  parts r h := ⟨hr ▸ h, by rw [registry_of_eq hr]⟩
  listeners c change := by
    simp only [channel, hc, List.prefix_rfl]

/-- A registry may change all but its parts. -/
theorem Grows.modifyRegistry (w : World μ σ α β) (r : Nat)
    {f : Registry μ σ α β → Registry μ σ α β} (hf : ∀ reg, (f reg).toParts = reg.toParts) :
    w.Grows (w.modifyRegistry r f) where
  parts r' h := by
    refine ⟨by rwa [World.modifyRegistry, List.length_modify], ?_⟩
    rw [registry_modifyRegistry]
    split_ifs
    · exact hf _
    · rfl
  listeners _ _ := List.prefix_rfl

theorem Grows.mark (w : World μ σ α β) (r : Nat) (name : String) : w.Grows (w.mark r name) :=
  .modifyRegistry w r fun _ => rfl

theorem Grows.release (w : World μ σ α β) (r : Nat) (name : String) :
    w.Grows (w.release r name) := .modifyRegistry w r fun _ => rfl

theorem listeners_listen (w : World μ σ α β) (ch : ChannelRef μ α) (change : Change) (action : β)
    (c : Nat) (change' : Change) :
    ((w.listen ch change action).channel c).listeners change' =
      if ch.number = c ∧ c < w.channels.length ∧ change = change' then
        (w.channel c).listeners change' ++ [ch.wrap ⟨[], action⟩]
      else (w.channel c).listeners change' := by
  simp only [channel, listen, List.getD_eq_getElem?_getD, List.getElem?_modify]
  by_cases hc : c < w.channels.length
  · rw [List.getElem?_eq_getElem hc]
    by_cases hn : ch.number = c <;> cases change <;> cases change' <;>
      simp [hn, hc, Channel.subscribe, Channel.listeners]
  · rw [List.getElem?_eq_none (Nat.le_of_not_lt hc)]
    simp [hc]

/-! ## What a call can do -/

/-- Everything that a call can do to the world without touching the members of a store or having
anything done before it answers. -/
inductive Quiet (w : World μ σ α β) : World μ σ α β → Prop
  | state (m : μ) (s : σ) : Quiet w { w with memory := m, client := s }
  | openStore (d : Discipline μ α) : Quiet w { w with stores := w.stores ++ [⟨[], d⟩] }
  | openChannel : Quiet w { w with channels := w.channels ++ [{}] }
  | openRegistry (p : Parts μ α) (hooks : Hooks μ σ α) :
      Quiet w { w with registries := w.registries ++ [{ p with hooks }] }
  | listen (c : ChannelRef μ α) (change : Change) (action : β) :
      Quiet w (w.listen c change action)
  | addRule (r : Nat) (rule : Rule β) : Quiet w (w.addRule r rule)

theorem Quiet.inFlight {w w' : World μ σ α β} (h : w.Quiet w') (r : Nat) :
    (w'.registry r).inFlight = (w.registry r).inFlight := by
  cases h with
  | openRegistry p hooks =>
    rw [registry_append]
    split_ifs with hr
    · rw [registry_of_le (by omega)]
      rfl
    · rfl
  | addRule r' rule =>
    rw [World.addRule, registry_modifyRegistry]
    split_ifs <;> rfl
  | _ => rfl

theorem Quiet.grows (h : w.Quiet w') : w.Grows w' := by
  cases h with
  | state | openStore => exact .of_eq rfl rfl
  | openChannel =>
    refine ⟨fun _ h => ⟨h, rfl⟩, fun c change => ?_⟩
    simp only [channel_append, List.prefix_rfl]
  | openRegistry p hooks =>
    refine ⟨fun r h => ⟨by simp only [List.length_append]; omega, ?_⟩, fun _ _ => List.prefix_rfl⟩
    rw [registry_append, if_neg (by omega)]
  | listen ch change action =>
    refine ⟨fun _ h => ⟨h, rfl⟩, fun c change' => ?_⟩
    rw [listeners_listen]
    split_ifs
    · exact List.prefix_append _ _
    · exact List.prefix_rfl
  | addRule r rule => exact .modifyRegistry w r fun _ => rfl

theorem others_of_erase? {s : StoreRef μ α} {e : α} (h : w.erase? s e = some w') :
    w'.registries = w.registries ∧ w'.channels = w.channels := by
  obtain ⟨-, l, -, rfl⟩ := erase?_eq_some_iff.1 h
  exact ⟨rfl, rfl⟩

variable [Memory μ α]

theorem others_of_insert? {s : StoreRef μ α} {e : α} (h : w.insert? s e = some w') :
    w'.registries = w.registries ∧ w'.channels = w.channels := by
  obtain ⟨-, t, w₁, l, ht, -, rfl⟩ := insert?_eq_some_iff.1 h
  cases ht
  exact ⟨rfl, rfl⟩

variable (C : Client μ σ α β)

/-- What the library can do about a call. -/
inductive Responds (w : World μ σ α β) :
    (c : Call μ σ α β) → World μ σ α β × Reaction μ σ α β c.Reply → Prop
  | quiet {c w' a} : w.Quiet w' → Responds w c (w', .answer a)
  | insert {s e w'} : w.insert? s e = some w' → Responds w (.insert s e) (w', .answer true)
  | erase {s e w'} : w.erase? s e = some w' → Responds w (.erase s e) (w', .answer true)
  | add {r e w'} : w.direct r (w.nameOf r e) = none →
      w.insert? (w.registry r).store e = some w' →
      Responds w (.add r e) (w', .tell (w.registry r).channel .added e (.ok true))
  | remove {r e w'} : w.erase? (w.registry r).store e = some w' →
      Responds w (.remove r e) (w', .tell (w.registry r).channel .removed e true)
  | removeByName {r name e w'} : w.direct r name = some e →
      w.erase? (w.registry r).store e = some w' →
      Responds w (.removeByName r name)
        (w', .tell (w.registry r).channel .removed e (.ok (some e)))
  | fire {c change e} : Responds w (.fire c change e) (w, .tell c change e ())
  | find {r name} : w.direct r name = none → name ∉ (w.registry r).inFlight →
      Responds w (.find r name) (w, .resolve r name id)
  | run {c p a} (m : μ) : Responds w c ({ w with memory := m }, .run p a)

variable {C}

theorem responds (w : World μ σ α β) (c : Call μ σ α β) :
    Responds w c (w.respond C c) := by
  have same : w.Quiet w := .state w.memory w.client
  cases c with
  | openStore d => exact .quiet (.openStore d)
  | openChannel => exact .quiet .openChannel
  | openRegistry p hooks => exact .quiet (.openRegistry p hooks)
  | subscribe r change action => exact .quiet (.listen _ change action)
  | listen c change action => exact .quiet (.listen c change action)
  | addRule r rule => exact .quiet (.addRule r rule)
  | missing r name => exact .quiet (.state _ _)
  | settle e => exact .quiet (.state _ _)
  | invoke action e => exact .run _
  | fire c change e => exact .fire
  | add r e =>
    simp only [respond, refuseInsert_listed]
    split_ifs with h
    · exact .quiet (.state _ _)
    · split
      · exact .quiet same
      · exact .add (by simpa using h) ‹_›
  | find r name =>
    simp only [respond]
    split
    · exact .quiet same
    · split_ifs with hf
      · exact .quiet same
      · exact .find ‹_› hf
  | remove r e =>
    simp only [respond, refuseErase_listed]
    split
    · exact .quiet same
    · exact .remove ‹_›
  | removeByName r name =>
    simp only [respond, refuseErase_listed]
    split
    · exact .quiet same
    · split
      · exact .quiet same
      · exact .removeByName ‹_› ‹_›
  | insert s e =>
    simp only [respond, refuseInsert_listed]
    split
    · exact .quiet same
    · exact .insert ‹_›
  | erase s e =>
    simp only [respond, refuseErase_listed]
    split
    · exact .quiet same
    · exact .erase ‹_›
  | applyRule r i name =>
    simp only [respond]
    split
    · exact .quiet same
    · exact .run w.memory
  | _ => exact .quiet same

/-- If the name of an entity is taken, nothing is added, and the hook for duplicates decides how
that is said. -/
theorem respond_add_of_taken {r : Nat} {e : α} (h : w.direct r (w.nameOf r e) ≠ none) :
    w.respond C (.add r e) =
      let reg := w.registry r
      let (a, client) :=
        reg.hooks.onDuplicate reg.typeDisplayName (w.nameOf r e) e w.memory w.client
      ({ w with client }, .answer (a.map fun _ => false)) := by
  have taken : (w.direct r (w.nameOf r e)).isSome := Option.isSome_iff_ne_none.2 h
  exact if_pos taken

/-- If the name of an entity is free, it is for the store to take it in. -/
theorem respond_add_of_free {r : Nat} {e : α} (h : w.direct r (w.nameOf r e) = none) :
    w.respond C (.add r e) =
      match w.insert? (w.registry r).store e with
      | none => (w, .answer (.ok false))
      | some w' => (w', .tell (w.registry r).channel .added e (.ok true)) := by
  have free : ¬ (w.direct r (w.nameOf r e)).isSome := by
    rw [h]
    exact Bool.false_ne_true
  show (if _ then _ else _) = _
  rw [if_neg free]
  cases w.insert? (w.registry r).store e with
  | none => rw [refuseInsert_listed]
  | some w' => rfl

theorem respond_inFlight (w : World μ σ α β) (c : Call μ σ α β) (r : Nat) :
    ((w.respond C c).1.registry r).inFlight = (w.registry r).inFlight := by
  have h := responds (C := C) w c
  generalize w.respond C c = o at h
  cases h with
  | quiet h => exact h.inFlight r
  | insert h | add _ h => rw [registry_of_eq (others_of_insert? h).1]
  | erase h | remove h | removeByName _ h => rw [registry_of_eq (others_of_erase? h).1]
  | fire | find | run => rfl

/-- A call keeps the parts of registries and the listeners of channels. -/
theorem respond_grows (w : World μ σ α β) (c : Call μ σ α β) : w.Grows (w.respond C c).1 := by
  have h := responds (C := C) w c
  generalize w.respond C c = o at h
  cases h with
  | quiet h => exact h.grows
  | insert h | add _ h =>
    obtain ⟨hr, hc⟩ := others_of_insert? h
    exact .of_eq hr hc
  | erase h | remove h | removeByName _ h =>
    obtain ⟨hr, hc⟩ := others_of_erase? h
    exact .of_eq hr hc
  | fire | find | run => exact .of_eq rfl rfl

end World

end NameRegistry
