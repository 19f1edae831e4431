import NameRegistry.Proofs.Observers
import NameRegistry.Proofs.OrderedMap

/-!
# A registry is an ordered map

A registry that is no view and has no rules does to its members what an ordered map does to its
bindings, and answers as the map does.

* `Call.Reads` : what a subscriber calls that only observes a registry.
* `Call.Operates` : the operations of a registry. All subscribers observe.
* `World.Holds` : a registry stands for a map, and has no rules and only such subscribers.

A change of the store is one change of the map (`World.Holds.insert?`, `World.Holds.erase?`), and it
is made before anyone is told. The delivery that follows comes to an end, since those who are told
only read, and leaves the registry as it was (`State.leads_delivery`).

Main result: `answers_as_map`.
-/

namespace NameRegistry

variable {σ α β : Type}

/-! ## Operations -/

/-- A call asks what a registry holds. -/
inductive Call.Reads (r : ℕ) : Call Unit σ α β → Prop
  | look : Reads r (.look r)
  | nameOf (e : α) : Reads r (.nameOf r e)
  | direct (name : String) : Reads r (.direct r name)
  | find (name : String) : Reads r (.find r name)
  | missing (name : String) : Reads r (.missing r name)
  | settle (e : α) : Reads r (.settle e)

/-- A call is an operation of a registry. Actions have keys of `O`. -/
inductive Call.Operates (r : ℕ) (O : β → Prop) : Call Unit σ α β → Prop
  | reads {c} : c.Reads r → Operates r O c
  | add (e : α) : Operates r O (.add r e)
  | remove (e : α) : Operates r O (.remove r e)
  | removeByName (name : String) : Operates r O (.removeByName r name)
  | subscribe (change : Change) {b} : O b → Operates r O (.subscribe r change b)
  | invoke {b} (e : α) : O b → Operates r O (.invoke b e)

/-! ## Registries that stand for maps -/

/-- A registry that is no view, over a store and a channel, without rules. The hooks that decide
nothing are those of the empty configuration. -/
def Kind.registry (K : Kind α) (i ch : ℕ) : Registry Unit σ α β where
  namer _ := K.namer
  typeName := K.typeName
  store := .root i
  channel := .root ch
  hooks := .ofConfig K.config

example : (.default : Hooks Unit σ α) = .ofConfig {} := rfl

/-- A registry stands for a map: its store has the entities of the map as members, and entities are
bound to their names. Those who listen have keys of `O`. -/
structure World.Holds (K : Kind α) (O : β → Prop) (r i ch : ℕ) (m : OrderedMap α)
    (w : World Unit σ α β) : Prop where
  registry : w.registry r = K.registry i ch
  store : w.stores[i]? = some ⟨m.values, .distinct fun _ => K.same⟩
  named : m.Named K
  listeners : ∀ change, ∀ l ∈ (w.channel ch).listeners change, O l.action

namespace World.Holds

variable {K : Kind α} {O : β → Prop} {r i ch : ℕ} {m : OrderedMap α} {w w' : World Unit σ α β}
  (h : w.Holds K O r i ch m)

include h

theorem store_eq : w.store i = ⟨m.values, .distinct fun _ => K.same⟩ := store_of_getElem? h.store

theorem nameOf_eq : w.nameOf r = K.namer := by
  funext e
  rw [nameOf, h.registry]
  rfl

theorem listing_eq : w.listing r = ⟨K.displayName, m.entries, m.entries.length, []⟩ := by
  have shown : w.shown (w.registry r).store = m.values := by
    rw [h.registry]
    exact shown_of_getElem? h.store
  rw [listing, w.len_eq, shown, h.nameOf_eq, h.named.map_values, h.registry]
  simp only [OrderedMap.values, List.length_map]
  rfl

theorem direct_eq (name : String) : w.direct r name = m.get? name := by
  rw [direct_eq_lookup, h.listing_eq, OrderedMap.get?]

theorem client (s : σ) : World.Holds K O r i ch m { w with client := s } :=
  ⟨h.registry, h.store, h.named, h.listeners⟩

/-- No name of the registry is in flight, so there is nothing to release. -/
theorem release (r' : ℕ) (name : String) : (w.release r' name).Holds K O r i ch m where
  registry := by
    rw [World.release, registry_modifyRegistry]
    split_ifs
    · rw [h.registry]
      rfl
    · exact h.registry
  store := h.store
  named := h.named
  listeners := h.listeners

theorem listen (change : Change) {b : β} (hb : O b) :
    (w.listen (.root ch) change b).Holds K O r i ch m where
  registry := h.registry
  store := h.store
  named := h.named
  listeners change' l hl := by
    rw [listeners_listen] at hl
    split_ifs at hl
    · rcases List.mem_append.1 hl with hl | hl
      · exact h.listeners change' l hl
      · rw [List.mem_singleton.1 hl]
        exact hb
    · exact h.listeners change' l hl

theorem setMembers {m' : OrderedMap α} {l : List α} (hl : l = m'.values) (hn : m'.Named K) :
    (w.setMembers i l).Holds K O r i ch m' where
  registry := h.registry
  store := by rw [setMembers_getElem? h.store, if_pos rfl, hl]
  named := hn
  listeners := h.listeners

theorem insert? {e : α} (he : m.get? (K.namer e) = none) :
    ∃ w', w.insert? (.root i) e = some w' ∧ w'.Holds K O r i ch (m.add (K.namer e) e) := by
  have hany : m.values.any (K.same · e) = false := by
    rw [m.any_values h.named, he]
    rfl
  refine ⟨w.setMembers i (m.values ++ [e]),
    insert?_eq_some_iff.2 ⟨rfl, e, w, _, rfl, ?_, rfl⟩, h.setMembers ?_ (h.named.add e)⟩
  · rw [StoreRef.number, h.store_eq]
    show (if m.values.any (K.same · e) then none else _) = _
    rw [hany]
    rfl
  · rw [OrderedMap.values, OrderedMap.values, OrderedMap.entries_add he, List.map_append]
    rfl

theorem erase? {e : α} (he : (m.get? (K.namer e)).any (K.same · e)) :
    ∃ w', w.erase? (.root i) e = some w' ∧ w'.Holds K O r i ch (m.erase (K.namer e)) := by
  refine ⟨w.setMembers i (m.values.eraseP (K.same · e)), erase?_eq_some_iff.2 ⟨rfl, _, ?_, rfl⟩,
    h.setMembers (m.values_erase h.named he) (h.named.erase _)⟩
  rw [StoreRef.number, h.store_eq]
  show (if m.values.any (K.same · e) then _ else _) = _
  rw [m.any_values h.named, if_pos he]
  rfl

theorem erase?_eq_none {e : α} (he : ¬ (m.get? (K.namer e)).any (K.same · e)) :
    w.erase? (.root i) e = none := by
  rw [erase?_root, h.store_eq]
  show Option.map _ (if m.values.any (K.same · e) then _ else none) = none
  rw [m.any_values h.named, if_neg he]
  rfl

end World.Holds

/-- What reads a registry that stands for a map, observes: there are no rules to apply. -/
theorem Call.Reads.observes {K : Kind α} {O : β → Prop} {r i ch : ℕ} {m : OrderedMap α}
    {w : World Unit σ α β} {c : Call Unit σ α β} (hc : c.Reads r) (h : w.Holds K O r i ch m) :
    c.Observes w.Plain := by
  cases hc with
  | look => exact .look r
  | nameOf e => exact .nameOf r e
  | direct name => exact .direct r name
  | find name =>
    refine .find name ?_
    rw [World.Plain, h.registry]
    rfl
  | missing name => exact .missing r name
  | settle e => exact .settle e

/-! ## Changes -/

/-- What the library does about a change of a registry that stands for a map: it answers as the map
does, or tells the listeners before it does. -/
inductive World.Serves (K : Kind α) (O : β → Prop) (r i ch : ℕ) (m : OrderedMap α)
    (c : Call Unit σ α β) : World Unit σ α β × Reaction Unit σ α β c.Reply → Prop
  | answer {w a m'} : m.answer K c = some (a, m') → w.Holds K O r i ch m' →
      Serves K O r i ch m c (w, .answer a)
  | tell {w change e a m'} : m.answer K c = some (a, m') → w.Holds K O r i ch m' →
      Serves K O r i ch m c (w, .tell (.root ch) change e a)

namespace World.Holds

variable {K : Kind α} {O : β → Prop} {r i ch : ℕ} {m : OrderedMap α} {w w' : World Unit σ α β}
  (h : w.Holds K O r i ch m) (C : Client Unit σ α β)

include h

theorem serves_add (e : α) : Serves K O r i ch m (.add r e) (w.respond C (.add r e)) := by
  simp only [respond, h.nameOf_eq, h.direct_eq]
  cases hm : m.get? (K.namer e) with
  | none =>
    obtain ⟨w', hw, h'⟩ := h.insert? hm
    simp only [h.registry, Kind.registry, hw]
    exact .tell (by simp only [OrderedMap.answer, hm]) h'
  | some x =>
    simp only [h.registry, Kind.registry, Hooks.ofConfig]
    cases hp : K.config.duplicatePolicy with
    | ignore => exact .answer (by simp only [OrderedMap.answer, hm, hp]; rfl) h
    | fail => exact .answer (by simp only [OrderedMap.answer, hm, hp]; rfl) h

theorem serves_remove (e : α) : Serves K O r i ch m (.remove r e) (w.respond C (.remove r e)) := by
  simp only [respond, h.registry, Kind.registry]
  by_cases hm : (m.get? (K.namer e)).any (K.same · e)
  · obtain ⟨w', hw, h'⟩ := h.erase? hm
    rw [hw]
    exact .tell (by rw [OrderedMap.answer, if_pos hm]) h'
  · rw [h.erase?_eq_none hm]
    simp only [refuseErase_listed]
    exact .answer (by rw [OrderedMap.answer, if_neg hm]) h

theorem serves_removeByName (reflexive : ∀ e, K.same e e) (name : String) :
    Serves K O r i ch m (.removeByName r name) (w.respond C (.removeByName r name)) := by
  simp only [respond, h.direct_eq, h.registry, Kind.registry]
  cases hm : m.get? name with
  | none => exact .answer (by simp only [OrderedMap.answer, hm]) h
  | some e =>
    have hn : K.namer e = name := (h.named _ (OrderedMap.get?_eq_some_iff.1 hm)).symm
    have hany : (m.get? (K.namer e)).any (K.same · e) := by
      rw [hn, hm, Option.any_some]
      exact reflexive e
    obtain ⟨w', hw, h'⟩ := h.erase? hany
    simp only [hw]
    exact .tell (by simp only [OrderedMap.answer, hm, hn]) h'

end World.Holds

/-! ## Steps -/

namespace State

variable {C : Client Unit σ α β} {K : Kind α} {O : β → Prop} {r i ch : ℕ} {m : OrderedMap α}
  {w : World Unit σ α β} {base : List (Frame Unit σ α β)}

/-- A registry is asked what it holds, and answers at once as the map does. -/
theorem step_reads {c : Call Unit σ α β} (hc : c.Reads r) (h : w.Holds K O r i ch m)
    (k : c.Reply → Prog Unit σ α β Verdict) :
    ∃ a, m.answer K c = some (a, m) ∧ Step C ⟨w, base, .call c k⟩ ⟨w, base, k a⟩ := by
  cases hc with
  | look =>
    refine ⟨_, rfl, .answer ?_⟩
    rw [World.respond, h.listing_eq]
  | nameOf e =>
    refine ⟨_, rfl, .answer ?_⟩
    rw [World.respond, h.nameOf_eq]
  | direct name =>
    refine ⟨_, rfl, .answer ?_⟩
    rw [World.respond, h.direct_eq]
  | find name =>
    refine ⟨_, rfl, ?_⟩
    cases hm : m.get? name with
    | some e =>
      refine .answer ?_
      simp only [World.respond, h.direct_eq, hm]
    | none =>
      have hresp : w.respond C (.find r name) = (w, .resolve r name id) := by
        simp only [World.respond, h.direct_eq, hm, h.registry]
        rfl
      rw [← hm, ← h.direct_eq]
      exact .miss hresp (by rw [h.registry]; rfl)
  | missing name =>
    refine ⟨_, rfl, .answer ?_⟩
    simp only [World.respond, h.registry]
    rfl
  | settle e => exact ⟨_, rfl, .answer rfl⟩

/-- The registry stands for a map, and something is to be done above a stack of some height. -/
def Keeps (K : Kind α) (O : β → Prop) (r i ch : ℕ) (m : OrderedMap α) (height : ℕ)
    (s : State Unit σ α β) : Prop :=
  s.world.Holds K O r i ch m ∧ height ≤ s.stack.length

/-- The registry stands for a map, and a program goes on that waited on a stack. -/
structure Returns (K : Kind α) (O : β → Prop) (r i ch : ℕ) (m : OrderedMap α)
    (base : List (Frame Unit σ α β)) (p : Prog Unit σ α β Verdict) (s : State Unit σ α β) :
    Prop where
  holds : s.world.Holds K O r i ch m
  stack : s.stack = base
  control : s.control = p

theorem Watched.keeps {height : ℕ} {s : State Unit σ α β} (hs : Watched C w height s)
    (h : w.Holds K O r i ch m) : Keeps K O r i ch m height s := by
  obtain ⟨client, hw⟩ := hs.world
  refine ⟨?_, hs.height⟩
  rw [hw]
  exact h.client client

variable (observers : ∀ b, O b → ∀ e, (C.action b e).Makes (Call.Reads r))

include observers

theorem step_serves {c : Call Unit σ α β}
    (h : World.Serves K O r i ch m c (w.respond C c)) (k : c.Reply → Prog Unit σ α β Verdict) :
    ∃ a m' t, m.answer K c = some (a, m') ∧ Step C ⟨w, base, .call c k⟩ t ∧
      Leads C (Keeps K O r i ch m' (base.length + 1)) (Returns K O r i ch m' base (k a)) t := by
  generalize hresp : w.respond C c = o at h
  cases h with
  | @answer w' a m' ha h' => exact ⟨a, m', _, ha, .answer hresp, .here ⟨h', rfl, rfl⟩⟩
  | @tell w' change e a m' ha h' =>
    refine ⟨a, m', _, ha, .tell hresp rfl, ?_⟩
    have rest : ∀ l ∈ (w'.channel ch).listeners change, ∀ e,
        (C.action l.action e).Makes (Call.Observes w'.Plain) := by
      intro l hl e
      exact (observers _ (h'.listeners change l hl) e).mono fun _ hc => hc.observes h'
    refine (leads_delivery base rest (k a) w'.client (.ok ())).mono (fun _ hs => hs.keeps h') ?_
    rintro s ⟨client, rfl⟩
    exact ⟨h'.client client, rfl, rfl⟩

/-- **An operation is answered as the map answers it.** -/
theorem step_operates (reflexive : ∀ e, K.same e e) {c : Call Unit σ α β}
    (hc : c.Operates r O) (h : w.Holds K O r i ch m)
    (k : c.Reply → Prog Unit σ α β Verdict) :
    ∃ a m' t, m.answer K c = some (a, m') ∧ Step C ⟨w, base, .call c k⟩ t ∧
      Leads C (Keeps K O r i ch m' (base.length + 1)) (Returns K O r i ch m' base (k a)) t := by
  cases hc with
  | reads hc =>
    obtain ⟨a, ha, hstep⟩ := step_reads hc h k
    exact ⟨a, m, _, ha, hstep, .here ⟨h, rfl, rfl⟩⟩
  | add e => exact step_serves observers (h.serves_add C e) k
  | remove e => exact step_serves observers (h.serves_remove C e) k
  | removeByName name => exact step_serves observers (h.serves_removeByName C reflexive name) k
  | subscribe change hb =>
    refine ⟨(), m, _, rfl, .answer ?_, .here ⟨h.listen change hb, rfl, rfl⟩⟩
    rw [World.respond, h.registry]
    rfl
  | invoke e hb =>
    have observes : (C.action _ e).Makes (Call.Observes w.Plain) :=
      (observers _ hb e).mono fun _ hc => hc.observes h
    refine ⟨(), m, _, rfl, .run rfl, ((leads_action (_ :: base) observes w.client).mono
      (fun _ hs => hs.keeps h) fun _ hs => hs).trans ?_⟩
    rintro s ⟨client, v, rfl⟩
    exact .step ⟨h.client client, le_rfl⟩ .resume (.here ⟨h.client client, rfl, rfl⟩)

omit observers in
/-- Only calls have a registry stand for another map. -/
theorem Step.holds {s s' : State Unit σ α β} (h : Step C s s')
    (hc : ∀ c k, s.control ≠ .call c k) (hs : s.world.Holds K O r i ch m) :
    s'.world.Holds K O r i ch m := by
  cases h with
  | answer | miss | tell | start | run => exact absurd rfl (hc _ _)
  | act => exact hs.client _
  | hear _ hp =>
    cases hp
    exact hs
  | delivered | skip | next | resume => exact hs
  | close | fail => exact hs.release _ _
  | @unwind w f =>
    cases f with
    | pass => exact hs.release _ _
    | delivery | resume => exact hs

omit observers in
theorem Next.holds {s s' : State Unit σ α β} (h : Next C s s')
    (hc : ∀ c k, s.control ≠ .call c k) (hs : s.world.Holds K O r i ch m) :
    s'.world.Holds K O r i ch m := by
  cases h with
  | step h => exact (step_eq_some_iff.1 h).holds hc hs
  | begin => exact hs

end State

/-! ## Runs -/

section

variable {C : Client Unit σ α β} {K : Kind α} {O : β → Prop} {r i ch : ℕ}
  (reflexive : ∀ e, K.same e e)

include reflexive

/-- An operation of a run ends, and is answered as the map answers it. -/
theorem Run.ends_as_map (ρ : Run C)
    (observers : ∀ b, O b → ∀ e, (C.action b e).Makes (Call.Reads r)) {n : ℕ} {m : OrderedMap α}
    (h : (ρ n).world.Holds K O r i ch m) {c : Call Unit σ α β}
    {k : c.Reply → Prog Unit σ α β Verdict} (hc : (ρ n).control = .call c k)
    (hop : c.Operates r O) :
    ∃ a m' j, m.answer K c = some (a, m') ∧ ρ.Ends n j ∧ (ρ j).control = k a ∧
      ∀ l, n < l → l ≤ j → (ρ l).world.Holds K O r i ch m' := by
  have hs : ρ n = ⟨(ρ n).world, (ρ n).stack, .call c k⟩ := by rw [← hc]
  obtain ⟨a, m', t, ha, hstep, ht⟩ := State.step_operates observers reflexive hop h k
  rw [← hs] at hstep
  obtain ⟨j, hends, hj, within⟩ := Run.ends_of_leads hstep ht (fun _ h => h.2) fun _ h => h.stack
  refine ⟨a, m', j, ha, hends, hj.control, fun l hn hl => ?_⟩
  rcases hl.lt_or_eq with hl | rfl
  · exact (within l hn hl).1
  · exact hj.holds

theorem Run.holds (ρ : Run C) (observers : ∀ b, O b → ∀ e, (C.action b e).Makes (Call.Reads r))
    (operations : ∀ n c k, (ρ n).control = .call c k → c.Operates r O)
    (start : (ρ 0).world.Holds K O r i ch .empty) (n : ℕ) :
    ∃ m, (ρ n).world.Holds K O r i ch m := by
  induction n with
  | zero => exact ⟨_, start⟩
  | succ n ih =>
    obtain ⟨m, h⟩ := ih
    by_cases hcall : ∃ c k, (ρ n).control = .call c k
    · obtain ⟨c, k, hc⟩ := hcall
      obtain ⟨a, m', j, -, hends, -, hm'⟩ :=
        ρ.ends_as_map reflexive observers h hc (operations n c k hc)
      exact ⟨m', hm' (n + 1) (Nat.lt_succ_self n) hends.lt⟩
    · exact ⟨m, (ρ.next n).holds (fun c k hc => hcall ⟨c, k, hc⟩) h⟩

end

/-- **A registry is an ordered map.** Let entities be equal to themselves. Let a registry that is no
view stand on a store without members, with the hooks of a configuration and no rules, and let all
that is done in a run be operations of this registry, where those who subscribe only observe.

At every moment the registry shows what some map holds, which is empty at first. An operation always
ends, with the answer of the map (`OrderedMap.answer`), and from its first step on the registry
shows what the map holds after it. Nothing else changes what the registry shows. -/
theorem answers_as_map {C : Client Unit σ α β} (ρ : Run C) (K : Kind α) (O : β → Prop) (r i ch : ℕ)
    (reflexive : ∀ e, K.same e e)
    (observers : ∀ b, O b → ∀ e, (C.action b e).Makes (Call.Reads r))
    (registry : (ρ 0).world.registry r = K.registry i ch)
    (fresh : (ρ 0).world.stores[i]? = some ⟨[], .distinct fun _ => K.same⟩)
    (listeners : ∀ change, ∀ l ∈ ((ρ 0).world.channel ch).listeners change, O l.action)
    (operations : ∀ n c k, (ρ n).control = .call c k → c.Operates r O) (n : ℕ) :
    ∃ m : OrderedMap α, ((ρ n).world.listing r).Shows m ∧ (n = 0 → m = .empty) ∧
      (∀ (c : Call Unit σ α β) (k : c.Reply → Prog Unit σ α β Verdict),
        (ρ n).control = .call c k → ∃ a m' j, m.answer K c = some (a, m') ∧ ρ.Ends n j ∧
          (ρ j).control = k a ∧ ∀ l, n < l → l ≤ j → ((ρ l).world.listing r).Shows m') ∧
      ((∀ c k, (ρ n).control ≠ .call c k) → ((ρ (n + 1)).world.listing r).Shows m) := by
  have start : (ρ 0).world.Holds K O r i ch .empty := ⟨registry, fresh, nofun, listeners⟩
  have shows {l : ℕ} {m : OrderedMap α} (h : (ρ l).world.Holds K O r i ch m) :
      ((ρ l).world.listing r).Shows m := by
    rw [h.listing_eq]
    exact Listing.shows_of_entries rfl rfl
  obtain ⟨m, h⟩ := ρ.holds reflexive observers operations start n
  refine ⟨m, shows h, ?_, fun c k hc => ?_, fun hc => shows ((ρ.next n).holds hc h)⟩
  · rintro rfl
    exact OrderedMap.ext ((shows h).entries.symm.trans (shows start).entries)
  · obtain ⟨a, m', j, ha, hends, hj, hm'⟩ :=
      ρ.ends_as_map reflexive observers h hc (operations n c k hc)
    exact ⟨a, m', j, ha, hends, hj, fun l hn hl => shows (hm' l hn hl)⟩

/-! Entities have a name and a size, and a name that is taken is an error. A listener notes what is
added, and two entities of one name are added. -/

def sized : Kind (String × ℕ) where
  namer := Prod.fst
  same := (· == ·)
  typeName := "store::Sized"
  config := { typeDisplayName := some "sized", duplicatePolicy := .fail }
  named _ _ h := congrArg Prod.fst (eq_of_beq h)

def sizedClient : Client Unit (List (String × ℕ)) (String × ℕ) Unit where
  rule _ _ _ := .done (.ok ())
  action _ e := .modify (e :: ·)

/-- What is done with an answer: the program fails with the error. -/
def ended {ρ : Type} (a : Except RegistryError ρ) : Prog μ σ α β Verdict :=
  .done ((a.map fun _ => ()).mapError .registry)

def sizedStart : State Unit (List (String × ℕ)) (String × ℕ) Unit where
  world :=
    { memory := ()
      client := []
      stores := [⟨[], .distinct fun _ => (· == ·)⟩]
      channels := [{}]
      registries := [sized.registry 0 0] }
  stack := []
  control := .call (.subscribe 0 .added ()) fun _ => .call (.add 0 ("a", 1)) fun _ =>
    .call (.add 0 ("a", 2)) ended

theorem answers_as_map_sized :
    ∃ (ρ : Run sizedClient) (m : OrderedMap (String × ℕ)) (j : ℕ), ρ.Ends 5 j ∧
      ((ρ 5).world.listing 0).Shows m ∧ m.entries = [("a", "a", 1)] ∧
      (ρ j).control = .done (.error (.registry (.duplicate "sized" "a"))) ∧
      ((ρ j).world.listing 0).Shows m := by
  let ρ := Run.of sizedClient sizedStart
  have observers (b : Unit) (_ : True) (e : String × ℕ) :
      (sizedClient.action b e).Makes (Call.Reads 0) := .act fun _ _ => .done ()
  have listeners (change : Change) : ∀ l ∈ (sizedStart.world.channel 0).listeners change, True :=
    fun _ _ => trivial
  have operations (n : ℕ) (c) (k) (h : (ρ n).control = .call c k) :
      c.Operates 0 fun _ => True := by
    -- At the other moments no call is made.
    rcases n with _ | _ | _ | _ | _ | _ | _ | n <;> cases h
    · exact .subscribe _ trivial
    · exact .add _
    · exact .add _
  obtain ⟨m, hm, -, hcall, -⟩ := answers_as_map ρ sized (fun _ => True) 0 0 0
    (fun e => beq_self_eq_true e) observers rfl rfl listeners operations 5
  have hentries : m.entries = [("a", "a", 1)] := by
    rw [← hm.entries]
    decide
  obtain ⟨a, m', j, ha, hends, hj, hm'⟩ := hcall (.add 0 ("a", 2)) ended rfl
  have hget : m.get? (sized.namer ("a", 2)) = some ("a", 1) := by
    rw [OrderedMap.get?, hentries]
    decide
  have hanswer : m.answer sized (.add 0 ("a", 2) : Call Unit (List (String × ℕ)) _ Unit) =
      some (.error (.duplicate "sized" "a"), m) := by
    simp only [OrderedMap.answer, hget]
    rfl
  rw [hanswer] at ha
  obtain ⟨rfl, rfl⟩ := Prod.mk.inj (Option.some.inj ha)
  exact ⟨ρ, m, j, hends, hm, hentries, hj, hm' j hends.lt le_rfl⟩

/-! ## Where a registry is no map

Equality may fail for an entity and itself, as it does for numbers that are no numbers. Such an
entity is bound to its name, and is not given up under it. -/

/-- The registry of entities that are equal to none, not even to themselves. -/
def unequal : Kind String where
  namer e := e
  same _ _ := false
  typeName := "store::Unequal"
  config := {}
  named _ _ h := Bool.noConfusion h

/-- The program adds an entity and removes what has its name. -/
def unequalStart : State Unit Unit String Unit where
  world :=
    { memory := ()
      client := ()
      stores := [⟨[], .distinct fun _ => unequal.same⟩]
      channels := [{}]
      registries := [unequal.registry 0 0] }
  stack := []
  control := .call (.add 0 "a") fun _ => .call (.removeByName 0 "a") ended

/-- The name of an entity may be kept in the memory, where it can be written over. An entity is
known by its place there. -/
structure Labels where
  labels : List String

def Labels.name (m : Labels) (e : ℕ) : String := m.labels.getD e ""

instance : Memory Labels ℕ where
  settle m e := (e, m)

/-- An action writes its key over the name of an entity. -/
def labeller : Client Labels Unit ℕ String where
  rule _ _ _ := .done (.ok ())
  action label e := .write fun m => ⟨m.labels.set e label⟩

/-- The program adds two entities, and writes the name of the first over that of the second. -/
def labelsStart : State Labels Unit ℕ String where
  world :=
    { memory := ⟨["a", "b"]⟩
      client := ()
      stores := [⟨[], .distinct fun m x y => m.name x == m.name y⟩]
      channels := [{}]
      registries := [
        { namer := Labels.name
          typeName := "store::Label"
          store := .root 0
          channel := .root 0
          hooks := .default }] }
  stack := []
  control := .call (.add 0 0) fun _ => .call (.add 0 1) fun _ =>
    (Prog.configure 0 "b" "a").bind ended

/-- **Two things that no map does.** Over entities that are equal to none, a name is bound and
what is bound to it is not removed: the answer is an error, and the binding stays. And where names
can be written over, a name is no longer bound that was never removed, and another one is bound
twice. -/
theorem binding_stays_or_changes :
    (∃ ρ : Run (⟨fun _ _ _ => .done (.ok ()), fun _ _ => .done ()⟩ : Client Unit Unit String Unit),
      (ρ 0).world.registry 0 = unequal.registry 0 0 ∧
      (ρ 0).world.stores[0]? = some ⟨[], .distinct fun _ => unequal.same⟩ ∧
      (∀ change, ((ρ 0).world.channel 0).listeners change = []) ∧
      (∀ n c k, (ρ n).control = .call c k → c.Operates 0 fun _ => True) ∧
      (ρ 2).control = .call (.removeByName 0 "a") ended ∧
      ((ρ 2).world.listing 0).entries = [("a", "a")] ∧
      (ρ 3).control = .done (.error (.registry (.storeContract "a"))) ∧
      ((ρ 3).world.listing 0).entries = [("a", "a")]) ∧
    ∃ ρ : Run labeller, (ρ 0) = labelsStart ∧
      ((ρ 4).world.listing 0).entries = [("a", 0), ("b", 1)] ∧
      (ρ 9).control = .done (.ok ()) ∧
      ((ρ 9).world.listing 0).entries = [("a", 0), ("a", 1)] ∧
      ((ρ 9).world.listing 0).names = ["a"] ∧ (ρ 9).world.direct 0 "b" = none := by
  refine ⟨⟨Run.of _ unequalStart, rfl, rfl, ?_, ?_, rfl, by decide, rfl, by decide⟩,
    Run.of labeller labelsStart, rfl, by decide, rfl, by decide, by decide, by decide⟩
  · intro change
    cases change <;> rfl
  · intro n c k h
    -- At the other moments no call is made.
    rcases n with _ | _ | _ | _ | n <;> cases h
    · exact .add _
    · exact .removeByName _

end NameRegistry
