import NameRegistry.Proofs.AllOrNothing
import NameRegistry.Proofs.Leads

/-!
# Observers

If all listeners of a channel only observe, a delivery comes to an end, and changes nothing but the
client's own state.

* `Call.Observes` : a call asks what there is.
* `World.Observed` : all that listeners of a channel call.
* `State.leads_delivery` : a delivery to observers ends.
* `Run.Tells` : what the listeners of a channel are told between two moments.
* `Run.tells_of_tell` : a call that has observers told of a change.

The listeners are told of the event and of nothing else, since they fire nothing themselves.

Entities are plain values here: an entity that is settled is the same entity.
-/

namespace NameRegistry

variable {σ α β : Type}

/-- A call asks what there is. To look a name up is to ask if there are no rules to apply: the
registry is `plain`. -/
inductive Call.Observes (plain : ℕ → Prop) : Call Unit σ α β → Prop
  | parts (r : ℕ) : Observes plain (.parts r)
  | look (r : ℕ) : Observes plain (.look r)
  | nameOf (r : ℕ) (e : α) : Observes plain (.nameOf r e)
  | direct (r : ℕ) (name : String) : Observes plain (.direct r name)
  | find {r : ℕ} (name : String) : plain r → Observes plain (.find r name)
  | missing (r : ℕ) (name : String) : Observes plain (.missing r name)
  | settle (e : α) : Observes plain (.settle e)
  | shown (s : StoreRef Unit α) : Observes plain (.shown s)
  | seek (s : StoreRef Unit α) (p : Unit → α → Bool) : Observes plain (.seek s p)
  | counts (c : ChannelRef Unit α) : Observes plain (.counts c)

theorem Call.Observes.mono {plain plain' : ℕ → Prop} {c : Call Unit σ α β}
    (h : c.Observes plain) (hp : ∀ r, plain r → plain' r) : c.Observes plain' := by
  cases h with
  | find name hr => exact .find name (hp _ hr)
  | _ => constructor

/-- A registry has no rules. -/
def World.Plain (w : World Unit σ α β) (r : ℕ) : Prop := (w.registry r).rules = []

/-- All that the listeners of a channel do when they are told of an event, is to observe. -/
def World.Observed (C : Client Unit σ α β) (ch : ℕ) (w : World Unit σ α β) : Prop :=
  ∀ change, ∀ l ∈ (w.channel ch).listeners change, ∀ e,
    (C.action l.action e).Makes (Call.Observes w.Plain)

variable {C : Client Unit σ α β}

/-! ## Steps -/

namespace State

variable {w : World Unit σ α β} (base : List (Frame Unit σ α β))

/-- Something goes on above a stack of some height. The world is what it was, but for the client's
own state, and nothing is fired. -/
structure Watched (C : Client Unit σ α β) (w : World Unit σ α β) (height : ℕ)
    (s : State Unit σ α β) : Prop where
  world : ∃ client, s.world = { w with client }
  height : height ≤ s.stack.length
  running : ∀ message, s.control ≠ .panic message
  fired : ∀ i, s.fired C i = []

/-- A call that observes is answered in one step, and fires nothing. -/
theorem step_observes {c : Call Unit σ α β} (hc : c.Observes w.Plain)
    (k : c.Reply → Prog Unit σ α β Verdict) :
    ∃ a client, Step C ⟨w, base, .call c k⟩ ⟨{ w with client }, base, k a⟩ ∧
      ∀ i, fired C i ⟨w, base, .call c k⟩ = [] := by
  cases hc with
  | parts | look | nameOf | direct | settle | shown | seek | counts =>
    exact ⟨_, w.client, .answer rfl, fun _ => rfl⟩
  | missing r name =>
    exact ⟨_, _, .answer rfl, fun _ => rfl⟩
  | @find r name hr =>
    cases hd : w.direct r name with
    | some e =>
      have hresp : w.respond C (.find r name) = (w, .answer (.ok (some e))) := by
        simp only [World.respond, hd]
      refine ⟨_, w.client, .answer hresp, fun i => ?_⟩
      simp only [fired, hresp]
    | none =>
      by_cases hf : name ∈ (w.registry r).inFlight
      · have hresp : w.respond C (.find r name) = (w, .answer (.ok none)) := by
          simp only [World.respond, hd, if_pos hf]
        refine ⟨_, w.client, .answer hresp, fun i => ?_⟩
        simp only [fired, hresp]
      · have hresp : w.respond C (.find r name) = (w, .resolve r name id) := by
          simp only [World.respond, hd, if_neg hf]
        refine ⟨_, w.client, .miss hresp hr, fun i => ?_⟩
        simp only [fired, hresp]

theorem leads_observes {p : Prog Unit σ α β Verdict} (hp : p.Makes (Call.Observes w.Plain))
    (client : σ) :
    Leads C (Watched C w base.length)
      (fun s => ∃ client v, s = ⟨{ w with client }, base, .done v⟩)
      ⟨{ w with client }, base, p⟩ := by
  induction hp generalizing client with
  | done v => exact .here ⟨client, v, rfl⟩
  | act _ ih =>
    exact .step ⟨⟨client, rfl⟩, le_rfl, nofun, fun _ => rfl⟩ (.act rfl) (ih _ _ _)
  | @call c k hc _ ih =>
    obtain ⟨a, client', hstep, hfired⟩ := step_observes (C := C) (w := { w with client }) base hc k
    exact .step ⟨⟨client, rfl⟩, le_rfl, nofun, hfired⟩ hstep (ih a client')

theorem leads_action {b : β} {e : α} (hb : (C.action b e).Makes (Call.Observes w.Plain))
    (client : σ) :
    Leads C (Watched C w base.length)
      (fun s => ∃ client v, s = ⟨{ w with client }, base, .done v⟩)
      ⟨{ w with client }, base, .ok <$> C.action b e⟩ :=
  leads_observes base (hb.bind fun _ => .done _) client

/-- A delivery to observers ends. -/
theorem leads_delivery {event : Event α} {told : ℕ} {rest : List (Listener Unit α β)}
    (hrest : ∀ l ∈ rest, ∀ e, (C.action l.action e).Makes (Call.Observes w.Plain))
    (after : Prog Unit σ α β Verdict) (client : σ) (v : Verdict) :
    Leads C (Watched C w (base.length + 1))
      (fun s => ∃ client, s = ⟨{ w with client }, base, after⟩)
      ⟨{ w with client }, .delivery event told rest after :: base, .done v⟩ := by
  have watched {told rest client v} : Watched C w (base.length + 1)
      ⟨{ w with client }, .delivery event told rest after :: base, .done v⟩ :=
    ⟨⟨client, rfl⟩, le_rfl, nofun, fun _ => rfl⟩
  induction rest generalizing told client v with
  | nil => exact .step watched .delivered (.here ⟨client, rfl⟩)
  | cons l rest ih =>
    obtain ⟨hl, hrest⟩ := List.forall_mem_cons.1 hrest
    cases hn : narrowAll () l.filters event.entity with
    | none => exact .step watched (.skip hn) (ih hrest client _)
    | some e =>
      refine .step watched (.hear hn rfl) ?_
      refine (leads_action (_ :: base) (hl e) client).trans ?_
      rintro s ⟨client', v, rfl⟩
      exact ih hrest client' v

end State

/-! ## Runs -/

theorem Listener.filterMap_narrowAll (l : Listener Unit α β) (e : α) :
    [e].filterMap (narrowAll () l.filters) = l.hears () e := by
  rw [hears, List.filterMap_cons]
  cases narrowAll () l.filters e <;> rfl

namespace Run

variable (ρ : Run C)

theorem collect_add {γ : Type} (see : State Unit σ α β → List γ) (n d d' : ℕ) :
    ρ.collect see n (d + d') = ρ.collect see n d ++ ρ.collect see (n + d) d' := by
  induction d' with
  | zero => rw [collect_zero, List.append_nil, Nat.add_zero]
  | succ d' ih =>
    rw [← Nat.add_assoc, collect_succ, collect_succ, ih, List.append_assoc, Nat.add_assoc]

/-- As long as nothing is fired, a listener is told only what was due to it. -/
theorem collect_told_append_due (c : ℕ) (change : Change) (place : ℕ) {n d : ℕ}
    (running : ∀ i < d, ∀ message, (ρ (n + i)).control ≠ .panic message)
    (fired : ∀ i < d, (ρ (n + i)).fired C c = []) :
    ρ.collect (State.told c change place) n d ++ (ρ (n + d)).due c change place =
      (ρ n).due c change place := by
  induction d with
  | zero => rw [collect_zero, List.nil_append, Nat.add_zero]
  | succ d ih =>
    have step := (ρ.next (n + d)).told_append_due (running d (Nat.lt_succ_self d)) c change place
    rw [fired d (Nat.lt_succ_self d), List.flatMap_nil, List.nil_append] at step
    rw [collect_succ, List.append_assoc, ← Nat.add_assoc, step]
    exact ih (fun i hi => running i (by omega)) fun i hi => fired i (by omega)

/-- Between two moments each listener of a channel that subscribed to changes of a kind is told of
these entities in this order, as far as it can hear of them, and no other listener of the channel
is told of anything. -/
def Tells (c n m : ℕ) (change : Change) (l : List α) : Prop :=
  ∀ change' place la, (((ρ n).world.channel c).listeners change')[place]? = some la →
    ρ.collect (State.told c change' place) n (m - n) =
      if change' = change then l.filterMap (narrowAll () la.filters) else []

variable {ρ}

theorem Tells.refl (c n : ℕ) (change : Change) : ρ.Tells c n n change [] := by
  intro change' place la _
  rw [Nat.sub_self, collect_zero, List.filterMap_nil, ite_self]

theorem Tells.of_told_eq_nil {c n : ℕ} (h : ∀ change place, (ρ n).told c change place = [])
    (change : Change) : ρ.Tells c n (n + 1) change [] := by
  intro change' place la _
  rw [Nat.add_sub_cancel_left, collect_succ, collect_zero, Nat.add_zero, h, List.filterMap_nil,
    ite_self]
  rfl

theorem Tells.of_call {n : ℕ} {call : Call Unit σ α β} {k : call.Reply → Prog Unit σ α β Verdict}
    (hc : (ρ n).control = .call call k) (c : ℕ) (change : Change) :
    ρ.Tells c n (n + 1) change [] := by
  refine .of_told_eq_nil (fun change' place => ?_) change
  rw [State.told, hc]

theorem Tells.append {c n m j : ℕ} {change : Change} {l l' : List α} (h : ρ.Tells c n m change l)
    (h' : ρ.Tells c m j change l') (hnm : n ≤ m) (hmj : m ≤ j)
    (same : (ρ m).world.channel c = (ρ n).world.channel c) : ρ.Tells c n j change (l ++ l') := by
  intro change' place la hla
  have first := h change' place la hla
  have second := h' change' place la (by rw [same, hla])
  rw [show j - n = (m - n) + (j - m) by omega, collect_add, first, Nat.add_sub_cancel' hnm, second]
  split_ifs
  · rw [List.filterMap_append]
  · rfl

section

variable {n i : ℕ} {l : List α} {c : Call Unit σ α β} {k : c.Reply → Prog Unit σ α β Verdict}
  {ref : ChannelRef Unit α} {change : Change} {e : α} {a : c.Reply}
  (hc : (ρ n).control = .call c k)
  (hresp : (ρ n).world.respond C c = ((ρ n).world.setMembers i l, .tell ref change e a))

include hc hresp

/-- After the step that starts a delivery, its listeners are due to be told of the event. -/
theorem due_of_tell {change' : Change} {place : ℕ} {la : Listener Unit α β}
    (hla : (((ρ n).world.channel ref.number).listeners change')[place]? = some la) :
    (ρ (n + 1)).due ref.number change' place =
      (if change' = change then [ref.widen () e].filterMap (narrowAll () la.filters) else []) ++
        (ρ n).due ref.number change' place := by
  obtain ⟨fired, next⟩ := succ_of_tell hc hresp rfl
  have told : (ρ n).told ref.number change' place = [] := by
    rw [State.told, hc]
  have hla' : (((ρ (n + 1)).world.channel ref.number).listeners change')[place]? = some la := by
    rw [next]
    exact hla
  have due := (ρ.next n).told_append_due (fun message hp => by rw [hc] at hp; cases hp)
    ref.number change' place
  rw [told, List.nil_append, fired, if_pos rfl, List.flatMap_singleton,
    Channel.tells_of_place hla'] at due
  rw [due, la.filterMap_narrowAll]
  by_cases h : change = change'
  · rw [if_pos h, if_pos h.symm]
  · rw [if_neg h, if_neg (Ne.symm h)]

/-- **A change that observers are told of.** The call ends with its answer, the members of the store
are the new ones, and the listeners of the channel have been told of the change. -/
theorem tells_of_tell (observed : (ρ n).world.Observed C ref.number) :
    ∃ j client, ρ.Ends n j ∧
      ρ j = ⟨{ (ρ n).world.setMembers i l with client }, (ρ n).stack, k a⟩ ∧
      ρ.Tells ref.number n j change [ref.widen () e] := by
  have observed' : ((ρ n).world.setMembers i l).Observed C ref.number := observed
  have leads : State.Leads C
      (State.Watched C ((ρ n).world.setMembers i l) ((ρ n).stack.length + 1))
      (fun s => ∃ client, s = ⟨{ (ρ n).world.setMembers i l with client }, (ρ n).stack, k a⟩)
      (ρ (n + 1)) := by
    rw [(succ_of_tell hc hresp rfl).2]
    exact State.leads_delivery _ (observed' change) _ _ _
  obtain ⟨j, hends, ⟨client, hj⟩, within⟩ := ends_of_leads (step_of_goes (by rw [hc]; trivial))
    leads (fun s h => h.height) (by rintro s ⟨client, rfl⟩; rfl)
  refine ⟨j, client, hends, hj, fun change' place la hla => ?_⟩
  obtain ⟨d, rfl⟩ := Nat.exists_eq_add_of_le (Nat.succ_le_of_lt hends.lt)
  -- The event of the call is all that is due in addition, and in the end it is no longer.
  have told : (ρ n).told ref.number change' place = [] := by
    rw [State.told, hc]
  have due : (ρ (n.succ + d)).due ref.number change' place =
      (ρ n).due ref.number change' place := by
    rw [hj]
    rfl
  have rest := ρ.collect_told_append_due ref.number change' place (n := n + 1) (d := d)
    (fun i hi => (within (n + 1 + i) (by omega) (by omega)).running)
    (fun i hi => (within (n + 1 + i) (by omega) (by omega)).fired _)
  rw [due_of_tell hc hresp hla, due] at rest
  rw [show n.succ + d - n = 1 + d by omega, collect_add, collect_succ, collect_zero, Nat.add_zero,
    told, List.nil_append, List.nil_append]
  exact List.append_cancel_right rest

end

end Run

end NameRegistry
