import NameRegistry.Proofs.Listeners
import NameRegistry.Proofs.Members

/-!
# Families of registries

A registry over a store and a channel, its views, their views and so on are a family. What the
family does to the store, it tells the channel.

* `Family` : the parts that registries of a family have.
* `State.Within` : a store is changed, and a channel fired, only by registries of their family.
* `Accounts` : the events of a step account for what it makes of a store.
* `Moves` : what becomes of the members of a store that are pairwise different.

**Changes are events** (`State.Next.accounts`). If a step changes the members of the store, then it
fires exactly one event, which says what was added or removed, and otherwise it fires none. A view
changes the store by a widened entity and fires the channel with a widened entity, and these are
the same, since its store and its channel are behind the same filters.

Entities are plain values here.
-/

namespace NameRegistry

variable {μ σ α β : Type}

/-! ## The family -/

/-- The parts of a registry over a store and a channel, of a view of it, of a view of that, and so
on. -/
inductive Family (i c : Nat) : Parts μ α → Prop
  | root (namer : μ → α → String) (typeName : String) :
      Family i c ⟨namer, typeName, .root i, .root c⟩
  | view {p : Parts μ α} (f : Filter μ α) (typeName : String) :
      Family i c p → Family i c (p.filtered f typeName)

namespace Family

variable {i c : Nat} {p : Parts μ α}

theorem store_number (h : Family i c p) : p.store.number = i := by
  induction h with
  | root => rfl
  | view f typeName _ ih => exact ih

theorem channel_number (h : Family i c p) : p.channel.number = c := by
  induction h with
  | root => rfl
  | view f typeName _ ih => exact ih

theorem filters_eq (h : Family i c p) : p.channel.filters = p.store.filters := by
  induction h with
  | root => rfl
  | view f typeName _ ih => exact congrArg (· ++ [f]) ih

theorem widen_eq (h : Family i c p) (m : μ) (e : α) : p.channel.widen m e = p.store.widen m e := by
  induction h generalizing e with
  | root => rfl
  | view f typeName _ ih => exact ih (f.widen m e)

end Family

/-- A call changes a store and fires a channel only for a registry of their family. -/
def Call.Within (w : World μ σ α β) (i c : Nat) : Call μ σ α β → Prop
  | .add r _ | .remove r _ | .removeByName r _ =>
    Family i c (w.registry r).toParts ∨
      (w.registry r).store.number ≠ i ∧ (w.registry r).channel.number ≠ c
  | .insert s _ | .erase s _ => s.number ≠ i
  | .fire ch _ _ => ch.number ≠ c
  | _ => True

/-- A store is changed, and a channel fired, only for a registry of their family. -/
def State.Within (i c : Nat) (s : State μ σ α β) : Prop :=
  ∀ call k, s.control = .call call k → call.Within s.world i c

theorem State.Within.of_done {i c : Nat} {s : State μ σ α β} {v : Verdict}
    (h : s.control = .done v) : s.Within i c := by
  intro call k hc
  simp [h] at hc

/-! ## Changes are events -/

/-- The events of a step account for what it makes of a store: nothing changes without an event,
what is taken in is said to be added, and what is given up is said to be removed. -/
inductive Accounts : List (Event α) → Store Unit α → Store Unit α → Prop
  | none (st : Store Unit α) : Accounts [] st st
  | added (c : Nat) {t : α} {st : Store Unit α} {l : List α} :
      st.discipline.insert () t st.members = some l →
      Accounts [⟨c, .added, t⟩] st { st with members := l }
  | removed (c : Nat) {t : α} {st : Store Unit α} {l : List α} :
      st.discipline.erase () t st.members = some l →
      Accounts [⟨c, .removed, t⟩] st { st with members := l }

section

variable {i c : Nat} {st : Store Unit α} {w w' : World Unit σ α β} {p : Parts Unit α} {e : α}

namespace World

theorem insert?_accounts (hp : Family i c p ∨ p.store.number ≠ i ∧ p.channel.number ≠ c)
    (h : w.insert? p.store e = some w') (hi : w.stores[i]? = some st) :
    ∃ st', w'.stores[i]? = some st' ∧
      Accounts (if p.channel.number = c then [⟨c, .added, p.channel.widen () e⟩] else [])
        st st' := by
  rcases insert?_getElem? h hi with ⟨hs, h⟩ | ⟨hs, -, t, m, l, ht, hl, h⟩
  · have hc : p.channel.number ≠ c := hp.elim (fun hp => absurd hp.store_number hs) And.right
    rw [if_neg hc]
    exact ⟨st, h, .none st⟩
  · have hp : Family i c p := hp.resolve_right fun hn => hn.1 hs
    obtain ⟨rfl, -⟩ := Prod.mk.inj ht
    rw [if_pos hp.channel_number, hp.widen_eq]
    exact ⟨_, h, .added c hl⟩

theorem erase?_accounts (hp : Family i c p ∨ p.store.number ≠ i ∧ p.channel.number ≠ c)
    (h : w.erase? p.store e = some w') (hi : w.stores[i]? = some st) :
    ∃ st', w'.stores[i]? = some st' ∧
      Accounts (if p.channel.number = c then [⟨c, .removed, p.channel.widen () e⟩] else [])
        st st' := by
  rcases erase?_getElem? h hi with ⟨hs, h⟩ | ⟨hs, -, l, hl, h⟩
  · have hc : p.channel.number ≠ c := hp.elim (fun hp => absurd hp.store_number hs) And.right
    rw [if_neg hc]
    exact ⟨st, h, .none st⟩
  · have hp : Family i c p := hp.resolve_right fun hn => hn.1 hs
    rw [if_pos hp.channel_number, hp.widen_eq]
    exact ⟨_, h, .removed c hl⟩

variable {C : Client Unit σ α β} {call : Call Unit σ α β}

theorem respond_accounts (stack : List (Frame Unit σ α β))
    (k : call.Reply → Prog Unit σ α β Verdict) (hw : call.Within w i c)
    (hi : w.stores[i]? = some st) :
    ∃ st', (w.respond C call).1.stores[i]? = some st' ∧
      Accounts (State.fired C c ⟨w, stack, .call call k⟩) st st' := by
  have h := responds (C := C) w call
  simp only [State.fired]
  generalize w.respond C call = o at h
  cases h with
  | quiet h => exact ⟨st, h.store hi, .none st⟩
  | add _ h => exact insert?_accounts hw h hi
  | remove h | removeByName _ h => exact erase?_accounts hw h hi
  | insert h => exact ⟨st, ((insert?_getElem? h hi).resolve_right fun hv => hw hv.1).2, .none st⟩
  | erase h => exact ⟨st, ((erase?_getElem? h hi).resolve_right fun hv => hw hv.1).2, .none st⟩
  | fire =>
    refine ⟨st, hi, ?_⟩
    simp only [if_neg hw]
    exact .none st
  | find | run => exact ⟨st, hi, .none st⟩

end World

namespace State

variable {C : Client Unit σ α β} {s s' : State Unit σ α β}

theorem Step.accounts (h : Step C s s') (hw : s.Within i c) (hi : s.world.stores[i]? = some st) :
    ∃ st', s'.world.stores[i]? = some st' ∧ Accounts (s.fired C c) st st' := by
  obtain ⟨w, stack, p⟩ := s
  rcases h.touch with ⟨call, k, rfl, ht⟩ | ⟨hp, ht⟩
  · rw [ht.stores_eq]
    exact World.respond_accounts stack k (hw call k rfl) hi
  · rw [ht.stores_eq, fired_of_not_call hp]
    exact ⟨st, hi, .none st⟩

/-- **Changes are events.** What a step does to the store, it tells the channel. -/
theorem Next.accounts (h : Next C s s') (hw : s.Within i c) (hi : s.world.stores[i]? = some st) :
    ∃ st', s'.world.stores[i]? = some st' ∧ Accounts (s.fired C c) st st' := by
  cases h with
  | step h => exact (step_eq_some_iff.1 h).accounts hw hi
  | begin p h =>
    refine ⟨st, hi, ?_⟩
    rw [fired_of_step_eq_none h]
    exact .none st

end State

end

/-! ## Members that are pairwise different -/

variable [DecidableEq α]

/-- What the members of a store become by the events of a step: nothing changes without an event,
an entity that is added comes last, and one that is removed was a member. -/
inductive Moves : List (Event α) → List α → List α → Prop
  | none (l : List α) : Moves [] l l
  | added (c : Nat) (e : α) (l : List α) : Moves [⟨c, .added, e⟩] l (l ++ [e])
  | removed {c : Nat} {e : α} {l : List α} : e ∈ l → Moves [⟨c, .removed, e⟩] l (l.erase e)

/-- A store with members of which no two are equal. -/
def Store.ofDistinct (l : List α) : Store Unit α := ⟨l, .distinct fun _ => (· == ·)⟩

theorem Accounts.moves {events : List (Event α)} {l : List α} {st : Store Unit α}
    (h : Accounts events (.ofDistinct l) st) : ∃ l', st = .ofDistinct l' ∧ Moves events l l' := by
  cases h with
  | none => exact ⟨l, rfl, .none l⟩
  | added c hl =>
    obtain ⟨-, rfl⟩ := Discipline.insert_distinct_eq_some_iff.1 hl
    exact ⟨_, rfl, .added c _ l⟩
  | removed c hl =>
    obtain ⟨⟨x, hx, hs⟩, rfl⟩ := Discipline.erase_distinct_eq_some_iff.1 hl
    obtain rfl := eq_of_beq hs
    refine ⟨_, rfl, ?_⟩
    rw [← List.erase_eq_eraseP']
    exact .removed hx

theorem State.Next.moves {C : Client Unit σ α β} {s s' : State Unit σ α β} {i c : Nat} {l : List α}
    (h : Next C s s') (hw : s.Within i c) (hi : s.world.stores[i]? = some (.ofDistinct l)) :
    ∃ l', s'.world.stores[i]? = some (.ofDistinct l') ∧ Moves (s.fired C c) l l' := by
  obtain ⟨st, hst, ha⟩ := h.accounts hw hi
  obtain ⟨l', rfl, hm⟩ := ha.moves
  exact ⟨l', hst, hm⟩

end NameRegistry
