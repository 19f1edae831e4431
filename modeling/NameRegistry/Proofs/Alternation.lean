import Mathlib.Data.List.Chain
import NameRegistry.Proofs.Balance

/-!
# Additions and removals in turn

A listener to additions and one to removals, both on one registry, hear of an entity in turn: that
it was added, that it was removed, that it was added again. But a listener that was there before
them may change the registry while it is told of an entity. Then the later event reaches the two
first.

* `Alternates` : additions and removals in turn, beginning with an addition.
* `State.heard`, `State.owed` : what two listeners are told of an entity in a step, and what they
  have still to be told.
* `Frame.TellsBefore` : a listener that stands before the two is being told of an entity.
* `State.Begun` : no program of the client runs before a delivery has told a listener.
* `State.InTurn` : what was heard and what is owed are in turn, and say whether the entity is a
  member.

What is owed of an entity is at most one change. A change of the entity is made only when nothing
is owed (`State.owed_eq_nil`), and then it is one in turn (`State.InTurn.change`). Any other step
has some of what is owed told (`State.InTurn.keep`).

Main result: `heard_in_turn`. The order is lost without its condition (`not_heard_in_turn`).

Entities are plain values here.
-/

namespace NameRegistry

variable {σ α β : Type}

/-! ## Changes in turn -/

/-- Additions and removals in turn, beginning with an addition. -/
def Alternates (l : List Change) : Prop := l.head? ≠ some .removed ∧ l.IsChain (· ≠ ·)

/-- The last of some changes, and a removal if there is none. -/
def lastChange (l : List Change) : Change := l.getLast?.getD .removed

theorem alternates_iff_isChain {l : List Change} :
    Alternates l ↔ (Change.removed :: l).IsChain (· ≠ ·) := by
  unfold Alternates
  rw [List.isChain_cons]
  cases l.head? <;> simp [eq_comm]

theorem alternates_concat_iff {l : List Change} {change : Change} :
    Alternates (l ++ [change]) ↔ Alternates l ∧ lastChange l ≠ change := by
  unfold lastChange
  rw [alternates_iff_isChain, alternates_iff_isChain, ← List.cons_append, List.isChain_append,
    List.getLast?_cons]
  simp

theorem Alternates.of_append {l l' : List Change} (h : Alternates (l ++ l')) : Alternates l := by
  rw [alternates_iff_isChain, ← List.cons_append] at h
  exact alternates_iff_isChain.2 h.left_of_append

theorem lastChange_eq_added_iff {l : List Change} :
    lastChange l = .added ↔ l.getLast? = some .added := by
  unfold lastChange
  cases l.getLast? <;> simp

@[simp] theorem lastChange_concat (l : List Change) (change : Change) :
    lastChange (l ++ [change]) = change := by
  rw [lastChange, List.getLast?_concat, Option.getD_some]

/-! ## A pair of listeners -/

/-- One of two things for either kind of change. -/
def Change.pick {γ : Type} (added removed : γ) : Change → γ
  | .added => added
  | .removed => removed

/-- As many changes of either kind as are given. -/
def Change.times (count : Change → ℕ) : List Change :=
  List.replicate (count .added) .added ++ List.replicate (count .removed) .removed

/-- A listener that stands before those at two places is being told of an entity: it is the last
that has been told. -/
def Frame.TellsBefore (c : ℕ) (place : Change → ℕ) (e : α) : Frame Unit σ α β → Prop
  | .delivery event told _ _ =>
    event.channel = c ∧ event.entity = e ∧ 0 < told ∧ told ≤ place event.change
  | _ => False

/-- A delivery on a channel has told a listener. -/
def Frame.Begun (c : ℕ) : Frame Unit σ α β → Prop
  | .delivery event told _ _ => event.channel = c → 0 < told
  | _ => True

namespace State

/-- No program of the client runs before a delivery on a channel has told a listener. -/
structure Begun (c : ℕ) (s : State Unit σ α β) : Prop where
  below : ∀ f ∈ s.stack.tail, f.Begun c
  goes : s.control.Goes → ∀ f ∈ s.stack, f.Begun c

variable [DecidableEq α]

/-- What the listeners at two places are told of an entity in a step. -/
def heard (c : ℕ) (place : Change → ℕ) (e : α) (s : State Unit σ α β) : List Change :=
  Change.times fun change => (s.told c change (place change)).count e

/-- What the listeners at two places have still to be told of an entity. -/
def owed (c : ℕ) (place : Change → ℕ) (e : α) (s : State Unit σ α β) : List Change :=
  Change.times fun change => (s.due c change (place change)).count e

/-- What was heard of an entity, and what is owed, which is at most one change, are in turn, and
say whether the entity is a member of a store. -/
structure InTurn (i c : ℕ) (place : Change → ℕ) (e : α) (h : List Change) (s : State Unit σ α β) :
    Prop where
  owed : (s.owed c place e).length ≤ 1
  alternates : Alternates (h ++ s.owed c place e)
  member : ∃ l, s.world.stores[i]? = some (.ofDistinct l) ∧ l.Nodup ∧
    (lastChange (h ++ s.owed c place e) = .added ↔ e ∈ l)

end State

/-! ## What is owed -/

theorem Change.length_times (count : Change → ℕ) :
    (times count).length = count .added + count .removed := by
  simp [times]

theorem Change.times_eq_nil {count : Change → ℕ} (h : ∀ change, count change = 0) :
    times count = [] := by
  simp [times, h]

theorem Change.times_eq_singleton {count : Change → ℕ} {change : Change}
    (h : ∀ change', count change' = if change' = change then 1 else 0) :
    times count = [change] := by
  cases change <;> simp [times, h]

theorem Change.times_append {count first rest : Change → ℕ}
    (h : ∀ change, first change + rest change = count change)
    (le : (times count).length ≤ 1) : times first ++ times rest = times count := by
  rw [length_times] at le
  have added := h .added
  have removed := h .removed
  unfold times
  rw [← added, ← removed, List.append_assoc]
  by_cases none : first .removed = 0
  · simp [none, ← List.append_assoc]
  · have none' : rest .added = 0 := by omega
    have none'' : first .added = 0 := by omega
    simp [none', none'']

namespace State

variable {C : Client Unit σ α β} {s s' : State Unit σ α β} {c i : ℕ} {place : Change → ℕ} {e : α}

theorem Step.begun (h : Step C s s') (calm : ∀ message, s.control ≠ .panic message)
    (hs : s.Begun c) : s'.Begun c := by
  obtain ⟨below, goes⟩ := hs
  cases h with
  | act | answer | miss => exact ⟨below, fun _ => goes trivial⟩
  | tell => exact ⟨goes trivial, False.elim⟩
  | start | run => exact ⟨goes trivial, fun _ => List.forall_mem_cons.2 ⟨trivial, goes trivial⟩⟩
  | delivered | close | fail | resume =>
    exact ⟨fun f hf => below f (List.mem_of_mem_tail hf), fun _ => below⟩
  | skip | hear =>
    exact ⟨below, fun _ => List.forall_mem_cons.2 ⟨fun _ => Nat.succ_pos _, below⟩⟩
  | next => exact ⟨below, fun _ => List.forall_mem_cons.2 ⟨trivial, below⟩⟩
  | unwind => exact absurd rfl (calm _)

theorem Next.begun (h : Next C s s') (calm : ∀ message, s.control ≠ .panic message)
    (hs : s.Begun c) : s'.Begun c := by
  cases h with
  | step h => exact (step_eq_some_iff.1 h).begun calm hs
  | begin => exact ⟨by simp, by simp⟩

theorem Silent.begun (h : s.Silent c) : s.Begun c := by
  have all : ∀ f ∈ s.stack, f.Begun c := by
    intro f hf
    cases f with
    | delivery => exact fun hc => absurd hc (h _ hf)
    | pass | resume => trivial
  exact ⟨fun f hf => all f (List.mem_of_mem_tail hf), fun _ => all⟩

/-- Two listeners without filters stand at two places on a channel. -/
def Hears (c : ℕ) (place : Change → ℕ) (w : World Unit σ α β) : Prop :=
  ∀ change, ∃ action, ((w.channel c).listeners change)[place change]? = some ⟨[], action⟩

/-- What is due to the two, a delivery on the stack has still to tell them. -/
theorem exists_of_mem_due (follows : s.Follows c) (hears : Hears c place s.world)
    {change : Change} (he : e ∈ s.due c change (place change)) :
    ∃ event told rest after, Frame.delivery event told rest after ∈ s.stack ∧
      event.channel = c ∧ event.entity = e ∧ told ≤ place event.change := by
  obtain ⟨f, hf, he⟩ := List.mem_flatMap.1 he
  cases f with
  | pass | resume => simp [Frame.due] at he
  | delivery event told rest after =>
    simp only [Frame.due] at he
    split_ifs at he with hc
    · obtain ⟨hch, rfl, htold⟩ := hc
      refine ⟨event, told, rest, after, hf, hch, ?_, htold⟩
      obtain ⟨action, hl⟩ := hears event.change
      obtain ⟨l, hrest⟩ : ∃ l, rest[place event.change - told]? = some l := by
        cases h : rest[place event.change - told]? with
        | none => simp [h] at he
        | some l => exact ⟨l, rfl⟩
      -- The listener that it has to tell is the one at the place.
      have hl' : ((s.world.channel c).listeners event.change)[place event.change]? = some l := by
        obtain ⟨more, hmore⟩ := follows _ hf hch
        rw [← Nat.add_sub_cancel' htold, ← List.getElem?_drop, ← hmore,
          List.getElem?_append_left (List.getElem?_eq_some_iff.1 hrest).1, hrest]
      obtain rfl := Option.some.inj (hl.symm.trans hl')
      rw [hrest] at he
      simpa [Listener.hears, narrowAll, eq_comm] using he
    · cases he

variable [DecidableEq α]

/-- When a program runs, and no listener that stands before the two is being told of an entity,
nothing is owed of it. -/
theorem due_count_eq_zero (follows : s.Follows c) (hears : Hears c place s.world)
    (begun : s.Begun c) (goes : s.control.Goes) (steady : ∀ f ∈ s.stack, ¬ f.TellsBefore c place e)
    (change : Change) : (s.due c change (place change)).count e = 0 := by
  rw [List.count_eq_zero]
  intro he
  obtain ⟨event, told, rest, after, hf, hch, rfl, htold⟩ := exists_of_mem_due follows hears he
  exact steady _ hf ⟨hch, rfl, begun.goes goes _ hf hch, htold⟩

/-- What the two are told of an entity in a step and what is due to them then, is what the event of
the step holds for them and what was due before. -/
theorem Next.count_told_add_due (h : Next C s s') (calm : ∀ message, s.control ≠ .panic message)
    (hears : Hears c place s'.world) (change : Change) :
    (s.told c change (place change)).count e + (s'.due c change (place change)).count e =
      (s.fired C c).countP (fun event => event.change = change ∧ event.entity = e) +
        (s.due c change (place change)).count e := by
  obtain ⟨action, hl⟩ := hears change
  have count := congrArg (List.count e) (h.told_append_due calm c change (place change))
  rw [List.count_append, List.count_append] at count
  rw [count]
  congr 1
  induction s.fired C c with
  | nil => rfl
  | cons event events ih =>
    rw [List.flatMap_cons, List.count_append, ih, Channel.tells_of_place hl, List.countP_cons]
    by_cases hc : event.change = change
    · by_cases he : event.entity = e <;> simp [Listener.hears, narrowAll, hc, he, Nat.add_comm]
    · simp [hc]

end State

/-! ## What becomes of an entity -/

variable [DecidableEq α]

/-- An entity is added if it is no member, removed if it is one, and otherwise stays what it is. -/
inductive Fares (e : α) (l l' : List α) : List (Event α) → Prop
  | stays {events : List (Event α)} : (∀ event ∈ events, event.entity ≠ e) → (e ∈ l' ↔ e ∈ l) →
      Fares e l l' events
  | changes (c : ℕ) {change : Change} : (e ∈ l ↔ change = .removed) → (e ∈ l' ↔ change = .added) →
      Fares e l l' [⟨c, change, e⟩]

theorem Accounts.fares {events : List (Event α)} {l : List α} {st : Store Unit α}
    (h : Accounts events (.ofDistinct l) st) (nodup : l.Nodup) (e : α) :
    ∃ l', st = .ofDistinct l' ∧ l'.Nodup ∧ Fares e l l' events := by
  cases h with
  | none => exact ⟨l, rfl, nodup, .stays (by simp) Iff.rfl⟩
  | @added c t _ _ hl =>
    obtain ⟨fresh, rfl⟩ := Discipline.insert_distinct_eq_some_iff.1 hl
    have absent : t ∉ l := fun ht => fresh t ht (beq_self_eq_true t)
    refine ⟨l ++ [t], rfl, ?_, ?_⟩
    · refine List.nodup_append.2 ⟨nodup, by simp, fun x hx y hy => ?_⟩
      rw [List.mem_singleton.1 hy]
      rintro rfl
      exact absent hx
    · by_cases he : t = e
      · subst he
        exact .changes c (by simp [absent]) (by simp)
      · exact .stays (by simp [he]) (by simp [Ne.symm he])
  | @removed c t _ _ hl =>
    obtain ⟨⟨x, hx, hs⟩, rfl⟩ := Discipline.erase_distinct_eq_some_iff.1 hl
    obtain rfl := eq_of_beq hs
    change x ∈ l at hx
    refine ⟨l.erase x, ?_, nodup.erase x, ?_⟩
    · rw [List.erase_eq_eraseP']
      rfl
    · by_cases he : x = e
      · subst he
        exact .changes c (by simp [hx]) (by simp [nodup.mem_erase_iff])
      · exact .stays (by simp [he]) (List.mem_erase_of_ne (Ne.symm he))

namespace State

variable {C : Client Unit σ α β} {s s' : State Unit σ α β} {c i : ℕ} {place : Change → ℕ} {e : α}
  {h : List Change}

/-- A step that does not change the entity has some of what is owed told. -/
theorem heard_append_owed (next : Next C s s') (calm : ∀ message, s.control ≠ .panic message)
    (hears : Hears c place s'.world) (le : (s.owed c place e).length ≤ 1)
    (stays : ∀ event ∈ s.fired C c, event.entity ≠ e) :
    s.heard c place e ++ s'.owed c place e = s.owed c place e := by
  apply Change.times_append (fun change => ?_) le
  have none : (s.fired C c).countP (fun event => event.change = change ∧ event.entity = e) = 0 := by
    rw [List.countP_eq_zero]
    intro event hevent
    simp [stays event hevent]
  rw [next.count_told_add_due calm hears, none, Nat.zero_add]

omit [DecidableEq α] in
theorem exists_call_of_fired {event : Event α} {events : List (Event α)}
    (fired : s.fired C c = event :: events) : ∃ call k, s.control = .call call k := by
  by_contra none
  push Not at none
  rw [fired_of_not_call none] at fired
  cases fired

/-- A step that changes the entity when nothing is owed tells nothing, and owes the change. -/
theorem heard_append_owed_of_changes (next : Next C s s')
    (calm : ∀ message, s.control ≠ .panic message) (hears : Hears c place s'.world)
    (none : ∀ change, (s.due c change (place change)).count e = 0) {c' : ℕ} {change : Change}
    (fired : s.fired C c = [⟨c', change, e⟩]) :
    s.heard c place e = [] ∧ s'.owed c place e = [change] := by
  obtain ⟨call, k, hc⟩ := exists_call_of_fired fired
  have told (change' : Change) : (s.told c change' (place change')).count e = 0 := by
    simp only [State.told, hc, List.count_nil]
  refine ⟨Change.times_eq_nil told, Change.times_eq_singleton fun change' => ?_⟩
  have count := next.count_told_add_due (e := e) calm hears change'
  rw [told, none, fired, Nat.zero_add, Nat.add_zero] at count
  rw [count]
  simp [List.countP_cons, eq_comm]

theorem Silent.owed_eq_nil (h : s.Silent c) : s.owed c place e = [] := by
  apply Change.times_eq_nil
  intro change
  rw [h.due_eq_nil, List.count_nil]

/-- **One step.** What was heard of an entity and what is owed of it are in turn after a step, and
say whether it is a member, if they did before. The entity is not changed while a listener that
stands before the two is being told of it. -/
theorem InTurn.next (hs : s.InTurn i c place e h) (next : Next C s s') (within : s.Within i c)
    (calm : ∀ message, s.control ≠ .panic message) (hears : Hears c place s.world)
    (hears' : Hears c place s'.world) (follows : s.Follows c) (begun : s.Begun c)
    (steady : (∃ event ∈ s.fired C c, event.entity = e) →
      ∀ f ∈ s.stack, ¬ f.TellsBefore c place e) :
    s'.InTurn i c place e (h ++ s.heard c place e) := by
  obtain ⟨owed, alternates, l, hl, nodup, member⟩ := hs
  obtain ⟨st, hst, accounts⟩ := next.accounts within hl
  obtain ⟨l', rfl, nodup', fares⟩ := accounts.fares nodup e
  generalize hfired : s.fired C c = events at fares
  cases fares with
  | stays others same =>
    have parts := heard_append_owed next calm hears' owed (hfired ▸ others)
    refine ⟨?_, ?_, l', hst, nodup', ?_⟩
    · rw [← parts, List.length_append] at owed
      omega
    · rwa [List.append_assoc, parts]
    · rw [List.append_assoc, parts, member, same]
  | @changes c' change before after =>
    obtain ⟨call, k, hc⟩ := exists_call_of_fired hfired
    have steady := steady ⟨⟨c', change, e⟩, by simp [hfired], rfl⟩
    have none := due_count_eq_zero follows hears begun (by rw [hc]; trivial) steady
    have nil : s.owed c place e = [] := Change.times_eq_nil none
    obtain ⟨heard, owed'⟩ := heard_append_owed_of_changes next calm hears' none hfired
    rw [nil, List.append_nil] at alternates member
    refine ⟨by simp [owed'], ?_, l', hst, nodup', ?_⟩
    · rw [heard, owed', List.append_nil, alternates_concat_iff]
      refine ⟨alternates, fun hlast => ?_⟩
      rw [hlast, before] at member
      cases change <;> simp at member
    · rw [heard, owed', List.append_nil, lastChange_concat, after]

end State

/-! ## Runs -/

variable {C : Client Unit σ α β}

omit [DecidableEq α] in
theorem Run.begun {ρ : Run C} (calm : ∀ n message, (ρ n).control ≠ .panic message) {c m : ℕ}
    (h : (ρ m).Begun c) {n : ℕ} (hn : m ≤ n) : (ρ n).Begun c := by
  induction n, hn using Nat.le_induction with
  | base => exact h
  | succ n _ ih => exact (ρ.next n).begun (calm n) ih

/-- From a moment on at which nothing is a member and no event is being delivered, the changes of
an entity are heard in turn. -/
theorem Run.inTurn (ρ : Run C) {i c m : ℕ} {place : Change → ℕ} (within : ∀ n, (ρ n).Within i c)
    (calm : ∀ n message, (ρ n).control ≠ .panic message)
    (empty : (ρ m).world.stores[i]? = some (.ofDistinct [])) (silent : (ρ m).Silent c)
    (hears : ∀ n, m ≤ n → State.Hears c place (ρ n).world) (e : α)
    (steady : ∀ n, m ≤ n → (∃ event ∈ (ρ n).fired C c, event.entity = e) →
      ∀ f ∈ (ρ n).stack, ¬ f.TellsBefore c place e) (n : ℕ) :
    (ρ (m + n)).InTurn i c place e (ρ.collect (State.heard c place e) m n) := by
  induction n with
  | zero =>
    refine ⟨?_, ?_, [], empty, List.nodup_nil, ?_⟩ <;> rw [Nat.add_zero, silent.owed_eq_nil]
    · exact Nat.zero_le 1
    · exact ⟨by simp, .nil⟩
    · simp [lastChange]
  | succ n ih =>
    have hn : m ≤ m + n := Nat.le_add_right m n
    rw [collect_succ, ← Nat.add_assoc]
    exact ih.next (ρ.next _) (within _) (calm _) (hears _ hn) (hears _ (by omega))
      (Run.follows silent.follows hn) (Run.begun calm silent.begun hn) (steady _ hn)

/-- **Additions and removals in turn.** Let `r` be a registry over a store and a channel, in a run
without panics in which only their family changes the store and fires the channel. Let one action be
subscribed to additions and another one to removals, both to `r` and before a moment `m` at which
the store is empty and no event is being delivered, say one right after the other just before `m`.
Let `e` be neither added nor removed while a listener that was there before the two, on `r` or on
any view, is being told of `e`.

Then the calls of the two with `e` are additions and removals in turn, beginning with an addition.
Whenever no event is being delivered, as after every operation of a program at the bottom of the
stack, the last call was for an addition exactly if `e` is a member. An action that is told an
entity runs on it at the next moment. -/
theorem heard_in_turn (ρ : Run C) (i c : ℕ) (within : ∀ n, (ρ n).Within i c)
    (calm : ∀ n message, (ρ n).control ≠ .panic message) (m r : ℕ)
    (empty : (ρ m).world.stores[i]? = some (.ofDistinct []))
    (store : ((ρ m).world.registry r).store = .root i)
    (channel : ((ρ m).world.registry r).channel = .root c) (a : ρ.Subscriber r .added m)
    (b : ρ.Subscriber r .removed m) (silent : (ρ m).Silent c) (e : α)
    (steady : ∀ n, m ≤ n → (∃ event ∈ (ρ n).fired C c, event.entity = e) →
      ∀ f ∈ (ρ n).stack, ¬ f.TellsBefore c (Change.pick a.place b.place) e) :
    (∀ n, let heard := ρ.collect (State.heard c (Change.pick a.place b.place) e) m n
      Alternates heard ∧
        ((ρ (m + n)).Silent c →
          (heard.getLast? = some .added ↔ e ∈ ((ρ (m + n)).world.listing r).members))) ∧
    ∀ n, m ≤ n →
      (∀ x ∈ (ρ n).told c .added a.place, (ρ (n + 1)).control = .ok <$> C.action a.action x) ∧
      ∀ x ∈ (ρ n).told c .removed b.place, (ρ (n + 1)).control = .ok <$> C.action b.action x := by
  have parts (n : ℕ) (hn : m ≤ n) :
      ((ρ n).world.registry r).toParts = ((ρ m).world.registry r).toParts :=
    a.toParts_eq (a.before.le.trans hn)
  have family (n : ℕ) (hn : m ≤ n) : Family i c ((ρ n).world.registry r).toParts := by
    rw [parts n hn]
    have root := Family.root (i := i) (c := c) ((ρ m).world.registry r).namer
      ((ρ m).world.registry r).typeName
    rwa [← store, ← channel] at root
  have filters : ((ρ m).world.registry r).channel.filters = [] := by rw [channel]; rfl
  have ha (n : ℕ) (hn : m ≤ n) := a.listeners_place hn
  have hb (n : ℕ) (hn : m ≤ n) := b.listeners_place hn
  simp only [a.channel_eq, b.channel_eq, (family m le_rfl).channel_number] at ha hb
  refine ⟨fun n => ?_, fun n hn => ⟨fun x hx => ?_, fun x hx => ?_⟩⟩
  · have hears (n : ℕ) (hn : m ≤ n) :
        State.Hears c (Change.pick a.place b.place) (ρ n).world := by
      intro change
      cases change with
      | added => exact ⟨a.action, filters ▸ ha n hn⟩
      | removed => exact ⟨b.action, filters ▸ hb n hn⟩
    obtain ⟨-, alternates, l, hl, -, member⟩ :=
      ρ.inTurn within calm empty silent hears e steady n
    refine ⟨alternates.of_append, fun hn => ?_⟩
    · have hle : m ≤ m + n := Nat.le_add_right m n
      have shown : ((ρ (m + n)).world.listing r).members = l := by
        rw [World.members_listing (family _ hle) hl, congrArg Parts.channel (parts _ hle), filters]
        exact List.filterMap_some
      rw [hn.owed_eq_nil, List.append_nil, lastChange_eq_added_iff] at member
      rw [shown, member]
  · exact (ρ.next n).control_of_told (Run.follows silent.follows hn) hx (ha n hn)
  · exact (ρ.next n).control_of_told (Run.follows silent.follows hn) hx (hb n hn)

/-! A registry of truth values, to which listeners subscribe before a value is added. One of them
removes what it is told of. -/

/-- A program that subscribes listeners one after the other, and adds a value. -/
def subscribeAndAdd : List (Change × Bool) → Prog Unit Unit Bool Bool Verdict
  | [] => .call (.add 0 true) fun _ => .done (.ok ())
  | (change, b) :: rest => .call (.subscribe 0 change b) fun _ => subscribeAndAdd rest

def truthsStart (listeners : List (Change × Bool)) : State Unit Unit Bool Bool where
  world := pickyWorld {} []
  stack := []
  control := subscribeAndAdd listeners

/-- The value has been added, and listeners are about to be told. -/
def truthsAdded (channel : Channel Unit Bool Bool) : State Unit Unit Bool Bool where
  world := pickyWorld channel [true]
  stack := [.delivery ⟨0, .added, true⟩ 0 channel.added (.done (.ok ()))]
  control := .done (.ok ())

/-- The store is changed, and the channel fired, only by the family, and nothing panics. -/
def State.Tidy (s : State Unit Unit Bool Bool) : Prop :=
  s.Within 0 0 ∧ ∀ message, s.control ≠ .panic message

theorem State.tidy_of_done {s : State Unit Unit Bool Bool} {v : Verdict}
    (h : s.control = .done v) : s.Tidy :=
  ⟨.of_done h, fun message => by simp [h]⟩

theorem State.tidy_of_call {s : State Unit Unit Bool Bool} {call : Call Unit Unit Bool Bool}
    {k : call.Reply → Prog Unit Unit Bool Bool Verdict} (h : s.control = .call call k)
    (within : call.Within s.world 0 0) : s.Tidy := by
  refine ⟨fun call' k' h' => ?_, fun message => by simp [h]⟩
  rw [h] at h'
  cases h'
  exact within

/-- One listener to additions stands before the two, and one that removes comes after them. -/
theorem heard_in_turn_picky :
    ∃ (ρ : Run picky) (a : ρ.Subscriber 0 .added 4) (b : ρ.Subscriber 0 .removed 4),
      a.place = 1 ∧ b.place = 0 ∧
      let heard := ρ.collect (State.heard 0 (Change.pick a.place b.place) true) 4 9
      heard = [.added, .removed] ∧ Alternates heard := by
  let ρ := Run.of picky
    (truthsStart [(.added, false), (.added, false), (.removed, false), (.added, true)])
  let a : ρ.Subscriber 0 .added 4 := ⟨false, 1, _, rfl, by decide, by decide, by decide⟩
  let b : ρ.Subscriber 0 .removed 4 := ⟨false, 2, _, rfl, by decide, by decide, by decide⟩
  have added (n : ℕ) : ρ (n + 5) = State.run picky n
      (truthsAdded ⟨[⟨[], false⟩, ⟨[], false⟩, ⟨[], true⟩], [⟨[], false⟩]⟩) := rfl
  have root : Family 0 0 truths := .root _ _
  have tidy (n : ℕ) : (ρ n).Tidy := by
    match n with
    | 0 | 1 | 2 | 3 => exact State.tidy_of_call rfl trivial
    | 4 => exact State.tidy_of_call rfl (.inl root)
    | n + 5 =>
      rw [added]
      match n with
      | 3 => exact State.tidy_of_call rfl (.inl root)
      | 0 | 1 | 2 | 4 | 5 | 6 | 7 | _ + 8 => exact State.tidy_of_done rfl
  have steady (n : ℕ) (hn : 4 ≤ n) : (∃ event ∈ (ρ n).fired picky 0, event.entity = true) →
      ∀ f ∈ (ρ n).stack, ¬ f.TellsBefore 0 (Change.pick 1 0) true := by
    obtain ⟨n, rfl⟩ := Nat.exists_eq_add_of_le' hn
    match n with
    | 0 =>
      -- The value is added while no one is being told of anything.
      intro _ f hf
      cases hf
    | n + 1 =>
      show (∃ event ∈ (ρ (n + 5)).fired picky 0, event.entity = true) →
        ∀ f ∈ (ρ (n + 5)).stack, ¬ f.TellsBefore 0 (Change.pick 1 0) true
      rw [added]
      match n with
      | 3 =>
        -- It is removed when three listeners have been told.
        intro _ f hf
        obtain rfl := List.mem_singleton.1 hf
        rintro ⟨-, -, -, before⟩
        exact absurd before (by decide)
      | 0 | 1 | 2 | 4 | 5 | 6 | 7 | _ + 8 =>
        rintro ⟨event, fired, -⟩
        cases fired
  have h := (heard_in_turn ρ 0 0 (fun n => (tidy n).1) (fun n => (tidy n).2) 4 0 rfl rfl rfl
    a b (State.silent_of_stack_eq_nil rfl) true steady).1 9
  exact ⟨ρ, a, b, rfl, rfl, by decide, h.1⟩

/-- Two listeners that subscribe together to an empty registry need not hear of additions and
removals in turn: a listener that was there before them removes the value while it is told that it
was added. -/
theorem not_heard_in_turn :
    ¬ ∀ ρ : Run picky, (∀ n, (ρ n).Within 0 0) → (∀ n message, (ρ n).control ≠ .panic message) →
      ∀ m r, (ρ m).world.stores[0]? = some (.ofDistinct []) →
        ((ρ m).world.registry r).store = .root 0 → ((ρ m).world.registry r).channel = .root 0 →
        ∀ (a : ρ.Subscriber r .added m) (b : ρ.Subscriber r .removed m), b.since = a.since + 1 →
          (ρ m).Silent 0 → ∀ e n,
            Alternates (ρ.collect (State.heard 0 (Change.pick a.place b.place) e) m n) := by
  intro h
  let ρ := Run.of picky (truthsStart [(.added, true), (.added, false), (.removed, false)])
  let a : ρ.Subscriber 0 .added 3 := ⟨false, 1, _, rfl, by decide, by decide, by decide⟩
  let b : ρ.Subscriber 0 .removed 3 := ⟨false, 2, _, rfl, by decide, by decide, by decide⟩
  have added (n : ℕ) : ρ (n + 4) = State.run picky n
      (truthsAdded ⟨[⟨[], true⟩, ⟨[], false⟩], [⟨[], false⟩]⟩) := rfl
  have root : Family 0 0 truths := .root _ _
  have tidy (n : ℕ) : (ρ n).Tidy := by
    match n with
    | 0 | 1 | 2 => exact State.tidy_of_call rfl trivial
    | 3 => exact State.tidy_of_call rfl (.inl root)
    | n + 4 =>
      rw [added]
      match n with
      | 1 => exact State.tidy_of_call rfl (.inl root)
      | 0 | 2 | 3 | 4 | 5 | 6 | _ + 7 => exact State.tidy_of_done rfl
  have heard : ρ.collect (State.heard 0 (Change.pick a.place b.place) true) 3 8 =
      [.removed, .added] := by decide
  have alternates := h ρ (fun n => (tidy n).1) (fun n => (tidy n).2) 3 0 rfl rfl rfl a b rfl
    (State.silent_of_stack_eq_nil rfl) true 8
  rw [heard] at alternates
  exact alternates.1 rfl

end NameRegistry
