import NameRegistry.Proofs.Family

/-!
# What is told adds up

A listener that hears of additions and one that hears of removals, both on one registry, can keep
count of its members: an entity is shown as often as it was told to the one more than to the other.

* `Moves.count_shown` : the events of a step account for what it changes in a view.
* `Run.balance` : at every moment, what was told and what is still due account for what has changed
  in the view.

Listeners add and remove entities themselves, so a change may be told long after another that was
made later. The balance counts what the deliveries on the stack have still to tell. When no event is
being delivered there is nothing of that left.

Main result: `told_eq_shown`.
-/

namespace NameRegistry

variable {σ α β : Type} [DecidableEq α] {C : Client Unit σ α β}

/-! ## One step -/

/-- The events of a step account for what it changes in a view. -/
theorem Moves.count_shown {events : List (Event α)} {l l' : List α} (h : Moves events l l')
    {ch : Channel Unit α β} {pa pr : Nat} {fs : List (Filter Unit α)} {a r : β}
    (ha : (ch.listeners .added)[pa]? = some ⟨fs, a⟩)
    (hr : (ch.listeners .removed)[pr]? = some ⟨fs, r⟩) (x : α) :
    (l'.filterMap (narrowAll () fs)).count x +
        (events.flatMap (ch.tells () .removed pr)).count x =
      (l.filterMap (narrowAll () fs)).count x +
        (events.flatMap (ch.tells () .added pa)).count x := by
  have shown (e : α) (l : List α) : ((e :: l).filterMap (narrowAll () fs)).count x =
      (narrowAll () fs e).toList.count x + (l.filterMap (narrowAll () fs)).count x := by
    cases hn : narrowAll () fs e <;> simp [hn, Nat.add_comm, List.count_cons]
  cases h with
  | none => rfl
  | added c e =>
    have hp := (List.perm_append_singleton e l).filterMap (narrowAll () fs)
    rw [hp.count_eq, shown]
    simp [Channel.tells_of_place ha, Channel.tells_of_place hr, Listener.hears, Nat.add_comm]
  | removed he =>
    have hp := (List.perm_cons_erase he).filterMap (narrowAll () fs)
    rw [hp.count_eq, shown]
    simp [Channel.tells_of_place ha, Channel.tells_of_place hr, Listener.hears, Nat.add_comm]

/-! ## Runs -/

/-- **What is told adds up.** Let two listeners, one to additions and one to removals, stand behind
the same filters from a moment on. What the first was told since then and what is due to it, what
the second was told and what is due to it, and what the filters show, stay in balance. -/
theorem Run.balance (ρ : Run C) {i c m : ℕ} (within : ∀ n, (ρ n).Within i c)
    (calm : ∀ n message, (ρ n).control ≠ .panic message) {l : List α}
    (hl : (ρ m).world.stores[i]? = some (.ofDistinct l)) {pa pr : ℕ} {fs : List (Filter Unit α)}
    {a r : β} (ha : ∀ n, m ≤ n → (((ρ n).world.channel c).listeners .added)[pa]? = some ⟨fs, a⟩)
    (hr : ∀ n, m ≤ n → (((ρ n).world.channel c).listeners .removed)[pr]? = some ⟨fs, r⟩)
    (n : ℕ) (x : α) :
    ∃ l', (ρ (m + n)).world.stores[i]? = some (.ofDistinct l') ∧
      (ρ.collect (State.told c .added pa) m n).count x + ((ρ (m + n)).due c .added pa).count x +
          ((ρ m).due c .removed pr).count x + (l.filterMap (narrowAll () fs)).count x =
        (ρ.collect (State.told c .removed pr) m n).count x +
          ((ρ (m + n)).due c .removed pr).count x + ((ρ m).due c .added pa).count x +
          (l'.filterMap (narrowAll () fs)).count x := by
  induction n with
  | zero =>
    refine ⟨l, hl, ?_⟩
    simp only [collect_zero, List.count_nil, Nat.add_zero]
    omega
  | succ n ih =>
    obtain ⟨l₁, hl₁, ih⟩ := ih
    have hnext := ρ.next (m + n)
    obtain ⟨l₂, hl₂, hm⟩ := hnext.moves (within _) hl₁
    have shown := hm.count_shown (ha (m + n + 1) (by omega)) (hr (m + n + 1) (by omega)) x
    have added := congrArg (List.count x) (hnext.told_append_due (calm _) c .added pa)
    have removed := congrArg (List.count x) (hnext.told_append_due (calm _) c .removed pr)
    refine ⟨l₂, hl₂, ?_⟩
    simp only [List.count_append] at added removed
    simp only [collect_succ, List.count_append, ← Nat.add_assoc] at ih ⊢
    omega

omit [DecidableEq α] in
theorem World.members_listing {i c : ℕ} {w : World Unit σ α β} {r : ℕ}
    (h : Family i c (w.registry r).toParts) {st : Store Unit α} (hi : w.stores[i]? = some st) :
    (w.listing r).members =
      st.members.filterMap (narrowAll () (w.registry r).channel.filters) := by
  rw [members_eq_shown, shown_eq, h.store_number, store_of_getElem? hi, h.filters_eq]

/-- **Every change of a view is told once.** Let `r` be a registry of a family over a store and a
channel, in a run without panics in which only the family changes the store and fires the channel.
Let one action be subscribed to additions and another one to removals, both to `r` and before a
moment `m` at which no event is being delivered, say one right after the other just before `m`.
Whenever no event is being delivered again, as after every operation of a program at the bottom of
the stack, each entity has been told to the first action more often than to the second by as much
as `r` shows it more often than at `m`. An action that is told an entity runs on it at the next
moment. -/
theorem told_eq_shown (ρ : Run C) (i c : ℕ) (within : ∀ n, (ρ n).Within i c)
    (calm : ∀ n message, (ρ n).control ≠ .panic message) (m : ℕ) (r : ℕ)
    (store : ∃ l, (ρ m).world.stores[i]? = some (.ofDistinct l))
    (family : Family i c ((ρ m).world.registry r).toParts) (a : ρ.Subscriber r .added m)
    (b : ρ.Subscriber r .removed m) (silent : (ρ m).Silent c) :
    let added := ρ.collect (State.told c .added a.place) m
    let removed := ρ.collect (State.told c .removed b.place) m
    let members n := ((ρ (m + n)).world.listing r).members
    (∀ n, (ρ (m + n)).Silent c → ∀ x,
      ((added n).count x : ℤ) - (removed n).count x =
        ((members n).count x : ℤ) - (members 0).count x) ∧
    ∀ n, m ≤ n →
      (∀ e ∈ (ρ n).told c .added a.place, (ρ (n + 1)).control = .ok <$> C.action a.action e) ∧
      ∀ e ∈ (ρ n).told c .removed b.place, (ρ (n + 1)).control = .ok <$> C.action b.action e := by
  intro added removed members
  obtain ⟨l, hl⟩ := store
  have ha (n : ℕ) (hn : m ≤ n) := a.listeners_place hn
  have hb (n : ℕ) (hn : m ≤ n) := b.listeners_place hn
  simp only [a.channel_eq, b.channel_eq, family.channel_number] at ha hb
  refine ⟨fun n hn x => ?_, fun n hn => ⟨fun e he => ?_, fun e he => ?_⟩⟩
  · obtain ⟨l', hl', h⟩ := ρ.balance within calm hl ha hb n x
    have parts := a.toParts_eq (a.before.le.trans (Nat.le_add_right m n))
    have shown : members n =
        l'.filterMap (narrowAll () ((ρ m).world.registry r).channel.filters) := by
      rw [← show ((ρ (m + n)).world.registry r).channel = _ from congrArg Parts.channel parts]
      exact World.members_listing (parts ▸ family) hl'
    have shown₀ : members 0 = l.filterMap (narrowAll () ((ρ m).world.registry r).channel.filters) :=
      World.members_listing family hl
    -- Nothing is due at either moment.
    simp only [hn.due_eq_nil, silent.due_eq_nil, List.count_nil, Nat.add_zero] at h
    simp only [shown, shown₀, added, removed]
    omega
  · exact (ρ.next n).control_of_told (Run.follows silent.follows hn) he (ha n hn)
  · exact (ρ.next n).control_of_told (Run.follows silent.follows hn) he (hb n hn)

/-! A registry of truth values and a view of those that are true. The value that is added is removed
again by the listener that is told of it. -/

def truths : Parts Unit Bool := ⟨fun _ e => if e then "yes" else "no", "bool", .root 0, .root 0⟩

/-- The listener under `true` removes what it is told. -/
def picky : Client Unit Unit Bool Bool where
  rule _ _ _ := .done (.ok ())
  action b e := if b then .call (.remove 0 e) fun _ => .done () else .done ()

def pickyListener (b : Bool) : Listener Unit Bool Bool := ⟨[.matching fun _ e => e], b⟩

def pickyWorld (channel : Channel Unit Bool Bool) (members : List Bool) :
    World Unit Unit Bool Bool where
  memory := ()
  client := ()
  stores := [.ofDistinct members]
  channels := [channel]
  registries := [{ truths with hooks := .default },
    { truths.filtered (.matching fun _ e => e) "bool" with hooks := .default }]

/-- A program that subscribes two listeners to the view and adds a value. -/
def pickyStart : State Unit Unit Bool Bool where
  world := pickyWorld {} []
  stack := []
  control := .call (.subscribe 1 .added true) fun _ => .call (.subscribe 1 .removed false) fun _ =>
    .call (.add 0 true) fun _ => .done (.ok ())

/-- The value has been added, and the listener is about to be told. -/
def pickyAdded : State Unit Unit Bool Bool where
  world := pickyWorld ⟨[pickyListener true], [pickyListener false]⟩ [true]
  stack := [.delivery ⟨0, .added, true⟩ 0 [pickyListener true] (.done (.ok ()))]
  control := .done (.ok ())

theorem told_eq_shown_picky :
    ∃ (ρ : Run picky) (a : ρ.Subscriber 1 .added 2) (b : ρ.Subscriber 1 .removed 2),
      ρ.collect (State.told 0 .added a.place) 2 6 = [true] ∧
      ρ.collect (State.told 0 .removed b.place) 2 6 = [true] ∧
      (((ρ 8).world.listing 1).members.count true : ℤ) =
        ((ρ 2).world.listing 1).members.count true := by
  let ρ := Run.of picky pickyStart
  have root : Family 0 0 truths := .root _ _
  have done {s : State Unit Unit Bool Bool} {v : Verdict} (h : s.control = .done v) :
      s.Within 0 0 ∧ ∀ message, s.control ≠ .panic message :=
    ⟨.of_done h, fun _ => by simp [h]⟩
  have added (n : ℕ) : ρ (n + 3) = State.run picky n pickyAdded := rfl
  have run (n : ℕ) : (ρ n).Within 0 0 ∧ ∀ message, (ρ n).control ≠ .panic message := by
    match n with
    | 0 | 1 =>
      refine ⟨fun _ _ h => ?_, fun _ h => ?_⟩ <;> cases h
      trivial
    | 2 =>
      refine ⟨fun _ _ h => ?_, fun _ h => ?_⟩ <;> cases h
      exact .inl root
    | n + 3 =>
      rw [added]
      match n with
      | 1 =>
        refine ⟨fun _ _ h => ?_, fun _ h => ?_⟩ <;> cases h
        exact .inl root
      | 0 | 2 | 3 | 4 | 5 | _ + 6 => exact done rfl
  let a : ρ.Subscriber 1 .added 2 := ⟨true, 0, _, rfl, Nat.one_lt_two, Nat.one_pos, Nat.two_pos⟩
  let b : ρ.Subscriber 1 .removed 2 :=
    ⟨false, 1, _, rfl, Nat.one_lt_two, Nat.one_pos, Nat.one_lt_two⟩
  have h := told_eq_shown ρ 0 0 (fun n => (run n).1) (fun n => (run n).2) 2 1 ⟨[], rfl⟩
    (.view _ _ root) a b (State.silent_of_stack_eq_nil rfl)
  have ha : ρ.collect (State.told 0 .added a.place) 2 6 = [true] := by decide
  have hb : ρ.collect (State.told 0 .removed b.place) 2 6 = [true] := by decide
  have ended : (ρ (2 + 6)).stack = [] := by
    show (ρ (5 + 3)).stack = []
    rw [added]
    rfl
  have hx := h.1 6 (State.silent_of_stack_eq_nil ended) true
  rw [ha, hb, Int.sub_self] at hx
  exact ⟨ρ, a, b, ha, hb, Int.sub_eq_zero.1 hx.symm⟩

end NameRegistry
