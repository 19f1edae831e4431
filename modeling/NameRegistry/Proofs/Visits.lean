import NameRegistry.Proofs.Family

/-!
# Visiting all members

To have an action done to all members of a registry, those that there are and those to come, is to
look at the members, to subscribe the action, and to do it to the members one after the other.

* `Run.RegainsAfter` : the program that runs at one moment has control again at another, after a
  number of steps of its own.
* `State.gained` : what a step takes into a store.
* `State.Next.gains` : what the store of a family gains, its channel is told to be added.
* `Run.told_perm` : what a listener has been told and what is due to it, is what the store has
  gained since it listens.

**No event is late** (`State.Follows.due_eq_nil`). An entity becomes a member in the step that fires
its event, and the delivery is to those that listen then. So when an action is subscribed, even in
the middle of a delivery, nothing that was a member before is due to it.

Main result: `all_visits`.
-/

namespace NameRegistry

variable {μ σ α β : Type}

/-! ## Calls in turn -/

namespace Run

variable [Memory μ α] {C : Client μ σ α β} {ρ : Run C} {n j m : ℕ}

/-- The program that runs at a moment has control again at another, after a number of steps of its
own. -/
inductive RegainsAfter (ρ : Run C) (n : ℕ) : ℕ → ℕ → Prop
  | zero : ρ.RegainsAfter n 0 n
  | succ {j m i : ℕ} : ρ.RegainsAfter n j m → (ρ m).control.Goes → ρ.Ends m i →
      ρ.RegainsAfter n (j + 1) i

/-- An action is done to one entity after the other, and then the program goes on. -/
theorem RegainsAfter.visit {action : β} {es : List α} {k : Unit → Prog μ σ α β Verdict}
    (h : ρ.RegainsAfter n j m) (calm : ∀ n message, (ρ n).control ≠ .panic message)
    (hc : (ρ n).control = (Prog.visit action es).bind k) (hj : j ≤ es.length) :
    (ρ m).stack = (ρ n).stack ∧ (ρ m).control = (Prog.visit action (es.drop j)).bind k := by
  induction h with
  | zero => exact ⟨rfl, hc⟩
  | @succ j m i _ hg he ih =>
    obtain ⟨hs, hcontrol⟩ := ih (Nat.le_of_succ_le hj)
    rw [List.drop_eq_getElem_cons hj] at hcontrol
    obtain ⟨hs', hsettled⟩ := he.settled hcontrol
    refine ⟨hs'.trans hs, ?_⟩
    obtain ⟨a, ha⟩ := hsettled.resolve_right fun ⟨message, hp⟩ => calm i message hp
    exact ha

theorem control_of_visit {action : β} {e : α} {es : List α} {k : Unit → Prog μ σ α β Verdict}
    (hc : (ρ m).control = (Prog.visit action (e :: es)).bind k) :
    (ρ (m + 1)).control = ((ρ m).world.enter C action e).2 := by
  rw [succ_of_call hc]
  rfl

/-- To have an action done to all members is to look at them first, -/
theorem all_succ {r : ℕ} {action : β} {k : Unit → Prog μ σ α β Verdict}
    (hc : (ρ n).control = (Prog.all r action).bind k) :
    ρ (n + 1) = ⟨(ρ n).world, (ρ n).stack, .call (.subscribe r .added action) fun _ =>
      (Prog.visit action ((ρ n).world.listing r).members).bind k⟩ :=
  succ_of_call hc

/-- and to subscribe the action, before it is done to the first. -/
theorem all_succ_succ {r : ℕ} {action : β} {k : Unit → Prog μ σ α β Verdict}
    (hc : (ρ n).control = (Prog.all r action).bind k) :
    ρ (n + 2) = ⟨(ρ n).world.listen ((ρ n).world.registry r).channel .added action, (ρ n).stack,
      (Prog.visit action ((ρ n).world.listing r).members).bind k⟩ := by
  have look := all_succ hc
  have subscribe : (ρ (n + 1)).control = .call (.subscribe r .added action) fun _ =>
      (Prog.visit action ((ρ n).world.listing r).members).bind k := by
    rw [look]
  rw [succ_of_call subscribe, look]
  rfl

end Run

/-! ## No event is late -/

/-- What has been told so far is no concern of a listener that comes after the others. -/
theorem State.Follows.due_eq_nil {s : State μ σ α β} {c : ℕ} (h : s.Follows c) (change : Change)
    {place : ℕ} (hp : ((s.world.channel c).listeners change).length ≤ place) :
    s.due c change place = [] := by
  refine List.flatMap_eq_nil_iff.2 fun f hf => ?_
  cases f with
  | pass | resume => rfl
  | delivery event told rest after =>
    simp only [Frame.due]
    split_ifs with hc
    · obtain ⟨rfl, rfl, htold⟩ := hc
      have hlen := (h _ hf rfl).length_le
      rw [List.length_drop] at hlen
      rw [List.getElem?_eq_none (by omega)]
      rfl
    · rfl

/-! ## What is gained is told -/

/-- The entities that a list of events says are added. -/
def additions (events : List (Event α)) : List α :=
  events.filterMap fun event => if event.change = .added then some event.entity else none

/-- What a step takes into a store: the members that it has after those that it had. -/
def State.gained [Memory μ α] (C : Client μ σ α β) (i : ℕ) (s : State μ σ α β) : List α :=
  (s.step C).elim [] fun s' => (s'.world.store i).members.drop (s.world.store i).members.length

theorem Channel.tells_flatMap {ch : Channel Unit α β} {place : ℕ} {l : Listener Unit α β}
    (h : (ch.listeners .added)[place]? = some l) (events : List (Event α)) :
    events.flatMap (ch.tells () .added place) =
      (additions events).filterMap (narrowAll () l.filters) := by
  induction events with
  | nil => rfl
  | cons event events ih =>
    simp only [List.flatMap_cons, ih, tells_of_place h, additions, List.filterMap_cons]
    by_cases hc : event.change = .added
    · simp only [hc, if_true, Listener.hears, List.filterMap_cons]
      cases narrowAll () l.filters event.entity <;> rfl
    · simp only [hc, if_false]
      rfl

section

variable {C : Client Unit σ α β} {i c : ℕ} {same : Unit → α → α → Bool} {l : List α}

theorem Accounts.gains {events : List (Event α)} {st : Store Unit α}
    (h : Accounts events ⟨l, .distinct same⟩ st) :
    ∃ l', st = ⟨l', .distinct same⟩ ∧ additions events = l'.drop l.length := by
  cases h with
  | none => exact ⟨l, rfl, List.drop_length.symm⟩
  | added c hl =>
    obtain ⟨-, rfl⟩ := Discipline.insert_distinct_eq_some_iff.1 hl
    exact ⟨_, rfl, List.drop_left.symm⟩
  | removed c hl =>
    obtain ⟨-, rfl⟩ := Discipline.erase_distinct_eq_some_iff.1 hl
    exact ⟨_, rfl, (List.drop_eq_nil_of_le List.length_eraseP_le).symm⟩

theorem State.Next.gains {s s' : State Unit σ α β} (h : Next C s s') (hw : s.Within i c)
    (hi : s.world.stores[i]? = some ⟨l, .distinct same⟩) :
    (∃ l', s'.world.stores[i]? = some ⟨l', .distinct same⟩) ∧
      additions (s.fired C c) = s.gained C i := by
  obtain ⟨st, hst, ha⟩ := h.accounts hw hi
  obtain ⟨l', rfl, hg⟩ := ha.gains
  refine ⟨⟨l', hst⟩, ?_⟩
  cases h with
  | step h =>
    rw [gained, h, Option.elim_some, World.store_of_getElem? hi,
      World.store_of_getElem? hst, hg]
  | begin p h =>
    rw [gained, h, fired_of_step_eq_none h]
    rfl

/-! ## Runs -/

/-- **Every addition is told once.** What a listener has been told since it listens, and what the
deliveries on the stack have still to tell it, is what its filters show of what the store has
gained. -/
theorem Run.told_perm (ρ : Run C) {n place : ℕ} {f : Listener Unit α β}
    (within : ∀ n, (ρ n).Within i c) (calm : ∀ n message, (ρ n).control ≠ .panic message)
    (hi : (ρ n).world.stores[i]? = some ⟨l, .distinct same⟩)
    (hf : ∀ m, n ≤ m → (((ρ m).world.channel c).listeners .added)[place]? = some f)
    (due : (ρ n).due c .added place = []) (m : ℕ) :
    (∃ l', (ρ (n + m)).world.stores[i]? = some ⟨l', .distinct same⟩) ∧
      (ρ.collect (State.told c .added place) n m ++ (ρ (n + m)).due c .added place).Perm
        ((ρ.collect (State.gained C i) n m).filterMap (narrowAll () f.filters)) := by
  induction m with
  | zero => exact ⟨⟨l, hi⟩, by rw [Nat.add_zero, due]; rfl⟩
  | succ m ih =>
    obtain ⟨⟨l', hl'⟩, ih⟩ := ih
    have hnext := ρ.next (n + m)
    obtain ⟨hl'', hgain⟩ := hnext.gains (within _) hl'
    refine ⟨hl'', ?_⟩
    have step := hnext.told_append_due (calm _) c .added place
    rw [Channel.tells_flatMap (hf (n + m + 1) (by omega)), hgain] at step
    rw [collect_succ, collect_succ, List.filterMap_append, List.append_assoc, ← Nat.add_assoc,
      step]
    refine (List.perm_append_comm.append_left _).trans ?_
    rw [← List.append_assoc]
    exact ih.append_right _

end

/-- From the second step on, the action listens behind all that listened before. -/
theorem Run.listens_of_all [Memory μ α] {C : Client μ σ α β} (ρ : Run C) {i c n m r : ℕ}
    {action : β} {k : Unit → Prog μ σ α β Verdict}
    (hc : (ρ n).control = (Prog.all r action).bind k)
    (family : Family i c ((ρ n).world.registry r).toParts)
    (channel : c < (ρ n).world.channels.length) (hm : n + 2 ≤ m) :
    (((ρ m).world.channel c).listeners .added)[(((ρ n).world.channel c).listeners .added).length]? =
      some ⟨((ρ n).world.registry r).store.filters, action⟩ := by
  have start : ((ρ (n + 2)).world.channel c).listeners .added =
      ((ρ n).world.channel c).listeners .added ++
        [⟨((ρ n).world.registry r).store.filters, action⟩] := by
    rw [all_succ_succ hc, World.listeners_listen, if_pos ⟨family.channel_number, channel, rfl⟩,
      ChannelRef.wrap_eq, List.append_nil, family.filters_eq]
  obtain ⟨more, hmore⟩ := (ρ.grows hm).listeners c .added
  rw [← hmore, start, List.append_assoc, List.getElem?_append_right le_rfl, Nat.sub_self]
  rfl

variable {C : Client Unit σ α β}

/-- **All members are visited once.** In a run without panics that begins while no event is being
delivered, let only a family change a store and fire a channel. At any moment `n`, also within a
rule, a listener or another such visit, let an action be done to all members of a registry `r` of
the family.

Then first the action is subscribed behind all listeners, and nothing else is changed; and it is
done to the members that `r` showed at `n`, one after the other in their order: after `j` of them
the next one has its turn, and after the last one the program goes on.

Meanwhile and later, what the action is told, and what it is still due to be told by the deliveries
that are going on, is what the filters of `r` show of the entities that the store gains from then
on, each as often as it does; nothing of that is due when no event is being delivered. What the
action is told, it is done to at the next moment. -/
theorem all_visits (ρ : Run C) (i c : ℕ) (same : Unit → α → α → Bool)
    (within : ∀ n, (ρ n).Within i c) (calm : ∀ n message, (ρ n).control ≠ .panic message)
    (silent : (ρ 0).Silent c) (n : ℕ) (r : ℕ) (action : β) (k : Unit → Prog Unit σ α β Verdict)
    (hc : (ρ n).control = (Prog.all r action).bind k)
    (family : Family i c ((ρ n).world.registry r).toParts)
    (store : ∃ l, (ρ n).world.stores[i]? = some ⟨l, .distinct same⟩)
    (channel : c < (ρ n).world.channels.length) :
    let members := ((ρ n).world.listing r).members
    let place := (((ρ n).world.channel c).listeners .added).length
    let filters := ((ρ n).world.registry r).store.filters
    ρ (n + 2) = ⟨(ρ n).world.listen ((ρ n).world.registry r).channel .added action, (ρ n).stack,
        (Prog.visit action members).bind k⟩ ∧
      (∀ j m, j ≤ members.length → ρ.RegainsAfter (n + 2) j m →
        (ρ m).stack = (ρ n).stack ∧
          (ρ m).control = (Prog.visit action (members.drop j)).bind k ∧
          ∀ e, members[j]? = some e → (ρ (m + 1)).control = .ok <$> C.action action e) ∧
      (∀ m, (ρ.collect (State.told c .added place) (n + 2) m ++
          (ρ (n + 2 + m)).due c .added place).Perm
        ((ρ.collect (State.gained C i) (n + 2) m).filterMap (narrowAll () filters))) ∧
      (∀ m, (ρ m).Silent c → (ρ m).due c .added place = []) ∧
      ∀ m e, n + 2 ≤ m → e ∈ (ρ m).told c .added place →
        (ρ (m + 1)).control = .ok <$> C.action action e := by
  intro members place filters
  obtain ⟨l, hl⟩ := store
  have start := Run.all_succ_succ hc
  have listens (m : ℕ) (hm : n + 2 ≤ m) :
      (((ρ m).world.channel c).listeners .added)[place]? = some ⟨filters, action⟩ :=
    ρ.listens_of_all hc family channel hm
  have follows {m : ℕ} : (ρ m).Follows c := Run.follows silent.follows (Nat.zero_le m)
  have due : (ρ (n + 2)).due c .added place = [] := by
    rw [start]
    exact State.Follows.due_eq_nil (follows (m := n)) .added le_rfl
  have hl' : (ρ (n + 2)).world.stores[i]? = some ⟨l, .distinct same⟩ := by
    rw [start]
    exact hl
  refine ⟨start, fun j m hj hm => ?_, fun m => ?_, fun m hm => ?_, fun m e hm he => ?_⟩
  · obtain ⟨hs, hcontrol⟩ := hm.visit calm (by rw [start]) hj
    refine ⟨?_, hcontrol, fun e he => ?_⟩
    · rw [hs, start]
    · obtain ⟨hlt, rfl⟩ := List.getElem?_eq_some_iff.1 he
      rw [List.drop_eq_getElem_cons hlt] at hcontrol
      exact Run.control_of_visit hcontrol
  · exact (ρ.told_perm within calm hl' listens due m).2
  · exact hm.due_eq_nil .added place
  · exact (ρ.next m).control_of_told follows he (listens m hm)

/-! A registry of numbers and a view that does not show the number three. A listener of the registry
visits all members of the view when it is told of the number one, and the visit adds two more. -/

def counted : Parts Unit ℕ where
  namer _ e := if e = 1 then "one" else if e = 2 then "two" else "other"
  typeName := "u32"
  store := .root 0
  channel := .root 0

/-- The listener under `true` visits all, and a visit under `false` notes a number and adds. -/
def visitor : Client Unit (List ℕ) ℕ Bool where
  rule _ _ _ := .done (.ok ())
  action starts e :=
    if starts then if e = 1 then .all 1 false else .done ()
    else .act (fun m s => (m, s ++ [e])) fun _ _ =>
      if e = 1 then .call (.add 0 3) fun _ => .call (.add 0 2) fun _ => .done () else .done ()

/-- The registry and its view, and the program that adds the number one. -/
def visitorStart : State Unit (List ℕ) ℕ Bool where
  world :=
    { memory := ()
      client := []
      stores := [⟨[], .distinct fun _ => (· == ·)⟩]
      channels := [{}]
      registries := [{ counted with hooks := .default },
        { counted.filtered (.matching fun _ e => e ≠ 3) "u32" with hooks := .default }] }
  stack := []
  control := .call (.subscribe 0 .added true) fun _ => .call (.add 0 1) fun _ => .done (.ok ())

/-- A program that does not panic, and adds to the registry only. -/
def Prog.tame : Prog Unit (List ℕ) ℕ Bool Verdict → Bool
  | .call (.add r _) _ => r == 0
  | .call (.look _) _ | .call (.subscribe _ _ _) _ | .call (.invoke _ _) _ => true
  | .done _ | .act _ _ => true
  | _ => false

theorem tame_visitor (n : ℕ) : (Run.of visitor visitorStart n).control.tame = true := by
  match n with
  | 0 | 1 | 2 | 3 | 4 | 5 | 6 | 7 | 8 | 9 | 10 | 11 | 12 | 13 | 14 | 15 | 16 | 17 | 18 => rfl
  | _ + 19 => rfl

theorem within_visitor (n : ℕ) : (Run.of visitor visitorStart n).Within 0 0 := by
  intro call k hc
  have tame := tame_visitor n
  rw [hc] at tame
  cases call with
  | add r e =>
    obtain rfl : r = 0 := eq_of_beq tame
    refine .inl ?_
    rw [(((Run.of visitor visitorStart).grows (Nat.zero_le n)).parts 0 (by decide)).2]
    exact .root _ _
  | look | subscribe | invoke => trivial
  | _ => cases tame

theorem calm_visitor (n : ℕ) (message : String) :
    (Run.of visitor visitorStart n).control ≠ .panic message := by
  intro hc
  have tame := tame_visitor n
  rw [hc] at tame
  cases tame

theorem all_visits_visitor :
    ∃ ρ : Run visitor, (ρ 3).control = (Prog.all 1 false).bind (fun _ => .done (.ok ())) ∧
      ((ρ 3).world.listing 1).members = [1] ∧
      ρ.collect (State.gained visitor 0) 5 13 = [3, 2] ∧
      (ρ.collect (State.told 0 .added 1) 5 13).Perm [2] ∧
      (ρ 18).world.client = [1, 2] := by
  let ρ := Run.of visitor visitorStart
  have place : (((ρ 3).world.channel 0).listeners .added).length = 1 := by decide
  have filters : ((ρ 3).world.registry 1).store.filters = [.matching fun _ e => e ≠ 3] := rfl
  have gained : ρ.collect (State.gained visitor 0) 5 13 = [3, 2] := by decide
  have ended : (ρ 18).Silent 0 :=
    State.silent_of_stack_eq_nil (List.eq_nil_of_length_eq_zero (by decide))
  have h := all_visits ρ 0 0 (fun _ => (· == ·)) within_visitor calm_visitor
    (State.silent_of_stack_eq_nil rfl) 3 1 false (fun _ => .done (.ok ())) rfl
    (.view _ _ (.root _ _)) ⟨[1], rfl⟩ (by decide)
  simp only [place, filters] at h
  have told := h.2.2.1 13
  rw [h.2.2.2.1 18 ended, List.append_nil, gained] at told
  exact ⟨ρ, rfl, by decide, gained, told, by decide⟩

end NameRegistry
