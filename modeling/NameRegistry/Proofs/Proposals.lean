import NameRegistry.Proofs.Bulk

/-!
# Rules that propose

A rule may add an entity when it is applied to a name, and what is found under the name is then what
the rules have added. Here each rule makes up its mind by the name alone.

* `Prog.propose` : a rule that does nothing, or adds one entity of any name.
* `Run.adds_pass` : a pass adds what the rules propose.

The pass goes on from one rule to the next as a bulk addition goes on from one entity to the next:
a rule that proposes what is refused is passed over, and the rules after it see what was added
before. So a pass keeps what a bulk addition of the proposals keeps. Of the proposals with the name
that is looked up the first one is kept and no other, since members that are equal have one name
(`filter_kept`).

Main result: `find_first_proposal`.

Entities are plain values here: an entity that is settled is the same entity.
-/

namespace NameRegistry

variable {σ α β : Type}

/-! ## Proposals with a name -/

section

variable {namer : α → String} {same : α → α → Bool} {l xs : List α} {y z : α} {name : String}

theorem namer_ne_of_mem_kept (hy : y ∈ l) (hz : z ∈ kept namer same l xs) :
    namer y ≠ namer z := by
  induction xs generalizing l with
  | nil => exact absurd hz List.not_mem_nil
  | cons x xs ih =>
    rw [kept] at hz
    split_ifs at hz with hany
    · exact ih hy hz
    · rcases List.mem_cons.1 hz with rfl | hz
      · intro heq
        exact hany (List.any_eq_true.2 ⟨y, hy, by simp [heq]⟩)
      · exact ih (List.mem_append_left _ hy) hz

theorem filter_namer_eq_nil (absent : ∀ x ∈ l, namer x ≠ name) :
    l.filter (namer · == name) = [] :=
  List.filter_eq_nil_iff.2 fun x hx heq => absent x hx (beq_iff_eq.1 heq)

/-- **The first one wins.** If no member has a name, what is kept with the name is the first entity
with it. -/
theorem filter_kept (named : ∀ x y, same x y → namer x = namer y)
    (absent : ∀ x ∈ l, namer x ≠ name) :
    (kept namer same l xs).filter (namer · == name) = (xs.find? (namer · == name)).toList := by
  induction xs generalizing l with
  | nil => rfl
  | cons x xs ih =>
    rw [← List.singleton_append, kept_append, List.filter_append]
    by_cases hx : namer x = name
    · -- No name and no equal entity stands in the way, and from then on the name is taken.
      have new : kept namer same l [x] = [x] := by
        apply kept_of_new
        · exact fun y hy heq => absent y hy (heq.trans hx)
        · exact fun y hy hs => absent y hy ((named y x hs).trans hx)
      have later : ∀ z ∈ kept namer same (l ++ [x]) xs, namer z ≠ name := by
        intro z hz heq
        have hxz := namer_ne_of_mem_kept (List.mem_append_right l (List.mem_singleton_self x)) hz
        exact hxz (hx.trans heq.symm)
      rw [new, filter_namer_eq_nil later, List.append_nil, List.singleton_append,
        List.filter_cons_of_pos (by simpa using hx), List.filter_nil,
        List.find?_cons_of_pos (by simpa using hx), Option.toList_some]
    · have others : ∀ y ∈ l ++ kept namer same l [x], namer y ≠ name := by
        intro y hy
        rcases List.mem_append.1 hy with hy | hy
        · exact absent y hy
        · rwa [List.mem_singleton.1 (kept_sublist.mem hy)]
      have none := filter_namer_eq_nil fun y hy => others y (List.mem_append_right l hy)
      rw [none, List.nil_append, ih others, List.singleton_append,
        List.find?_cons_of_neg (by simpa using hx)]

end

/-- What rules propose, in the order in which they are applied. -/
def proposals (choose : β → Option α) (rules : List (Rule β)) : List α :=
  rules.filterMap fun rule => choose rule.action

theorem proposals_cons (choose : β → Option α) (rule : Rule β) (rules : List (Rule β)) :
    proposals choose (rule :: rules) = (choose rule.action).toList ++ proposals choose rules := by
  rw [proposals, List.filterMap_cons]
  cases choose rule.action <;> rfl

/-! ## The program -/

namespace Prog

/-- What a rule does that does nothing, or adds one entity and passes on an error. -/
def propose (r : ℕ) : Option α → Prog Unit σ α β Verdict
  | none => .done (.ok ())
  | some e => do
    match ← add r e with
    | .error error => return .error (.registry error)
    | .ok _ => return .ok ()

end Prog

/-! ## Worlds with a name in flight -/

namespace World

variable {C : Client Unit σ α β} {namer : α → String} {same : α → α → Bool} {config : Config}
  {r i ch : ℕ} {l : List α} {w : World Unit σ α β}

theorem registry_mark (w : World Unit σ α β) (r : ℕ) (name : String) (r' : ℕ) :
    ∃ names, (w.mark r name).registry r' = { w.registry r' with inFlight := names } := by
  rw [mark, registry_modifyRegistry]
  split_ifs
  · exact ⟨_, rfl⟩
  · exact ⟨_, rfl⟩

theorem Stands.mark (h : w.Stands namer same config r i ch l) (name : String) :
    (w.mark r name).Stands namer same config r i ch l := by
  obtain ⟨names, hr⟩ := registry_mark w r name r
  refine ⟨?_, ?_, ?_, ?_, h.members⟩
  · funext e
    rw [World.nameOf, hr]
    exact congrFun h.nameOf e
  · rw [hr]
    exact h.store
  · rw [hr]
    exact h.channel
  · rw [hr]
    exact h.hooks

theorem Observed.mark (h : w.Observed C ch) (r : ℕ) (name : String) :
    (w.mark r name).Observed C ch := by
  intro change la hla e
  refine (h change la hla e).mono fun c hc => hc.mono fun r' plain => ?_
  obtain ⟨names, hr⟩ := registry_mark w r name r'
  rw [Plain, hr]
  exact plain

theorem Stands.direct_eq (h : w.Stands namer same config r i ch l) (name : String) :
    w.direct r name = l.find? (namer · == name) := by
  rw [World.direct_eq, h.store, h.nameOf, shown_of_getElem? h.members]

end World

/-! ## A pass -/

namespace Run

variable {C : Client Unit σ α β} {ρ : Run C} {namer : α → String} {same : α → α → Bool}
  {config : Config} {n r i ch : ℕ} {l : List α} {name : String} {choose : β → Option α}

theorem adds_proposal {p : Option α} (stands : (ρ n).world.Stands namer same config r i ch l)
    (observed : (ρ n).world.Observed C ch) (ignore : config.duplicatePolicy = .ignore)
    (hp : (ρ n).control = .propose r p) :
    ρ.Adds n i ch l (kept namer same l p.toList) (.done (.ok ())) := by
  cases p with
  | none =>
    refine ⟨n, (ρ n).world.client, .refl, ?_, .refl ch n .added⟩
    rw [Option.toList_none, kept, List.append_nil, stands.setMembers_self]
    show _ = State.mk (ρ n).world (ρ n).stack (.propose r none)
    rw [← hp]
  | some e => exact adds_one stands observed hp (.inl ignore)

variable {w : World Unit σ α β} {base : List (Frame Unit σ α β)}
  {k : Except RegistryError (Option α) → Prog Unit σ α β Verdict}

/-- A rule of a pass has its turn. -/
theorem adds_turn {p : Option α} {d : String} {rest : List (Rule β)}
    (stands : w.Stands namer same config r i ch l) (observed : w.Observed C ch)
    (ignore : config.duplicatePolicy = .ignore)
    (hn : ρ n = ⟨w.mark r name, .pass r name d rest k :: base, .propose r p⟩) :
    let ys := kept namer same l p.toList
    ∃ m client, n ≤ m ∧ (∀ j, n ≤ j → j ≤ m → base.length < (ρ j).stack.length) ∧
      ρ m = ⟨World.mark { w.setMembers i (l ++ ys) with client } r name,
        .pass r name d rest k :: base, .done (.ok ())⟩ ∧
      ρ.Tells ch n (m + 1) .added ys := by
  intro ys
  obtain ⟨m, client, regains, hm, tells⟩ := adds_proposal (ρ := ρ) (n := n) (C := C)
    (by rw [hn]; exact stands.mark name) (by rw [hn]; exact observed.mark r name) ignore
    (congrArg State.control hn)
  rw [hn] at hm
  refine ⟨m, client, regains.le, fun j hj hj' => ?_, hm, ?_⟩
  · have higher := regains.le_height hj hj'
    rw [hn] at higher
    exact higher
  · -- No one is told at the moment at which the rule has ended.
    have silent : ρ.Tells ch m (m + 1) .added [] := by
      refine .of_told_eq_nil (fun change place => ?_) .added
      rw [hm]
      rfl
    rw [← List.append_nil ys]
    refine tells.append silent regains.le (Nat.le_succ m) ?_
    rw [hm, hn]
    rfl

/-- A pass over rules that propose, from the moment at which one of them begins. -/
theorem adds_pass {p : Option α} {d : String} {rest : List (Rule β)}
    (stands : w.Stands namer same config r i ch l) (observed : w.Observed C ch)
    (ignore : config.duplicatePolicy = .ignore)
    (proposes : ∀ rule ∈ rest, C.rule rule.action r name = .propose r (choose rule.action))
    (hn : ρ n = ⟨w.mark r name, .pass r name d rest k :: base, .propose r p⟩) :
    let ys := kept namer same l (p.toList ++ proposals choose rest)
    ∃ m client, n < m ∧ (∀ j, n ≤ j → j < m → base.length < (ρ j).stack.length) ∧
      ρ m = ⟨{ w.setMembers i (l ++ ys) with client }, base,
        k (.ok ((l ++ ys).find? (namer · == name)))⟩ ∧
      ρ.Tells ch n m .added ys := by
  induction rest generalizing n w d p l with
  | nil =>
    obtain ⟨m, client, le, higher, hm, tells⟩ := adds_turn stands observed ignore hn
    rw [proposals, List.filterMap_nil, List.append_nil]
    intro ys
    refine ⟨m + 1, client, by omega, fun j hj hj' => higher j hj (by omega), ?_, tells⟩
    have close := (ρ.next m).eq_of_step (hm ▸ State.Step.close)
    rw [World.release_mark, (stands.after rfl).direct_eq] at close
    exact close
  | cons rule rest ih =>
    obtain ⟨m, client, le, higher, hm, tells⟩ := adds_turn stands observed ignore hn
    have next := (ρ.next m).eq_of_step (hm ▸ State.Step.next)
    rw [proposes rule List.mem_cons_self] at next
    obtain ⟨j, client', lt, higher', hj, tells'⟩ := ih (stands.after rfl) observed
      (fun rule' hr => proposes rule' (List.mem_cons_of_mem rule hr)) next
    rw [proposals_cons, kept_append]
    intro ys
    refine ⟨j, client', by omega, fun t ht ht' => ?_, ?_, ?_⟩
    · rcases Nat.lt_or_ge m t with hlt | hge
      · exact higher' t hlt ht'
      · exact higher t ht hge
    · rw [hj, List.append_assoc]
      show State.mk { (w.setMembers i _).setMembers i _ with client := client' } _ _ = _
      rw [World.setMembers_setMembers]
    · refine tells.append tells' (by omega) lt.le ?_
      rw [next, hn]
      rfl

/-- A lookup that misses has the rules add what they propose. -/
theorem adds_find (stands : (ρ n).world.Stands namer same config r i ch l)
    (observed : (ρ n).world.Observed C ch) (ignore : config.duplicatePolicy = .ignore)
    (proposes : ∀ rule ∈ ((ρ n).world.registry r).rules,
      C.rule rule.action r name = .propose r (choose rule.action))
    (absent : ∀ x ∈ l, namer x ≠ name) (free : name ∉ ((ρ n).world.registry r).inFlight)
    (call : (ρ n).control = .call (.find r name) k) :
    let ys := kept namer same l (proposals choose ((ρ n).world.registry r).rules)
    ρ.Adds n i ch l ys (k (.ok ((l ++ ys).find? (namer · == name)))) := by
  have missing : (ρ n).world.direct r name = none := by
    rw [stands.direct_eq, List.find?_eq_none]
    exact fun x hx heq => absent x hx (beq_iff_eq.1 heq)
  have hresp : (ρ n).world.respond C (.find r name) = ((ρ n).world, .resolve r name id) := by
    simp only [World.respond, missing, if_neg free]
  have next := succ_of_call call
  simp only [State.perform, hresp] at next
  have goes : (ρ n).control.Goes := by
    rw [call]
    trivial
  cases hrules : ((ρ n).world.registry r).rules with
  | nil =>
    rw [hrules] at next
    have here : ρ (n + 1) = ⟨(ρ n).world, (ρ n).stack, k (.ok (l.find? (namer · == name)))⟩ := by
      rw [next, State.advance, World.release_mark, stands.direct_eq]
      rfl
    intro ys
    refine ⟨n + 1, (ρ n).world.client, .tail .refl goes ⟨Nat.lt_succ_self n, ?_, ?_⟩, ?_,
      .of_call call ch .added⟩
    · rw [here]
    · exact fun j hj hj' => by omega
    · rw [here, show ys = [] from rfl, List.append_nil, stands.setMembers_self]
  | cons rule rest =>
    rw [hrules] at next proposes
    rw [State.advance, proposes rule List.mem_cons_self] at next
    obtain ⟨m, client, lt, higher, hm, tells⟩ := adds_pass stands observed ignore
      (fun rule' hr => proposes rule' (List.mem_cons_of_mem rule hr)) next
    rw [proposals_cons]
    intro ys
    refine ⟨m, client, .tail .refl goes ⟨by omega, ?_, fun j hj hj' => higher j hj hj'⟩, hm, ?_⟩
    · rw [hm]
    · refine Tells.append (.of_call call ch .added) tells (Nat.le_succ n) lt.le ?_
      rw [next]
      rfl

end Run

/-- **The first rule to add wins.** Let a name be looked up in a registry that is no view, over a
store with the members `l`, none of which has the name, and let the rules of the registry not be
applied to the name already. The hooks are those of a configuration that ignores duplicates, as
the default hooks are. The store compares entities by any relation, and the listeners of the channel
only observe. Each of the rules, applied to the name, does nothing or adds an entity of its choice,
of whatever name.

Then the lookup succeeds. It leaves the members that a bulk addition of what the rules propose, in
their order, would have left, and has told the listeners of what that would have told them of. The
answer is the first of these members with the name.

If entities that are equal have one name, the answer is the first proposal with the name, and it is
the only member with the name: no later proposal takes its place or comes in beside it. -/
theorem find_first_proposal {C : Client Unit σ α β} (ρ : Run C) (n r i ch : ℕ)
    (namer : α → String) (same : α → α → Bool) (config : Config) (l : List α) (name : String)
    (choose : β → Option α) (k : Except RegistryError (Option α) → Prog Unit σ α β Verdict)
    (stands : (ρ n).world.Stands namer same config r i ch l)
    (ignore : config.duplicatePolicy = .ignore) (observed : (ρ n).world.Observed C ch)
    (proposes : ∀ rule ∈ ((ρ n).world.registry r).rules,
      C.rule rule.action r name = .propose r (choose rule.action))
    (absent : ∀ x ∈ l, namer x ≠ name) (free : name ∉ ((ρ n).world.registry r).inFlight)
    (call : (ρ n).control = .call (.find r name) k) :
    let proposed := proposals choose ((ρ n).world.registry r).rules
    let ys := kept namer same l proposed
    ρ.Adds n i ch l ys (k (.ok ((l ++ ys).find? (namer · == name)))) ∧
      (∀ (ρ' : Run C) (n' : ℕ) (k' : Except RegistryError Bool → Prog Unit σ α β Verdict),
        (ρ' n').world = (ρ n).world → (ρ' n').control = (Prog.addAll r proposed).bind k' →
          ρ'.Adds n' i ch l ys (k' (.ok !ys.isEmpty))) ∧
      ((∀ x y, same x y → namer x = namer y) →
        (l ++ ys).find? (namer · == name) = proposed.find? (namer · == name) ∧
        (l ++ ys).filter (namer · == name) = (proposed.find? (namer · == name)).toList) := by
  intro proposed ys
  refine ⟨Run.adds_find stands observed ignore proposes absent free call, ?_, fun named => ?_⟩
  · intro ρ' n' k' hw call'
    rw [← hw] at stands observed
    exact Run.adds_all stands observed call' (.inl ignore)
  · have only : (l ++ ys).filter (namer · == name) =
        (proposed.find? (namer · == name)).toList := by
      rw [List.filter_append, filter_namer_eq_nil absent, List.nil_append,
        filter_kept named absent]
    refine ⟨?_, only⟩
    rw [← List.head?_filter, only, Option.head?_toList]

/-! Of five rules one proposes nothing and one a fig. Two propose a fruit of the name that is looked
up, and between them one proposes an apple, which is there already. -/

/-- A rule proposes what it is for, and the listener notes what it is told. -/
def orchardClient :
    Client Unit (List (String × ℕ)) (String × ℕ) (String → Option (String × ℕ)) where
  rule fruit r name := .propose r (fruit name)
  action _ e := .modify (e :: ·)

/-- The program that looks a name up ends with the error, if there is one, and notes what it
found. -/
def afterOrchard : Except RegistryError (Option (String × ℕ)) →
    Prog Unit (List (String × ℕ)) (String × ℕ) (String → Option (String × ℕ)) Verdict
  | .ok found => .ok <$> .modify (found.toList ++ ·)
  | .error error => .done (.error (.registry error))

def orchardStart :
    State Unit (List (String × ℕ)) (String × ℕ) (String → Option (String × ℕ)) where
  world :=
    { memory := ()
      client := []
      stores := [⟨[("apple", 1)], .distinct fun _ => (· == ·)⟩]
      channels := [{ added := [⟨[], fun _ => none⟩] }]
      registries := [{
        namer := fun _ e => e.1
        typeName := "Fruit"
        store := .root 0
        channel := .root 0
        hooks := .ofConfig {}
        rules := [⟨"nothing", fun _ => none⟩, ⟨"a fig", fun _ => some ("fig", 4)⟩,
          ⟨"two", fun name => some (name, 2)⟩, ⟨"an apple", fun _ => some ("apple", 7)⟩,
          ⟨"three", fun name => some (name, 3)⟩] }] }
  stack := []
  control := .call (.find 0 "plum") afterOrchard

theorem find_first_proposal_plum :
    ∃ (ρ : Run orchardClient) (m : ℕ), ρ 0 = orchardStart ∧ ρ.Regains 0 m ∧
      ((ρ m).world.store 0).members = [("apple", 1), ("fig", 4), ("plum", 2)] ∧
      (ρ m).control = afterOrchard (.ok (some ("plum", 2))) ∧
      ρ.collect (State.told 0 .added 0) 0 m = [("fig", 4), ("plum", 2)] := by
  have found := find_first_proposal (.of orchardClient orchardStart) 0 0 0 0 Prod.fst (· == ·) {}
    [("apple", 1)] "plum" (· "plum") afterOrchard ⟨rfl, rfl, rfl, rfl, rfl⟩ rfl
    (fun _ _ _ _ => .act fun _ _ => .done ()) (fun _ _ => rfl) (by decide) (by decide) rfl
  obtain ⟨m, client, regains, hm, tells⟩ := found.1
  refine ⟨_, m, rfl, regains, ?_, congrArg State.control hm, ?_⟩
  · rw [hm]
    rfl
  · exact (tells .added 0 ⟨[], fun _ => none⟩ rfl).trans List.filterMap_some

end NameRegistry
