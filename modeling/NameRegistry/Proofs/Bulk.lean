import NameRegistry.Proofs.Observers

/-!
# Bulk additions

A list of entities that is added to a registry at once is added one entity after the other, and each
addition changes what the later ones see.

* `kept` : the entities of a list that are added to some members.
* `FreeTurns` : the name of every entity of a list is free when it is its turn.
* `World.Stands` : a registry that is no view, over a store with some members.
* `Run.Adds` : a program has entities added, and goes on.

What is kept of two lists is what is kept of the first, and what is then kept of the second
(`kept_append`). So after a part of the list the program goes on with the rest as it would begin
with it (`Run.adds_before`).

Main result: `addAll_keeps`.

Entities are plain values here: an entity that is settled is the same entity.
-/

namespace NameRegistry

variable {σ α β : Type}

/-! ## What is kept -/

section

variable (namer : α → String) (same : α → α → Bool)

/-- No entity of a list has the name of an entity. -/
def NameFree (l : List α) (x : α) : Prop := ∀ y ∈ l, namer y ≠ namer x

instance (l : List α) (x : α) : Decidable (NameFree namer l x) :=
  inferInstanceAs (Decidable (∀ y ∈ l, namer y ≠ namer x))

/-- What is kept of a list of entities that are added to some members one after the other: an entity
is added if none that is there has its name or equals it. -/
def kept : List α → List α → List α
  | _, [] => []
  | l, x :: xs =>
    if l.any fun y => namer y == namer x || same y x then kept l xs else x :: kept (l ++ [x]) xs

/-- When an entity of a list is to be added, no entity that is there has its name. -/
def FreeTurns (l xs : List α) : Prop :=
  ∀ before x after, xs = before ++ x :: after → NameFree namer (l ++ kept namer same l before) x

variable {namer same} {l xs ys : List α} {x : α}

theorem kept_append : kept namer same l (xs ++ ys) =
    kept namer same l xs ++ kept namer same (l ++ kept namer same l xs) ys := by
  induction xs generalizing l with
  | nil => rw [List.nil_append, kept, List.append_nil, List.nil_append]
  | cons x xs ih =>
    rw [List.cons_append, kept, kept]
    split_ifs
    · exact ih
    · rw [ih, List.append_assoc, List.singleton_append, List.cons_append]

theorem kept_sublist : (kept namer same l xs).Sublist xs := by
  induction xs generalizing l with
  | nil => exact .slnil
  | cons x xs ih =>
    rw [kept]
    split_ifs
    · exact ih.cons x
    · exact ih.cons_cons x

theorem kept_of_taken (h : ¬ NameFree namer l x) : kept namer same l [x] = [] := by
  unfold NameFree at h
  push Not at h
  obtain ⟨y, hy, hname⟩ := h
  rw [kept, if_pos (List.any_eq_true.2 ⟨y, hy, by simp [hname]⟩), kept]

theorem kept_of_equal (h : ∃ y ∈ l, same y x) : kept namer same l [x] = [] := by
  obtain ⟨y, hy, hs⟩ := h
  rw [kept, if_pos (List.any_eq_true.2 ⟨y, hy, by simp [hs]⟩), kept]

theorem kept_of_new (free : NameFree namer l x) (new : ∀ y ∈ l, ¬ same y x) :
    kept namer same l [x] = [x] := by
  have hany : ¬ l.any fun y => namer y == namer x || same y x := by
    rw [List.any_eq_true]
    rintro ⟨y, hy, h⟩
    rw [Bool.or_eq_true, beq_iff_eq] at h
    exact h.elim (free y hy) (new y hy)
  rw [kept, if_neg hany, kept]

/-- An entity is kept after others if none that was there, and none of those that were kept, has its
name or equals it. -/
theorem kept_concat : kept namer same l (xs ++ [x]) =
    if ∀ y ∈ l ++ kept namer same l xs, namer y ≠ namer x ∧ ¬ same y x then
      kept namer same l xs ++ [x]
    else kept namer same l xs := by
  rw [kept_append]
  split_ifs with h
  · rw [kept_of_new (fun y hy => (h y hy).1) fun y hy => (h y hy).2]
  · by_cases free : NameFree namer (l ++ kept namer same l xs) x
    · push Not at h
      obtain ⟨y, hy, equal⟩ := h
      rw [kept_of_equal ⟨y, hy, equal (free y hy)⟩, List.append_nil]
    · rw [kept_of_taken free, List.append_nil]

theorem freeTurns_nil : FreeTurns namer same l [] := by
  intro before x after h
  simp at h

theorem FreeTurns.of_append (h : FreeTurns namer same l (xs ++ ys)) :
    FreeTurns namer same l xs := by
  rintro before x after rfl
  exact h before x (after ++ ys) (by rw [List.append_assoc, List.cons_append])

theorem FreeTurns.concat (h : FreeTurns namer same l xs)
    (hx : NameFree namer (l ++ kept namer same l xs) x) : FreeTurns namer same l (xs ++ [x]) := by
  intro before y after heq
  rcases List.eq_nil_or_concat after with rfl | ⟨after, z, rfl⟩
  · obtain ⟨rfl, hy⟩ := List.append_inj' heq rfl
    obtain rfl := List.singleton_injective hy
    exact hx
  · rw [List.concat_eq_append, ← List.cons_append, ← List.append_assoc] at heq
    exact h before y after (List.append_inj' heq rfl).1

/-- Either all names are free when it is their turn, or there is a first one that is not. -/
theorem freeTurns_or_exists (namer : α → String) (same : α → α → Bool) (l xs : List α) :
    FreeTurns namer same l xs ∨ ∃ before x after, xs = before ++ x :: after ∧
      FreeTurns namer same l before ∧ ¬ NameFree namer (l ++ kept namer same l before) x := by
  induction xs using List.reverseRecOn with
  | nil => exact .inl freeTurns_nil
  | append_singleton xs x ih =>
    rcases ih with turns | ⟨before, y, after, rfl, turns, taken⟩
    · by_cases free : NameFree namer (l ++ kept namer same l xs) x
      · exact .inl (turns.concat free)
      · exact .inr ⟨xs, x, [], rfl, turns, free⟩
    · refine .inr ⟨before, y, after ++ [x], ?_, turns, taken⟩
      rw [List.append_assoc, List.cons_append]

end

/-! ## The program -/

namespace Prog

/-- What is done with the answer to an addition by one who adds the rest of a list. -/
def afterAdd (r : ℕ) (xs : List α) (k : Except RegistryError Bool → Prog Unit σ α β Verdict) :
    Except RegistryError Bool → Prog Unit σ α β Verdict
  | .error error => k (.error error)
  | .ok added => (addAll r xs).bind fun more => k (more.map (added || ·))

theorem addAll_cons_bind (r : ℕ) (x : α) (xs : List α)
    (k : Except RegistryError Bool → Prog Unit σ α β Verdict) :
    (addAll r (x :: xs)).bind k = .call (.add r x) (afterAdd r xs k) := by
  show Prog.call (.add r x) _ = _
  apply congrArg (Prog.call (.add r x))
  funext a
  rcases a with error | added
  · rfl
  · show ((addAll r xs).bind _).bind k = (addAll r xs).bind _
    rw [bind_assoc]
    apply congrArg (addAll r xs).bind
    funext more
    cases more <;> rfl

theorem afterAdd_ok (r : ℕ) (xs : List α) (k : Except RegistryError Bool → Prog Unit σ α β Verdict)
    (before added : Bool) :
    afterAdd r xs (fun more => k (more.map (before || ·))) (.ok added) =
      (addAll r xs).bind fun more => k (more.map (before || added || ·)) := by
  apply congrArg (addAll r xs).bind
  funext more
  cases more with
  | error error => rfl
  | ok more =>
    show k (.ok (before || (added || more))) = k (.ok (before || added || more))
    rw [Bool.or_assoc]

end Prog

/-! ## One addition -/

namespace World

/-- A registry that is no view stands on a store with some members and on a channel, and has the
hooks of a configuration. -/
structure Stands (namer : α → String) (same : α → α → Bool) (config : Config) (r i ch : ℕ)
    (l : List α) (w : World Unit σ α β) : Prop where
  nameOf : w.nameOf r = namer
  store : (w.registry r).store = .root i
  channel : (w.registry r).channel = .root ch
  hooks : (w.registry r).hooks = .ofConfig config
  members : w.stores[i]? = some ⟨l, .distinct fun _ => same⟩

namespace Stands

variable {C : Client Unit σ α β} {namer : α → String} {same : α → α → Bool} {config : Config}
  {r i ch : ℕ} {l : List α} {x : α} {w : World Unit σ α β}
  (h : w.Stands namer same config r i ch l)

include h

theorem after {w' : World Unit σ α β} {l' : List α} {client : σ}
    (hw : w' = { w.setMembers i l' with client }) :
    w'.Stands namer same config r i ch l' := by
  rw [hw]
  refine ⟨h.nameOf, h.store, h.channel, h.hooks, ?_⟩
  show (w.setMembers i l').stores[i]? = _
  rw [setMembers_getElem? h.members, if_pos rfl]

theorem setMembers_self : w.setMembers i l = w := World.setMembers_self h.members

theorem direct_eq_none_iff : w.direct r (w.nameOf r x) = none ↔ NameFree namer l x := by
  have shown : w.shown (w.registry r).store = l := by
    rw [h.store, shown_of_getElem? h.members]
  rw [World.direct_eq_none_iff, shown, h.nameOf]
  rfl

/-- An entity whose name is taken is refused, with an error if that is the policy. -/
theorem respond_add_of_taken (taken : ¬ NameFree namer l x) :
    w.respond C (.add r x) = (w, .answer (match config.duplicatePolicy with
      | .ignore => .ok false
      | .fail => .error (.duplicate (w.registry r).typeDisplayName (namer x)))) := by
  simp only [World.respond_add_of_taken (mt h.direct_eq_none_iff.1 taken), h.hooks, Hooks.ofConfig,
    h.nameOf]
  cases config.duplicatePolicy <;> rfl

theorem respond_add_of_equal (free : NameFree namer l x) (equal : ∃ y ∈ l, same y x) :
    w.respond C (.add r x) = (w, .answer (.ok false)) := by
  obtain ⟨y, hy, hs⟩ := equal
  have free' : ∀ y ∈ l, w.nameOf r y ≠ w.nameOf r x := by
    rw [h.nameOf]
    exact free
  rw [respond_add_distinct h.members h.store free', if_neg fun new => new y hy hs]

theorem respond_add_of_new (free : NameFree namer l x) (new : ∀ y ∈ l, ¬ same y x) :
    w.respond C (.add r x) = (w.setMembers i (l ++ [x]), .tell (.root ch) .added x (.ok true)) := by
  have free' : ∀ y ∈ l, w.nameOf r y ≠ w.nameOf r x := by
    rw [h.nameOf]
    exact free
  rw [respond_add_distinct h.members h.store free', if_pos new, h.channel]

end Stands

end World

/-! ## Runs -/

namespace Run

variable {C : Client Unit σ α β} {ρ : Run C} {namer : α → String} {same : α → α → Bool}
  {config : Config} {n r i ch : ℕ} {l ys zs : List α} {x : α} {p q : Prog Unit σ α β Verdict}

/-- From a moment on a program has entities added to the members of a store, of which the listeners
of a channel are told, and then goes on. -/
def Adds (ρ : Run C) (n i ch : ℕ) (l ys : List α) (p : Prog Unit σ α β Verdict) : Prop :=
  ∃ m client, ρ.Regains n m ∧
    ρ m = ⟨{ (ρ n).world.setMembers i (l ++ ys) with client }, (ρ n).stack, p⟩ ∧
    ρ.Tells ch n m .added ys

theorem Adds.trans (h : ρ.Adds n i ch l ys p)
    (next : ∀ m client,
      ρ m = ⟨{ (ρ n).world.setMembers i (l ++ ys) with client }, (ρ n).stack, p⟩ →
        ρ.Adds m i ch (l ++ ys) zs q) :
    ρ.Adds n i ch l (ys ++ zs) q := by
  obtain ⟨m, client, regains, hm, tells⟩ := h
  obtain ⟨j, client', regains', hj, tells'⟩ := next m client hm
  refine ⟨j, client', regains.trans regains', ?_, ?_⟩
  · rw [hj, hm]
    show State.mk { ((ρ n).world.setMembers i (l ++ ys)).setMembers i (l ++ ys ++ zs) with
      client := client' } _ _ = _
    rw [World.setMembers_setMembers, List.append_assoc]
  · refine tells.append tells' regains.le regains'.le ?_
    rw [hm]
    rfl

theorem adds_nothing {c : Call Unit σ α β} {k : c.Reply → Prog Unit σ α β Verdict} {a : c.Reply}
    (stands : (ρ n).world.Stands namer same config r i ch l) (call : (ρ n).control = .call c k)
    (hresp : (ρ n).world.respond C c = ((ρ n).world, .answer a)) : ρ.Adds n i ch l [] (k a) := by
  obtain ⟨ends, next⟩ := ends_of_answer call hresp
  refine ⟨n + 1, (ρ n).world.client, .tail .refl (by rw [call]; trivial) ends, ?_,
    .of_call call ch .added⟩
  rw [next, List.append_nil, stands.setMembers_self]

variable (stands : (ρ n).world.Stands namer same config r i ch l)
  (observed : (ρ n).world.Observed C ch)

include stands observed

/-- An entity that is added is kept or not, unless its name is taken and that is an error. -/
theorem adds_one {k : Except RegistryError Bool → Prog Unit σ α β Verdict}
    (call : (ρ n).control = .call (.add r x) k)
    (h : config.duplicatePolicy = .ignore ∨ NameFree namer l x) :
    ρ.Adds n i ch l (kept namer same l [x]) (k (.ok !(kept namer same l [x]).isEmpty)) := by
  by_cases free : NameFree namer l x
  · by_cases equal : ∃ y ∈ l, same y x
    · rw [kept_of_equal equal]
      exact adds_nothing stands call (stands.respond_add_of_equal free equal)
    · push Not at equal
      rw [kept_of_new free equal]
      obtain ⟨m, client, ends, hm, tells⟩ := tells_of_tell call
        (stands.respond_add_of_new free equal) observed
      exact ⟨m, client, .tail .refl (by rw [call]; trivial) ends, hm, tells⟩
  · have hresp := stands.respond_add_of_taken (C := C) free
    rw [h.resolve_right free] at hresp
    rw [kept_of_taken free]
    exact adds_nothing stands call hresp

theorem adds_before {before rest : List α}
    {k : Except RegistryError Bool → Prog Unit σ α β Verdict}
    (call : (ρ n).control = (Prog.addAll r (before ++ rest)).bind k)
    (h : config.duplicatePolicy = .ignore ∨ FreeTurns namer same l before) :
    ρ.Adds n i ch l (kept namer same l before) ((Prog.addAll r rest).bind fun more =>
      k (more.map (!(kept namer same l before).isEmpty || ·))) := by
  induction before using List.reverseRecOn generalizing rest with
  | nil =>
    have hk : (fun more => k (more.map (!([] : List α).isEmpty || ·))) = k := by
      funext more
      cases more <;> rfl
    refine ⟨n, (ρ n).world.client, .refl, ?_, .refl ch n .added⟩
    rw [kept, hk, List.append_nil, stands.setMembers_self]
    show _ = State.mk (ρ n).world (ρ n).stack ((Prog.addAll r rest).bind k)
    rw [← List.nil_append rest, ← call]
  | append_singleton before x ih =>
    rw [List.append_assoc, List.singleton_append] at call
    have any_kept : (!(kept namer same l (before ++ [x])).isEmpty) =
        (!(kept namer same l before).isEmpty ||
          !(kept namer same (l ++ kept namer same l before) [x]).isEmpty) := by
      rw [kept_append]
      cases kept namer same l before <;> rfl
    rw [any_kept, kept_append]
    refine (ih call (h.imp_right .of_append)).trans fun m client hm => ?_
    -- At this moment it is the turn of the last one.
    have stands' := stands.after (congrArg State.world hm)
    have observed' : (ρ m).world.Observed C ch := by
      rw [hm]
      exact observed
    have call' := congrArg State.control hm
    rw [Prog.addAll_cons_bind] at call'
    rw [← Prog.afterAdd_ok]
    exact adds_one stands' observed' call' (h.imp_right fun turns => turns before x [] rfl)

/-- All of a list has had its turn, unless a name is taken and that is an error. -/
theorem adds_all {xs : List α} {k : Except RegistryError Bool → Prog Unit σ α β Verdict}
    (call : (ρ n).control = (Prog.addAll r xs).bind k)
    (h : config.duplicatePolicy = .ignore ∨ FreeTurns namer same l xs) :
    ρ.Adds n i ch l (kept namer same l xs) (k (.ok !(kept namer same l xs).isEmpty)) := by
  rw [← List.append_nil xs] at call
  have adds := adds_before stands observed call h
  change ρ.Adds n i ch l (kept namer same l xs)
    (k (.ok (!(kept namer same l xs).isEmpty || false))) at adds
  rwa [Bool.or_false] at adds

/-- An entity whose name is taken when it is its turn is the last that is looked at, if that is an
error. -/
theorem adds_until {before after : List α}
    {k : Except RegistryError Bool → Prog Unit σ α β Verdict}
    (call : (ρ n).control = (Prog.addAll r (before ++ x :: after)).bind k)
    (policy : config.duplicatePolicy = .fail) (turns : FreeTurns namer same l before)
    (taken : ¬ NameFree namer (l ++ kept namer same l before) x) :
    ρ.Adds n i ch l (kept namer same l before)
      (k (.error (.duplicate ((ρ n).world.registry r).typeDisplayName (namer x)))) := by
  rw [← List.append_nil (kept namer same l before)]
  refine (adds_before stands observed call (.inr turns)).trans fun m client hm => ?_
  have stands' := stands.after (congrArg State.world hm)
  have hresp := stands'.respond_add_of_taken (C := C) taken
  rw [policy] at hresp
  have call' := congrArg State.control hm
  rw [Prog.addAll_cons_bind] at call'
  have nothing := adds_nothing stands' call' hresp
  rw [hm] at nothing
  exact nothing

end Run

/-- **Bulk additions.** Let a list of entities be added at once to a registry that is no view, over
a store with the members `l`, with the hooks of a configuration. The store compares entities by any
relation, and the listeners of the channel only observe.

Of the list a part is kept, in its order: an entity is kept if none of the members, and none that
was kept before it, has its name or equals it.

* If duplicates are ignored, then the addition ends, what is kept comes after the members, the
  listeners have been told of just that, one after the other, and the answer is whether anything was
  kept.
* If duplicates are an error, then either all names are free when it is their turn, and the same
  holds, or there is a first one that is taken. Then the same holds of the entities before that one,
  but the answer is an error with this name. Nothing of what was kept is taken back, and none of the
  later entities is added. -/
theorem addAll_keeps {C : Client Unit σ α β} (ρ : Run C) (n r i ch : ℕ) (namer : α → String)
    (same : α → α → Bool) (config : Config) (l xs : List α)
    (k : Except RegistryError Bool → Prog Unit σ α β Verdict)
    (stands : (ρ n).world.Stands namer same config r i ch l)
    (observed : (ρ n).world.Observed C ch)
    (call : (ρ n).control = (Prog.addAll r xs).bind k) :
    let kept := kept namer same l
    let typeName := ((ρ n).world.registry r).typeDisplayName
    (kept xs).Sublist xs ∧
      (∀ before x, kept (before ++ [x]) =
        if ∀ y ∈ l ++ kept before, namer y ≠ namer x ∧ ¬ same y x then kept before ++ [x]
        else kept before) ∧
      (config.duplicatePolicy = .ignore →
        ρ.Adds n i ch l (kept xs) (k (.ok !(kept xs).isEmpty))) ∧
      (config.duplicatePolicy = .fail →
        (FreeTurns namer same l xs → ρ.Adds n i ch l (kept xs) (k (.ok !(kept xs).isEmpty))) ∧
        ∀ before x after, xs = before ++ x :: after → FreeTurns namer same l before →
          ¬ NameFree namer (l ++ kept before) x →
            ρ.Adds n i ch l (kept before) (k (.error (.duplicate typeName (namer x))))) ∧
      (FreeTurns namer same l xs ∨ ∃ before x after, xs = before ++ x :: after ∧
        FreeTurns namer same l before ∧ ¬ NameFree namer (l ++ kept before) x) := by
  intro kept typeName
  have whole (h : config.duplicatePolicy = .ignore ∨ FreeTurns namer same l xs) :
      ρ.Adds n i ch l (kept xs) (k (.ok !(kept xs).isEmpty)) :=
    Run.adds_all stands observed call h
  refine ⟨kept_sublist, fun _ _ => kept_concat, fun policy => whole (.inl policy), fun policy =>
    ⟨fun turns => whole (.inr turns), ?_⟩, freeTurns_or_exists namer same l xs⟩
  rintro before x after rfl turns taken
  exact Run.adds_until stands observed call policy turns taken

/-! Fruit have names and numbers, and are compared by their numbers. One is equal to the member that
there is, and two have one name. -/

def basketClient : Client Unit (List (String × ℕ)) (String × ℕ) Unit where
  rule _ _ _ := .done (.ok ())
  action _ e := .modify (e :: ·)

/-- A program ends with the error of a bulk addition, if there is one. -/
def afterBasket :
    Except RegistryError Bool → Prog Unit (List (String × ℕ)) (String × ℕ) Unit Verdict
  | .ok _ => .done (.ok ())
  | .error error => .done (.error (.registry error))

def basketConfig (policy : DuplicatePolicy) : Config where
  typeDisplayName := some "fruit"
  duplicatePolicy := policy

def basketStart (policy : DuplicatePolicy) :
    State Unit (List (String × ℕ)) (String × ℕ) Unit where
  world :=
    { memory := ()
      client := []
      stores := [⟨[("apple", 1)], .distinct fun _ a b => a.2 == b.2⟩]
      channels := [{ added := [⟨[], ()⟩] }]
      registries := [{
        namer := fun _ e => e.1
        typeName := "Fruit"
        store := .root 0
        channel := .root 0
        hooks := .ofConfig (basketConfig policy) }] }
  stack := []
  control :=
    (Prog.addAll 0 [("pear", 1), ("plum", 2), ("plum", 3), ("fig", 4)]).bind afterBasket

/-- What a run of the program has come to: some fruit were added, and the program has its answer. -/
def BasketEnds (policy : DuplicatePolicy) (added : List (String × ℕ))
    (answer : Except RegistryError Bool) : Prop :=
  ∃ (ρ : Run basketClient) (m : ℕ), ρ 0 = basketStart policy ∧ ρ.Regains 0 m ∧
    ((ρ m).world.store 0).members = ("apple", 1) :: added ∧ (ρ m).control = afterBasket answer ∧
    ρ.collect (State.told 0 .added 0) 0 m = added

theorem addAll_keeps_basket :
    BasketEnds .ignore [("plum", 2), ("fig", 4)] (.ok true) ∧
      BasketEnds .fail [("plum", 2)] (.error (.duplicate "fruit" "plum")) := by
  have all (policy : DuplicatePolicy) := addAll_keeps (.of basketClient (basketStart policy))
    0 0 0 0 Prod.fst (fun a b => a.2 == b.2) (basketConfig policy) [("apple", 1)] _ afterBasket
    ⟨rfl, rfl, rfl, rfl, rfl⟩ (fun _ _ _ _ => .act fun _ _ => .done ()) rfl
  have ends {policy added answer} (h : (Run.of basketClient (basketStart policy)).Adds 0 0 0
      [("apple", 1)] added (afterBasket answer)) : BasketEnds policy added answer := by
    obtain ⟨m, client, regains, hm, tells⟩ := h
    refine ⟨_, m, rfl, regains, ?_, congrArg State.control hm, ?_⟩
    · rw [hm]
      rfl
    · exact (tells .added 0 ⟨[], ()⟩ rfl).trans List.filterMap_some
  refine ⟨ends ((all .ignore).2.2.1 rfl), ends ?_⟩
  -- The pear is equal to the apple, but its name is free.
  have turns : FreeTurns Prod.fst (fun a b => a.2 == b.2) [("apple", 1)]
      ([] ++ [("pear", 1)] ++ [("plum", 2)]) :=
    (freeTurns_nil.concat (by decide)).concat (by decide)
  exact ((all .fail).2.2.2.1 rfl).2 _ ("plum", 3) [("fig", 4)] rfl turns (by decide)

end NameRegistry
