import NameRegistry.Proofs.InFlight

/-!
# Looking names up

A lookup that finds a member answers at once. One that misses applies the rules that the registry
has at that moment, one after the other, and looks again.

* `State.applied` : the rule that a lookup of a name is about to apply.
* `State.verdicts` : the verdict with which a rule of a pass has just ended.
* `Resolved` : the three ways in which a lookup that applies rules ends.

Rules look names up themselves, and all such applications count here. That the rules applied to the
name are those of one pass and no others, rests on the marker: while the pass is active its name is
in flight, so no other lookup of the name starts a pass (`State.Step.applying`).

Main result: `find_resolved`.
-/

namespace NameRegistry

variable {μ σ α β : Type} [Memory μ α] {C : Client μ σ α β}

/-! ## What a lookup does -/

namespace State

/-- The rule that a lookup of a name in a registry is about to apply. -/
def applied (C : Client μ σ α β) (r : Nat) (name : String) (s : State μ σ α β) : List (Rule β) :=
  match s.control, s.stack with
  | .call c _, _ =>
    match s.world.respond C c with
    | (w, .resolve r' name' _) =>
      if r' = r ∧ name' = name then (w.registry r').rules.head?.toList else []
    | _ => []
  | .done (.ok ()), .pass r' name' _ (rule :: _) _ :: _ =>
    if r' = r ∧ name' = name then [rule] else []
  | _, _ => []

omit [Memory μ α] in
/-- The verdict with which a rule that a lookup applied to a name has just ended. -/
def verdicts (r : Nat) (name : String) (s : State μ σ α β) : List Verdict :=
  match s.control, s.stack with
  | .done v, .pass r' name' _ _ _ :: _ => if r' = r ∧ name' = name then [v] else []
  | _, _ => []

/-- A lookup of a name is applying rules: those of `rules` that come first have been applied and
have ended without an error, the next one runs, and the others are left to the pass. -/
def Applying (r : Nat) (name : String) (k : Except RegistryError (Option α) → Prog μ σ α β Verdict)
    (base : List (Frame μ σ α β)) (rules applied : List (Rule β)) (verdicts : List Verdict)
    (s : State μ σ α β) : Prop :=
  ∃ top before rule rest, s.stack = top ++ .pass r name rule.description rest k :: base ∧
    rules = before ++ rule :: rest ∧ applied = before ++ [rule] ∧
    verdicts = List.replicate before.length (.ok ())

end State

/-- How a lookup that applies rules ends, by the rules that were applied to the name and the
verdicts of those that ended by themselves: all rules were applied and the name is looked up again,
or one was the first to fail, or it broke everything off. -/
inductive Resolved (r : Nat) (name : String)
    (k : Except RegistryError (Option α) → Prog μ σ α β Verdict) (base : List (Frame μ σ α β))
    (rules : List (Rule β)) : List (Rule β) → List Verdict → State μ σ α β → Prop
  | all (w : World μ σ α β) :
      Resolved r name k base rules rules (List.replicate rules.length (.ok ()))
        ⟨w, base, k (.ok (w.direct r name))⟩
  | fails (w : World μ σ α β) {before rest : List (Rule β)} {rule : Rule β} {source : RuleError} :
      rules = before ++ rule :: rest →
      Resolved r name k base rules (before ++ [rule])
        (List.replicate before.length (.ok ()) ++ [.error source])
        ⟨w, base, k (.error (.rule rule.description source))⟩
  | panics (w : World μ σ α β) {before rest : List (Rule β)} {rule : Rule β} {message : String} :
      rules = before ++ rule :: rest →
      Resolved r name k base rules (before ++ [rule]) (List.replicate before.length (.ok ()))
        ⟨w, base, .panic message⟩

omit [Memory μ α] in
theorem Resolved.stack_eq {r : Nat} {name : String}
    {k : Except RegistryError (Option α) → Prog μ σ α β Verdict} {base : List (Frame μ σ α β)}
    {rules applied : List (Rule β)} {verdicts : List Verdict} {s : State μ σ α β}
    (h : Resolved r name k base rules applied verdicts s) : s.stack = base := by
  cases h <;> rfl

namespace State

variable {r : Nat} {name : String} {k : Except RegistryError (Option α) → Prog μ σ α β Verdict}
  {base : List (Frame μ σ α β)} {rules applied : List (Rule β)} {verdicts : List Verdict}
  {s s' : State μ σ α β}

omit [Memory μ α] in
theorem passes_append (r : Nat) (top stack : List (Frame μ σ α β)) :
    passes r (top ++ stack) = passes r top ++ passes r stack := by
  simp [passes]

omit [Memory μ α] in
theorem Applying.length_lt (h : Applying r name k base rules applied verdicts s) :
    base.length < s.stack.length := by
  obtain ⟨top, before, rule, rest, hs, -⟩ := h
  rw [hs, List.length_append, List.length_cons]
  omega

theorem Step.control_of_applied {rule : Rule β} (h : Step C s s')
    (hr : rule ∈ s.applied C r name) : s'.control = C.rule rule.action r name := by
  cases h with
  | act => cases hr
  | answer h | tell h | run h => simp [State.applied, h] at hr
  | miss h hr' => simp [State.applied, h, hr'] at hr
  | start h hr' =>
    simp only [State.applied, h, hr', List.head?_cons, Option.toList_some] at hr
    split_ifs at hr with hrn
    · obtain rfl := List.mem_singleton.1 hr
      rw [hrn.1, hrn.2]
    · cases hr
  | @delivered _ _ _ _ _ v | @skip _ _ _ _ _ _ _ v | @hear _ _ _ _ _ _ _ _ v | @resume _ _ _ v =>
    cases v <;> cases hr
  | next =>
    simp only [State.applied] at hr
    split_ifs at hr with hrn
    · obtain rfl := List.mem_singleton.1 hr
      rw [hrn.1, hrn.2]
    · cases hr
  | close | fail | unwind => cases hr

theorem Next.control_of_applied {rule : Rule β} (h : Next C s s')
    (hr : rule ∈ s.applied C r name) : s'.control = C.rule rule.action r name := by
  cases h with
  | step h => exact (step_eq_some_iff.1 h).control_of_applied hr
  | begin p h =>
    obtain ⟨hs, hv⟩ := step_eq_none_iff.1 h
    rcases hv with ⟨source | ⟨⟩, hv⟩ | ⟨message, hv⟩ <;> simp [State.applied, hs, hv] at hr

/-- While a pass is active, a step above it is none of another pass for the same name. -/
theorem applied_eq_nil (hm : Marked s.world s.stack) {d : String} {rest : List (Rule β)}
    {top : List (Frame μ σ α β)} (hs : s.stack = top ++ .pass r name d rest k :: base)
    (ht : s.control.Goes ∨ top ≠ []) :
    s.applied C r name = [] ∧ s.verdicts r name = [] := by
  obtain ⟨w, stack, p⟩ := s
  obtain rfl := hs
  have hr := hm r
  rw [passes_append, passes_pass, if_pos rfl] at hr
  cases p with
  | act f k => exact ⟨rfl, rfl⟩
  | panic message => exact ⟨rfl, rfl⟩
  | call c k =>
    refine ⟨?_, rfl⟩
    simp only [State.applied]
    split
    · rename_i w' r' name' a h
      obtain ⟨rfl, hn⟩ := not_inFlight_of_resolve h
      rw [if_neg]
      rintro ⟨rfl, rfl⟩
      exact hn (by simp [hr.1])
    · rfl
  | done v =>
    obtain ⟨f, top, rfl⟩ := List.exists_cons_of_ne_nil (ht.resolve_left id)
    cases f with
    | delivery => cases v <;> exact ⟨rfl, rfl⟩
    | resume => cases v <;> exact ⟨rfl, rfl⟩
    | pass r' name' d' rest' k' =>
      have hne : ¬ (r' = r ∧ name' = name) := by
        rintro ⟨rfl, rfl⟩
        simp at hr
      rcases v with x | ⟨⟩
      · exact ⟨rfl, if_neg hne⟩
      · cases rest' with
        | nil => exact ⟨rfl, if_neg hne⟩
        | cons rule rest' => exact ⟨if_neg hne, if_neg hne⟩

theorem Step.find_of_some {e : α} (h : Step C s s') (hc : s.control = .call (.find r name) k)
    (hd : s.world.direct r name = some e) : s' = ⟨s.world, s.stack, k (.ok (some e))⟩ := by
  obtain ⟨w, stack, p⟩ := s
  obtain rfl := hc
  have hstep := h.step_eq
  simp only [step, perform, World.respond, hd, Option.some.injEq] at hstep
  exact hstep.symm

/-- A lookup that misses applies the first rule, or is answered if there is none. -/
theorem Step.find (h : Step C s s') (hc : s.control = .call (.find r name) k)
    (hd : s.world.direct r name = none) (hn : name ∉ (s.world.registry r).inFlight) :
    Applying r name k s.stack (s.world.registry r).rules (s.applied C r name)
        (s.verdicts r name) s' ∨
      s'.world = s.world.release r name ∧
        Resolved r name k s.stack (s.world.registry r).rules (s.applied C r name)
          (s.verdicts r name) s' := by
  obtain ⟨w, stack, p⟩ := s
  obtain rfl := hc
  have hstep := h.step_eq
  have happ : State.applied C r name ⟨w, stack, .call (.find r name) k⟩ =
      (w.registry r).rules.head?.toList := by
    simp_all [State.applied, World.respond]
  simp only [step, perform, World.respond, hd, if_neg hn, Option.some.injEq] at hstep
  rw [happ]
  cases hr : (w.registry r).rules with
  | nil =>
    simp only [hr, advance, World.release_mark] at hstep
    subst hstep
    exact .inr ⟨(World.release_eq_self hn).symm, .all w⟩
  | cons rule rest =>
    simp only [hr, advance] at hstep
    subst hstep
    exact .inl ⟨[], [], rule, rest, rfl, rfl, rfl, rfl⟩

/-- A step while a lookup is applying rules: it goes on, or it ends and only releases its name. -/
theorem Step.applying (h : Step C s s') (hm : Marked s.world s.stack)
    (ha : Applying r name k base rules applied verdicts s) :
    Applying r name k base rules (applied ++ s.applied C r name)
        (verdicts ++ s.verdicts r name) s' ∨
      s'.world = s.world.release r name ∧
        Resolved r name k base rules (applied ++ s.applied C r name)
          (verdicts ++ s.verdicts r name) s' := by
  obtain ⟨top, before, rule, rest, hs, hr, rfl, rfl⟩ := ha
  by_cases ht : s.control.Goes ∨ top ≠ []
  · -- The pass waits for what is above its frame.
    obtain ⟨h₁, h₂⟩ := applied_eq_nil (C := C) hm hs ht
    rw [h₁, h₂, List.append_nil, List.append_nil]
    have hb : .pass r name rule.description rest k :: base <:+ s.stack :=
      hs ▸ List.suffix_append _ _
    obtain ⟨top', hs'⟩ := Next.suffix (.step h.step_eq) hb (by
      refine ht.symm.imp_left fun h => ?_
      have := List.length_pos_of_ne_nil h
      simp only [hs, List.length_append, List.length_cons]
      omega)
    exact .inl ⟨top', before, rule, rest, hs'.symm, hr, rfl, rfl⟩
  · obtain ⟨hg, ht⟩ := not_or.1 ht
    obtain rfl := not_not.1 ht
    cases h with
    | act | answer | miss | tell | start | run => exact absurd trivial hg
    | delivered | skip | hear | resume => cases hs
    | next =>
      cases hs
      refine .inl ⟨[], before ++ [rule], _, _, rfl, by simp [hr], ?_, ?_⟩ <;>
        simp [State.applied, State.verdicts, List.replicate_succ']
    | @close w stack r name d k =>
      cases hs
      have hv : List.replicate before.length (.ok ()) ++ [.ok ()] =
          List.replicate rules.length (.ok () : Verdict) := by
        rw [hr, List.length_append, List.length_singleton, List.replicate_succ']
      refine .inr ⟨rfl, ?_⟩
      simp only [State.applied, State.verdicts, and_self, if_true, List.append_nil, hv, ← hr]
      exact .all _
    | @fail w stack r name d rest k source =>
      cases hs
      refine .inr ⟨rfl, ?_⟩
      simp only [State.applied, State.verdicts, and_self, if_true, List.append_nil]
      exact .fails _ hr
    | @unwind w f stack message =>
      cases hs
      refine .inr ⟨rfl, ?_⟩
      simp only [State.applied, State.verdicts, List.append_nil]
      exact .panics _ hr

end State

/-! ## Runs -/

section

variable {ρ : Run C} {n : ℕ} {r : Nat} {name : String}
  {k : Except RegistryError (Option α) → Prog μ σ α β Verdict}

/-- A lookup that misses goes on with its pass, or has ended, at each moment up to its end. -/
theorem Run.applying_or_resolved (start : (ρ 0).Idle)
    (hc : (ρ n).control = .call (.find r name) k) (hd : (ρ n).world.direct r name = none)
    (hn : name ∉ ((ρ n).world.registry r).inFlight) (m : ℕ)
    (hw : ∀ i, n < i → i ≤ n + m → (ρ n).stack.length < (ρ i).stack.length) :
    State.Applying r name k (ρ n).stack ((ρ n).world.registry r).rules
        (ρ.collect (State.applied C r name) n (m + 1))
        (ρ.collect (State.verdicts r name) n (m + 1)) (ρ (n + (m + 1))) ∨
      (ρ (n + (m + 1))).world = (ρ (n + m)).world.release r name ∧
        Resolved r name k (ρ n).stack ((ρ n).world.registry r).rules
          (ρ.collect (State.applied C r name) n (m + 1))
          (ρ.collect (State.verdicts r name) n (m + 1)) (ρ (n + (m + 1))) := by
  induction m with
  | zero =>
    simp only [collect_succ, collect_zero, List.nil_append]
    exact (step_of_goes (by rw [hc]; trivial)).find hc hd hn
  | succ m ih =>
    have hh := hw (n + (m + 1)) (by omega) (by omega)
    rcases ih fun i hi hi' => hw i hi (by omega) with ha | ⟨-, ha⟩
    · rw [collect_succ _ _ n (m + 1), collect_succ _ _ n (m + 1)]
      refine (step_of_stack fun hs => ?_).applying (ρ.marked start _) ha
      simp [hs] at hh
    · exact absurd (ha.stack_eq ▸ hh) (lt_irrefl _)

end

/-- **Lookup.** Let nothing be going on when a run begins, and let a name be looked up in a
registry at the moment `n`.

If a member has the name, the answer is the first one in store order, at once and with nothing
changed. If none has it and the name is not in flight, the rules that the registry has at `n` are
applied to the name. Until the lookup ends, the rules that any lookups applied to the name are the
first few of these in order, of which the last is still running and the others have ended without
an error. When the lookup ends, all have been applied and the answer is what a plain look-up finds
at that moment; or one has been the first to fail and the answer is its error; or one has
panicked. Its end only releases the name. A rule that is applied to the name runs at the next
moment, and what a plain look-up finds is a member with the name at that moment. -/
theorem find_resolved (ρ : Run C) (start : (ρ 0).Idle) (n : ℕ) (r : Nat) (name : String)
    (k : Except RegistryError (Option α) → Prog μ σ α β Verdict)
    (hc : (ρ n).control = .call (.find r name) k) :
    let w := (ρ n).world
    let members := w.shown (w.registry r).store
    let rules := (w.registry r).rules
    let applied := ρ.collect (State.applied C r name) n
    let verdicts := ρ.collect (State.verdicts r name) n
    ((∃ e ∈ members, w.nameOf r e = name) →
      ∃ e, members.find? (fun e => w.nameOf r e == name) = some e ∧
        ρ (n + 1) = ⟨w, (ρ n).stack, k (.ok (some e))⟩) ∧
    ((∀ e ∈ members, w.nameOf r e ≠ name) → name ∉ (w.registry r).inFlight →
      (∀ m, 0 < m → (∀ i, n < i → i ≤ n + m → (ρ n).stack.length < (ρ i).stack.length) →
        ∃ before rule rest, rules = before ++ rule :: rest ∧ applied m = before ++ [rule] ∧
          verdicts m = List.replicate before.length (.ok ())) ∧
      ∀ m, ρ.Ends n (n + m) →
        Resolved r name k (ρ n).stack rules (applied m) (verdicts m) (ρ (n + m)) ∧
        (ρ (n + m)).world = (ρ (n + m - 1)).world.release r name) ∧
    (∀ m, ∀ rule ∈ State.applied C r name (ρ m),
      (ρ (m + 1)).control = C.rule rule.action r name) ∧
    ∀ m e, (ρ m).world.direct r name = some e →
      e ∈ (ρ m).world.shown ((ρ m).world.registry r).store ∧ (ρ m).world.nameOf r e = name := by
  intro w members rules applied verdicts
  have hgoes : (ρ n).control.Goes := by rw [hc]; trivial
  refine ⟨fun ⟨e, he, hne⟩ => ?_, fun hno hn => ?_, fun m rule hr => ?_, fun m e h => ?_⟩
  · have hd : w.direct r name ≠ none := fun hd => World.direct_eq_none_iff.1 hd e he hne
    obtain ⟨e', hd⟩ := Option.ne_none_iff_exists'.1 hd
    refine ⟨e', ?_, (Run.step_of_goes hgoes).find_of_some hc hd⟩
    rw [← hd, World.direct_eq]
  · have hd : w.direct r name = none := World.direct_eq_none_iff.2 hno
    refine ⟨fun m hm hw => ?_, fun m he => ?_⟩
    · obtain ⟨m, rfl⟩ := Nat.exists_eq_add_of_lt hm
      rw [Nat.zero_add] at hw ⊢
      rcases ρ.applying_or_resolved start hc hd hn m fun i hi hi' => hw i hi (by omega) with
        ⟨top, before, rule, rest, -, h⟩ | ⟨-, h⟩
      · exact ⟨before, rule, rest, h⟩
      · exact absurd (h.stack_eq ▸ hw _ (by omega) le_rfl) (lt_irrefl _)
    · obtain ⟨m, rfl⟩ : ∃ j, m = j + 1 := ⟨m - 1, by have := he.lt; omega⟩
      rcases ρ.applying_or_resolved start hc hd hn m fun i hi hi' => he.within i hi (by omega) with
        h | ⟨hw, h⟩
      · exact absurd (h.length_lt.trans_le he.height) (lt_irrefl _)
      · exact ⟨h, hw⟩
  · exact (ρ.next m).control_of_applied hr
  · exact World.of_direct_eq_some h

theorem find_resolved_selfish :
    ∃ ρ : Run selfish, (ρ 0).Idle ∧ ρ.Ends 0 3 ∧
      Resolved 0 "x" (fun _ => .done (.ok ())) [] [⟨"itself", ()⟩]
        (ρ.collect (State.applied selfish 0 "x") 0 3)
        (ρ.collect (State.verdicts 0 "x") 0 3) (ρ 3) := by
  have idle : selfishStart.Idle := ⟨rfl, fun r => by cases r <;> rfl⟩
  have ends : (Run.of selfish selfishStart).Ends 0 3 := ⟨by decide, le_rfl, fun i hi hi' => by
    obtain rfl | rfl : i = 1 ∨ i = 2 := by omega
    all_goals exact Nat.one_pos⟩
  have h := find_resolved (Run.of selfish selfishStart) idle 0 0 "x" _ rfl
  exact ⟨.of selfish selfishStart, idle, ends,
    ((h.2.1 (fun _ he => by cases he) (by decide)).2 3 ends).1⟩

end NameRegistry
