import NameRegistry.Proofs.Run
import NameRegistry.Proofs.World

/-!
# Names in flight

A registry keeps the names whose rules are being applied, so that a rule that looks its own name up
does not start over. The set of these names and the call stack say the same.

* `Frame.marks`, `passes` : the names whose passes on a registry are active on a stack.
* `State.Marked` : each registry has in flight the names of its active passes, and no name has two.
* `State.Idle` : nothing is going on.

The proof carries `State.Marked` through every step (`State.Next.marked`). A call by itself changes
no mark, a pass that starts marks its name and pushes its frame at once, and the frame leaves the
stack in three ways, at the end of the pass, with a rule that fails, and in a panic, each of which
releases the name.

Main result: `inFlight_eq_passes`.
-/

namespace NameRegistry

variable {μ σ α β : Type}

/-! ## Active passes -/

/-- The name whose pass on a registry is a frame's work. -/
def Frame.marks (r : Nat) : Frame μ σ α β → List String
  | .pass r' name _ _ _ => if r' = r then [name] else []
  | _ => []

/-- The names whose passes on a registry are active on a stack, the latest first. -/
def passes (r : Nat) (stack : List (Frame μ σ α β)) : List String := stack.flatMap (Frame.marks r)

@[simp] theorem passes_nil (r : Nat) : passes r ([] : List (Frame μ σ α β)) = [] := rfl

@[simp] theorem passes_pass (r r' : Nat) (name d : String) (rest : List (Rule β))
    (k : Except RegistryError (Option α) → Prog μ σ α β Verdict) (stack : List (Frame μ σ α β)) :
    passes r (.pass r' name d rest k :: stack) =
      if r' = r then name :: passes r stack else passes r stack := by
  simp only [passes, List.flatMap_cons, Frame.marks]
  split_ifs <;> rfl

namespace World

theorem mark_inFlight {w : World μ σ α β} {r : Nat} (hr : r < w.registries.length)
    (name : String) (r' : Nat) :
    ((w.mark r name).registry r').inFlight =
      if r = r' then name :: (w.registry r').inFlight else (w.registry r').inFlight := by
  rw [mark, registry_modifyRegistry]
  by_cases h : r = r'
  · subst h
    simp [hr]
  · simp [h]

theorem release_inFlight (w : World μ σ α β) (r : Nat) (name : String) (r' : Nat) :
    ((w.release r name).registry r').inFlight =
      if r = r' then (w.registry r').inFlight.erase name else (w.registry r').inFlight := by
  rw [release, registry_modifyRegistry]
  by_cases h : r = r'
  · subst h
    by_cases hr : r < w.registries.length
    · simp [hr]
    · simp [hr, registry_of_le (Nat.le_of_not_lt hr), Registry.absent]
  · simp [h]

theorem release_eq_self {w : World μ σ α β} {r : Nat} {name : String}
    (h : name ∉ (w.registry r).inFlight) : w.release r name = w := by
  have hr : (w.release r name).registries = w.registries := by
    refine List.ext_getElem? fun j => ?_
    simp only [release, modifyRegistry, List.getElem?_modify]
    cases hj : w.registries[j]? with
    | none => rfl
    | some reg =>
      by_cases hrj : r = j
      · subst hrj
        rw [registry, List.getD_eq_getElem?_getD, hj, Option.getD_some] at h
        simp [List.erase_of_not_mem h]
      · simp [hrj]
  show { w with registries := (w.release r name).registries } = w
  rw [hr]

end World

namespace State

/-- Each registry has in flight the names of its active passes, and no name has two. -/
def Marked (w : World μ σ α β) (stack : List (Frame μ σ α β)) : Prop :=
  ∀ r, (w.registry r).inFlight = passes r stack ∧ (passes r stack).Nodup

/-- Nothing is going on: no work is left and no name is in flight. -/
def Idle (s : State μ σ α β) : Prop :=
  s.stack = [] ∧ ∀ r, (s.world.registry r).inFlight = []

theorem Idle.marked {s : State μ σ α β} (h : s.Idle) : Marked s.world s.stack := by
  intro r
  rw [h.1, h.2 r]
  exact ⟨rfl, List.nodup_nil⟩

variable {w w' : World μ σ α β} {stack stack' : List (Frame μ σ α β)}

theorem Marked.congr (h : Marked w stack)
    (hw : ∀ r, (w'.registry r).inFlight = (w.registry r).inFlight)
    (hs : ∀ r, passes r stack' = passes r stack) : Marked w' stack' := fun r => by
  rw [hw, hs]
  exact h r

theorem Marked.mark (h : Marked w stack) {r : Nat} {name d : String} {rest : List (Rule β)}
    {k : Except RegistryError (Option α) → Prog μ σ α β Verdict} (hr : r < w.registries.length)
    (hn : name ∉ (w.registry r).inFlight) :
    Marked (w.mark r name) (.pass r name d rest k :: stack) := fun r' => by
  rw [World.mark_inFlight hr, passes_pass]
  by_cases hr' : r = r'
  · subst hr'
    rw [if_pos rfl, if_pos rfl, ← (h r).1]
    exact ⟨rfl, List.nodup_cons.2 ⟨hn, (h r).1 ▸ (h r).2⟩⟩
  · rw [if_neg hr', if_neg hr']
    exact h r'

theorem Marked.release {r : Nat} {name d : String} {rest : List (Rule β)}
    {k : Except RegistryError (Option α) → Prog μ σ α β Verdict}
    (h : Marked w (.pass r name d rest k :: stack)) : Marked (w.release r name) stack := by
  intro r'
  have hr' := h r'
  rw [passes_pass] at hr'
  rw [World.release_inFlight]
  by_cases hr : r = r'
  · rw [if_pos hr] at hr' ⊢
    rw [hr'.1, List.erase_cons_head]
    exact ⟨rfl, hr'.2.of_cons⟩
  · rw [if_neg hr] at hr' ⊢
    exact hr'

theorem Marked.unwind {f : Frame μ σ α β} (h : Marked w (f :: stack)) :
    Marked (unwind w f) stack := by
  cases f with
  | pass r name d rest k => exact h.release
  | delivery | resume => exact h.congr (fun _ => rfl) fun _ => rfl

variable [Memory μ α] {C : Client μ σ α β} {s s' : State μ σ α β}

/-- A lookup starts a pass only for a name that is not in flight. -/
theorem not_inFlight_of_resolve {c : Call μ σ α β} {r : Nat} {name : String}
    {a : Except RegistryError (Option α) → c.Reply}
    (h : w.respond C c = (w', .resolve r name a)) :
    w' = w ∧ name ∉ (w.registry r).inFlight := by
  have hc := World.responds (C := C) w c
  rw [h] at hc
  cases hc with
  | find _ hn => exact ⟨rfl, hn⟩

theorem Step.marked (h : Step C s s') (hs : Marked s.world s.stack) :
    Marked s'.world s'.stack := by
  cases h with
  | act => exact hs
  | @answer w w' stack c k a h =>
    exact hs.congr (fun r => by rw [← World.respond_inFlight (C := C) w c r, h]) fun _ => rfl
  | @tell w w₁ w₂ stack c k ch change e t a h ht =>
    cases ht
    exact hs.congr (fun r => by rw [← World.respond_inFlight (C := C) w c r, h]; rfl) fun _ => rfl
  | @run w w' stack c k p a h =>
    exact hs.congr (fun r => by rw [← World.respond_inFlight (C := C) w c r, h]) fun _ => rfl
  | start h hr =>
    obtain ⟨rfl, hn⟩ := not_inFlight_of_resolve h
    exact hs.mark (World.lt_of_rules_ne_nil (by rw [hr]; exact List.cons_ne_nil _ _)) hn
  | miss h =>
    obtain ⟨rfl, -⟩ := not_inFlight_of_resolve h
    exact hs
  | hear _ hp =>
    cases hp
    exact hs.congr (fun _ => rfl) fun _ => rfl
  | delivered | skip | resume => exact hs.congr (fun _ => rfl) fun _ => rfl
  | next => exact hs.congr (fun _ => rfl) fun r => by simp only [passes_pass]
  | close | fail => exact hs.release
  | unwind => exact hs.unwind

theorem Next.marked (h : Next C s s') (hs : Marked s.world s.stack) :
    Marked s'.world s'.stack := by
  cases h with
  | step h => exact (step_eq_some_iff.1 h).marked hs
  | begin p h =>
    rw [(step_eq_none_iff.1 h).1] at hs
    exact hs

/-- A lookup of a name in flight is answered at once, with what a plain look-up finds. -/
theorem Step.find_of_mem {r : Nat} {name : String}
    {k : Except RegistryError (Option α) → Prog μ σ α β Verdict} (h : Step C s s')
    (hc : s.control = .call (.find r name) k) (hn : name ∈ (s.world.registry r).inFlight) :
    s' = ⟨s.world, s.stack, k (.ok (s.world.direct r name))⟩ := by
  obtain ⟨w, stack, p⟩ := s
  obtain rfl := hc
  have hstep := h.step_eq
  simp only [step, perform, World.respond] at hstep
  cases hd : w.direct r name with
  | some e => simpa [hd] using hstep.symm
  | none => simpa [hd, if_pos hn] using hstep.symm

end State

/-! ## Runs -/

variable [Memory μ α] {C : Client μ σ α β}

theorem Run.marked_of_le {ρ : Run C} {m n : ℕ} (h : State.Marked (ρ m).world (ρ m).stack)
    (hn : m ≤ n) : State.Marked (ρ n).world (ρ n).stack := by
  induction n, hn using Nat.le_induction with
  | base => exact h
  | succ n _ ih => exact (ρ.next n).marked ih

theorem Run.marked {ρ : Run C} (start : (ρ 0).Idle) (n : ℕ) :
    State.Marked (ρ n).world (ρ n).stack := marked_of_le start.marked (Nat.zero_le n)

/-- **The names in flight are those of the active passes.** Let nothing be going on when a run
begins. At every moment, each registry has in flight exactly the names whose passes on it are
active on the stack, and no name has two. When a call ends, with an answer or with a panic, the
names in flight are what they were when it was made, and so they are whenever the program that
called has control again. At the bottom of the stack none are in flight. A lookup of a name that is
in flight applies no rule, changes nothing, and is answered with what a plain look-up finds. -/
theorem inFlight_eq_passes (ρ : Run C) (start : (ρ 0).Idle) (n : ℕ) :
    (∀ r, ((ρ n).world.registry r).inFlight = passes r (ρ n).stack ∧
      (passes r (ρ n).stack).Nodup) ∧
    (∀ (c : Call μ σ α β) (k : c.Reply → Prog μ σ α β Verdict) (m : ℕ),
      (ρ n).control = .call c k → ρ.Ends n m → (ρ m).Settled k (ρ n).stack ∧
        ∀ r, ((ρ m).world.registry r).inFlight = ((ρ n).world.registry r).inFlight) ∧
    (∀ m, ρ.Regains n m →
      ∀ r, ((ρ m).world.registry r).inFlight = ((ρ n).world.registry r).inFlight) ∧
    ((ρ n).stack = [] → ∀ r, ((ρ n).world.registry r).inFlight = []) ∧
    ∀ (r : Nat) (name : String) (k : Except RegistryError (Option α) → Prog μ σ α β Verdict),
      (ρ n).control = .call (.find r name) k → name ∈ passes r (ρ n).stack →
      ρ (n + 1) = ⟨(ρ n).world, (ρ n).stack, k (.ok ((ρ n).world.direct r name))⟩ := by
  have marked := ρ.marked start
  have same (m : ℕ) (h : (ρ m).stack = (ρ n).stack) (r : Nat) :
      ((ρ m).world.registry r).inFlight = ((ρ n).world.registry r).inFlight := by
    rw [(marked m r).1, (marked n r).1, h]
  refine ⟨marked n, fun c k m hc he => ?_, fun m hm => same m hm.stack_eq, fun h r => ?_,
    fun r name k hc hn => ?_⟩
  · have hs := he.settled hc
    exact ⟨hs, same m hs.1⟩
  · rw [(marked n r).1, h, passes_nil]
  · rw [← (marked n r).1] at hn
    exact (Run.step_of_goes (by rw [hc]; trivial)).find_of_mem hc hn

/-! A rule that looks up the name it is asked for, applied to one name. -/

def selfish : Client Unit Unit String Unit where
  rule _ r name := .call (.find r name) fun _ => .done (.ok ())
  action _ _ := .done ()

/-- One registry with that rule, and a program that looks a name up. -/
def selfishStart : State Unit Unit String Unit where
  world :=
    { memory := ()
      client := ()
      stores := [⟨[], .distinct fun _ => (· == ·)⟩]
      channels := [{}]
      registries := [{
        namer := fun _ e => e
        typeName := "String"
        store := .root 0
        channel := .root 0
        hooks := .default
        rules := [⟨"itself", ()⟩] }] }
  stack := []
  control := .call (.find 0 "x") fun _ => .done (.ok ())

theorem inFlight_eq_passes_selfish :
    ∃ ρ : Run selfish, (ρ 0).Idle ∧ ((ρ 1).world.registry 0).inFlight = ["x"] ∧
      ρ 2 = ⟨(ρ 1).world, (ρ 1).stack, .done (.ok ())⟩ := by
  have idle : selfishStart.Idle := ⟨rfl, fun r => by cases r <;> rfl⟩
  have h := inFlight_eq_passes (Run.of selfish selfishStart) idle 1
  exact ⟨.of selfish selfishStart, idle, (h.1 0).1, h.2.2.2.2 0 "x" _ rfl (by decide)⟩

end NameRegistry
