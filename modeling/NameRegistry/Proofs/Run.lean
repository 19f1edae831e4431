import NameRegistry.Proofs.Step
import Mathlib.Data.List.Infix

/-!
# Runs

A run is a sequence of moments without end. When a program has ended, by itself or by a panic,
another one begins in the world that it left.

* `State.Next` : one moment after another.
* `Run`, `Run.of` : runs, and the run of one program.
* `Run.related` : two runs that go on together.
* `Run.collect` : what is seen at some moments of a run, in order.
* `Run.Ends` : what was called at one moment has ended at another.
* `Run.Regains` : the program that runs at one moment has control again at another, after any
  number of calls.

**The stack is kept** (`Run.Ends.stack_eq`, `Run.Regains.stack_eq`). A call may push a frame, and
its rules and listeners may push more. When it ends, the stack is what it was, and the program
that called goes on with an answer or is broken off by a panic (`Run.Ends.settled`).
-/

namespace NameRegistry

variable {μ σ α β : Type}

/-! ## Runs of a client -/

section

variable [Memory μ α] [Stores μ α] [Channels μ α]

/-- One moment after another: a step, or the beginning of another program after one has ended. -/
inductive State.Next (C : Client μ σ α β) : State μ σ α β → State μ σ α β → Prop
  | step {s s'} : s.step C = some s' → State.Next C s s'
  | begin {s} (p : Prog μ σ α β Verdict) : s.step C = none → State.Next C s ⟨s.world, [], p⟩

/-- A sequence of moments, one after another. -/
structure Run (C : Client μ σ α β) where
  moment : ℕ → State μ σ α β
  next : ∀ n, State.Next C (moment n) (moment (n + 1))

instance {C : Client μ σ α β} : CoeFun (Run C) fun _ => ℕ → State μ σ α β := ⟨Run.moment⟩

theorem State.run_succ (C : Client μ σ α β) (n : ℕ) (s : State μ σ α β) :
    State.run C (n + 1) s = ((State.run C n s).step C).getD (State.run C n s) := by
  induction n generalizing s with
  | zero => cases h : s.step C <;> simp [State.run, h]
  | succ n ih =>
    cases h : s.step C with
    | none => simp [State.run, h]
    | some s' =>
      have hs (m : ℕ) : State.run C (m + 1) s = State.run C m s' := by simp only [State.run, h]
      rw [hs, hs, ih]

/-- The run of the program of a state. -/
def Run.of (C : Client μ σ α β) (s : State μ σ α β) : Run C where
  moment n := State.run C n s
  next n := by
    rw [State.run_succ]
    cases h : (State.run C n s).step C with
    | none =>
      -- Where nothing is left to do, the ended program stands for the next one.
      have hs : State.run C n s = ⟨(State.run C n s).world, [], (State.run C n s).control⟩ := by
        rw [← (State.step_eq_none_iff.1 h).1]
      rw [Option.getD_none]
      conv => rhs; rw [hs]
      exact .begin _ h
    | some s' => exact .step h

/-- A moment that takes a step has one moment after it. -/
theorem State.Next.eq_of_step_eq {C : Client μ σ α β} {s t t' : State μ σ α β}
    (h : State.Next C s t) (hs : s.step C = some t') : t = t' := by
  cases h with
  | step h => exact Option.some.inj (h.symm.trans hs)
  | begin p h => cases h.symm.trans hs

/-- **Two runs that go on together.** Two runs that are related at the beginning are related at
every moment, if what one does in a step, the other does too, and the same programs begin in
both. -/
theorem Run.related {C : Client μ σ α β} {R : State μ σ α β → State μ σ α β → Prop} {ρ ρ' : Run C}
    (start : R (ρ 0) (ρ' 0))
    (step : ∀ n s, R (ρ n) s → Option.Rel R ((ρ n).step C) (s.step C))
    (begins : ∀ s s' p, R s s' → R ⟨s.world, [], p⟩ ⟨s'.world, [], p⟩)
    (programs : ∀ n, (ρ n).step C = none → (ρ' n).step C = none →
      (ρ' (n + 1)).control = (ρ (n + 1)).control) (n : ℕ) : R (ρ n) (ρ' n) := by
  induction n with
  | zero => exact start
  | succ n ih =>
    have hprog := programs n
    have hstep := step n _ ih
    have hnext := ρ.next n
    have hnext' := ρ'.next n
    generalize ρ (n + 1) = t at hprog hnext ⊢
    generalize ρ' (n + 1) = t' at hprog hnext' ⊢
    cases hnext with
    | step h =>
      rw [h] at hstep
      cases h' : (ρ' n).step C with
      | none =>
        rw [h'] at hstep
        cases hstep
      | some u =>
        rw [h'] at hstep
        rw [hnext'.eq_of_step_eq h']
        cases hstep
        assumption
    | begin p h =>
      rw [h] at hstep
      cases hnext' with
      | step h' =>
        rw [h'] at hstep
        cases hstep
      | begin p' h' =>
        obtain rfl : p' = p := hprog h h'
        exact begins _ _ _ ih

end

variable [Memory μ α] {C : Client μ σ α β}

theorem State.Next.eq_of_step {s t t' : State μ σ α β} (h : State.Next C s t)
    (hs : State.Step C s t') : t = t' :=
  h.eq_of_step_eq hs.step_eq

/-- What is seen at `m` moments, from one moment on. -/
def Run.collect {γ : Type} (ρ : Run C) (see : State μ σ α β → List γ) (n m : ℕ) : List γ :=
  (List.range m).flatMap fun i => see (ρ (n + i))

@[simp] theorem Run.collect_zero {γ : Type} (ρ : Run C) (see : State μ σ α β → List γ) (n : ℕ) :
    ρ.collect see n 0 = [] := rfl

theorem Run.collect_succ {γ : Type} (ρ : Run C) (see : State μ σ α β → List γ) (n m : ℕ) :
    ρ.collect see n (m + 1) = ρ.collect see n m ++ see (ρ (n + m)) := by
  simp [Run.collect, List.range_succ]

/-! ## The stack -/

namespace Prog

/-- A program that goes on by itself: it has neither ended nor panicked. -/
def Goes {ρ : Type} : Prog μ σ α β ρ → Prop
  | .act _ _ | .call _ _ => True
  | .done _ | .panic _ => False

end Prog

/-- The frame goes on with an answer of its call. -/
def Frame.Answers {τ : Type} (k : τ → Prog μ σ α β Verdict) : Frame μ σ α β → Prop
  | .delivery _ _ _ after => ∃ a, after = k a
  | .pass _ _ _ _ k' => ∀ o, ∃ a, k' o = k a
  | .resume k' => ∀ v, ∃ a, k' v = k a

namespace State

/-- A program that goes on leaves the stack as it is, or pushes a frame. -/
theorem Step.suffix_of_goes {s s' : State μ σ α β} (h : Step C s s') (hs : s.control.Goes) :
    s.stack <:+ s'.stack := by
  cases h with
  | act | answer | miss => exact List.suffix_rfl
  | tell | start | run => exact List.suffix_cons _ _
  | _ => exact hs.elim

/-- A program that has ended touches the topmost frame only. -/
theorem Step.suffix_of_not_goes {s s' : State μ σ α β} (h : Step C s s')
    (hs : ¬ s.control.Goes) : s.stack.tail <:+ s'.stack := by
  cases h with
  | act | answer | miss | tell | start | run => exact absurd trivial hs
  | delivered | close | fail | resume | unwind => exact List.suffix_rfl
  | skip | hear | next => exact List.suffix_cons _ _

/-- What lies below the topmost frame stays. -/
theorem Next.suffix {s s' : State μ σ α β} (h : Next C s s') {base : List (Frame μ σ α β)}
    (hb : base <:+ s.stack) (ht : base.length < s.stack.length ∨ s.control.Goes) :
    base <:+ s'.stack := by
  cases h with
  | step h =>
    have h := step_eq_some_iff.1 h
    by_cases hs : s.control.Goes
    · exact hb.trans (h.suffix_of_goes hs)
    · have hlt := ht.resolve_right hs
      obtain ⟨top, hb⟩ := hb
      cases top with
      | nil => simp [← hb] at hlt
      | cons f top =>
        refine List.IsSuffix.trans ⟨top, ?_⟩ (h.suffix_of_not_goes hs)
        rw [← hb, List.cons_append, List.tail_cons]
  | begin p hs =>
    obtain ⟨hnil, -⟩ := step_eq_none_iff.1 hs
    rwa [hnil] at hb

/-- A frame that goes on with the answer of a call lies on `base`. -/
def Awaits {τ : Type} (k : τ → Prog μ σ α β Verdict) (base : List (Frame μ σ α β))
    (s : State μ σ α β) : Prop :=
  ∃ top f, s.stack = top ++ f :: base ∧ f.Answers k

/-- A call made on the stack `base` has been answered, or broken off by a panic. -/
def Settled {τ : Type} (k : τ → Prog μ σ α β Verdict) (base : List (Frame μ σ α β))
    (s : State μ σ α β) : Prop :=
  s.stack = base ∧ ((∃ a, s.control = k a) ∨ ∃ message, s.control = .panic message)

variable {τ : Type} {k : τ → Prog μ σ α β Verdict} {base : List (Frame μ σ α β)}
  {s s' : State μ σ α β}

omit [Memory μ α] in
theorem Awaits.length_lt (h : s.Awaits k base) : base.length < s.stack.length := by
  obtain ⟨top, f, hs, -⟩ := h
  rw [hs, List.length_append, List.length_cons]
  omega

theorem Step.call {c : Call μ σ α β} {k : c.Reply → Prog μ σ α β Verdict} (h : Step C s s')
    (hc : s.control = .call c k) : s'.Awaits k s.stack ∨ s'.Settled k s.stack := by
  cases h with
  | answer | miss =>
    cases hc
    exact .inr ⟨rfl, .inl ⟨_, rfl⟩⟩
  | tell =>
    cases hc
    exact .inl ⟨[], _, rfl, _, rfl⟩
  | start | run =>
    cases hc
    exact .inl ⟨[], _, rfl, fun _ => ⟨_, rfl⟩⟩
  | _ => cases hc

/-- The frame of a call goes on with the answer, makes way for another one for the same call, or
is taken off by a panic. -/
theorem Step.frame {f : Frame μ σ α β} (h : Step C s s') (hs : ¬ s.control.Goes)
    (hf : s.stack = f :: base) (hk : f.Answers k) : s'.Awaits k base ∨ s'.Settled k base := by
  cases h with
  | act | answer | miss | tell | start | run => exact absurd trivial hs
  | delivered =>
    obtain ⟨rfl, rfl⟩ := List.cons.inj hf
    exact .inr ⟨rfl, .inl hk⟩
  | skip | hear | next =>
    obtain ⟨rfl, rfl⟩ := List.cons.inj hf
    exact .inl ⟨[], _, rfl, hk⟩
  | close | fail | resume =>
    obtain ⟨rfl, rfl⟩ := List.cons.inj hf
    exact .inr ⟨rfl, .inl (hk _)⟩
  | unwind =>
    obtain ⟨rfl, rfl⟩ := List.cons.inj hf
    exact .inr ⟨rfl, .inr ⟨_, rfl⟩⟩

theorem Step.awaits (h : Step C s s') (hs : s.Awaits k base) :
    s'.Awaits k base ∨ s'.Settled k base := by
  obtain ⟨top, f, hf, hk⟩ := hs
  by_cases hg : s.control.Goes
  · obtain ⟨top', hs'⟩ := h.suffix_of_goes hg
    exact .inl ⟨top' ++ top, f, by rw [← hs', hf, List.append_assoc], hk⟩
  · cases top with
    | nil => exact h.frame hg hf hk
    | cons f' top =>
      obtain ⟨top', hs'⟩ := h.suffix_of_not_goes hg
      rw [hf, List.cons_append, List.tail_cons] at hs'
      exact .inl ⟨top' ++ top, f, by rw [← hs', List.append_assoc], hk⟩

end State

namespace Run

variable (ρ : Run C)

/-- What was called at a moment ends at another: for the first time since then the stack is no
higher than it was. -/
structure Ends (n m : ℕ) : Prop where
  lt : n < m
  height : (ρ m).stack.length ≤ (ρ n).stack.length
  within : ∀ i, n < i → i < m → (ρ n).stack.length < (ρ i).stack.length

/-- The program that runs at a moment has control again at another. -/
inductive Regains (n : ℕ) : ℕ → Prop
  | refl : Regains n n
  | tail {m i : ℕ} : Regains n m → (ρ m).control.Goes → ρ.Ends m i → Regains n i

variable {ρ}

theorem step_of_goes {n : ℕ} (h : (ρ n).control.Goes) : State.Step C (ρ n) (ρ (n + 1)) := by
  generalize hx : ρ (n + 1) = s'
  rcases hx ▸ ρ.next n with hs | ⟨p, hs⟩
  · exact State.step_eq_some_iff.1 hs
  · rcases (State.step_eq_none_iff.1 hs).2 with ⟨v, hv⟩ | ⟨message, hv⟩ <;>
      · rw [hv] at h
        exact False.elim h

theorem step_of_stack {n : ℕ} (h : (ρ n).stack ≠ []) : State.Step C (ρ n) (ρ (n + 1)) := by
  generalize hx : ρ (n + 1) = s'
  rcases hx ▸ ρ.next n with hs | ⟨p, hs⟩
  · exact State.step_eq_some_iff.1 hs
  · exact absurd (State.step_eq_none_iff.1 hs).1 h

theorem succ_of_call {n : ℕ} {c : Call μ σ α β} {k : c.Reply → Prog μ σ α β Verdict}
    (hc : (ρ n).control = .call c k) :
    ρ (n + 1) = State.perform C (ρ n).world (ρ n).stack c k := by
  have step := State.step_perform (C := C) (ρ n).world (ρ n).stack c k
  rw [← hc] at step
  exact (ρ.next n).eq_of_step step

/-- A call that is answered at once has ended at the next moment. -/
theorem ends_of_answer {n : ℕ} {c : Call μ σ α β} {k : c.Reply → Prog μ σ α β Verdict}
    {w : World μ σ α β} {a : c.Reply} (hc : (ρ n).control = .call c k)
    (hresp : (ρ n).world.respond C c = (w, .answer a)) :
    ρ.Ends n (n + 1) ∧ ρ (n + 1) = ⟨w, (ρ n).stack, k a⟩ := by
  have next : ρ (n + 1) = ⟨w, (ρ n).stack, k a⟩ := by
    simp only [succ_of_call hc, State.perform, hresp]
  refine ⟨⟨Nat.lt_succ_self n, ?_, fun i hi hi' => by omega⟩, next⟩
  rw [next]

/-- While a call goes on, the stack stands on what it was. -/
theorem suffix_of_within {n m : ℕ} (hs : (ρ n).control.Goes) (hlt : n < m)
    (hw : ∀ i, n < i → i < m → (ρ n).stack.length < (ρ i).stack.length) :
    (ρ n).stack <:+ (ρ m).stack := by
  induction m, hlt using Nat.le_induction with
  | base => exact (ρ.next n).suffix List.suffix_rfl (.inr hs)
  | succ m hm ih =>
    refine (ρ.next m).suffix (ih fun i hi hi' => hw i hi (by omega)) (.inl ?_)
    exact hw m hm (by omega)

/-- **The stack is kept.** When a call ends, the stack is what it was. -/
theorem Ends.stack_eq {n m : ℕ} (h : ρ.Ends n m) (hs : (ρ n).control.Goes) :
    (ρ m).stack = (ρ n).stack :=
  ((suffix_of_within hs h.lt h.within).eq_of_length_le h.height).symm

theorem Regains.le {n m : ℕ} (h : ρ.Regains n m) : n ≤ m := by
  induction h with
  | refl => exact le_rfl
  | tail _ _ ends ih => exact ih.trans ends.lt.le

theorem Regains.trans {n m i : ℕ} (h : ρ.Regains n m) (h' : ρ.Regains m i) : ρ.Regains n i := by
  induction h' with
  | refl => exact h
  | tail _ goes ends ih => exact ih.tail goes ends

theorem Regains.stack_eq {n m : ℕ} (h : ρ.Regains n m) : (ρ m).stack = (ρ n).stack := by
  induction h with
  | refl => rfl
  | tail _ hs he ih => rw [he.stack_eq hs, ih]

/-- Until the program has control again, the stack is no lower than it was. -/
theorem Regains.le_height {n m i : ℕ} (h : ρ.Regains n m) (hni : n ≤ i) (him : i ≤ m) :
    (ρ n).stack.length ≤ (ρ i).stack.length := by
  induction h with
  | refl => rw [Nat.le_antisymm hni him]
  | @tail m m' before goes ends ih =>
    rcases Nat.le_total i m with hi | hi
    · exact ih hi
    · -- The last call may have begun, or have ended.
      rcases eq_or_lt_of_le hi with rfl | hlt
      · rw [before.stack_eq]
      · rcases eq_or_lt_of_le him with rfl | hlt'
        · rw [ends.stack_eq goes, before.stack_eq]
        · rw [← before.stack_eq]
          exact (ends.within i hlt hlt').le

/-- As long as the stack is higher than it was, the frame of a call lies on what it was. -/
theorem awaits_or_settled_of_awaits {τ : Type} {k : τ → Prog μ σ α β Verdict}
    {base : List (Frame μ σ α β)} {n m : ℕ} (h : (ρ n).Awaits k base) (hle : n ≤ m)
    (hw : ∀ i, n ≤ i → i < m → base.length < (ρ i).stack.length) :
    (ρ m).Awaits k base ∨ (ρ m).Settled k base := by
  induction m, hle using Nat.le_induction with
  | base => exact .inl h
  | succ m hm ih =>
    have hh := hw m hm (by omega)
    rcases ih fun i hi hi' => hw i hi (by omega) with h | h
    · refine (step_of_stack fun hs => ?_).awaits h
      simp [hs] at hh
    · exact absurd (h.1 ▸ hh) (lt_irrefl _)

/-- Until a call ends, a frame that goes on with its answer lies on what the stack was. -/
theorem awaits_or_settled {n m : ℕ} {c : Call μ σ α β} {k : c.Reply → Prog μ σ α β Verdict}
    (hc : (ρ n).control = .call c k) (hlt : n < m)
    (hw : ∀ i, n < i → i < m → (ρ n).stack.length < (ρ i).stack.length) :
    (ρ m).Awaits k (ρ n).stack ∨ (ρ m).Settled k (ρ n).stack := by
  rcases (step_of_goes (by rw [hc]; trivial)).call hc with h | h
  · exact awaits_or_settled_of_awaits h hlt hw
  · rcases (Nat.succ_le_of_lt hlt).eq_or_lt with rfl | hlt'
    · exact .inr h
    · have hh := hw (n + 1) (Nat.lt_succ_self n) hlt'
      exact absurd (h.1 ▸ hh) (lt_irrefl _)

/-- **A call ends** with an answer or with a panic. -/
theorem Ends.settled {n m : ℕ} {c : Call μ σ α β} {k : c.Reply → Prog μ σ α β Verdict}
    (h : ρ.Ends n m) (hc : (ρ n).control = .call c k) : (ρ m).Settled k (ρ n).stack :=
  (awaits_or_settled hc h.lt h.within).resolve_left fun ha =>
    absurd (ha.length_lt.trans_le h.height) (lt_irrefl _)

/-- A call that has a delivery made ends with what comes after the delivery, or with a panic. -/
theorem Ends.control_of_delivery {n m : ℕ} (h : ρ.Ends n m) {event : Event α} {told : Nat}
    {rest : List (Listener μ α β)} {after : Prog μ σ α β Verdict}
    (hs : (ρ (n + 1)).stack = .delivery event told rest after :: (ρ n).stack) :
    (ρ m).control = after ∨ ∃ message, (ρ m).control = .panic message := by
  have awaits : (ρ (n + 1)).Awaits (fun _ : Unit => after) (ρ n).stack := ⟨[], _, hs, (), rfl⟩
  have settled := (awaits_or_settled_of_awaits awaits h.lt h.within).resolve_left fun ha =>
    absurd (ha.length_lt.trans_le h.height) (lt_irrefl _)
  exact settled.2.imp_left fun ⟨_, ha⟩ => ha

end Run

end NameRegistry
