import NameRegistry.Proofs.Run

/-!
# Where steps lead

Steps follow the control of a state, so what a program does is shown by a chain of steps, one
program after another, and holds of every run that comes by.

* `Prog.Makes` : a program makes finitely many calls, all of one kind.
* `State.Leads` : the steps from a state get to a state with `Q`, all through states with `P`.
* `State.Leads.trans` : one chain after another.
* `Run.exists_of_leads`, `Run.ends_of_leads` : a run follows the chain; a call ends where it does.
* `State.Inside`, `Run.regains_of_leads` : a program that makes several calls has control again
  where the chain ends.
-/

namespace NameRegistry

variable {μ σ α β : Type}

/-! ## Programs -/

namespace Prog

variable {ρ τ : Type} {P : Call μ σ α β → Prop}

/-- Whatever a program is answered, it makes finitely many calls, all with `P`, and ends. -/
inductive Makes (P : Call μ σ α β → Prop) {ρ : Type} : Prog μ σ α β ρ → Prop
  | done (a : ρ) : Makes P (.done a)
  | act {f k} : (∀ m s, Makes P (k m s)) → Makes P (.act f k)
  | call {c k} : P c → (∀ a, Makes P (k a)) → Makes P (.call c k)

theorem Makes.mono {P' : Call μ σ α β → Prop} {p : Prog μ σ α β ρ} (hp : p.Makes P)
    (h : ∀ c, P c → P' c) : p.Makes P' := by
  induction hp with
  | done a => exact .done a
  | act _ ih => exact .act ih
  | call hc _ ih => exact .call (h _ hc) ih

theorem Makes.bind {p : Prog μ σ α β ρ} {g : ρ → Prog μ σ α β τ} (hp : p.Makes P)
    (hg : ∀ a, (g a).Makes P) : (p.bind g).Makes P := by
  induction hp with
  | done a => exact hg a
  | act _ ih => exact .act ih
  | call hc _ ih => exact .call hc ih

end Prog

/-! ## Steps -/

variable [Memory μ α]

/-- The steps from a state get to a state with `Q`, and all before it have `P`. -/
inductive State.Leads (C : Client μ σ α β) (P Q : State μ σ α β → Prop) : State μ σ α β → Prop
  | here {s} : Q s → State.Leads C P Q s
  | step {s t} : P s → State.Step C s t → State.Leads C P Q t → State.Leads C P Q s

variable {C : Client μ σ α β} {P P' Q Q' R : State μ σ α β → Prop}

namespace State.Leads

variable {s : State μ σ α β}

theorem trans (h : Leads C P Q s) (hQ : ∀ t, Q t → Leads C P R t) : Leads C P R s := by
  induction h with
  | here h => exact hQ _ h
  | step hP hs _ ih => exact .step hP hs ih

theorem mono (h : Leads C P Q s) (hP : ∀ t, P t → P' t) (hQ : ∀ t, Q t → Q' t) :
    Leads C P' Q' s := by
  induction h with
  | here h => exact .here (hQ _ h)
  | step h hs _ ih => exact .step (hP _ h) hs ih

end State.Leads

omit [Memory μ α] in
/-- The stack is higher than it was, or it is as high and the program on it goes on. -/
def State.Inside (height : ℕ) (s : State μ σ α β) : Prop :=
  height < s.stack.length ∨ s.stack.length = height ∧ s.control.Goes

omit [Memory μ α] in
/-- What is above a frame is above the stack below it. -/
theorem State.Inside.of_cons {f : Frame μ σ α β} {base : List (Frame μ σ α β)}
    {s : State μ σ α β} (h : Inside (f :: base).length s) : Inside base.length s := by
  rw [List.length_cons] at h
  rcases h with h | ⟨h, -⟩
  · exact .inl (by omega)
  · exact .inl (by omega)

/-! ## Runs -/

namespace Run

variable {ρ : Run C}

theorem exists_of_leads {n : ℕ} (h : State.Leads C P Q (ρ n)) :
    ∃ m, Q (ρ (n + m)) ∧ ∀ i < m, P (ρ (n + i)) := by
  generalize hs : ρ n = s at h
  induction h generalizing n with
  | here h => exact ⟨0, by rwa [Nat.add_zero, hs], fun i hi => absurd hi (Nat.not_lt_zero i)⟩
  | @step s t hP hst _ ih =>
    have ht : ρ (n + 1) = t := by
      have hn := ρ.next n
      rw [hs] at hn
      exact hn.eq_of_step hst
    obtain ⟨m, hm, hi⟩ := ih ht
    refine ⟨m + 1, by rwa [Nat.add_comm m, ← Nat.add_assoc], fun i hlt => ?_⟩
    cases i with
    | zero => rwa [Nat.add_zero, hs]
    | succ i =>
      rw [Nat.add_comm i, ← Nat.add_assoc]
      exact hi i (by omega)

/-- A call whose first step leads back to its stack, and not before, ends there. -/
theorem ends_of_leads {n : ℕ} {t : State μ σ α β} (ht : State.Step C (ρ n) t)
    (h : State.Leads C P Q t) (hP : ∀ s, P s → (ρ n).stack.length < s.stack.length)
    (hQ : ∀ s, Q s → s.stack = (ρ n).stack) :
    ∃ m, ρ.Ends n m ∧ Q (ρ m) ∧ ∀ i, n < i → i < m → P (ρ i) := by
  rw [← (ρ.next n).eq_of_step ht] at h
  obtain ⟨m, hm, hi⟩ := exists_of_leads h
  have within (i : ℕ) (hn : n < i) (hlt : i < n + 1 + m) : P (ρ i) := by
    obtain ⟨j, rfl⟩ := Nat.exists_eq_add_of_lt hn
    rw [Nat.add_right_comm]
    exact hi j (by omega)
  refine ⟨n + 1 + m, ⟨by omega, ?_, fun i hn hlt => hP _ (within i hn hlt)⟩, hm, within⟩
  rw [hQ _ hm]

/-- A program has control again whenever the stack is as high as it was, if in between it never ran
out of things to do. -/
theorem regains_of_inside {n m : ℕ} (hi : ∀ i < m, (ρ (n + i)).Inside (ρ n).stack.length)
    (hm : (ρ (n + m)).stack.length = (ρ n).stack.length) : ρ.Regains n (n + m) := by
  -- The program had control last at `n + j`.
  have last : ∀ i ≤ m, ∃ j ≤ i, ρ.Regains n (n + j) ∧
      (ρ (n + j)).stack.length = (ρ n).stack.length ∧
      ∀ l, n + j < l → l ≤ n + i → (ρ n).stack.length < (ρ l).stack.length := by
    intro i
    induction i with
    | zero =>
      intro _
      exact ⟨0, le_rfl, .refl, rfl, fun l hl hl' => absurd (hl.trans_le hl') (lt_irrefl _)⟩
    | succ i ih =>
      intro him
      obtain ⟨j, hj, regains, height, higher⟩ := ih (by omega)
      by_cases hh : (ρ (n + (i + 1))).stack.length = (ρ n).stack.length
      · refine ⟨i + 1, le_rfl, regains.tail ?_ ⟨by omega, by rw [hh, height], ?_⟩, hh, ?_⟩
        · rcases hi j (by omega) with h | h
          · omega
          · exact h.2
        · intro l hl hl'
          rw [height]
          exact higher l hl (by omega)
        · intro l hl hl'
          omega
      · have hlt : i + 1 < m := by
          rcases him.lt_or_eq with h | rfl
          · exact h
          · exact absurd hm hh
        refine ⟨j, by omega, regains, height, fun l hl hl' => ?_⟩
        rcases hl'.lt_or_eq with h | rfl
        · exact higher l hl (by omega)
        · exact (hi (i + 1) hlt).resolve_right fun h => hh h.1
  obtain ⟨j, hj, regains, -, higher⟩ := last m le_rfl
  rcases hj.lt_or_eq with h | rfl
  · have := higher (n + m) (by omega) le_rfl
    omega
  · exact regains

/-- A program whose steps lead back to its stack has control again there. -/
theorem regains_of_leads {n : ℕ} (h : State.Leads C (State.Inside (ρ n).stack.length) Q (ρ n))
    (hQ : ∀ s, Q s → s.stack.length = (ρ n).stack.length) : ∃ m, ρ.Regains n m ∧ Q (ρ m) := by
  obtain ⟨m, hm, hi⟩ := exists_of_leads h
  exact ⟨n + m, regains_of_inside hi (hQ _ hm), hm⟩

end Run

end NameRegistry
