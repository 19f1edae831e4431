import NameRegistry.Program.Call

/-!
# Client programs

A client of the registries is a program: it acts on the memory and on its own state, calls the
library, and goes on with the answer. Rules and listeners are programs too; the library knows them
by their keys and runs them. A program that panics breaks off those that wait for it as well: none
of them catches the panic of a call that it made, and only a new program begins after it.

* `Prog` : programs. They form a lawful monad.
* `Client` : the programs behind the keys.
-/

namespace NameRegistry

/-- A program with a result. -/
inductive Prog (μ σ α β ρ : Type) where
  /-- Ends with a result. -/
  | done (result : ρ)
  /-- Breaks off everything that is being done. -/
  | panic (message : String)
  /-- Acts on the memory and on the client's state, and goes on with them. -/
  | act (f : μ → σ → μ × σ) (k : μ → σ → Prog μ σ α β ρ)
  /-- Calls the library and goes on with the answer. -/
  | call (c : Call μ σ α β) (k : c.Reply → Prog μ σ α β ρ)

namespace Prog

variable {μ σ α β ρ τ : Type}

instance : Inhabited (Prog μ σ α β ρ) := ⟨.panic ""⟩

/-- Runs a program and goes on with its result. -/
def bind : Prog μ σ α β ρ → (ρ → Prog μ σ α β τ) → Prog μ σ α β τ
  | .done r, g => g r
  | .panic message, _ => .panic message
  | .act f k, g => .act f fun m s => (k m s).bind g
  | .call c k, g => .call c fun a => (k a).bind g

instance : Monad (Prog μ σ α β) where
  pure := .done
  bind := .bind

/-! ## Laws -/

@[simp] theorem pure_eq (r : ρ) : (pure r : Prog μ σ α β ρ) = .done r := rfl

@[simp] theorem bind_eq (p : Prog μ σ α β ρ) (g : ρ → Prog μ σ α β τ) : p >>= g = p.bind g := rfl

@[simp] theorem done_bind (r : ρ) (g : ρ → Prog μ σ α β τ) : (done r).bind g = g r := rfl

@[simp] theorem panic_bind (message : String) (g : ρ → Prog μ σ α β τ) :
    (panic message).bind g = .panic message := rfl

@[simp] theorem call_bind (c : Call μ σ α β) (k : c.Reply → Prog μ σ α β ρ)
    (g : ρ → Prog μ σ α β τ) : (call c k).bind g = .call c fun a => (k a).bind g := rfl

@[simp] theorem bind_done (p : Prog μ σ α β ρ) : p.bind .done = p := by
  induction p with
  | done r => rfl
  | panic message => rfl
  | act f k ih => simp only [bind, ih]
  | call c k ih => simp only [bind, ih]

theorem bind_assoc {υ : Type} (p : Prog μ σ α β ρ) (g : ρ → Prog μ σ α β τ)
    (h : τ → Prog μ σ α β υ) : (p.bind g).bind h = p.bind fun r => (g r).bind h := by
  induction p with
  | done r => rfl
  | panic message => rfl
  | act f k ih => simp only [bind, ih]
  | call c k ih => simp only [bind, ih]

instance : LawfulMonad (Prog μ σ α β) :=
  LawfulMonad.mk' _ bind_done (fun _ _ => rfl) bind_assoc

/-! ## Single steps -/

def request (c : Call μ σ α β) : Prog μ σ α β c.Reply := .call c .done

/-- Reads the memory and the client's state. -/
def peek : Prog μ σ α β (μ × σ) := .act (fun m s => (m, s)) fun m s => .done (m, s)

def modify (f : σ → σ) : Prog μ σ α β Unit := .act (fun m s => (m, f s)) fun _ _ => .done ()

def write (f : μ → μ) : Prog μ σ α β Unit := .act (fun m s => (f m, s)) fun _ _ => .done ()

end Prog

/-- The programs behind the keys `β` of rules and actions. -/
structure Client (μ σ α β : Type) where
  /-- What a rule does for a registry and a name. -/
  rule : β → Nat → String → Prog μ σ α β Verdict
  /-- What an action does with an entity. -/
  action : β → α → Prog μ σ α β Unit

end NameRegistry
