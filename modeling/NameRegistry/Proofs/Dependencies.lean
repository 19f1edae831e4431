import NameRegistry.Proofs.AsMap
import NameRegistry.Proofs.Causes
import NameRegistry.Proofs.InFlight

/-!
# Names that need other names

A rule that makes an entity for a name may need another entity first, which it gets by its name
from the same registry. Then the rule is applied to that name too, and so on along a chain of names.

* `Recipe` : which name a name needs, and what is made from the entity that has it.
* `Recipe.rule` : the rule.
* `Recipe.Path`, `Recipe.Chain` : the names from one on, up to the first that a member has, that
  needs no other, or that has come before.

The proof goes along the chain (`State.leads_found`, `State.leads_fails`). While a pass for one name
waits for the next, its name is in flight. So a name that has come before is not resolved again but
found missing, and on the way back each pass either adds its entity or wraps the error once more.

Main result: `get_of_chain`.
-/

namespace NameRegistry

variable {μ σ α β : Type}

/-! ## Recipes -/

/-- How entities are made from one another: which name a name needs, if any, and what is made for
it from the entity with that name. -/
structure Recipe (K : Kind α) (σ : Type) where
  needs : String → Option String
  make : σ → String → α → α
  named : ∀ s name e, K.namer (make s name e) = name

namespace Recipe

variable {K : Kind α} (R : Recipe K σ)

def verdict {τ : Type} : Except RegistryError τ → Verdict
  | .error x => .error (.registry x)
  | .ok _ => .ok ()

/-- What is done for a name with the outcome for the name it needs: an entity is made and added. -/
def addFrom (r : ℕ) (name : String) : Except RegistryError α → Prog Unit σ α β Verdict
  | .error x => .done (verdict (.error x : Except RegistryError α))
  | .ok e => do
    let (_, s) ← Prog.peek
    let added ← Prog.add r (R.make s name e)
    return verdict added

/-- The rule: nothing is done for a name that needs no other. -/
def rule (r : ℕ) (name : String) : Prog Unit σ α β Verdict :=
  match R.needs name with
  | none => .done (.ok ())
  | some other => Prog.get r other >>= R.addFrom r name

/-- Each name needs the next: from a name, through others, to a last one. -/
inductive Path : String → List String → String → Prop
  | here (name : String) : Path name [] name
  | next {name other : String} {names : List String} {last : String} :
      R.needs name = some other → Path other names last → Path name (name :: names) last

/-- The chain of a name that no member has, up to the first name that a member has, that needs no
other, or that has come before. -/
structure Chain (members : List α) (name : String) (names : List String) (last : String) :
    Prop where
  path : R.Path name names last
  nodup : names.Nodup
  absent : ∀ n ∈ name :: names, n ∉ members.map K.namer
  stops : last ∈ members.map K.namer ∨ R.needs last = none ∨ last ∈ names

end Recipe

/-! ## Getting a name -/

namespace Prog

/-- What is done with the outcome of a lookup by one who gets a name. -/
def afterFind (r : ℕ) (name : String) (k : Except RegistryError α → Prog μ σ α β Verdict) :
    Except RegistryError (Option α) → Prog μ σ α β Verdict
  | .error x => k (.error x)
  | .ok (some e) => k (.ok e)
  | .ok none => .call (.missing r name) fun x => k (.error x)

theorem get_bind (r : ℕ) (name : String) (k : Except RegistryError α → Prog μ σ α β Verdict) :
    (get r name).bind k = .call (.find r name) (afterFind r name k) := by
  show Prog.call (.find r name) _ = _
  apply congrArg (Prog.call (.find r name))
  funext a
  rcases a with x | _ | e <;> rfl

end Prog

namespace World

/-- A registry over a store with some members, with one rule and no listeners to additions. Some
names are in flight. -/
structure OneRule (K : Kind α) (rule : Rule β) (r i ch : ℕ) (names : List String) (l : List α)
    (w : World Unit σ α β) : Prop where
  registry : w.registry r =
    { (K.registry i ch : Registry Unit σ α β) with rules := [rule], inFlight := names }
  store : w.stores[i]? = some ⟨l, .distinct fun _ => K.same⟩
  silent : (w.channel ch).listeners .added = []

namespace OneRule

variable {K : Kind α} {rule : Rule β} {r i ch : ℕ} {ns : List String} {l l' : List α}
  {w : World Unit σ α β}

theorem lt_length (h : w.OneRule K rule r i ch ns l) : r < w.registries.length := by
  apply lt_of_rules_ne_nil
  rw [h.registry]
  simp

theorem mark (h : w.OneRule K rule r i ch ns l) (name : String) :
    (w.mark r name).OneRule K rule r i ch (name :: ns) l where
  registry := by
    rw [World.mark, registry_modifyRegistry, if_pos ⟨rfl, h.lt_length⟩, h.registry]
  store := h.store
  silent := h.silent

theorem setMembers (h : w.OneRule K rule r i ch ns l) (l' : List α) :
    (w.setMembers i l').OneRule K rule r i ch ns l' where
  registry := h.registry
  store := by rw [setMembers_getElem? h.store, if_pos rfl]
  silent := h.silent

theorem nameOf_eq (h : w.OneRule K rule r i ch ns l) : w.nameOf r = K.namer := by
  funext e
  rw [nameOf, h.registry]
  rfl

theorem direct_eq (h : w.OneRule K rule r i ch ns l) (name : String) :
    w.direct r name = l.find? fun e => K.namer e == name := by
  have shown : w.shown (w.registry r).store = l := by
    rw [h.registry]
    exact shown_of_getElem? h.store
  rw [World.direct_eq, shown, h.nameOf_eq]

theorem direct_eq_none (h : w.OneRule K rule r i ch ns l) {name : String}
    (hn : name ∉ l.map K.namer) : w.direct r name = none := by
  rw [h.direct_eq, List.find?_eq_none]
  intro e he heq
  exact hn (List.mem_map.2 ⟨e, he, eq_of_beq heq⟩)

theorem insert? (h : w.OneRule K rule r i ch ns l) {e : α} (he : K.namer e ∉ l.map K.namer) :
    w.insert? (.root i) e = some (w.setMembers i (l ++ [e])) := by
  have different : ∀ x ∈ l, ¬ K.same x e := by
    intro x hx hs
    exact he (List.mem_map.2 ⟨x, hx, K.named x e hs⟩)
  rw [insert?_distinct h.store rfl, if_pos ⟨rfl, different⟩]
  rfl

end OneRule

end World

/-! ## Steps -/

namespace State

variable {C : Client Unit σ α β} {K : Kind α} {R : Recipe K σ} {rule : Rule β} {r i ch : ℕ}
  {ns : List String} {l l' : List α} {w : World Unit σ α β} {base : List (Frame Unit σ α β)}
  {name other last : String} {names : List String}
  {k : Except RegistryError α → Prog Unit σ α β Verdict}

variable (base) in
theorem step_member (h : w.OneRule K rule r i ch ns l) (hn : name ∈ l.map K.namer) :
    ∃ e, K.namer e = name ∧
      Step C ⟨w, base, (Prog.get r name).bind k⟩ ⟨w, base, k (.ok e)⟩ := by
  obtain ⟨x, hx, rfl⟩ := List.mem_map.1 hn
  have found : w.direct r (K.namer x) ≠ none := by
    rw [h.direct_eq, Ne, List.find?_eq_none]
    intro hno
    exact hno x hx (beq_self_eq_true _)
  obtain ⟨e, he⟩ := Option.ne_none_iff_exists'.1 found
  have named := (World.of_direct_eq_some he).2
  rw [h.nameOf_eq] at named
  have hresp : w.respond C (.find r (K.namer x)) = (w, .answer (.ok (some e))) := by
    simp only [World.respond, he]
  refine ⟨e, named, ?_⟩
  rw [Prog.get_bind]
  exact .answer hresp

theorem step_missing (h : w.OneRule K rule r i ch ns l) (name : String) :
    Step C ⟨w, base, .call (.missing r name) fun x => k (.error x)⟩
      ⟨w, base, k (.error (.missing K.displayName name))⟩ := by
  have hresp : w.respond C (.missing r name) = (w, .answer (.missing K.displayName name)) := by
    simp only [World.respond, h.registry]
    rfl
  exact .answer hresp

/-- A lookup of a name that is missing starts a pass. -/
theorem step_pass (hC : C.rule rule.action r = R.rule r) (h : w.OneRule K rule r i ch ns l)
    (absent : name ∉ l.map K.namer) (free : name ∉ ns) :
    Step C ⟨w, base, (Prog.get r name).bind k⟩
      ⟨w.mark r name, .pass r name rule.description [] (Prog.afterFind r name k) :: base,
        R.rule r name⟩ := by
  have hresp : w.respond C (.find r name) = (w, .resolve r name id) := by
    simp only [World.respond, h.direct_eq_none absent, h.registry, if_neg free]
  have hrules : (w.registry r).rules = [rule] := by rw [h.registry]
  rw [Prog.get_bind, ← hC]
  exact .start hresp hrules

theorem step_close (w : World Unit σ α β) (base : List (Frame Unit σ α β)) {d : String}
    {k : Except RegistryError (Option α) → Prog Unit σ α β Verdict} :
    Step C ⟨w.mark r name, .pass r name d [] k :: base, .done (.ok ())⟩
      ⟨w, base, k (.ok (w.direct r name))⟩ := by
  have h : Step C ⟨w.mark r name, .pass r name d [] k :: base, .done (.ok ())⟩
      ⟨(w.mark r name).release r name, base,
        k (.ok (((w.mark r name).release r name).direct r name))⟩ := .close
  rwa [World.release_mark] at h

theorem step_fail (w : World Unit σ α β) (base : List (Frame Unit σ α β)) {d : String}
    {k : Except RegistryError (Option α) → Prog Unit σ α β Verdict} (source : RuleError) :
    Step C ⟨w.mark r name, .pass r name d [] k :: base, .done (.error source)⟩
      ⟨w, base, k (.error (.rule d source))⟩ := by
  have h : Step C ⟨w.mark r name, .pass r name d [] k :: base, .done (.error source)⟩
      ⟨(w.mark r name).release r name, base, k (.error (.rule d source))⟩ := .fail
  rwa [World.release_mark] at h

theorem inside_get (w : World Unit σ α β) (base : List (Frame Unit σ α β)) (r : ℕ) (name : String)
    (k : Except RegistryError α → Prog Unit σ α β Verdict) :
    Inside base.length (⟨w, base, (Prog.get r name).bind k⟩ : State Unit σ α β) := by
  rw [Prog.get_bind]
  exact .inr ⟨rfl, trivial⟩

/-- A name that needs no other, or that is in flight, is not found. -/
theorem leads_stuck (hC : C.rule rule.action r = R.rule r) (h : w.OneRule K rule r i ch ns l)
    (absent : name ∉ l.map K.namer) (stuck : R.needs name = none ∨ name ∈ ns) :
    Leads C (Inside base.length)
      (fun s => s = ⟨w, base, k (.error (.missing K.displayName name))⟩)
      ⟨w, base, (Prog.get r name).bind k⟩ := by
  have missing : Leads C (Inside base.length)
      (fun s => s = ⟨w, base, k (.error (.missing K.displayName name))⟩)
      ⟨w, base, Prog.afterFind r name k (.ok none)⟩ :=
    .step (.inr ⟨rfl, trivial⟩) (step_missing h name) (.here rfl)
  by_cases free : name ∈ ns
  · have hresp : w.respond C (.find r name) = (w, .answer (.ok none)) := by
      simp only [World.respond, h.direct_eq_none absent, h.registry, if_pos free]
    refine .step (inside_get w base r name k) ?_ missing
    rw [Prog.get_bind]
    exact .answer hresp
  · have pass : Step C ⟨w, base, (Prog.get r name).bind k⟩
        ⟨w.mark r name, .pass r name rule.description [] (Prog.afterFind r name k) :: base,
          .done (.ok ())⟩ := by
      have idle : R.rule r name = (.done (.ok ()) : Prog Unit σ α β Verdict) := by
        unfold Recipe.rule
        rw [stuck.resolve_right free]
      rw [← idle]
      exact step_pass hC h absent free
    have close : Step C
        ⟨w.mark r name, .pass r name rule.description [] (Prog.afterFind r name k) :: base,
          .done (.ok ())⟩ ⟨w, base, Prog.afterFind r name k (.ok none)⟩ := by
      rw [← h.direct_eq_none absent]
      exact step_close w base
    refine .step (inside_get w base r name k) pass (.step (.inl ?_) close missing)
    exact Nat.lt_succ_self _

theorem leads_added (h : w.OneRule K rule r i ch ns l) (hn : name ∉ l'.map K.namer) (e : α) :
    Leads C (Inside base.length)
      (fun s => ∃ new, K.namer new = name ∧
        s = ⟨w.setMembers i (l' ++ [new]), base, k (.ok new)⟩)
      ⟨(w.mark r name).setMembers i l',
        .pass r name rule.description [] (Prog.afterFind r name k) :: base,
        R.addFrom r name (.ok e)⟩ := by
  obtain ⟨new, hnew⟩ : ∃ new, R.make w.client name e = new := ⟨_, rfl⟩
  have named : K.namer new = name := by
    rw [← hnew]
    exact R.named w.client name e
  have absent : K.namer new ∉ l'.map K.namer := by rwa [named]
  have before := (h.mark name).setMembers l'
  have after := (h.mark name).setMembers (l' ++ [new])
  have hresp : ((w.mark r name).setMembers i l').respond C (.add r new) =
      ((w.mark r name).setMembers i (l' ++ [new]), .tell (.root ch) .added new (.ok true)) := by
    simp only [World.respond, before.nameOf_eq, before.direct_eq_none absent, before.registry,
      Kind.registry, before.insert? absent, World.setMembers_setMembers]
    rfl
  have found : (w.setMembers i (l' ++ [new])).direct r name = some new := by
    rw [(h.setMembers (l' ++ [new])).direct_eq, List.find?_append, List.find?_eq_none.2]
    · simp [named]
    · intro x hx heq
      exact hn (List.mem_map.2 ⟨x, hx, eq_of_beq heq⟩)
  let stack := .pass r name rule.description [] (Prog.afterFind r name k) :: base
  have make : Step C ⟨(w.mark r name).setMembers i l', stack, R.addFrom r name (.ok e)⟩
      ⟨(w.mark r name).setMembers i l', stack,
        .call (.add r new) fun a => .done (Recipe.verdict a)⟩ := by
    rw [← hnew]
    exact .act rfl
  have add : Step C ⟨(w.mark r name).setMembers i l', stack,
      .call (.add r new) fun a => .done (Recipe.verdict a)⟩
      ⟨(w.mark r name).setMembers i (l' ++ [new]),
        .delivery ⟨ch, .added, new⟩ 0 [] (.done (.ok ())) :: stack, .done (.ok ())⟩ := by
    rw [← after.silent]
    exact .tell hresp rfl
  have close : Step C ⟨(w.mark r name).setMembers i (l' ++ [new]), stack, .done (.ok ())⟩
      ⟨w.setMembers i (l' ++ [new]), base, k (.ok new)⟩ := by
    show Step C _ ⟨_, base, Prog.afterFind r name k (.ok (some new))⟩
    rw [← found]
    exact step_close (w.setMembers i (l' ++ [new])) base
  have higher (p : Prog Unit σ α β Verdict) (w' : World Unit σ α β) :
      Inside base.length (⟨w', stack, p⟩ : State Unit σ α β) := .inl (Nat.lt_succ_self _)
  refine .step (higher _ _) make (.step (higher _ _) add ?_)
  refine .step (.inl ?_) .delivered (.step (higher _ _) close (.here ⟨new, named, rfl⟩))
  show base.length < base.length + 1 + 1
  omega

/-- A name that needs another starts a pass, in which the rule gets the other one. -/
theorem step_next (hC : C.rule rule.action r = R.rule r) (h : w.OneRule K rule r i ch ns l)
    (needs : R.needs name = some other) (absent : name ∉ l.map K.namer) (free : name ∉ ns) :
    Step C ⟨w, base, (Prog.get r name).bind k⟩
      ⟨w.mark r name, .pass r name rule.description [] (Prog.afterFind r name k) :: base,
        (Prog.get r other).bind (R.addFrom r name)⟩ := by
  have get : (R.rule r name : Prog Unit σ α β Verdict) =
      (Prog.get r other).bind (R.addFrom r name) := by
    unfold Recipe.rule
    rw [needs]
    rfl
  rw [← get]
  exact step_pass hC h absent free

variable (base) in
/-- **A chain that ends with a member.** On the way back an entity is added for each name. -/
theorem leads_found (hC : C.rule rule.action r = R.rule r) (path : R.Path name names last)
    (h : w.OneRule K rule r i ch ns l) (nodup : names.Nodup)
    (absent : ∀ n ∈ names, n ∉ l.map K.namer) (free : ∀ n ∈ names, n ∉ ns)
    (member : last ∈ l.map K.namer) :
    Leads C (Inside base.length)
      (fun s => ∃ new e, new.map K.namer = names.reverse ∧ K.namer e = name ∧
        s = ⟨w.setMembers i (l ++ new), base, k (.ok e)⟩)
      ⟨w, base, (Prog.get r name).bind k⟩ := by
  induction path generalizing w ns base k with
  | here name =>
    obtain ⟨e, named, hstep⟩ := step_member (C := C) (k := k) base h member
    refine .step (inside_get w base r name k) hstep (.here ⟨[], e, rfl, named, ?_⟩)
    rw [List.append_nil, World.setMembers_self h.store]
  | @next name other names last needs path ih =>
    obtain ⟨hn, nodup⟩ := List.nodup_cons.1 nodup
    obtain ⟨hna, absent⟩ := List.forall_mem_cons.1 absent
    obtain ⟨hnf, free⟩ := List.forall_mem_cons.1 free
    have other_free : ∀ n ∈ names, n ∉ name :: ns := by
      intro n hmem
      rw [List.mem_cons, not_or]
      exact ⟨fun heq => hn (heq ▸ hmem), free n hmem⟩
    refine .step (inside_get w base r name k) (step_next hC h needs hna hnf) ?_
    refine ((ih _ (h.mark name) nodup absent other_free member).mono (fun _ => .of_cons)
      fun _ h => h).trans ?_
    rintro s ⟨new, e, hnew, -, rfl⟩
    have unnamed : name ∉ (l ++ new).map K.namer := by
      rw [List.map_append, List.mem_append, hnew, List.mem_reverse]
      exact not_or.2 ⟨hna, hn⟩
    refine (leads_added h unnamed e).mono (fun _ h => h) ?_
    rintro s ⟨x, named, rfl⟩
    refine ⟨new ++ [x], x, ?_, named, by rw [List.append_assoc]⟩
    rw [List.map_append, hnew, List.map_singleton, named, List.reverse_cons]

variable (base) in
/-- **A chain that ends without a member.** On the way back each rule fails. -/
theorem leads_fails (hC : C.rule rule.action r = R.rule r) (path : R.Path name names last)
    (h : w.OneRule K rule r i ch ns l) (nodup : names.Nodup)
    (absent : ∀ n ∈ names, n ∉ l.map K.namer) (free : ∀ n ∈ names, n ∉ ns)
    (missing : last ∉ l.map K.namer) (stuck : R.needs last = none ∨ last ∈ names ∨ last ∈ ns) :
    Leads C (Inside base.length)
      (fun s => s = ⟨w, base, k (.error ((RegistryError.missing K.displayName last).behind
        (List.replicate names.length rule.description)))⟩)
      ⟨w, base, (Prog.get r name).bind k⟩ := by
  induction path generalizing w ns base k with
  | here name =>
    refine leads_stuck hC h missing ?_
    simpa using stuck
  | @next name other names last needs path ih =>
    obtain ⟨hn, nodup⟩ := List.nodup_cons.1 nodup
    obtain ⟨hna, absent⟩ := List.forall_mem_cons.1 absent
    obtain ⟨hnf, free⟩ := List.forall_mem_cons.1 free
    have other_free : ∀ n ∈ names, n ∉ name :: ns := by
      intro n hmem
      rw [List.mem_cons, not_or]
      exact ⟨fun heq => hn (heq ▸ hmem), free n hmem⟩
    have other_stuck : R.needs last = none ∨ last ∈ names ∨ last ∈ name :: ns := by
      simp only [List.mem_cons] at stuck ⊢
      tauto
    refine .step (inside_get w base r name k) (step_next hC h needs hna hnf) ?_
    refine ((ih _ (h.mark name) nodup absent other_free missing other_stuck).mono
      (fun _ => .of_cons) fun _ h => h).trans ?_
    rintro s rfl
    exact .step (.inl (Nat.lt_succ_self _)) (step_fail w base _) (.here rfl)

end State

/-! ## Runs -/

/-- **A chain resolves or names the culprit.** Let a registry that is no view stand on a store, with
the hooks of a configuration, such as those that decide nothing, with no name in flight and no
listeners to additions, and with one rule, which makes entities from one another. At any moment of
any run, let a name be got that no member has, and let the chain of names from it end with a first
one, `last`, that a member has, that needs no other, or that has come before.

The program that gets the name always goes on. If a member has the last name, it goes on with an
entity that has the name that was asked for, and the members are those there were followed by one
for each name of the chain, the last one first. Otherwise it goes on with an error, in which as many
rules as there are names in the chain have failed, one in the other, with the missing last name
behind them, and the world is as it was. No name is left in flight. -/
theorem get_of_chain {C : Client Unit σ α β} (ρ : Run C) (n : ℕ) (K : Kind α) (R : Recipe K σ)
    (rule : Rule β) (r i ch : ℕ) (l : List α) (resolves : C.rule rule.action r = R.rule r)
    (registry : (ρ n).world.registry r = { (K.registry i ch : Registry Unit σ α β) with
      rules := [rule] })
    (store : (ρ n).world.stores[i]? = some ⟨l, .distinct fun _ => K.same⟩)
    (silent : ((ρ n).world.channel ch).listeners .added = [])
    (name : String) (names : List String) (last : String) (chain : R.Chain l name names last)
    (k : Except RegistryError α → Prog Unit σ α β Verdict)
    (hc : (ρ n).control = (Prog.get r name).bind k) :
    ∃ m, ρ.Regains n m ∧ ((ρ m).world.registry r).inFlight = [] ∧
      (last ∈ l.map K.namer → ∃ new e, new.map K.namer = names.reverse ∧ K.namer e = name ∧
        ρ m = ⟨(ρ n).world.setMembers i (l ++ new), (ρ n).stack, k (.ok e)⟩) ∧
      (last ∉ l.map K.namer → ∃ x : RegistryError,
        x = (RegistryError.missing K.displayName last).behind
          (List.replicate names.length rule.description) ∧
        x.rootNotFound? = some (.missing K.displayName last) ∧
        (RegistryError.missing K.displayName last).missingName? = some last ∧
        ρ m = ⟨(ρ n).world, (ρ n).stack, k (.error x)⟩) := by
  have hs : ρ n = ⟨(ρ n).world, (ρ n).stack, (Prog.get r name).bind k⟩ := by rw [← hc]
  have h : (ρ n).world.OneRule K rule r i ch [] l := ⟨registry, store, silent⟩
  have absent : ∀ x ∈ names, x ∉ l.map K.namer :=
    fun x hx => chain.absent x (List.mem_cons_of_mem _ hx)
  have free : ∀ x ∈ names, x ∉ ([] : List String) := fun _ _ => List.not_mem_nil
  by_cases member : last ∈ l.map K.namer
  · have leads := State.leads_found (k := k) (ρ n).stack resolves chain.path h
      chain.nodup absent free member
    rw [← hs] at leads
    obtain ⟨m, regains, new, e, hnew, named, hm⟩ := Run.regains_of_leads leads (by
      rintro s ⟨-, -, -, -, rfl⟩
      rfl)
    refine ⟨m, regains, ?_, fun _ => ⟨new, e, hnew, named, hm⟩, fun hno => absurd member hno⟩
    rw [hm, (h.setMembers (l ++ new)).registry]
  · have stuck : R.needs last = none ∨ last ∈ names ∨ last ∈ ([] : List String) := by
      rcases chain.stops with h | h | h
      · exact absurd h member
      · exact .inl h
      · exact .inr (.inl h)
    have leads := State.leads_fails (k := k) (ρ n).stack resolves chain.path h
      chain.nodup absent free member stuck
    rw [← hs] at leads
    obtain ⟨m, regains, hm⟩ := Run.regains_of_leads leads (by
      rintro s rfl
      rfl)
    refine ⟨m, regains, ?_, fun hmem => absurd hmem member, fun _ => ⟨_, rfl, ?_, rfl, hm⟩⟩
    · rw [hm, registry]
      rfl
    · rw [RegistryError.rootNotFound?_behind]
      rfl

/-! Programs are known by their names. One that is to be built may need another one, and two of
them need each other. -/

def programs : Kind String where
  namer e := e
  same := (· == ·)
  typeName := "Program"
  config := {}
  named _ _ h := eq_of_beq h

def build : Recipe programs Unit where
  needs
    | "app" => some "lib"
    | "lib" => some "core"
    | "core" => some "lib"
    | _ => none
  make _ name _ := name
  named _ _ _ := rfl

def builder : Client Unit Unit String Unit where
  rule _ := build.rule
  action _ _ := .done ()

/-- What is done with a program that was got: nothing, and an error is passed on. -/
def afterBuild (got : Except RegistryError String) : Prog Unit Unit String Unit Verdict :=
  .done (Recipe.verdict got)

/-- The registry with some members, and a program that gets one. -/
def buildStart (l : List String) : State Unit Unit String Unit where
  world :=
    { memory := ()
      client := ()
      stores := [⟨l, .distinct fun _ => (· == ·)⟩]
      channels := [{}]
      registries := [{ (programs.registry 0 0 : Registry Unit Unit String Unit) with
        rules := [⟨"build", ()⟩] }] }
  stack := []
  control := (Prog.get 0 "app").bind afterBuild

theorem get_of_chain_build :
    (∃ (ρ : Run builder) (m : ℕ), ρ 0 = buildStart ["core"] ∧ ρ.Regains 0 m ∧
      (ρ m).control = afterBuild (.ok "app") ∧
      ((ρ m).world.store 0).members = ["core", "lib", "app"]) ∧
    ∃ (ρ : Run builder) (m : ℕ), ρ 0 = buildStart [] ∧ ρ.Regains 0 m ∧
      (ρ m).control = afterBuild (.error ((RegistryError.missing "Program" "lib").behind
        ["build", "build", "build"])) ∧
      ((ρ m).world.store 0).members = [] := by
  constructor
  · have chain : build.Chain ["core"] "app" ["app", "lib"] "core" :=
      ⟨.next rfl (.next rfl (.here _)), by decide, by decide, .inl (by decide)⟩
    obtain ⟨m, regains, -, found, -⟩ := get_of_chain (Run.of builder (buildStart ["core"])) 0
      programs build ⟨"build", ()⟩ 0 0 0 ["core"] rfl rfl rfl rfl "app" ["app", "lib"] "core" chain
      afterBuild rfl
    obtain ⟨new, e, hnew, he, hm⟩ := found (by decide)
    obtain rfl : new = ["lib", "app"] := (List.map_id new).symm.trans hnew
    obtain rfl : e = "app" := he
    refine ⟨Run.of builder (buildStart ["core"]), m, rfl, regains, ?_, ?_⟩
    · rw [hm]
    · rw [hm]
      rfl
  · have chain : build.Chain [] "app" ["app", "lib", "core"] "lib" :=
      ⟨.next rfl (.next rfl (.next rfl (.here _))), by decide, by decide, .inr (.inr (by decide))⟩
    obtain ⟨m, regains, -, -, fails⟩ := get_of_chain (Run.of builder (buildStart [])) 0
      programs build ⟨"build", ()⟩ 0 0 0 [] rfl rfl rfl rfl "app" ["app", "lib", "core"] "lib" chain
      afterBuild rfl
    obtain ⟨x, rfl, -, -, hm⟩ := fails (by decide)
    refine ⟨Run.of builder (buildStart []), m, rfl, regains, ?_, ?_⟩
    · rw [hm]
      rfl
    · rw [hm]
      rfl

end NameRegistry
