import NameRegistry.Proofs.InFlight
import NameRegistry.Proofs.Leads
import Mathlib.Data.Finset.Prod

/-!
# Resolution on finitely many names

Rules look names up, and a lookup applies rules. Where all lookups are of names of a finite set, on
registries of a finite set, they come to an end.

* `active` : the passes on a stack, each by its registry and name.
* `Call.Resolves` : what rules do: they look names of `N` up on registries of `F`, add entities, and
  register rules of the same kind.
* `World.Tame` : nobody listens, and the registries of `F` have rules of that kind.
* `World.free` : the registries and names that a pass may still start for.

A pass puts its name in flight, so its rules have fewer registries and names to start passes for
(`World.card_free_mark`). That is the induction: on how many are free, then on the rules that a pass
has still to apply, and then on the program of a rule. Rules that are registered meanwhile do not
prolong a pass, which applies those that there were when it started.

Main result: `lookup_terminates`.
-/

namespace NameRegistry

variable {μ σ α β : Type}

/-! ## Active passes -/

/-- The registry and the name of the pass that is a frame's work. -/
def Frame.active : Frame μ σ α β → List (ℕ × String)
  | .pass r name _ _ _ => [(r, name)]
  | _ => []

/-- The active passes on a stack, each by its registry and name, the latest first. -/
def active (stack : List (Frame μ σ α β)) : List (ℕ × String) := stack.flatMap Frame.active

@[simp] theorem active_nil : active ([] : List (Frame μ σ α β)) = [] := rfl

@[simp] theorem active_cons (f : Frame μ σ α β) (stack : List (Frame μ σ α β)) :
    active (f :: stack) = f.active ++ active stack := rfl

@[simp] theorem active_append (top stack : List (Frame μ σ α β)) :
    active (top ++ stack) = active top ++ active stack := List.flatMap_append

theorem mem_active_iff {r : ℕ} {name : String} {stack : List (Frame μ σ α β)} :
    (r, name) ∈ active stack ↔ name ∈ passes r stack := by
  simp only [active, passes, List.mem_flatMap]
  refine exists_congr fun f => and_congr_right fun _ => ?_
  cases f with
  | pass r' name' =>
    simp only [Frame.active, Frame.marks, List.mem_singleton, Prod.mk.injEq]
    by_cases hr : r = r'
    · simp [hr]
    · simp [hr, Ne.symm hr]
  | delivery | resume => simp [Frame.active, Frame.marks]

theorem active_nodup {stack : List (Frame μ σ α β)} (h : ∀ r, (passes r stack).Nodup) :
    (active stack).Nodup := by
  induction stack with
  | nil => exact List.nodup_nil
  | cons f stack ih =>
    have below : (active stack).Nodup := ih fun r => (List.nodup_append.1 (h r)).2.1
    cases f with
    | pass r name =>
      have hr := h r
      rw [passes_pass, if_pos rfl] at hr
      exact List.nodup_cons.2 ⟨fun hmem => (List.nodup_cons.1 hr).1 (mem_active_iff.1 hmem), below⟩
    | delivery | resume => exact below

/-- No more passes are active than there are registries and names for them. -/
theorem length_active_le {stack : List (Frame μ σ α β)} {F : Finset ℕ} {N : Finset String}
    (h : ∀ r, (passes r stack).Nodup) (hs : ∀ x ∈ active stack, x ∈ F ×ˢ N) :
    (active stack).length ≤ F.card * N.card := by
  rw [← Finset.card_product, ← List.toFinset_card_of_nodup (active_nodup h)]
  exact Finset.card_le_card fun x hx => hs x (List.mem_toFinset.1 hx)

/-! ## Programs of rules -/

section

variable (F : Finset ℕ) (N : Finset String) (K : β → Prop)

/-- A call looks a name of `N` up on a registry of `F`, does a look-up that applies no rules, adds
an entity or gives it a place, or registers a rule with a key of `K`. -/
inductive Call.Resolves : Call μ σ α β → Prop
  | find {r name} : r ∈ F → name ∈ N → Resolves (.find r name)
  | missing (r : ℕ) (name : String) : Resolves (.missing r name)
  | direct (r : ℕ) (name : String) : Resolves (.direct r name)
  | removeByName (r : ℕ) (name : String) : Resolves (.removeByName r name)
  | settle (e : α) : Resolves (.settle e)
  | add (r : ℕ) (e : α) : Resolves (.add r e)
  | addRule (r : ℕ) {rule} : K rule.action → Resolves (.addRule r rule)

/-- Nobody listens, and the rules of the registries `F` have keys of `K`. -/
structure World.Tame (w : World μ σ α β) : Prop where
  silent : ∀ c change, (w.channel c).listeners change = []
  rules : ∀ r ∈ F, ∀ rule ∈ (w.registry r).rules, K rule.action

/-- The registries of `F` and names of `N` that a pass may still start for. -/
def World.free (w : World μ σ α β) : Finset (ℕ × String) :=
  (F ×ˢ N).filter fun x => x.2 ∉ (w.registry x.1).inFlight

end

variable {F : Finset ℕ} {N : Finset String} {K : β → Prop}

namespace Prog

/-- A lookup that must find the name makes such calls. -/
theorem makes_get {r : ℕ} {name : String} (hr : r ∈ F) (hn : name ∈ N) :
    (get r name : Prog μ σ α β _).Makes (Call.Resolves F N K) := by
  refine Makes.bind (.call (.find hr hn) .done) fun a => ?_
  rcases a with x | ⟨_ | e⟩
  · exact .done _
  · exact .call (.missing r name) fun x => .done _
  · exact .done _

end Prog

/-! ## Worlds -/

namespace World

variable {w w' : World μ σ α β}

/-- A world in which the same names are in flight, and which is tame. -/
structure Calm (F : Finset ℕ) (K : β → Prop) (w w' : World μ σ α β) : Prop where
  tame : w'.Tame F K
  inFlight : ∀ r, (w'.registry r).inFlight = (w.registry r).inFlight

theorem Calm.trans {w'' : World μ σ α β} (h : w.Calm F K w') (h' : w'.Calm F K w'') :
    w.Calm F K w'' :=
  ⟨h'.tame, fun r => (h'.inFlight r).trans (h.inFlight r)⟩

theorem Calm.free_eq (h : w.Calm F K w') : w'.free F N = w.free F N := by
  simp only [free, h.inFlight]

/-- Only the channels and the registries count. -/
theorem Tame.of_eq (h : w.Tame F K) (hr : w'.registries = w.registries)
    (hc : w'.channels = w.channels) : w'.Tame F K where
  silent c change := by
    rw [channel, hc]
    exact h.silent c change
  rules r hF := by
    rw [registry_of_eq hr]
    exact h.rules r hF

/-- The memory and the client's state do not count. -/
theorem Tame.state (h : w.Tame F K) (m : μ) (s : σ) :
    w.Calm F K { w with memory := m, client := s } :=
  ⟨h.of_eq rfl rfl, fun _ => rfl⟩

/-- A registry may change all but its rules. -/
theorem Tame.modifyRegistry (h : w.Tame F K) (r : ℕ)
    {f : Registry μ σ α β → Registry μ σ α β}
    (hf : ∀ reg, ∀ rule ∈ (f reg).rules, rule ∈ reg.rules ∨ K rule.action) :
    (w.modifyRegistry r f).Tame F K where
  silent := h.silent
  rules r' hF rule hrule := by
    rw [registry_modifyRegistry] at hrule
    split_ifs at hrule
    · exact (hf _ rule hrule).elim (h.rules r' hF rule) id
    · exact h.rules r' hF rule hrule

theorem Tame.addRule (h : w.Tame F K) (r : ℕ) {rule : Rule β} (hrule : K rule.action) :
    (w.addRule r rule).Tame F K := by
  refine h.modifyRegistry r fun reg x hx => ?_
  rcases List.mem_append.1 hx with hx | hx
  · exact .inl hx
  · exact .inr (List.mem_singleton.1 hx ▸ hrule)

theorem Tame.mark (h : w.Tame F K) (r : ℕ) (name : String) : (w.mark r name).Tame F K :=
  h.modifyRegistry r fun _ _ hx => .inl hx

theorem Tame.release (h : w.Tame F K) (r : ℕ) (name : String) : (w.release r name).Tame F K :=
  h.modifyRegistry r fun _ _ hx => .inl hx

/-- **The measure.** A pass that starts leaves fewer registries and names to start passes for. -/
theorem card_free_mark {r : ℕ} {name : String} (hr : r ∈ F) (hn : name ∈ N)
    (hfree : name ∉ (w.registry r).inFlight) (hlt : r < w.registries.length) :
    ((w.mark r name).free F N).card < (w.free F N).card := by
  refine Finset.card_lt_card (Finset.ssubset_iff_of_subset ?_ |>.2 ⟨(r, name), ?_, ?_⟩)
  · refine Finset.monotone_filter_right _ fun x _ hx hmem => hx ?_
    rw [mark_inFlight hlt]
    split_ifs
    · exact List.mem_cons_of_mem _ hmem
    · exact hmem
  · exact Finset.mem_filter.2 ⟨Finset.mk_mem_product hr hn, hfree⟩
  · intro hmem
    refine (Finset.mem_filter.1 hmem).2 ?_
    rw [mark_inFlight hlt, if_pos rfl]
    exact List.mem_cons_self

/-- When a pass ends, the names in flight are those from before it. -/
theorem Calm.release {r : ℕ} {name : String} (h : (w.mark r name).Calm F K w')
    (hlt : r < w.registries.length) : w.Calm F K (w'.release r name) where
  tame := h.tame.release r name
  inFlight r' := by
    rw [release_inFlight, h.inFlight, mark_inFlight hlt]
    split_ifs
    · rw [List.erase_cons_head]
    · rfl

end World

/-! ## Calls -/

/-- What the library does about a call of a rule: it answers, or tells a channel of a change, or
starts a pass for a name that is not in flight. -/
inductive World.Handles (F : Finset ℕ) (N : Finset String) (K : β → Prop) (w : World μ σ α β)
    {ρ : Type} : World μ σ α β × Reaction μ σ α β ρ → Prop
  | answer {w' a} : w.Calm F K w' → Handles F N K w (w', .answer a)
  | tell {w' ch change e a} : w.Calm F K w' → Handles F N K w (w', .tell ch change e a)
  | resolve {r name a} : r ∈ F → name ∈ N → name ∉ (w.registry r).inFlight →
      Handles F N K w (w, .resolve r name a)

variable [Memory μ α] {C : Client μ σ α β} {w : World μ σ α β} {c : Call μ σ α β}

theorem World.Tame.handles (h : w.Tame F K) (hc : c.Resolves F N K) :
    w.Handles F N K (w.respond C c) := by
  have calm {w' : World μ σ α β} (hw : w'.Tame F K) (heq : (w.respond C c).1 = w') :
      w.Calm F K w' := ⟨hw, fun r => by rw [← heq, World.respond_inFlight]⟩
  cases hc with
  | missing | direct | settle => exact .answer (h.state _ _)
  | addRule r hrule => exact .answer (calm (h.addRule r hrule) rfl)
  | @find r name hr hn =>
    simp only [World.respond]
    split
    · exact .answer ⟨h, fun _ => rfl⟩
    · split_ifs with hf
      · exact .answer ⟨h, fun _ => rfl⟩
      · exact .resolve hr hn hf
  | add r e =>
    simp only [World.respond, World.refuseInsert_listed] at calm ⊢
    split_ifs at calm ⊢
    · exact .answer (h.state _ _)
    · split at calm
      · exact .answer (calm h rfl)
      · obtain ⟨hr, hch⟩ := World.others_of_insert? ‹_›
        exact .tell (calm (h.of_eq hr hch) rfl)
  | removeByName r name =>
    simp only [World.respond, World.refuseErase_listed] at calm ⊢
    split at calm
    · exact .answer (calm h rfl)
    · split at calm
      · exact .answer (calm h rfl)
      · obtain ⟨hr, hch⟩ := World.others_of_erase? ‹_›
        exact .tell (calm (h.of_eq hr hch) rfl)

/-! ## Steps -/

namespace State

/-- Only passes for registries of `F` and names of `N` are active above a stack. -/
def Above (F : Finset ℕ) (N : Finset String) (base : List (Frame μ σ α β)) (s : State μ σ α β) :
    Prop :=
  ∃ top, s.stack = top ++ base ∧ ∀ x ∈ active top, x ∈ F ×ˢ N

/-- The same, while something is to be done before what the stack waits for. -/
def Busy (F : Finset ℕ) (N : Finset String) (base : List (Frame μ σ α β)) (s : State μ σ α β) :
    Prop :=
  s.Above F N base ∧ base.length < s.stack.length

/-- A program that began on a stack has ended, in a world as calm as it was. -/
structure Ended (F : Finset ℕ) (K : β → Prop) (w : World μ σ α β)
    (base : List (Frame μ σ α β)) (s : State μ σ α β) : Prop where
  stack : s.stack = base
  control : ∃ v, s.control = .done v
  calm : w.Calm F K s.world

/-- A call that was made on a stack has been answered, in a world as calm as it was. -/
structure Answered (F : Finset ℕ) (K : β → Prop) {τ : Type} (k : τ → Prog μ σ α β Verdict)
    (w : World μ σ α β) (base : List (Frame μ σ α β)) (s : State μ σ α β) : Prop where
  stack : s.stack = base
  control : ∃ a, s.control = k a
  calm : w.Calm F K s.world

omit [Memory μ α] in
theorem Ended.of_calm {w w' : World μ σ α β} {base : List (Frame μ σ α β)} {s : State μ σ α β}
    (h : s.Ended F K w' base) (hw : w.Calm F K w') : s.Ended F K w base :=
  ⟨h.stack, h.control, hw.trans h.calm⟩

/-- From a world, programs of rules come to an end. -/
def Finishes (C : Client μ σ α β) (F : Finset ℕ) (N : Finset String) (K : β → Prop)
    (w : World μ σ α β) : Prop :=
  ∀ (p : Prog μ σ α β Verdict) (base : List (Frame μ σ α β)), p.Makes (Call.Resolves F N K) →
    Leads C (Above F N base) (Ended F K w base) ⟨w, base, p⟩

variable {base : List (Frame μ σ α β)} {s : State μ σ α β}

omit [Memory μ α] in
theorem Above.refl (w : World μ σ α β) (base : List (Frame μ σ α β))
    (p : Prog μ σ α β Verdict) : (⟨w, base, p⟩ : State μ σ α β).Above F N base :=
  ⟨[], rfl, nofun⟩

omit [Memory μ α] in
theorem Above.busy {f : Frame μ σ α β} (hf : ∀ x ∈ f.active, x ∈ F ×ˢ N)
    (h : s.Above F N (f :: base)) : s.Busy F N base := by
  obtain ⟨top, hs, htop⟩ := h
  refine ⟨⟨top ++ [f], by rw [hs, List.append_assoc, List.singleton_append], fun x hx => ?_⟩, ?_⟩
  · rw [active_append, List.mem_append] at hx
    rcases hx with hx | hx
    · exact htop x hx
    · exact hf x (by simpa using hx)
  · rw [hs, List.length_append, List.length_cons]
    omega

section

variable {r : ℕ} {name : String} {k : Except RegistryError (Option α) → Prog μ σ α β Verdict}
  {w' : World μ σ α β} {p : Prog μ σ α β Verdict}

/-- A rule that runs in a pass comes to an end. If it fails, so does the pass. -/
theorem leads_rule (hr : r ∈ F) (hn : name ∈ N) (hlt : r < w.registries.length) {d : String}
    {rest : List (Rule β)} (hw : (w.mark r name).Calm F K w') (finishes : Finishes C F N K w')
    (hp : p.Makes (Call.Resolves F N K))
    (goes : ∀ w'', (w.mark r name).Calm F K w'' →
      (⟨w'', .pass r name d rest k :: base, .done (.ok ())⟩ : State μ σ α β).Busy F N base →
      Leads C (Busy F N base) (Answered F K k w base)
        ⟨w'', .pass r name d rest k :: base, .done (.ok ())⟩) :
    Leads C (Busy F N base) (Answered F K k w base) ⟨w', .pass r name d rest k :: base, p⟩ := by
  have hf : ∀ x ∈ (Frame.pass r name d rest k).active, x ∈ F ×ˢ N := by
    intro x hx
    rw [Frame.active, List.mem_singleton] at hx
    exact hx ▸ Finset.mk_mem_product hr hn
  refine ((finishes p _ hp).mono (fun _ h => h.busy hf) fun _ h => h).trans ?_
  rintro ⟨w'', stack, p'⟩ ⟨rfl, ⟨v, rfl⟩, hw''⟩
  have busy := (Above.refl w'' (.pass r name d rest k :: base) (.done v)).busy (N := N) hf
  rcases v with source | ⟨⟩
  · exact .step busy .fail (.here ⟨rfl, ⟨_, rfl⟩, (hw.trans hw'').release hlt⟩)
  · exact goes w'' (hw.trans hw'') busy

/-- A pass for a registry of `F` and a name of `N` comes to an end if the programs of rules do
while it is active. -/
theorem leads_pass (rules : ∀ b, K b → (C.rule b r name).Makes (Call.Resolves F N K))
    (finishes : ∀ w', (w.mark r name).Calm F K w' → Finishes C F N K w')
    (hr : r ∈ F) (hn : name ∈ N) (hlt : r < w.registries.length) {d : String}
    {rest : List (Rule β)} (hrest : ∀ rule ∈ rest, K rule.action)
    (hw : (w.mark r name).Calm F K w') (hp : p.Makes (Call.Resolves F N K)) :
    Leads C (Busy F N base) (Answered F K k w base) ⟨w', .pass r name d rest k :: base, p⟩ := by
  induction rest generalizing d w' p with
  | nil =>
    refine leads_rule hr hn hlt hw (finishes w' hw) hp fun w'' hw'' busy => ?_
    exact .step busy .close (.here ⟨rfl, ⟨_, rfl⟩, hw''.release hlt⟩)
  | cons rule rest ih =>
    obtain ⟨hrule, hrest⟩ := List.forall_mem_cons.1 hrest
    refine leads_rule hr hn hlt hw (finishes w' hw) hp fun w'' hw'' busy => ?_
    exact .step busy .next (ih hrest hw'' (rules _ hrule))

end

variable (rules : ∀ b, K b → ∀ r ∈ F, ∀ name ∈ N, (C.rule b r name).Makes (Call.Resolves F N K))

include rules

/-- A lookup that applies rules is answered, if programs of rules come to an end where fewer passes
may start. -/
theorem step_resolve {c : Call μ σ α β} (k : c.Reply → Prog μ σ α β Verdict)
    (base : List (Frame μ σ α β)) (hw : w.Tame F K) {r : ℕ} {name : String}
    {a : Except RegistryError (Option α) → c.Reply} (hresp : w.respond C c = (w, .resolve r name a))
    (hr : r ∈ F) (hn : name ∈ N) (hfree : name ∉ (w.registry r).inFlight)
    (finishes : ∀ w', w'.Tame F K → (w'.free F N).card < (w.free F N).card →
      Finishes C F N K w') :
    ∃ t, Step C ⟨w, base, .call c k⟩ t ∧ Leads C (Busy F N base) (Answered F K k w base) t := by
  cases hrules : (w.registry r).rules with
  | nil => exact ⟨_, .miss hresp hrules, .here ⟨rfl, ⟨_, rfl⟩, hw, fun _ => rfl⟩⟩
  | cons rule rest =>
    have hlt : r < w.registries.length :=
      World.lt_of_rules_ne_nil (by rw [hrules]; exact List.cons_ne_nil _ _)
    obtain ⟨hrule, hrest⟩ := List.forall_mem_cons.1 (hrules ▸ hw.rules r hr)
    have fewer (w' : World μ σ α β) (h : (w.mark r name).Calm F K w') : Finishes C F N K w' := by
      refine finishes w' h.tame ?_
      rw [h.free_eq]
      exact World.card_free_mark hr hn hfree hlt
    have pass : Leads C (Busy F N base) (Answered F K (fun o => k (a o)) w base)
        ⟨w.mark r name, .pass r name rule.description rest (fun o => k (a o)) :: base,
          C.rule rule.action r name⟩ :=
      leads_pass (fun b hb => rules b hb r hr name hn) fewer hr hn hlt hrest
        ⟨hw.mark r name, fun _ => rfl⟩ (rules _ hrule r hr name hn)
    refine ⟨_, .start hresp hrules, pass.mono (fun _ h => h) fun t ht => ?_⟩
    obtain ⟨o, ho⟩ := ht.control
    exact ⟨ht.stack, ⟨a o, ho⟩, ht.calm⟩

/-- A call of a rule is answered, under the same condition. -/
theorem step_call {c : Call μ σ α β} (k : c.Reply → Prog μ σ α β Verdict)
    (base : List (Frame μ σ α β)) (hw : w.Tame F K) (hc : c.Resolves F N K)
    (finishes : ∀ w', w'.Tame F K → (w'.free F N).card < (w.free F N).card →
      Finishes C F N K w') :
    ∃ t, Step C ⟨w, base, .call c k⟩ t ∧ Leads C (Busy F N base) (Answered F K k w base) t := by
  have h := hw.handles (C := C) hc
  generalize hresp : w.respond C c = o at h
  cases h with
  | @answer w' a hcalm => exact ⟨_, .answer hresp, .here ⟨rfl, ⟨a, rfl⟩, hcalm⟩⟩
  | @tell w' ch change e a hcalm =>
    obtain ⟨e', w₂, he⟩ : ∃ e' w₂, w'.settle (ch.widen w'.memory e) = (e', w₂) := ⟨_, _, rfl⟩
    have hcalm₂ : w'.Calm F K w₂ := by
      cases he
      exact hcalm.tame.state _ _
    refine ⟨_, .tell hresp he, ?_⟩
    rw [hcalm₂.tame.silent]
    refine .step ((Above.refl _ _ _).busy fun _ hx => ?_) .delivered
      (.here ⟨rfl, ⟨a, rfl⟩, hcalm.trans hcalm₂⟩)
    exact absurd hx List.not_mem_nil
  | resolve hr hn hfree => exact step_resolve rules k base hw hresp hr hn hfree finishes

/-- **Programs of rules come to an end.** -/
theorem finishes (hw : w.Tame F K) : Finishes C F N K w := by
  induction hcard : (w.free F N).card using Nat.strong_induction_on generalizing w with
  | _ b ihb =>
    intro p base hp
    induction hp generalizing w with
    | done v => exact .here ⟨rfl, ⟨v, rfl⟩, hw, fun _ => rfl⟩
    | @act f k _ ih =>
      obtain ⟨m, s, hf⟩ : ∃ m s, f w.memory w.client = (m, s) := ⟨_, _, rfl⟩
      have hcalm : w.Calm F K { w with memory := m, client := s } := hw.state m s
      refine .step (Above.refl _ _ _) (.act hf) ?_
      exact (ih m s hcalm.tame (by rw [hcalm.free_eq, hcard])).mono (fun _ h => h)
        fun _ h => h.of_calm hcalm
    | @call c k hc _ ih =>
      obtain ⟨t, hstep, ht⟩ := step_call rules k base hw hc fun w' hw' hlt =>
        ihb _ (hcard ▸ hlt) hw' rfl
      refine .step (Above.refl _ _ _) hstep ((ht.mono (fun _ h => h.1) fun _ h => h).trans ?_)
      rintro ⟨w', stack, p'⟩ ⟨rfl, ⟨a, rfl⟩, hcalm⟩
      exact (ih a hcalm.tame (by rw [hcalm.free_eq, hcard])).mono (fun _ h => h)
        fun _ h => h.of_calm hcalm

end State

/-! ## Runs -/

/-- **Lookups terminate.** Let `F` be finitely many registries and `N` finitely many names. Let
every rule with a key of `K` make finitely many calls when it is applied to a name of `N` on a
registry of `F`, all of them lookups of names of `N` on registries of `F`, look-ups that apply no
rules, additions, and registrations of rules with keys of `K`, be it the rule itself.

At any moment of any run at which nobody listens and the registries of `F` have only such rules, a
call of this kind is answered, and leaves all that as it was. If then the names in flight are those
of the active passes, as they are in every run that begins with nothing going on, and these passes
are for registries of `F` and names of `N`, no more than `|F| * |N|` passes are active at any moment
until the call is answered. -/
theorem lookup_terminates (ρ : Run C) (F : Finset ℕ) (N : Finset String) (K : β → Prop)
    (rules : ∀ b, K b → ∀ r ∈ F, ∀ name ∈ N, (C.rule b r name).Makes (Call.Resolves F N K))
    (n : ℕ) (tame : (ρ n).world.Tame F K) (c : Call μ σ α β) (k : c.Reply → Prog μ σ α β Verdict)
    (hc : (ρ n).control = .call c k) (resolves : c.Resolves F N K) :
    ∃ m, ρ.Ends n m ∧ (∃ a, (ρ m).control = k a) ∧ (ρ n).world.Calm F K (ρ m).world ∧
      (State.Marked (ρ n).world (ρ n).stack → (∀ x ∈ active (ρ n).stack, x ∈ F ×ˢ N) →
        ∀ i, n ≤ i → i ≤ m → (active (ρ i).stack).length ≤ F.card * N.card) := by
  have hs : ρ n = ⟨(ρ n).world, (ρ n).stack, .call c k⟩ := by rw [← hc]
  obtain ⟨t, hstep, ht⟩ := State.step_call rules k (ρ n).stack tame resolves
    fun w' hw' _ => State.finishes rules hw'
  rw [← hs] at hstep
  obtain ⟨m, hends, hm, within⟩ := Run.ends_of_leads hstep ht (fun _ h => h.2) fun _ h => h.stack
  refine ⟨m, hends, hm.control, hm.calm, fun marked hactive i hn hi => ?_⟩
  refine length_active_le (fun r => (Run.marked_of_le marked hn r).2) fun x hx => ?_
  by_cases hlt : n < i ∧ i < m
  · obtain ⟨⟨top, htop, hx'⟩, -⟩ := within i hlt.1 hlt.2
    rw [htop, active_append, List.mem_append] at hx
    exact hx.elim (hx' x) (hactive x)
  · have hstack : (ρ i).stack = (ρ n).stack := by
      obtain rfl | rfl : i = n ∨ i = m := by omega
      · rfl
      · exact hm.stack
    exact hactive x (hstack ▸ hx)

/-! A registry and a view of it. Each rule looks a name up on the other one, registers itself again,
and adds the name it is asked for. The rules need each other's names. -/

/-- The rule with the key `other` looks that name up. -/
def crossing : Client Unit Unit String String where
  rule other r name := (Prog.get (1 - r) other).bind fun _ =>
    .call (.addRule r ⟨"again", other⟩) fun _ => .call (.add r name) fun _ => .done (.ok ())
  action _ _ := .done ()

def crossed : Parts Unit String := ⟨fun _ e => e, "String", .root 0, .root 0⟩

/-- The registry and the view with a rule each, and the program that looks a name up. -/
def crossingStart : State Unit Unit String String where
  world :=
    { memory := ()
      client := ()
      stores := [⟨[], .distinct fun _ => (· == ·)⟩]
      channels := [{}]
      registries := [{ crossed with hooks := .default, rules := [⟨"a needs b", "b"⟩] },
        { crossed.filtered (.matching fun _ _ => true) "String" with
          hooks := .default, rules := [⟨"b needs a", "a"⟩] }] }
  stack := []
  control := .call (.find 0 "a") fun _ => .done (.ok ())

theorem lookup_terminates_crossing :
    ∃ (ρ : Run crossing) (m : ℕ), ρ 0 = crossingStart ∧ ρ.Ends 0 m ∧
      ∀ i ≤ m, (active (ρ i).stack).length ≤ 2 * 2 := by
  let F : Finset ℕ := {0, 1}
  let N : Finset String := {"a", "b"}
  have rules : ∀ b, b ∈ N → ∀ r ∈ F, ∀ name ∈ N,
      (crossing.rule b r name).Makes (Call.Resolves F N (· ∈ N)) := by
    intro b hb r hr name hn
    have other : 1 - r ∈ F := by
      simp only [F, Finset.mem_insert, Finset.mem_singleton] at hr ⊢
      omega
    refine (Prog.makes_get other hb).bind fun _ => .call (.addRule r hb) fun _ => ?_
    exact .call (.add r name) fun _ => .done _
  have tame : crossingStart.world.Tame F (· ∈ N) := by
    refine ⟨fun c change => ?_, fun r _ rule h => ?_⟩
    · cases c <;> cases change <;> rfl
    · match r with
      | 0 | 1 =>
        obtain rfl := List.mem_singleton.1 h
        decide
      | _ + 2 => cases h
  have idle : crossingStart.Idle := ⟨rfl, fun r => by
    match r with
    | 0 | 1 | _ + 2 => rfl⟩
  obtain ⟨m, ends, -, -, bound⟩ := lookup_terminates (Run.of crossing crossingStart) F N (· ∈ N)
    rules 0 tame (.find 0 "a") _ rfl (.find (by decide) (by decide))
  exact ⟨.of crossing crossingStart, m, rfl, ends,
    fun i hi => bound idle.marked nofun i (Nat.zero_le i) hi⟩

end NameRegistry
