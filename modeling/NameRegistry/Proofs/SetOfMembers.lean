import NameRegistry.Proofs.Removal

/-!
# Stores as sets

A store whose members are pairwise different is a set, in the order in which its members came.

* `eraseP_eq_filter` : of members that are pairwise different one at most equals an entity, so the
  first one that does is all of them.
* `Run.TakesIn`, `Run.Since` : a store takes an entity in, and has had it ever since.
* `Run.Dated` : the members of a store have moments since when they have been there, which ascend.
* `World.respond_insert`, `World.respond_erase` : what is answered when an entity is to be taken in
  or given up, directly or through views.

What comes, comes last, and what leaves takes its moment with it. So the moments of the members
ascend as long as a run goes on (`Run.dated`).

Main result: `members_form_set`.

Entities are plain values here: an entity that is settled is the same entity.
-/

namespace NameRegistry

variable {σ α β : Type} {same : α → α → Bool}

/-! ## Members that are pairwise different -/

theorem eraseP_eq_filter (equiv : Equivalence fun x y => same x y = true) {l : List α}
    (apart : l.Pairwise fun x y => ¬ same x y) (t : α) :
    l.eraseP (same · t) = l.filter fun x => ¬ same x t := by
  induction l with
  | nil => rfl
  | cons x l ih =>
    obtain ⟨hx, apart⟩ := List.pairwise_cons.1 apart
    by_cases hs : same x t
    · have others : ∀ y ∈ l, ¬ same y t := fun y hy hy' =>
        hx y hy (equiv.trans hs (equiv.symm hy'))
      rw [List.eraseP_cons_of_pos (p := (same · t)) hs, List.filter_cons_of_neg (by simpa using hs)]
      exact (List.filter_eq_self.2 (by simpa using others)).symm
    · rw [List.eraseP_cons_of_neg (p := (same · t)) hs,
        List.filter_cons_of_pos (by simpa using hs), ih apart]

/-! ## Calls -/

namespace World

variable {w : World Unit σ α β} {i : ℕ} {l : List α}
  (store : w.stores[i]? = some ⟨l, .distinct fun _ => same⟩) {s : StoreRef Unit α}
  (number : s.number = i) (e : α)

include store number

/-- Whether an entity was taken in is the answer. -/
theorem respond_insert (C : Client Unit σ α β) : ∃ taken : Bool,
    (taken ↔ s.accepts () e ∧ ∀ x ∈ l, ¬ same x (s.widen () e)) ∧
      w.respond C (.insert s e) =
        (w.setMembers i (if taken then l ++ [s.widen () e] else l), .answer taken) := by
  have inserted := insert?_distinct store number e
  split_ifs at inserted with h
  · refine ⟨true, by simpa using h, ?_⟩
    simp only [respond, inserted, if_true]
  · refine ⟨false, by simpa using h, ?_⟩
    simp only [respond, inserted, refuseInsert_listed, Bool.false_eq_true, if_false,
      setMembers_self store]

theorem respond_erase (C : Client Unit σ α β) : ∃ given : Bool,
    (given ↔ s.accepts () e ∧ ∃ x ∈ l, same x (s.widen () e)) ∧
      w.respond C (.erase s e) =
        (w.setMembers i (if given then l.eraseP (same · (s.widen () e)) else l),
          .answer given) := by
  have erased := erase?_distinct store number e
  split_ifs at erased with h
  · refine ⟨true, by simpa using h, ?_⟩
    simp only [respond, erased, if_true]
  · refine ⟨false, by simpa using h, ?_⟩
    simp only [respond, erased, refuseErase_listed, Bool.false_eq_true, if_false,
      setMembers_self store]

end World

/-! ## Runs -/

namespace Run

variable {C : Client Unit σ α β} (ρ : Run C)

/-- A store takes an entity in at a moment: it is asked to take in what is widened to this entity,
directly or through views, and the entity comes last. -/
def TakesIn (i n : ℕ) (t : α) : Prop :=
  (∃ c k s e, (ρ n).control = .call c k ∧ c.Takes (ρ n).world s e ∧ s.number = i ∧
    s.widen () e = t) ∧
    ((ρ (n + 1)).world.store i).members = ((ρ n).world.store i).members ++ [t]

/-- A store took an entity in at the moment `n`, and has had it ever since, up to the moment `m`. -/
structure Since (i m n : ℕ) (t : α) : Prop where
  lt : n < m
  taken : ρ.TakesIn i n t
  stays : ∀ j, n < j → j ≤ m → t ∈ ((ρ j).world.store i).members

/-- The entities of a list have been in a store since moments that ascend, from a first moment
on. -/
def Dated (i start m : ℕ) (l : List α) : Prop :=
  ∃ dated : List (ℕ × α), dated.map Prod.snd = l ∧ dated.Pairwise (fun d d' => d.1 < d'.1) ∧
    ∀ d ∈ dated, start ≤ d.1 ∧ ρ.Since i m d.1 d.2

variable {ρ} {i start m n : ℕ} {t : α} {l l' : List α}

theorem Since.succ (h : ρ.Since i m n t) (stays : t ∈ ((ρ (m + 1)).world.store i).members) :
    ρ.Since i (m + 1) n t := by
  refine ⟨h.lt.trans (Nat.lt_succ_self m), h.taken, fun j hj hj' => ?_⟩
  rcases Nat.le_succ_iff.1 hj' with hj' | rfl
  · exact h.stays j hj hj'
  · exact stays

theorem Dated.nil : ρ.Dated i start m [] := ⟨[], rfl, .nil, nofun⟩

theorem Dated.sublist (h : ρ.Dated i start m l) (hl : l'.Sublist l) : ρ.Dated i start m l' := by
  obtain ⟨dated, rfl, ascend, since⟩ := h
  obtain ⟨dated', hsub, rfl⟩ := List.sublist_map_iff.1 hl
  exact ⟨dated', rfl, ascend.sublist hsub, fun d hd => since d (hsub.subset hd)⟩

/-- Members that stay keep their moments. -/
theorem Dated.succ (h : ρ.Dated i start m l)
    (stay : ∀ t ∈ l, t ∈ ((ρ (m + 1)).world.store i).members) : ρ.Dated i start (m + 1) l := by
  obtain ⟨dated, rfl, ascend, since⟩ := h
  refine ⟨dated, rfl, ascend, fun d hd => ⟨(since d hd).1, (since d hd).2.succ ?_⟩⟩
  exact stay d.2 (List.mem_map_of_mem hd)

theorem Dated.taken (h : ρ.Dated i start m ((ρ m).world.store i).members) (le : start ≤ m)
    (taken : ρ.TakesIn i m t) :
    ρ.Dated i start (m + 1) ((ρ (m + 1)).world.store i).members := by
  obtain ⟨dated, hdated, ascend, since⟩ := h
  have members := taken.2
  rw [← hdated] at members
  have stays {j : ℕ} (hj : m < j) (hj' : j ≤ m + 1) : t ∈ ((ρ j).world.store i).members := by
    obtain rfl : j = m + 1 := by omega
    rw [members]
    exact List.mem_append_right _ (List.mem_singleton_self t)
  rw [members]
  refine ⟨dated ++ [(m, t)], by rw [List.map_append, List.map_singleton], ?_, ?_⟩
  · refine List.pairwise_append.2 ⟨ascend, List.pairwise_singleton _ _, fun d hd d' hd' => ?_⟩
    rw [List.mem_singleton.1 hd']
    exact (since d hd).2.lt
  · rw [List.forall_mem_append, List.forall_mem_singleton]
    refine ⟨fun d hd => ⟨(since d hd).1, (since d hd).2.succ ?_⟩,
      le, Nat.lt_succ_self m, taken, fun j => stays⟩
    rw [members]
    exact List.mem_append_left _ (List.mem_map_of_mem hd)

/-- The members of a store of different members have moments as long as a run goes on. -/
theorem dated (ρ : Run C) {i start : ℕ}
    (fresh : (ρ start).world.stores[i]? = some ⟨[], .distinct fun _ => same⟩) {m : ℕ}
    (le : start ≤ m) :
    ∃ st, (ρ m).world.stores[i]? = some st ∧ st.Apart same ∧ ρ.Dated i start m st.members := by
  induction m, le using Nat.le_induction with
  | base => exact ⟨_, fresh, ⟨rfl, .nil⟩, .nil⟩
  | succ m le ih =>
    obtain ⟨st, hi, apart, dated⟩ := ih
    obtain ⟨st', change, hi'⟩ := (ρ.next m).store hi
    refine ⟨st', hi', change.apart apart, ?_⟩
    have members := World.store_of_getElem? hi
    have members' := World.store_of_getElem? hi'
    cases change with
    | none => exact dated.succ fun t ht => by rwa [members']
    | taken hc takes number accepts settled inserted =>
      obtain ⟨rfl, -⟩ := Prod.mk.inj settled
      rw [apart.discipline] at inserted
      obtain ⟨-, rfl⟩ := Discipline.insert_distinct_eq_some_iff.1 inserted
      have taken : ρ.TakesIn i m _ :=
        ⟨⟨_, _, _, _, hc, takes, number, rfl⟩, by rw [members', members]⟩
      rw [← members] at dated
      have h := dated.taken le taken
      rwa [members'] at h
    | dropped hc drops number accepts erased =>
      rw [apart.discipline] at erased
      obtain ⟨-, rfl⟩ := Discipline.erase_distinct_eq_some_iff.1 erased
      exact (dated.sublist List.eraseP_sublist).succ fun t ht => by rwa [members']

end Run

/-- **A store of different members is a set.** Let a store compare entities by an equivalence
relation, and let it have no members at some moment of a run. From then on, however entities are
taken in and given up, directly or through any views of the store, the following holds.

* The members are pairwise unequal, and in the order in which they were taken in.
* An entity that is to be taken in through views, or directly, is taken in exactly if each filter on
  the way accepts the entity as it is widened so far, and no member equals the entity that gets to
  the store. It comes last then, and otherwise the members stay.
* An entity that is to be given up is given up exactly if each filter on the way accepts it likewise
  and some member equals the entity that gets to the store. Then no member that equals it is left,
  and all others stay in their order. -/
theorem members_form_set {C : Client Unit σ α β} (ρ : Run C) {i start : ℕ}
    (equiv : Equivalence fun x y => same x y = true)
    (fresh : (ρ start).world.stores[i]? = some ⟨[], .distinct fun _ => same⟩) (n : ℕ)
    (le : start ≤ n) :
    let l := ((ρ n).world.store i).members
    let l' := ((ρ (n + 1)).world.store i).members
    (l.Pairwise fun x y => ¬ same x y) ∧ ρ.Dated i start n l ∧
      (∀ (s : StoreRef Unit α) (e : α) (k : Bool → Prog Unit σ α β Verdict), s.number = i →
        (ρ n).control = .call (.insert s e) k →
          ∃ taken : Bool, (ρ (n + 1)).control = k taken ∧
            (taken ↔ s.accepts () e ∧ ∀ x ∈ l, ¬ same x (s.widen () e)) ∧
            l' = if taken then l ++ [s.widen () e] else l) ∧
      ∀ (s : StoreRef Unit α) (e : α) (k : Bool → Prog Unit σ α β Verdict), s.number = i →
        (ρ n).control = .call (.erase s e) k →
          ∃ given : Bool, (ρ (n + 1)).control = k given ∧
            (given ↔ s.accepts () e ∧ ∃ x ∈ l, same x (s.widen () e)) ∧
            l' = if given then l.filter fun x => ¬ same x (s.widen () e) else l := by
  obtain ⟨st, hi, apart, dated⟩ := ρ.dated fresh le
  obtain ⟨members, discipline⟩ := st
  obtain rfl := apart.discipline
  simp only [World.store_of_getElem? hi]
  refine ⟨apart.members, dated, fun s e k number call => ?_, fun s e k number call => ?_⟩
  · obtain ⟨taken, iff, hresp⟩ := World.respond_insert hi number e C
    obtain ⟨-, next⟩ := Run.ends_of_answer call hresp
    refine ⟨taken, by rw [next], iff, ?_⟩
    rw [next, World.store_setMembers hi]
  · obtain ⟨given, iff, hresp⟩ := World.respond_erase hi number e C
    obtain ⟨-, next⟩ := Run.ends_of_answer call hresp
    refine ⟨given, by rw [next], iff, ?_⟩
    rw [next, World.store_setMembers hi, eraseP_eq_filter equiv apart.members]

/-! Numbers are equal if they end in the same digit. There is a view of the halves of the even ones,
and a view of those halves that are not zero. -/

def sameDigit (x y : ℕ) : Bool := x % 10 == y % 10

def properHalves : StoreRef Unit ℕ :=
  .view (.view (.root 0) ⟨fun _ e => if e % 2 = 0 then some (e / 2) else none, fun _ e => 2 * e⟩)
    (.matching fun _ e => e ≠ 0)

/-- The program takes in 4, then 14 and 6 by their halves, and gives up 16 by its half. -/
def digitsStart : State Unit (List ℕ) ℕ Unit where
  world := { memory := (), client := [], stores := [⟨[], .distinct fun _ => sameDigit⟩] }
  stack := []
  control := .call (.insert (.root 0) 4) fun _ => .call (.insert properHalves 7) fun _ =>
    .call (.insert properHalves 3) fun _ => .call (.erase properHalves 8) fun _ => .done (.ok ())

theorem members_form_set_digits :
    Equivalence (fun x y => sameDigit x y = true) ∧ ∃ ρ : Run notes,
      ((ρ 2).world.store 0).members = [4] ∧ ((ρ 3).world.store 0).members = [4, 6] ∧
      ρ.Dated 0 0 3 [4, 6] ∧ ((ρ 4).world.store 0).members = [4] := by
  have equiv : Equivalence fun x y => sameDigit x y = true := by
    simp only [sameDigit, beq_iff_eq]
    exact ⟨fun _ => rfl, Eq.symm, Eq.trans⟩
  let ρ := Run.of notes digitsStart
  have fresh : (ρ 0).world.stores[0]? = some ⟨[], .distinct fun _ => sameDigit⟩ := rfl
  have set (n : ℕ) := members_form_set ρ equiv fresh n (Nat.zero_le n)
  obtain ⟨-, -, insert, -⟩ := set 1
  obtain ⟨taken, -, taken_iff, refused⟩ := insert properHalves 7 _ rfl rfl
  obtain ⟨-, dated, -, erase⟩ := set 3
  obtain ⟨given, -, given_iff, left⟩ := erase properHalves 8 _ rfl rfl
  -- The number 14 ends in the digit of 4, and so does no member but 6 in that of 16.
  have htaken : taken = false := Bool.eq_false_iff.2 fun h => absurd (taken_iff.1 h) (by decide)
  have hgiven : given = true := given_iff.2 (by decide)
  rw [htaken] at refused
  rw [hgiven] at left
  exact ⟨equiv, ρ, refused, rfl, dated, left⟩

end NameRegistry
