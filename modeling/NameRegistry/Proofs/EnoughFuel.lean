import Mathlib.Algebra.Order.Group.Nat
import Mathlib.Data.Option.Basic
import NameRegistry.Toml.Document

/-!
# Documents are read to their end

The readers of documents take fuel where they may call themselves. More fuel than twice the length
of what is read changes nothing, so a document that is not read is not well-formed.

* `Toml.Leaves`, `Toml.Document.LeavesAll` : what readers leave of a document is no longer than what
  they were given.
* `Toml.Document.Suffices` : one more unit of fuel changes nothing for readers of values, where
  there is enough of it.
* `Toml.Document.skipSpace?_succ`, `Toml.Document.lines?_succ` : the same for space and lines.

Enough is twice the length, and one or two units more: an array spends one unit before its first
value, of which no character has been read, and each bracket or comma is a character less.

Main result: `Toml.Document.parse?_eq_of_le`.
-/

namespace NameRegistry.Toml

variable {γ δ : Type}

/-! ## What is left -/

/-- What is left behind what was read has at most `n` characters. -/
def Leaves (n : ℕ) (o : Option (γ × List Char)) : Prop := ∀ x ∈ o, x.2.length ≤ n

namespace Leaves

variable {n m : ℕ} {o : Option (γ × List Char)}

theorem none : Leaves n (none : Option (γ × List Char)) := nofun

theorem some {a : γ} {r : List Char} (h : r.length ≤ n) : Leaves n (some (a, r)) := by
  rintro _ ⟨⟩
  exact h

theorem mono (h : Leaves n o) (hn : n ≤ m) : Leaves m o := fun x hx => (h x hx).trans hn

theorem map (h : Leaves n o) (f : γ × List Char → δ) : Leaves n (o.map fun x => (f x, x.2)) := by
  intro y hy
  obtain ⟨x, hx, rfl⟩ := Option.map_eq_some_iff.1 hy
  exact h x hx

theorem cons {r : Read} (h : Leaves n r) (c : Char) : Leaves n (r.cons c) :=
  h.map fun x => c :: x.1

end Leaves

/-! ## Quoted text -/

theorem leaves_readBasic (skip : ℕ) (s : List Char) : Leaves s.length (readBasic skip s) := by
  fun_induction readBasic skip s with
  | case1 => exact .none
  | case2 skip c r ih => exact ih.mono (Nat.le_succ _)
  | case3 r => exact .some (Nat.le_succ _)
  | case4 r c skip h ih => exact (ih.cons c).mono (Nat.le_succ _)
  | case5 => exact .none
  | case6 c r _ _ _ ih => exact (ih.cons c).mono (Nat.le_succ _)
  | case7 => exact .none

theorem leaves_readLiteral (s : List Char) : Leaves s.length (readLiteral s) := by
  fun_induction readLiteral s with
  | case1 => exact .none
  | case2 r => exact .some (Nat.le_succ _)
  | case3 c r _ _ ih => exact (ih.cons c).mono (Nat.le_succ _)
  | case4 => exact .none

theorem leaves_readBasicLines (skip : ℕ) (s : List Char) :
    Leaves s.length (readBasicLines skip s) := by
  fun_induction readBasicLines skip s with
  | case1 | case9 | case11 => exact .none
  | case2 skip c r ih | case7 r skip h ih => exact ih.mono (Nat.le_succ _)
  | case3 r | case4 r | case5 r => exact .some (by simp only [List.length_cons]; omega)
  | case6 r ih => exact ((ih.cons '\n').cons '\r').mono (by simp only [List.length_cons]; omega)
  | case8 r _ c skip h ih => exact (ih.cons c).mono (Nat.le_succ _)
  | case10 c r _ _ _ _ _ _ ih => exact (ih.cons c).mono (Nat.le_succ _)

theorem leaves_readLiteralLines (s : List Char) : Leaves s.length (readLiteralLines s) := by
  fun_induction readLiteralLines s with
  | case1 | case7 => exact .none
  | case2 r | case3 r | case4 r => exact .some (by simp only [List.length_cons]; omega)
  | case5 r ih => exact ((ih.cons '\n').cons '\r').mono (by simp only [List.length_cons]; omega)
  | case6 c r _ _ _ _ _ ih => exact (ih.cons c).mono (Nat.le_succ _)

theorem length_dropLineEnd_le (s : List Char) : (dropLineEnd s).length ≤ s.length := by
  unfold dropLineEnd
  split
  · exact Nat.le_succ _
  · exact Nat.le_add_right _ 2
  · exact Nat.le_refl _

namespace Document

/-! ## Space and comments -/

theorem length_skipBlanks_le (s : List Char) : (skipBlanks s).length ≤ s.length :=
  (s.dropWhile_sublist isBlank).length_le

theorem length_le_of_skipComment? {s r : List Char} (h : skipComment? s = some r) :
    r.length ≤ s.length := by
  fun_induction skipComment? s with
  | case1 =>
    cases h
    exact Nat.le_refl _
  | case2 =>
    cases h
    exact Nat.le_succ _
  | case3 =>
    cases h
    exact Nat.le_add_right _ 2
  | case4 c s _ _ _ ih => exact Nat.le_succ_of_le (ih h)
  | case5 => cases h

theorem length_lt_of_skipBlanks {s r : List Char} {c : Char} (h : skipBlanks s = c :: r) :
    r.length < s.length := by
  have hs := length_skipBlanks_le s
  rw [h, List.length_cons] at hs
  exact hs

theorem length_le_of_endLine? {s r : List Char} (h : endLine? s = some r) :
    r.length ≤ s.length := by
  unfold endLine? at h
  split at h
  · cases h
    exact Nat.zero_le _
  · next hs =>
    cases h
    exact (length_lt_of_skipBlanks hs).le
  · next hs =>
    cases h
    exact (Nat.le_succ _).trans (length_lt_of_skipBlanks hs).le
  · next hs => exact (length_le_of_skipComment? h).trans (length_lt_of_skipBlanks hs).le
  · cases h

theorem length_le_of_skipSpace? {fuel : ℕ} {s r : List Char} (h : skipSpace? fuel s = some r) :
    r.length ≤ s.length := by
  induction fuel generalizing s with
  | zero => cases h
  | succ fuel ih =>
    unfold skipSpace? at h
    split at h
    · next hs => exact (ih h).trans (length_lt_of_skipBlanks hs).le
    · next hs => exact ((ih h).trans (Nat.le_succ _)).trans (length_lt_of_skipBlanks hs).le
    · next hs =>
      obtain ⟨t, ht, h⟩ := Option.bind_eq_some_iff.1 h
      exact ((ih h).trans (length_le_of_skipComment? ht)).trans (length_lt_of_skipBlanks hs).le
    · cases h
      exact length_skipBlanks_le s

/-- Each step of skipping space takes a character. -/
theorem skipSpace?_succ {fuel : ℕ} {s : List Char} (h : s.length < fuel) :
    skipSpace? (fuel + 1) s = skipSpace? fuel s := by
  induction fuel generalizing s with
  | zero => omega
  | succ fuel ih =>
    rw [skipSpace?.eq_2, skipSpace?]
    split
    · next hs =>
      have := length_lt_of_skipBlanks hs
      exact ih (by omega)
    · next r hs =>
      have := length_lt_of_skipBlanks hs
      rw [List.length_cons] at this
      exact ih (by omega)
    · next hs =>
      have := length_lt_of_skipBlanks hs
      refine Option.bind_congr' rfl fun r hr => ih ?_
      have := length_le_of_skipComment? hr
      omega
    · rfl

/-! ## Keys -/

theorem leaves_key? (s : List Char) : Leaves s.length (key? s) := by
  unfold key?
  split
  · next r => exact ((leaves_readBasic 0 r).map _).mono (Nat.le_succ _)
  · next r => exact ((leaves_readLiteral r).map _).mono (Nat.le_succ _)
  · split
    · exact .none
    · exact .some (s.dropWhile_sublist isBareKeyChar).length_le

theorem length_le_of_path? {parts : ℕ} {s r : List Char} {path : List String} {key : String}
    (h : path? parts s = some (path, key, r)) : r.length ≤ s.length := by
  induction parts generalizing s path with
  | zero => cases h
  | succ parts ih =>
    unfold path? at h
    obtain ⟨⟨k, t⟩, hk, h⟩ := Option.bind_eq_some_iff.1 h
    have ht : t.length ≤ s.length := leaves_key? s _ hk
    dsimp only at h
    split at h
    · next u hu =>
      obtain ⟨⟨path', last, rest⟩, hp, h⟩ := Option.bind_eq_some_iff.1 h
      cases h
      have hr := (ih hp).trans (length_skipBlanks_le u)
      exact (hr.trans (length_lt_of_skipBlanks hu).le).trans ht
    · cases h
      exact (length_skipBlanks_le t).trans ht

/-! ## Values -/

theorem length_splitWord_le (s : List Char) : (splitWord s).2.length ≤ s.length := by
  fun_induction splitWord s with
  | case1 => exact Nat.le_refl _
  | case2 c r _ w rest h ih =>
    rw [h] at ih
    exact Nat.le_succ_of_le ih
  | case3 => exact Nat.le_refl _

theorem leaves_bare? (s : List Char) : Leaves s.length (bare? s) := by
  intro x hx
  obtain ⟨v, -, rfl⟩ := Option.map_eq_some_iff.1 hx
  exact length_splitWord_le s

theorem leaves_text {n : ℕ} {r : Read} (h : Leaves n r) : Leaves n (value?.text r) := h.map _

/-- With some fuel, no reader of values leaves more than it was given. -/
structure LeavesAll (fuel : ℕ) : Prop where
  value (depth s) : Leaves s.length (value? fuel depth s)
  elements (depth s) : Leaves s.length (elements? fuel depth s)
  entries (depth t s) : Leaves s.length (entries? fuel depth t s)

namespace LeavesAll

variable {fuel : ℕ} (h : LeavesAll fuel)

include h

theorem value_succ (depth : ℕ) (s : List Char) : Leaves s.length (value? (fuel + 1) depth s) := by
  unfold value?
  split
  · next r =>
    refine (leaves_text (leaves_readBasicLines 0 _)).mono ?_
    exact (length_dropLineEnd_le r).trans (Nat.le_add_right _ 3)
  · next r _ => exact (leaves_text (leaves_readBasic 0 r)).mono (Nat.le_succ _)
  · next r =>
    refine (leaves_text (leaves_readLiteralLines _)).mono ?_
    exact (length_dropLineEnd_le r).trans (Nat.le_add_right _ 3)
  · next r _ => exact (leaves_text (leaves_readLiteral r)).mono (Nat.le_succ _)
  · next r =>
    cases depth with
    | zero => exact .none
    | succ depth => exact ((h.elements depth r).map _).mono (Nat.le_succ _)
  · next r =>
    cases depth with
    | zero => exact .none
    | succ depth => exact ((h.entries depth .empty r).map _).mono (Nat.le_succ _)
  · exact leaves_bare? s

theorem elements_succ (depth : ℕ) (s : List Char) :
    Leaves s.length (elements? (fuel + 1) depth s) := by
  unfold elements?
  intro x hx
  obtain ⟨t, ht, hx⟩ := Option.bind_eq_some_iff.1 hx
  have ht := length_le_of_skipSpace? ht
  split at hx
  · cases hx
    exact (Nat.le_succ _).trans ht
  · obtain ⟨⟨v, u⟩, hv, hx⟩ := Option.bind_eq_some_iff.1 hx
    have hu : u.length ≤ t.length := h.value depth t _ hv
    obtain ⟨w, hw, hx⟩ := Option.bind_eq_some_iff.1 hx
    have hw := length_le_of_skipSpace? hw
    split at hx
    · cases hx
      exact (((Nat.le_succ _).trans hw).trans hu).trans ht
    · obtain ⟨⟨vs, rest⟩, hr, hx⟩ := Option.bind_eq_some_iff.1 hx
      cases hx
      exact ((((h.elements depth _ _ hr).trans (Nat.le_succ _)).trans hw).trans hu).trans ht
    · cases hx

theorem entries_succ (depth : ℕ) (t : Section) (s : List Char) :
    Leaves s.length (entries? (fuel + 1) depth t s) := by
  unfold entries?
  intro x hx
  obtain ⟨a, ha, hx⟩ := Option.bind_eq_some_iff.1 hx
  have ha := length_le_of_skipSpace? ha
  split at hx
  · cases hx
    exact (Nat.le_succ _).trans ha
  · obtain ⟨⟨path, key, b⟩, hb, hx⟩ := Option.bind_eq_some_iff.1 hx
    have hb := length_le_of_path? hb
    obtain ⟨c, hc, hx⟩ := Option.bind_eq_some_iff.1 hx
    have hc := length_le_of_skipSpace? hc
    split at hx
    · rw [List.length_cons] at hc
      obtain ⟨d, hd, hx⟩ := Option.bind_eq_some_iff.1 hx
      have hd := length_le_of_skipSpace? hd
      obtain ⟨⟨v, e⟩, he, hx⟩ := Option.bind_eq_some_iff.1 hx
      have he : e.length ≤ d.length := h.value depth d _ he
      obtain ⟨t', -, hx⟩ := Option.bind_eq_some_iff.1 hx
      obtain ⟨f, hf, hx⟩ := Option.bind_eq_some_iff.1 hx
      have hf := length_le_of_skipSpace? hf
      split at hx
      · next rest _ =>
        cases hx
        rw [List.length_cons] at hf
        show rest.length ≤ s.length
        omega
      · next rest _ =>
        rw [List.length_cons] at hf
        have hr := h.entries depth t' rest _ hx
        omega
      · cases hx
    · cases hx

end LeavesAll

theorem leavesAll (fuel : ℕ) : LeavesAll fuel := by
  induction fuel with
  | zero => exact ⟨fun _ _ => nofun, fun _ _ => nofun, fun _ _ _ => nofun⟩
  | succ fuel ih => exact ⟨ih.value_succ, ih.elements_succ, ih.entries_succ⟩

/-! ## Enough fuel -/

/-- One more unit of fuel changes nothing for readers of values, where it is enough. -/
structure Suffices (fuel : ℕ) : Prop where
  value {depth s} : 2 * s.length + 1 ≤ fuel → value? (fuel + 1) depth s = value? fuel depth s
  elements {depth s} :
    2 * s.length + 2 ≤ fuel → elements? (fuel + 1) depth s = elements? fuel depth s
  entries {depth t s} :
    2 * s.length + 2 ≤ fuel → entries? (fuel + 1) depth t s = entries? fuel depth t s

namespace Suffices

variable {fuel depth : ℕ} {t : Section} {s : List Char} (h : Suffices fuel)

include h

theorem value_succ (hs : 2 * s.length + 1 ≤ fuel + 1) :
    value? (fuel + 2) depth s = value? (fuel + 1) depth s := by
  unfold value?
  split
  · rfl
  · rfl
  · rfl
  · rfl
  · cases depth with
    | zero => rfl
    | succ depth =>
      rw [List.length_cons] at hs
      dsimp only
      rw [h.elements (by omega)]
  · cases depth with
    | zero => rfl
    | succ depth =>
      rw [List.length_cons] at hs
      dsimp only
      rw [h.entries (by omega)]
  · rfl

theorem elements_succ (hs : 2 * s.length + 2 ≤ fuel + 1) :
    elements? (fuel + 2) depth s = elements? (fuel + 1) depth s := by
  unfold elements?
  refine Option.bind_congr' (skipSpace?_succ (by omega)) fun a ha => ?_
  have ha := length_le_of_skipSpace? ha
  split
  · rfl
  · refine Option.bind_congr' (h.value (by omega)) fun b hb => ?_
    have hb := (leavesAll fuel).value depth a b hb
    refine Option.bind_congr' (skipSpace?_succ (by omega)) fun c hc => ?_
    have hc := length_le_of_skipSpace? hc
    split
    · rfl
    · rw [List.length_cons] at hc
      rw [h.elements (by omega)]
    · rfl

theorem entries_succ (hs : 2 * s.length + 2 ≤ fuel + 1) :
    entries? (fuel + 2) depth t s = entries? (fuel + 1) depth t s := by
  unfold entries?
  refine Option.bind_congr' (skipSpace?_succ (by omega)) fun a ha => ?_
  have ha := length_le_of_skipSpace? ha
  split
  · rfl
  · refine Option.bind_congr' rfl fun b hb => ?_
    obtain ⟨path, key, b⟩ := b
    have hb := length_le_of_path? hb
    refine Option.bind_congr' (skipSpace?_succ (by omega)) fun c hc => ?_
    have hc := length_le_of_skipSpace? hc
    split
    · rw [List.length_cons] at hc
      refine Option.bind_congr' (skipSpace?_succ (by omega)) fun d hd => ?_
      have hd := length_le_of_skipSpace? hd
      refine Option.bind_congr' (h.value (by omega)) fun e he => ?_
      have he := (leavesAll fuel).value depth d e he
      refine Option.bind_congr' rfl fun t' _ => ?_
      refine Option.bind_congr' (skipSpace?_succ (by omega)) fun f hf => ?_
      have hf := length_le_of_skipSpace? hf
      split
      · rfl
      · rw [List.length_cons] at hf
        exact h.entries (by omega)
      · rfl
    · rfl

end Suffices

theorem suffices_all (fuel : ℕ) : Suffices fuel := by
  induction fuel with
  | zero => exact ⟨nofun, nofun, nofun⟩
  | succ fuel ih => exact ⟨ih.value_succ, ih.elements_succ, ih.entries_succ⟩

/-! ## Lines -/

/-- What is left behind a line that ends where `s` begins. -/
theorem length_le_of_bind_endLine? {o : Option γ} {g : γ → Progress} {p : Progress}
    {s r : List Char}
    (h : (o >>= fun a => endLine? s >>= fun r => some (g a, r)) = some (p, r)) :
    r.length ≤ s.length := by
  obtain ⟨a, -, h⟩ := Option.bind_eq_some_iff.1 h
  obtain ⟨t, ht, h⟩ := Option.bind_eq_some_iff.1 h
  cases h
  exact length_le_of_endLine? ht

/-- What is left behind a path and one more character. -/
theorem length_lt_of_path? {s r : List Char} {c : Char} {path : List String} {key : String}
    (h : path? maxDepth (skipBlanks s) = some (path, key, c :: r)) : r.length < s.length :=
  (length_le_of_path? h).trans (length_skipBlanks_le s)

/-- Each line takes a character: a bracket, or the sign behind a key. -/
theorem length_lt_of_line? {fuel : ℕ} {p p' : Progress} {s r : List Char}
    (h : line? fuel p s = some (p', r)) : r.length < s.length := by
  unfold line? at h
  split at h
  · obtain ⟨⟨path, key, t⟩, hp, h⟩ := Option.bind_eq_some_iff.1 h
    dsimp only at h
    split at h
    · have hs := (Nat.le_succ _).trans (length_lt_of_path? hp).le
      exact ((length_le_of_bind_endLine? h).trans hs).trans_lt (Nat.lt_add_of_pos_right Nat.two_pos)
    · cases h
  · obtain ⟨⟨path, key, t⟩, hp, h⟩ := Option.bind_eq_some_iff.1 h
    dsimp only at h
    split at h
    · have hs := (length_lt_of_path? hp).le
      exact Nat.lt_succ_of_le ((length_le_of_bind_endLine? h).trans hs)
    · cases h
  · obtain ⟨⟨path, key, t⟩, hp, h⟩ := Option.bind_eq_some_iff.1 h
    have ht := length_le_of_path? hp
    dsimp only at h
    split at h
    · next u =>
      obtain ⟨⟨v, w⟩, hw, h⟩ := Option.bind_eq_some_iff.1 h
      have hw : w.length ≤ u.length :=
        ((leavesAll fuel).value maxDepth _ _ hw).trans (length_skipBlanks_le u)
      exact (Nat.lt_succ_of_le ((length_le_of_bind_endLine? h).trans hw)).trans_le ht
    · cases h

theorem line?_succ {fuel : ℕ} {p : Progress} {s : List Char} (h : 2 * s.length ≤ fuel) :
    line? (fuel + 1) p s = line? fuel p s := by
  unfold line?
  split
  · rfl
  · rfl
  · refine Option.bind_congr' rfl fun a ha => ?_
    obtain ⟨path, key, t⟩ := a
    have ht := length_le_of_path? ha
    dsimp only
    split
    · next u =>
      have hu := length_skipBlanks_le u
      rw [List.length_cons] at ht
      rw [(suffices_all fuel).value (by omega)]
    · rfl

theorem lines?_succ {fuel : ℕ} {p : Progress} {s : List Char} (h : 2 * s.length + 2 ≤ fuel) :
    lines? (fuel + 1) p s = lines? fuel p s := by
  induction fuel generalizing p s with
  | zero => omega
  | succ fuel ih =>
    unfold lines?
    refine Option.bind_congr' (skipSpace?_succ (by omega)) fun a ha => ?_
    have ha := length_le_of_skipSpace? ha
    split
    · rfl
    · refine Option.bind_congr' (line?_succ (by omega)) fun b hb => ?_
      have hb := length_lt_of_line? hb
      exact ih (by omega)

theorem lines?_eq_of_le {fuel fuel' : ℕ} {p : Progress} {s : List Char}
    (h : 2 * s.length + 2 ≤ fuel) (hle : fuel ≤ fuel') : lines? fuel' p s = lines? fuel p s := by
  induction fuel', hle using Nat.le_induction with
  | base => rfl
  | succ n hn ih => exact (lines?_succ (h.trans hn)).trans ih

/-- **A document is read to its end.** The table that a document spells does not depend on the fuel,
if there is as much of it as the program takes, or more. -/
theorem parse?_eq_of_le (text : String) (fuel : ℕ)
    (h : 2 * (skipMark text.toList).length + 2 ≤ fuel) :
    (lines? fuel ⟨.empty, []⟩ (skipMark text.toList)).map (·.root.toTable) = parse? text := by
  rw [parse?, lines?_eq_of_le le_rfl h]

end Document

end NameRegistry.Toml
