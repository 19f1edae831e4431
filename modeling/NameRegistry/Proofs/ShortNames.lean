import Mathlib.Data.List.Forall2
import NameRegistry.TypeName

/-!
# Names without module paths

A full type name is made of paths with separators between them. Its simple form has the same
separators, and of each path the part after its last double colon.

* `TypeName.Separator` : the characters that do not belong to paths.
* `TypeName.LastSegment` : what the part after the last double colon is.
* `TypeName.byPaths` : induction along the paths of a name.

The paths of a name are the pieces into which it is split at its separators. A name is given by its
separators and its pieces (`TypeName.eq_of_splitOnP`), so its simple form is known when it is known
what becomes of these (`TypeName.filter_simple`, `TypeName.splitOnP_simple`).

Main result: `TypeName.simpleTypeName_of_paths`.
-/

namespace NameRegistry

namespace TypeName

variable {path segment segment' : List Char} {c : Char}

/-! ## The last segment of a path -/

/-- The part of a path after its last double colon, which is the one with most before it. Of a path
without a double colon it is all. -/
def LastSegment (path segment : List Char) : Prop :=
  (¬ [':', ':'] <:+: path ∧ segment = path) ∨
    ∃ before, path = before ++ ':' :: ':' :: segment ∧
      ∀ before' segment', path = before' ++ ':' :: ':' :: segment' →
        before'.length ≤ before.length

theorem LastSegment.unique (h : LastSegment path segment) (h' : LastSegment path segment') :
    segment = segment' := by
  have infix_of {before segment : List Char} (hp : path = before ++ ':' :: ':' :: segment) :
      [':', ':'] <:+: path := ⟨before, segment, by simp [hp]⟩
  rcases h with ⟨none, rfl⟩ | ⟨before, hp, last⟩ <;>
    rcases h' with ⟨none', hs⟩ | ⟨before', hp', last'⟩
  · exact hs.symm
  · exact absurd (infix_of hp') none
  · exact absurd (infix_of hp) none'
  · have length : before.length = before'.length :=
      Nat.le_antisymm (last' _ _ hp) (last _ _ hp')
    rw [hp] at hp'
    simpa using (List.append_inj hp' length).2

/-- What is found after the last double colon of the rest of a path. -/
theorem afterLast_cases (best rest : List Char) :
    (¬ [':', ':'] <:+: rest ∧ afterLast best rest = best) ∨
      ∃ before, rest = before ++ ':' :: ':' :: afterLast best rest ∧
        ¬ [':', ':'] <:+: ':' :: afterLast best rest := by
  induction rest generalizing best with
  | nil => simp [afterLast]
  | cons c rest ih =>
    unfold afterLast
    by_cases h : c = ':' ∧ rest.head? = some ':'
    · rw [if_pos h]
      obtain ⟨rfl, hhead⟩ := h
      have hrest : rest = ':' :: rest.tail := List.eq_cons_of_mem_head? hhead
      rcases ih rest.tail with ⟨none, hs⟩ | ⟨before, hbefore, none⟩
      · refine .inr ⟨[], ?_, ?_⟩
        · rw [hs, List.nil_append, ← hrest]
        · rwa [hs, ← hrest]
      · refine .inr ⟨':' :: before, ?_, none⟩
        rw [List.cons_append, ← hbefore]
    · rw [if_neg h]
      rcases ih best with ⟨none, hs⟩ | ⟨before, hbefore, none⟩
      · refine .inl ⟨?_, hs⟩
        rw [List.infix_cons_iff]
        rintro (starts | inner)
        · apply h
          obtain ⟨t, ht⟩ := starts
          cases ht
          exact ⟨rfl, rfl⟩
        · exact none inner
      · refine .inr ⟨c :: before, ?_, none⟩
        rw [List.cons_append, ← hbefore]

theorem lastSegment_spec (path : List Char) : LastSegment path (lastSegment path) := by
  rcases afterLast_cases path path with ⟨none, hs⟩ | ⟨before, hbefore, none⟩
  · exact .inl ⟨none, hs⟩
  · refine .inr ⟨before, hbefore, fun before' segment' h => ?_⟩
    -- A double colon further to the right would share at most one colon with the last one.
    by_contra further
    rw [hbefore] at h
    rcases List.append_eq_append_iff.1 h with ⟨more, rfl, hmore⟩ | ⟨more, rfl, -⟩
    · cases more with
      | nil => simp at further
      | cons d more =>
        obtain ⟨-, hmore⟩ := List.cons.inj hmore
        exact none ⟨more, segment', by simp [hmore]⟩
    · simp at further

theorem lastSegment_eq_iff : segment = lastSegment path ↔ LastSegment path segment := by
  constructor
  · rintro rfl
    exact lastSegment_spec path
  · intro h
    exact h.unique (lastSegment_spec path)

theorem lastSegment_of_not_infix (h : ¬ [':', ':'] <:+: path) : lastSegment path = path :=
  (lastSegment_eq_iff.2 (.inl ⟨h, rfl⟩)).symm

theorem not_infix_lastSegment (path : List Char) : ¬ [':', ':'] <:+: lastSegment path := by
  rcases afterLast_cases path path with ⟨none, hs⟩ | ⟨before, -, none⟩
  · rwa [lastSegment, hs]
  · intro h
    exact none (List.infix_cons h)

theorem mem_of_mem_lastSegment (h : c ∈ lastSegment path) : c ∈ path := by
  rcases lastSegment_spec path with ⟨-, hs⟩ | ⟨before, hp, -⟩
  · rwa [hs] at h
  · rw [hp]
    simp [h]

/-! ## Paths and separators -/

/-- A separator is neither alphanumeric nor an underscore nor a colon. -/
def isSeparator (c : Char) : Bool := !isAlphanumeric c && c != '_' && c != ':'

/-- A scan takes all but separators for parts of paths. -/
theorem isPathChar_eq_not (c : Char) : isPathChar c = !isSeparator c := by
  simp only [isPathChar, isSeparator, bne, Bool.not_and, Bool.not_not]

/-- The characters that do not belong to paths. -/
abbrev Separator := { c : Char // isSeparator c }

/-- All characters belong to paths. -/
def IsPath (path : List Char) : Prop := ∀ c ∈ path, isSeparator c = false

theorem IsPath.lastSegment (h : IsPath path) : IsPath (lastSegment path) :=
  fun c hc => h c (mem_of_mem_lastSegment hc)

/-- A name is a path, or a path before a separator and another name. -/
theorem byPaths {motive : List Char → Prop} (path : ∀ path, IsPath path → motive path)
    (cons : ∀ path c rest, IsPath path → isSeparator c → motive rest → motive (path ++ c :: rest))
    (name : List Char) : motive name := by
  -- The characters that have been read since the last separator are a path.
  suffices h : ∀ before, IsPath before → motive (before ++ name) from h [] (by simp [IsPath])
  induction name with
  | nil =>
    intro before hbefore
    rw [List.append_nil]
    exact path before hbefore
  | cons c rest ih =>
    intro before hbefore
    by_cases hc : isSeparator c
    · exact cons before c rest hbefore hc (ih [] (by simp [IsPath]))
    · rw [← List.singleton_append, ← List.append_assoc]
      apply ih
      intro d hd
      rcases List.mem_append.1 hd with hd | hd
      · exact hbefore d hd
      · rw [List.mem_singleton.1 hd]
        simpa using hc

/-- A name is given by its separators and the paths between them. -/
theorem eq_of_splitOnP {α : Type} {p : α → Bool} {l l' : List α} (filter : l.filter p = l'.filter p)
    (split : l.splitOnP p = l'.splitOnP p) : l = l' := by
  rw [← List.splitOnP_spec (p := p) l, filter, split, List.splitOnP_spec]

/-! ## The simple form -/

theorem simpleFrom_of_isPath (h : IsPath path) (before : List Char) :
    simpleFrom before path = lastSegment (before ++ path) := by
  induction path generalizing before with
  | nil => rw [simpleFrom, List.append_nil]
  | cons c rest ih =>
    have hc : isPathChar c := by
      rw [isPathChar_eq_not, h c List.mem_cons_self, Bool.not_false]
    rw [simpleFrom, if_pos hc, ih fun d hd => h d (List.mem_cons_of_mem c hd)]
    simp

theorem simple_of_isPath (h : IsPath path) : simple path = lastSegment path :=
  simpleFrom_of_isPath h []

theorem simpleFrom_append_cons (before a b : List Char) (hc : isSeparator c) :
    simpleFrom before (a ++ c :: b) = simpleFrom before a ++ c :: simple b := by
  induction a generalizing before with
  | nil =>
    have hc : ¬ isPathChar c := by simp [isPathChar_eq_not, hc]
    simp [simpleFrom, simple, hc]
  | cons d a ih =>
    rw [List.cons_append, simpleFrom, simpleFrom]
    split_ifs
    · exact ih (before ++ [d])
    · rw [ih, List.append_assoc, List.cons_append]

theorem simple_append_cons (a b : List Char) (hc : isSeparator c) :
    simple (a ++ c :: b) = simple a ++ c :: simple b :=
  simpleFrom_append_cons [] a b hc

theorem filter_simple (name : List Char) :
    (simple name).filter isSeparator = name.filter isSeparator := by
  have none {path : List Char} (h : IsPath path) : path.filter isSeparator = [] := by
    simpa [IsPath] using h
  induction name using byPaths with
  | path path h => rw [simple_of_isPath h, none h, none h.lastSegment]
  | cons path c rest h hc ih =>
    rw [simple_append_cons _ _ hc, simple_of_isPath h, List.filter_append, List.filter_append,
      List.filter_cons_of_pos hc, List.filter_cons_of_pos hc, none h, none h.lastSegment, ih]

theorem splitOnP_simple (name : List Char) :
    (simple name).splitOnP isSeparator = (name.splitOnP isSeparator).map lastSegment := by
  induction name using byPaths with
  | path path h =>
    rw [simple_of_isPath h, List.splitOnP_eq_singleton h, List.splitOnP_eq_singleton h.lastSegment,
      List.map_singleton]
  | cons path c rest h hc ih =>
    rw [simple_append_cons _ _ hc, simple_of_isPath h,
      List.splitOnP_append_cons_of_forall_mem h c hc,
      List.splitOnP_append_cons_of_forall_mem h.lastSegment c hc, ih, List.map_cons]

theorem not_infix_append_cons {a b : List Char} (hc : isSeparator c) (ha : ¬ [':', ':'] <:+: a)
    (hb : ¬ [':', ':'] <:+: b) : ¬ [':', ':'] <:+: a ++ c :: b := by
  have hcolon : c ≠ ':' := by
    rintro rfl
    simp [isSeparator] at hc
  have starts {l : List Char} (hl : ':' :: l <+: c :: b) : False := by
    obtain ⟨rest, hrest⟩ := hl
    exact hcolon (List.cons.inj hrest).1.symm
  rw [List.infix_append_iff]
  rintro (h | h | ⟨l, l', hl, hsuffix, hprefix⟩)
  · exact ha h
  · rcases List.infix_cons_iff.1 h with h | h
    · exact starts h
    · exact hb h
  · -- The colons on the right would begin with the separator.
    cases l' with
    | nil =>
      rw [List.append_nil] at hl
      exact ha (hl ▸ hsuffix.isInfix)
    | cons d l' =>
      have hd : d = ':' := by
        have : d ∈ [':', ':'] := by simp [hl]
        simpa using this
      exact starts (hd ▸ hprefix)

theorem not_infix_simple (name : List Char) : ¬ [':', ':'] <:+: simple name := by
  induction name using byPaths with
  | path path h =>
    rw [simple_of_isPath h]
    exact not_infix_lastSegment path
  | cons path c rest h hc ih =>
    rw [simple_append_cons _ _ hc, simple_of_isPath h]
    exact not_infix_append_cons hc (not_infix_lastSegment path) ih

theorem simple_simple (name : List Char) : simple (simple name) = simple name := by
  apply eq_of_splitOnP (filter_simple _)
  rw [splitOnP_simple, splitOnP_simple, List.map_map]
  apply List.map_congr_left
  intro path _
  exact lastSegment_of_not_infix (not_infix_lastSegment path)

/-- The second list has the last segments of the paths in the first. -/
theorem forall₂_lastSegment_iff {paths segments : List (List Char)} :
    List.Forall₂ LastSegment paths segments ↔ segments = paths.map lastSegment := by
  constructor
  · intro h
    induction h with
    | nil => rfl
    | cons h _ ih => rw [List.map_cons, ← ih, lastSegment_eq_iff.2 h]
  · rintro rfl
    rw [List.forall₂_map_right_iff, List.forall₂_same]
    intro path _
    exact lastSegment_spec path

theorem eq_simple_iff {name short : List Char} : short = simple name ↔
    short.filter isSeparator = name.filter isSeparator ∧
      List.Forall₂ LastSegment (name.splitOnP isSeparator) (short.splitOnP isSeparator) := by
  rw [forall₂_lastSegment_iff]
  constructor
  · rintro rfl
    exact ⟨filter_simple name, splitOnP_simple name⟩
  · rintro ⟨filter, split⟩
    apply eq_of_splitOnP
    · rw [filter, filter_simple]
    · rw [split, splitOnP_simple]

theorem toList_simpleTypeName (full : String) :
    (simpleTypeName full).toList = simple full.toList := by
  rw [simpleTypeName, String.toList_ofList]

/-- **The simple form of a type name.** Separators are the characters that are neither alphanumeric
nor underscores nor colons. The simple form of a name is the one text with the separators of the
name, in their order, and between them, in place of each path, the part of the path after its last
double colon, or the whole path if it has none.

So what is before a separator and what is behind it are made simple by themselves. No double colon
is left, and a name that is made simple again stays as it is. -/
theorem simpleTypeName_of_paths (full : String) :
    (∀ short : String, short = simpleTypeName full ↔
      short.toList.filter isSeparator = full.toList.filter isSeparator ∧
        List.Forall₂ LastSegment (full.toList.splitOnP isSeparator)
          (short.toList.splitOnP isSeparator)) ∧
      (∀ (a b : String) (c : Separator), simpleTypeName (a ++ String.singleton c ++ b) =
        simpleTypeName a ++ String.singleton c ++ simpleTypeName b) ∧
      ¬ [':', ':'] <:+: (simpleTypeName full).toList ∧
      simpleTypeName (simpleTypeName full) = simpleTypeName full := by
  refine ⟨fun short => ?_, fun a b c => ?_, ?_, ?_⟩
  · rw [← eq_simple_iff, ← toList_simpleTypeName, String.toList_inj]
  · rw [← String.toList_inj]
    simp only [toList_simpleTypeName, String.toList_append, String.toList_singleton]
    simpa using simple_append_cons a.toList b.toList c.2
  · rw [toList_simpleTypeName]
    exact not_infix_simple full.toList
  · rw [← String.toList_inj]
    simp only [toList_simpleTypeName]
    exact simple_simple full.toList

example : simpleTypeName "alloc::rc::Rc<my_crate::Widget>" = "Rc<Widget>" := by decide +kernel

end TypeName

end NameRegistry
