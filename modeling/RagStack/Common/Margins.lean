import RagStack.Common.Words
import Mathlib.Data.List.DropRight
import Mathlib.Data.Nat.Notation

/-!
# Margins of a page

A page is a list of lines, some of them blank. `trimMargins blank rep` takes the
blank lines off both ends, and then, as long as there are any, the lines that
satisfy `rep`.

* `removeAt removed i l`: the list without the positions that are removed.
* `OnlyMargins blank k l out`: `out` is `l` without some of the blank lines at its
  ends, and without some of the first `k` and the last `k` other lines.
* `onlyMargins_trim_iff`: when this is so for `trimMargins`.
-/

namespace RagStack.Common

variable {α : Type}

/-! ## Removing positions -/

/-- The elements at the positions, counted from `i`, that are not removed. -/
def removeAt (removed : ℕ → Bool) (i : ℕ) : List α → List α
  | [] => []
  | a :: l => if removed i then removeAt removed (i + 1) l else a :: removeAt removed (i + 1) l

variable {removed : ℕ → Bool}

theorem removeAt_append (l m : List α) :
    ∀ i, removeAt removed i (l ++ m) =
      removeAt removed i l ++ removeAt removed (i + l.length) m := by
  induction l with
  | nil => intro i; rfl
  | cons a l ih =>
    intro i
    rw [List.cons_append, removeAt, removeAt, ih, List.length_cons, Nat.add_right_comm]
    split_ifs
    · rfl
    · rfl

theorem removeAt_of_removed (l : List α) :
    ∀ {i : ℕ}, (∀ j < l.length, removed (i + j) = true) → removeAt removed i l = [] := by
  induction l with
  | nil => intro i _; rfl
  | cons a l ih =>
    intro i h
    have hfirst : removed i = true := h 0 (Nat.succ_pos _)
    rw [removeAt, if_pos hfirst]
    apply ih
    intro j hj
    rw [Nat.add_right_comm]
    exact h (j + 1) (Nat.succ_lt_succ hj)

theorem removeAt_of_kept (l : List α) :
    ∀ {i : ℕ}, (∀ j < l.length, removed (i + j) = false) → removeAt removed i l = l := by
  induction l with
  | nil => intro i _; rfl
  | cons a l ih =>
    intro i h
    have hfirst : removed i = false := h 0 (Nat.succ_pos _)
    rw [removeAt, if_neg (by simp [hfirst]), ih]
    intro j hj
    rw [Nat.add_right_comm]
    exact h (j + 1) (Nat.succ_lt_succ hj)

theorem mem_of_mem_removeAt {l : List α} {a : α} :
    ∀ {i : ℕ}, a ∈ removeAt removed i l → a ∈ l := by
  induction l with
  | nil => intro i h; exact h
  | cons b l ih =>
    intro i h
    rw [removeAt] at h
    split_ifs at h
    · exact List.mem_cons_of_mem b (ih h)
    · rcases List.mem_cons.mp h with rfl | h
      · exact List.mem_cons_self
      · exact List.mem_cons_of_mem b (ih h)

/-- The elements that satisfy `p` are counted as before if none of them is removed. -/
theorem countP_removeAt {p : α → Bool} (l : List α) :
    ∀ {i : ℕ}, (∀ j, ∀ a ∈ l[j]?, p a = true → removed (i + j) = false) →
      (removeAt removed i l).countP p = l.countP p := by
  induction l with
  | nil => intro i _; rfl
  | cons a l ih =>
    intro i h
    have htail : (removeAt removed (i + 1) l).countP p = l.countP p := by
      apply ih
      intro j b hb hp
      rw [Nat.add_right_comm]
      exact h (j + 1) b hb hp
    rw [removeAt]
    split_ifs with hremoved
    · have hp : ¬ p a = true := by
        intro hp
        have hfirst : removed i = false := h 0 a rfl hp
        simp [hfirst] at hremoved
      rw [htail, List.countP_cons_of_neg hp]
    · rw [List.countP_cons, List.countP_cons, htail]

/-- A position that is kept bounds the first one that is. -/
theorem head?_removeAt (l : List α) :
    ∀ {i j : ℕ}, j < l.length → removed (i + j) = false →
      ∃ m ≤ j, ∃ a ∈ l[m]?, (removeAt removed i l).head? = some a := by
  induction l with
  | nil => intro i j hj; simp at hj
  | cons a l ih =>
    intro i j hj hkept
    rw [removeAt]
    split_ifs with hremoved
    · cases j with
      | zero => simp [hremoved] at hkept
      | succ j =>
        rw [← Nat.add_assoc, Nat.add_right_comm] at hkept
        obtain ⟨m, hm, b, hb, hhead⟩ := ih (Nat.lt_of_succ_lt_succ hj) hkept
        exact ⟨m + 1, Nat.succ_le_succ hm, b, hb, hhead⟩
    · exact ⟨0, Nat.zero_le j, a, rfl, rfl⟩

/-- A position that is kept bounds the last one that is. -/
theorem getLast?_removeAt (l : List α) :
    ∀ {i j : ℕ}, j < l.length → removed (i + j) = false →
      ∃ m, j ≤ m ∧ ∃ a ∈ l[m]?, (removeAt removed i l).getLast? = some a := by
  induction l using List.reverseRecOn with
  | nil => intro i j hj; simp at hj
  | append_singleton l a ih =>
    intro i j hj hkept
    rw [removeAt_append, removeAt]
    split_ifs with hremoved
    · rw [List.length_append, List.length_singleton] at hj
      have hne : j ≠ l.length := by
        rintro rfl
        rw [hkept] at hremoved
        cases hremoved
      obtain ⟨m, hm, b, hb, hlast⟩ := ih (by omega) hkept
      refine ⟨m, hm, b, ?_, by simpa [removeAt] using hlast⟩
      exact List.getElem?_append_left (List.getElem?_eq_some_iff.mp hb).1 ▸ hb
    · refine ⟨l.length, ?_, a, by simp, by simp [removeAt]⟩
      simp at hj
      omega

/-! ## Margins -/

/-- The number of lines that are not blank. -/
def lineCount (blank : α → Bool) (l : List α) : ℕ := l.countP fun a => !blank a

/-- The line at a position is blank, at an end of the page, or it is not blank, and one of
    the first `k` or of the last `k` such lines. -/
def AtMargin (blank : α → Bool) (k : ℕ) (l : List α) (i : ℕ) : Prop :=
  ∀ a ∈ l[i]?,
    if blank a then (∀ b ∈ l.take i, blank b = true) ∨ ∀ b ∈ l.drop (i + 1), blank b = true
    else lineCount blank (l.take i) < k ∨ lineCount blank (l.drop (i + 1)) < k

/-- Only lines at the margin are removed; every other line stays, in its place. -/
def OnlyMargins (blank : α → Bool) (k : ℕ) (l out : List α) : Prop :=
  ∃ removed : ℕ → Bool, (∀ i, removed i = true → AtMargin blank k l i) ∧ out = removeAt removed 0 l

/-- Take the blank lines off both ends, and then the lines that satisfy `rep`. -/
def trimMargins (blank rep : α → Bool) (l : List α) : List α :=
  strip rep (strip blank l)

variable {blank rep : α → Bool} {k : ℕ}

theorem lineCount_append (l m : List α) :
    lineCount blank (l ++ m) = lineCount blank l + lineCount blank m := List.countP_append

theorem lineCount_of_blank {l : List α} (h : ∀ a ∈ l, blank a = true) : lineCount blank l = 0 :=
  List.countP_eq_zero.mpr fun a ha => by simp [h a ha]

theorem lineCount_of_not_blank {l : List α} (h : ∀ a ∈ l, blank a = false) :
    lineCount blank l = l.length :=
  List.countP_eq_length.mpr fun a ha => by simp [h a ha]

variable (blank) in
theorem lineCount_le (l : List α) : lineCount blank l ≤ l.length := List.countP_le_length

theorem strip_ne_nil_of_lineCount {l : List α} (h : 0 < lineCount blank l) :
    strip blank l ≠ [] := by
  intro hnil
  obtain ⟨pre, post, hl, hpre, hpost⟩ := strip_spec blank l
  rw [hl, hnil, lineCount_append, lineCount_append, lineCount_of_blank hpre,
    lineCount_of_blank hpost] at h
  exact absurd h (by simp [lineCount])

/-- A page that stays as it is. -/
theorem onlyMargins_self (blank : α → Bool) (k : ℕ) (l : List α) : OnlyMargins blank k l l := by
  refine ⟨fun _ => false, by simp, ?_⟩
  rw [removeAt_of_kept l]
  intro j _
  rfl

/-- Of few lines each is at a margin. -/
theorem atMargin_of_few {l : List α} (hfew : lineCount blank l ≤ 2 * k) {i : ℕ} {a : α}
    (ha : a ∈ l[i]?) (hblank : blank a = false) : AtMargin blank k l i := by
  intro b hb
  obtain rfl : b = a := Option.mem_unique hb ha
  rw [if_neg (by simp [hblank])]
  obtain ⟨hi, rfl⟩ := List.getElem?_eq_some_iff.mp ha
  have hsplit : lineCount blank l =
      lineCount blank (l.take i) + (lineCount blank (l.drop (i + 1)) + 1) := by
    conv_lhs => rw [← List.take_append_drop i l, List.drop_eq_getElem_cons hi]
    rw [lineCount_append, lineCount, lineCount, List.countP_cons_of_pos (by simp [hblank]),
      lineCount]
  omega

/-! ## The page without its blank ends -/

section Core

variable {pre core post : List α}

theorem take_page {j : ℕ} (hj : j ≤ core.length) :
    (pre ++ (core ++ post)).take (pre.length + j) = pre ++ core.take j := by
  rw [List.take_length_add_append, List.take_append_of_le_length hj]

theorem drop_page {j : ℕ} (hj : j ≤ core.length) :
    (pre ++ (core ++ post)).drop (pre.length + j) = core.drop j ++ post := by
  rw [List.drop_length_add_append, List.drop_append_of_le_length hj]

theorem getElem?_page {j : ℕ} (hj : j < core.length) :
    (pre ++ (core ++ post))[pre.length + j]? = core[j]? := by
  rw [List.getElem?_append_right (Nat.le_add_right _ _), Nat.add_sub_cancel_left,
    List.getElem?_append_left hj]

/-- A line with `k` lines before it and `k` behind it is not at a margin. -/
theorem not_atMargin_of_line {j : ℕ} (hj : j < core.length) (hblank : blank core[j] = false)
    (hbefore : k ≤ lineCount blank (core.take j))
    (hafter : k ≤ lineCount blank (core.drop (j + 1))) :
    ¬ AtMargin blank k (pre ++ (core ++ post)) (pre.length + j) := by
  intro h
  have hmargin := h core[j] (by rw [getElem?_page hj]; exact List.getElem?_eq_getElem hj)
  rw [if_neg (by simp [hblank]), take_page hj.le, Nat.add_assoc, drop_page (j := j + 1) hj,
    lineCount_append, lineCount_append] at hmargin
  omega

/-- Nor is a blank line between two lines that are not blank. -/
theorem not_atMargin_of_blank {j : ℕ} (hj : j < core.length) (hblank : blank core[j] = true)
    (hhead : ∀ a ∈ core.head?, blank a = false) (hlast : ∀ a ∈ core.getLast?, blank a = false) :
    ¬ AtMargin blank k (pre ++ (core ++ post)) (pre.length + j) := by
  intro h
  have hmargin := h core[j] (by rw [getElem?_page hj]; exact List.getElem?_eq_getElem hj)
  rw [if_pos hblank, take_page hj.le, Nat.add_assoc,
    drop_page (j := j + 1) hj] at hmargin
  rcases hmargin with hbefore | hafter
  · cases core with
    | nil => simp at hj
    | cons a core =>
      have ha : blank a = false := hhead a rfl
      cases j with
      | zero => simp [ha] at hblank
      | succ j => simp [hbefore a (by simp)] at ha
  · induction core using List.reverseRecOn with
    | nil => simp at hj
    | append_singleton core a _ =>
      have ha : blank a = false := hlast a (by simp)
      have hlt : j < core.length := by
        by_contra hge
        rw [List.length_append, List.length_singleton] at hj
        obtain rfl : j = core.length := by omega
        simp [ha] at hblank
      have hmem : a ∈ (core ++ [a]).drop (j + 1) ++ post := by
        rw [List.drop_append_of_le_length hlt]
        simp
      simp [hafter a hmem] at ha

/-- What lies in a page that loses its blank ends and no blank line within them. -/
theorem eq_removeAt_core {removed : ℕ → Bool} {out : List α}
    (hremoved : ∀ i, removed i = true → AtMargin blank k (pre ++ (core ++ post)) i)
    (hpre : ∀ a ∈ pre, blank a = true) (hpost : ∀ a ∈ post, blank a = true)
    (hhead : ∀ a ∈ core.head?, blank a = false) (hlast : ∀ a ∈ core.getLast?, blank a = false)
    (hout : out = removeAt removed 0 (pre ++ (core ++ post)))
    (hblanks : out.countP blank = core.countP blank) : out = removeAt removed pre.length core := by
  rw [removeAt_append, removeAt_append, Nat.zero_add] at hout
  have hcore : (removeAt removed pre.length core).countP blank = core.countP blank := by
    apply countP_removeAt
    intro j a ha hblank
    obtain ⟨hj, rfl⟩ := List.getElem?_eq_some_iff.mp ha
    by_contra hne
    exact not_atMargin_of_blank hj hblank hhead hlast (hremoved _ (by simpa using hne))
  -- the blank ends have only blank lines, and no blank line of them is left
  have hnil (i : ℕ) (l : List α) (hl : ∀ a ∈ l, blank a = true)
      (hcount : (removeAt removed i l).countP blank = 0) : removeAt removed i l = [] := by
    apply List.eq_nil_iff_forall_not_mem.mpr
    intro a ha
    exact List.countP_eq_zero.mp hcount a ha (hl a (mem_of_mem_removeAt ha))
  rw [hout, List.countP_append, List.countP_append, hcore] at hblanks
  rw [hout, hnil 0 pre hpre (by omega), hnil _ post hpost (by omega), List.nil_append,
    List.append_nil]

end Core

/-! ## When only margins are removed -/

theorem length_takeWhile_le {core : List α} (h : ∃ a ∈ core.take (k + 1), rep a = false) :
    (core.takeWhile rep).length ≤ k := by
  by_contra hlong
  obtain ⟨a, ha, hrep⟩ := h
  have hstart : core.take (k + 1) <+: core.takeWhile rep :=
    List.prefix_of_prefix_length_le (List.take_prefix _ _) (List.takeWhile_prefix rep)
      ((List.length_take_le _ _).trans (by omega))
  simp [List.mem_takeWhile_imp (hstart.subset ha)] at hrep

theorem length_rtakeWhile_le {core : List α}
    (h : ∃ a ∈ core.drop (core.length - (k + 1)), rep a = false) :
    ((core.dropWhile rep).rtakeWhile rep).length ≤ k := by
  by_contra hlong
  obtain ⟨a, ha, hrep⟩ := h
  have hsuffix : core.drop (core.length - (k + 1)) <:+ (core.dropWhile rep).rtakeWhile rep := by
    apply List.suffix_of_suffix_length_le (List.drop_suffix _ core)
    · exact (List.rtakeWhile_suffix rep _).trans (List.dropWhile_suffix rep)
    · rw [List.length_drop]
      omega
  simp [List.mem_rtakeWhile_imp (hsuffix.subset ha)] at hrep

theorem mem_take_of_getElem? {l : List α} {i n : ℕ} {a : α} (h : a ∈ l[i]?) (hi : i < n) :
    a ∈ l.take n := by
  obtain ⟨hlt, rfl⟩ := List.getElem?_eq_some_iff.mp h
  exact List.mem_take_iff_getElem.mpr ⟨i, by omega, rfl⟩

theorem mem_drop_of_getElem? {l : List α} {i n : ℕ} {a : α} (h : a ∈ l[i]?) (hi : n ≤ i) :
    a ∈ l.drop n := by
  obtain ⟨hlt, rfl⟩ := List.getElem?_eq_some_iff.mp h
  exact List.mem_drop_iff_getElem.mpr ⟨i - n, by omega, by simp [Nat.add_sub_cancel' hi]⟩

section Trim

variable {pre core post : List α}

/-- Two runs of lines at the ends are at the margins, if they are short or the lines few. -/
theorem atMargin_of_run (hrep : ∀ a, rep a = true → blank a = false)
    (hpre : ∀ a ∈ pre, blank a = true) (hpost : ∀ a ∈ post, blank a = true) {t b : ℕ}
    (htop : ∀ j, ∀ a ∈ core[j]?, j < t → rep a = true)
    (hbottom : ∀ j, ∀ a ∈ core[j]?, core.length - b ≤ j → rep a = true)
    (hshort : lineCount blank (pre ++ (core ++ post)) ≤ 2 * k ∨ t ≤ k ∧ b ≤ k) {i : ℕ}
    (hi : i < pre.length + t ∨ pre.length + (core.length - b) ≤ i) :
    AtMargin blank k (pre ++ (core ++ post)) i := by
  rcases Nat.lt_or_ge i pre.length with hipre | hipre
  · -- a blank line at the top
    intro a ha
    rw [List.getElem?_append_left hipre] at ha
    rw [if_pos (hpre a (List.mem_of_getElem? ha)), List.take_append_of_le_length hipre.le]
    exact Or.inl fun b hb => hpre b (List.mem_of_mem_take hb)
  obtain ⟨j, rfl⟩ := Nat.exists_eq_add_of_le hipre
  rcases Nat.lt_or_ge j core.length with hj | hj
  · -- a line of one of the two runs
    have hline : rep core[j] = true := by
      rcases hi with hi | hi
      · exact htop j core[j] (List.getElem?_eq_getElem hj) (by omega)
      · exact hbottom j core[j] (List.getElem?_eq_getElem hj) (by omega)
    have hmem : core[j] ∈ (pre ++ (core ++ post))[pre.length + j]? := by
      rw [getElem?_page hj]
      exact List.getElem?_eq_getElem hj
    rcases hshort with hfew | ⟨ht, hb⟩
    · exact atMargin_of_few hfew hmem (hrep _ hline)
    · intro a ha
      obtain rfl := Option.mem_unique ha hmem
      rw [if_neg (by simp [hrep _ hline]), take_page hj.le, Nat.add_assoc,
        drop_page (j := j + 1) hj, lineCount_append, lineCount_append, lineCount_of_blank hpre,
        lineCount_of_blank hpost]
      have hbefore := lineCount_le blank (core.take j)
      have hafter := lineCount_le blank (core.drop (j + 1))
      rw [List.length_take] at hbefore
      rw [List.length_drop] at hafter
      omega
  · -- a blank line at the bottom
    intro a ha
    rw [List.getElem?_append_right hipre, Nat.add_sub_cancel_left,
      List.getElem?_append_right hj] at ha
    rw [if_pos (hpost a (List.mem_of_getElem? ha)), Nat.add_assoc, List.drop_length_add_append]
    refine Or.inr fun b hb => hpost b ?_
    rw [List.drop_append, List.drop_of_length_le (by omega), List.nil_append] at hb
    exact List.mem_of_mem_drop hb

theorem onlyMargins_of_short (hrep : ∀ a, rep a = true → blank a = false)
    (hpre : ∀ a ∈ pre, blank a = true) (hpost : ∀ a ∈ post, blank a = true)
    (hshort : lineCount blank (pre ++ (core ++ post)) ≤ 2 * k ∨
      (core.takeWhile rep).length ≤ k ∧ ((core.dropWhile rep).rtakeWhile rep).length ≤ k) :
    OnlyMargins blank k (pre ++ (core ++ post)) (strip rep core) := by
  let top := core.takeWhile rep
  let out := strip rep core
  let bottom := (core.dropWhile rep).rtakeWhile rep
  have hcore : core = top ++ (out ++ bottom) := by
    show core = top ++ ((core.dropWhile rep).rdropWhile rep ++ bottom)
    rw [List.rdropWhile_append_rtakeWhile, List.takeWhile_append_dropWhile]
  have hlength : core.length = top.length + (out.length + bottom.length) := by
    conv_lhs => rw [hcore]
    rw [List.length_append, List.length_append]
  have htop (j : ℕ) (a : α) (ha : a ∈ core[j]?) (hj : j < top.length) : rep a = true := by
    rw [hcore, List.getElem?_append_left hj] at ha
    exact List.mem_takeWhile_imp (List.mem_of_getElem? ha)
  have hbottom (j : ℕ) (a : α) (ha : a ∈ core[j]?) (hj : core.length - bottom.length ≤ j) :
      rep a = true := by
    rw [hcore, List.getElem?_append_right (by omega), List.getElem?_append_right (by omega)] at ha
    exact List.mem_rtakeWhile_imp (List.mem_of_getElem? ha)
  refine ⟨fun i => i < pre.length + top.length ∨ pre.length + (core.length - bottom.length) ≤ i,
    fun i hi => ?_, ?_⟩
  · exact atMargin_of_run hrep hpre hpost htop hbottom hshort (by simpa using hi)
  · -- exactly `out` is kept
    show out = _
    conv_rhs => rw [hcore]
    rw [removeAt_append, removeAt_of_removed pre, removeAt_append, removeAt_append,
      removeAt_of_removed top, removeAt_append, removeAt_of_kept out, removeAt_of_removed bottom,
      removeAt_of_removed post]
    · simp
    all_goals
      intro j hj
      simp
      omega

variable (blank) in
theorem lineCount_take_add_drop (l : List α) (j : ℕ) :
    lineCount blank l = lineCount blank (l.take j) + lineCount blank (l.drop j) := by
  rw [← lineCount_append, List.take_append_drop]

/-- Lines that satisfy `rep` are not blank, so that no blank line goes with them. -/
theorem countP_blank_strip (hrep : ∀ a, rep a = true → blank a = false) (l : List α) :
    (strip rep l).countP blank = l.countP blank := by
  obtain ⟨top, bottom, hl, htop, hbottom⟩ := strip_spec rep l
  have hrun (l : List α) (hl : ∀ a ∈ l, rep a = true) : l.countP blank = 0 :=
    List.countP_eq_zero.mpr fun a ha => by simp [hrep a (hl a ha)]
  conv_rhs => rw [hl]
  rw [List.countP_append, List.countP_append, hrun top htop, hrun bottom hbottom, Nat.zero_add,
    Nat.add_zero]

section Kept

variable {removed : ℕ → Bool} (hrep : ∀ a, rep a = true → blank a = false)
  (hremoved : ∀ i, removed i = true → AtMargin blank k (pre ++ (core ++ post)) i)
  (hkept : strip rep core = removeAt removed pre.length core)
  (hmany : 2 * k < lineCount blank core)

include hrep hremoved hkept hmany

/-- The line behind the first `k` ones stays, so that a line of a longer run would be the
    first to stay. -/
theorem exists_not_rep_top : ∃ a ∈ core.take (k + 1), rep a = false := by
  by_contra hall
  have hrun : ∀ a ∈ core.take (k + 1), rep a = true := by simpa using hall
  have hlong := lineCount_le blank core
  have hk : k < core.length := by omega
  have htaken : lineCount blank (core.take (k + 1)) = k + 1 := by
    rw [lineCount_of_not_blank fun a ha => hrep a (hrun a ha), List.length_take]
    omega
  have hbefore : lineCount blank (core.take k) = k := by
    rw [lineCount_of_not_blank fun a ha => hrep a (hrun a (List.take_subset_take_left core
      (Nat.le_succ k) ha)), List.length_take]
    omega
  have hline : rep core[k] = true :=
    hrun _ (mem_take_of_getElem? (List.getElem?_eq_getElem hk) (Nat.lt_succ_self k))
  have hstays : removed (pre.length + k) = false := by
    by_contra hne
    refine not_atMargin_of_line hk (hrep _ hline) hbefore.ge ?_ (hremoved _ (by simpa using hne))
    have := lineCount_take_add_drop blank core (k + 1)
    omega
  obtain ⟨m, hm, a, ha, hfirst⟩ := head?_removeAt core hk hstays
  rw [← hkept] at hfirst
  have hne := head?_strip rep core a hfirst
  rw [hrun a (mem_take_of_getElem? ha (by omega))] at hne
  cases hne

theorem exists_not_rep_bottom :
    ∃ a ∈ core.drop (core.length - (k + 1)), rep a = false := by
  by_contra hall
  have hrun : ∀ a ∈ core.drop (core.length - (k + 1)), rep a = true := by simpa using hall
  have hlong := lineCount_le blank core
  have hj : core.length - (k + 1) < core.length := by omega
  have hdropped : lineCount blank (core.drop (core.length - (k + 1))) = k + 1 := by
    rw [lineCount_of_not_blank fun a ha => hrep a (hrun a ha), List.length_drop]
    omega
  have hafter : lineCount blank (core.drop (core.length - (k + 1) + 1)) = k := by
    rw [lineCount_of_not_blank fun a ha => hrep a (hrun a (List.drop_subset_drop_left core
      (Nat.le_succ _) ha)), List.length_drop]
    omega
  have hline : rep core[core.length - (k + 1)] = true :=
    hrun _ (mem_drop_of_getElem? (List.getElem?_eq_getElem hj) le_rfl)
  have hstays : removed (pre.length + (core.length - (k + 1))) = false := by
    by_contra hne
    refine not_atMargin_of_line hj (hrep _ hline) ?_ hafter.ge (hremoved _ (by simpa using hne))
    have := lineCount_take_add_drop blank core (core.length - (k + 1))
    omega
  obtain ⟨m, hm, a, ha, hlaststays⟩ := getLast?_removeAt core hj hstays
  rw [← hkept] at hlaststays
  have hne := getLast?_strip rep core a hlaststays
  rw [hrun a (mem_drop_of_getElem? ha hm)] at hne
  cases hne

end Kept

theorem short_of_onlyMargins (hrep : ∀ a, rep a = true → blank a = false)
    (hpre : ∀ a ∈ pre, blank a = true) (hpost : ∀ a ∈ post, blank a = true)
    (hhead : ∀ a ∈ core.head?, blank a = false) (hlast : ∀ a ∈ core.getLast?, blank a = false)
    (hmany : 2 * k < lineCount blank core)
    (h : OnlyMargins blank k (pre ++ (core ++ post)) (strip rep core)) :
    (∃ a ∈ core.take (k + 1), rep a = false) ∧
      ∃ a ∈ core.drop (core.length - (k + 1)), rep a = false := by
  obtain ⟨removed, hremoved, hout⟩ := h
  have hkept := eq_removeAt_core hremoved hpre hpost hhead hlast hout (countP_blank_strip hrep core)
  exact ⟨exists_not_rep_top hrep hremoved hkept hmany,
    exists_not_rep_bottom hrep hremoved hkept hmany⟩

end Trim

/-- `trimMargins` removes only lines at the margins if and only if the page has at most `2 * k`
    lines, or neither its first `k + 1` lines nor its last `k + 1` lines satisfy `rep`
    throughout, blank ends apart. -/
theorem onlyMargins_trim_iff (hrep : ∀ a, rep a = true → blank a = false) (l : List α) :
    OnlyMargins blank k l (trimMargins blank rep l) ↔ lineCount blank l ≤ 2 * k ∨
      (∃ a ∈ (strip blank l).take (k + 1), rep a = false) ∧
        ∃ a ∈ (strip blank l).drop ((strip blank l).length - (k + 1)), rep a = false := by
  obtain ⟨pre, post, hl, hpre, hpost⟩ := strip_spec blank l
  have hhead := head?_strip blank l
  have hlast := getLast?_strip blank l
  rw [trimMargins]
  generalize strip blank l = core at *
  rw [List.append_assoc] at hl
  subst hl
  have hcount : lineCount blank (pre ++ (core ++ post)) = lineCount blank core := by
    rw [lineCount_append, lineCount_append, lineCount_of_blank hpre, lineCount_of_blank hpost]
    omega
  constructor
  · intro h
    rcases Nat.lt_or_ge (2 * k) (lineCount blank core) with hmany | hfew
    · exact Or.inr (short_of_onlyMargins hrep hpre hpost hhead hlast hmany h)
    · exact Or.inl (hcount.trans_le hfew)
  · rintro (hfew | ⟨htop, hbottom⟩)
    · exact onlyMargins_of_short hrep hpre hpost (Or.inl hfew)
    · exact onlyMargins_of_short hrep hpre hpost
        (Or.inr ⟨length_takeWhile_le htop, length_rtakeWhile_le hbottom⟩)

end RagStack.Common
