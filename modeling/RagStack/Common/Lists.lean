import Mathlib.Algebra.BigOperators.Ring.List
import Mathlib.Algebra.Order.BigOperators.Group.List
import Mathlib.Algebra.Order.Ring.Nat
import Mathlib.Data.List.Perm.Basic
import Mathlib.Data.List.Sort

/-!
# Tests, repetitions, shares and sorting

* `forall_mem_of_all`: a test of each element, to be evaluated.
* `nodup_eraseDups`, `eraseDups_perm`: a list without its repetitions depends on
  its elements only, up to the order.
* `pairwise_idxOf_eraseDups`: it keeps the order of the first occurrences.
* `exists_share`: of the parts that cover a list one has its share.
* `forall₂_of_mapM`: the results of a function that can fail.
* `perm_of_results`: the good and the bad results of a list make up the list.
* `mergeSort_eq_of_perm`: the result of sorting by a comparison that tells the
  elements apart depends on their multiset only.
-/

namespace RagStack.Common

variable {α : Type}

/-- What a test of each element shows. `decide` on the statement itself may take an
    instance that runs over the whole type. -/
theorem forall_mem_of_all {p : α → Prop} [DecidablePred p] {l : List α}
    (h : (l.all fun a => p a) = true) : ∀ a ∈ l, p a :=
  fun a ha => of_decide_eq_true (List.all_eq_true.mp h a ha)

theorem ite_singleton_eq_nil_iff {p : Prop} [Decidable p] {a : α} :
    (if p then [a] else []) = [] ↔ ¬ p := by
  split_ifs with h <;> simp [h]

theorem eraseDups_eq_nil_iff [BEq α] {l : List α} : l.eraseDups = [] ↔ l = [] := by
  cases l with
  | nil => simp
  | cons a l => simp [List.eraseDups_cons]

theorem nodup_eraseDups [BEq α] [LawfulBEq α] (l : List α) : l.eraseDups.Nodup := by
  induction hn : l.length using Nat.strong_induction_on generalizing l with
  | h n ih =>
    cases l with
    | nil => exact List.nodup_nil
    | cons a l =>
      rw [List.eraseDups_cons]
      refine List.nodup_cons.mpr ⟨by simp [List.mem_eraseDups], ih _ ?_ _ rfl⟩
      rw [← hn]
      exact Nat.lt_succ_of_le (List.length_filter_le _ _)

theorem idxOf_lt_of_filter [BEq α] [LawfulBEq α] {p : α → Bool} {l : List α} {a b : α}
    (ha : p a = true) (hb : p b = true) (h : (l.filter p).idxOf a < (l.filter p).idxOf b) :
    l.idxOf a < l.idxOf b := by
  induction l with
  | nil => exact h
  | cons c l ih =>
    by_cases hc : p c = true
    · rw [List.filter_cons_of_pos hc] at h
      simp only [List.idxOf_cons, cond_eq_ite] at h ⊢
      split_ifs at h ⊢ <;> omega
    · rw [List.filter_cons_of_neg hc] at h
      have hac : (c == a) = false := beq_eq_false_iff_ne.mpr fun heq => hc (heq ▸ ha)
      have hbc : (c == b) = false := beq_eq_false_iff_ne.mpr fun heq => hc (heq ▸ hb)
      simp only [List.idxOf_cons, hac, hbc, cond_false]
      exact Nat.succ_lt_succ (ih h)

/-- The elements are kept in the order in which they occur first. -/
theorem pairwise_idxOf_eraseDups [BEq α] [LawfulBEq α] (l : List α) :
    l.eraseDups.Pairwise fun a b => l.idxOf a < l.idxOf b := by
  induction hn : l.length using Nat.strong_induction_on generalizing l with
  | h n ih =>
    cases l with
    | nil => exact .nil
    | cons a l =>
      have hrest := ih _ (by
        rw [← hn]
        exact Nat.lt_succ_of_le (List.length_filter_le (fun b => !b == a) l)) _ rfl
      rw [List.eraseDups_cons]
      have hne : ∀ {b}, b ∈ (l.filter fun b => !b == a).eraseDups → (!b == a) = true :=
        fun hb => (List.mem_filter.mp (List.mem_eraseDups.mp hb)).2
      have hidx : ∀ {b}, (!b == a) = true → (a :: l).idxOf b = l.idxOf b + 1 := by
        intro b hb
        refine List.idxOf_cons_ne l fun heq => ?_
        rw [heq, beq_self_eq_true] at hb
        cases hb
      refine List.pairwise_cons.mpr ⟨fun b hb => ?_, hrest.imp_of_mem fun hb hc hlt => ?_⟩
      · rw [List.idxOf_cons_self, hidx (hne hb)]
        exact Nat.succ_pos _
      · rw [hidx (hne hb), hidx (hne hc)]
        exact Nat.succ_lt_succ (idxOf_lt_of_filter (hne hb) (hne hc) hlt)

theorem eraseDups_perm [BEq α] [LawfulBEq α] {l l' : List α} (h : ∀ a, a ∈ l ↔ a ∈ l') :
    l.eraseDups.Perm l'.eraseDups := by
  rw [List.perm_ext_iff_of_nodup (nodup_eraseDups l) (nodup_eraseDups l')]
  simpa [List.mem_eraseDups] using h

/-- The parts count at least as much as there is, if each element is counted somewhere. -/
theorem length_le_sum_countP {ι : Type} {parts : List ι} {p : ι → α → Bool} {l : List α}
    (h : ∀ a ∈ l, ∃ i ∈ parts, p i a = true) :
    l.length ≤ (parts.map fun i => l.countP (p i)).sum := by
  induction l with
  | nil => exact Nat.zero_le _
  | cons a l ih =>
    obtain ⟨⟨i, hi, hpi⟩, hl⟩ := List.forall_mem_cons.mp h
    have hmem : 1 ∈ parts.map fun i => if p i a = true then 1 else 0 :=
      List.mem_map.mpr ⟨i, hi, if_pos hpi⟩
    have hone : 1 ≤ (parts.map fun i => if p i a = true then 1 else 0).sum :=
      List.single_le_sum (fun n _ => Nat.zero_le n) 1 hmem
    have hrest := ih hl
    simp only [List.countP_cons, List.sum_map_add, List.length_cons]
    omega

/-- One of the parts has its share, if each element is in some part. -/
theorem exists_share {ι : Type} {parts : List ι} (hne : parts ≠ []) {p : ι → α → Bool} {l : List α}
    (h : ∀ a ∈ l, ∃ i ∈ parts, p i a = true) :
    ∃ i ∈ parts, l.length ≤ parts.length * l.countP (p i) := by
  refine List.exists_le_of_sum_le hne (fun _ => l.length) (fun i => parts.length * l.countP (p i)) ?_
  rw [List.map_const', List.sum_replicate, nsmul_eq_mul, List.sum_map_mul_left]
  exact Nat.mul_le_mul_left _ (length_le_sum_countP h)

/-- Each element is told by the one result that it has, good or bad. -/
theorem perm_of_results {β ε : Type} {good : α → Option β} {bad : α → Option ε} {ok : β → α}
    {err : ε → α} (h : ∀ a, (∃ b, good a = some b ∧ bad a = none ∧ ok b = a) ∨
      ∃ e, good a = none ∧ bad a = some e ∧ err e = a) (l : List α) :
    ((l.filterMap good).map ok ++ (l.filterMap bad).map err).Perm l := by
  induction l with
  | nil => exact List.Perm.refl _
  | cons a l ih =>
    rcases h a with ⟨b, hgood, hbad, hb⟩ | ⟨e, hgood, hbad, he⟩
    · rw [List.filterMap_cons_some hgood, List.filterMap_cons_none hbad, List.map_cons, hb]
      exact ih.cons a
    · rw [List.filterMap_cons_none hgood, List.filterMap_cons_some hbad, List.map_cons, he]
      exact List.perm_middle.trans (ih.cons a)

/-- What a function that can fail gives for each element of a list. -/
theorem forall₂_of_mapM {β : Type} {f : α → Option β} {l : List α} {results : List β}
    (h : l.mapM f = some results) : List.Forall₂ (fun a b => f a = some b) l results := by
  induction l generalizing results with
  | nil =>
    cases h
    exact List.Forall₂.nil
  | cons a l ih =>
    rw [List.mapM_cons] at h
    obtain ⟨b, hb, h⟩ := Option.bind_eq_some_iff.mp h
    obtain ⟨rest, hrest, h⟩ := Option.bind_eq_some_iff.mp h
    cases h
    exact List.Forall₂.cons hb (ih hrest)

theorem isLE_total {cmp : α → α → Ordering} [Std.OrientedCmp cmp] (a b : α) :
    ((cmp a b).isLE || (cmp b a).isLE) = true := by
  have hswap : cmp a b = (cmp b a).swap := Std.OrientedCmp.eq_swap
  rw [hswap]
  cases cmp b a <;> rfl

section Sorting

variable {cmp : α → α → Ordering} [Std.TransCmp cmp]

theorem pairwise_mergeSort_isLE (l : List α) :
    (l.mergeSort fun a b => (cmp a b).isLE).Pairwise fun a b => (cmp a b).isLE = true :=
  List.pairwise_mergeSort (fun _ _ _ => Std.TransCmp.isLE_trans) isLE_total l

/-- Sorting by a comparison that tells all elements apart forgets their order. -/
theorem mergeSort_eq_of_perm {l l' : List α}
    (heq : ∀ a b, a ∈ l → b ∈ l → cmp a b = .eq → a = b) (h : l.Perm l') :
    (l.mergeSort fun a b => (cmp a b).isLE) = l'.mergeSort fun a b => (cmp a b).isLE := by
  have hperm : (l.mergeSort fun a b => (cmp a b).isLE).Perm
      (l'.mergeSort fun a b => (cmp a b).isLE) :=
    (List.mergeSort_perm l _).trans (h.trans (List.mergeSort_perm l' _).symm)
  refine hperm.eq_of_pairwise ?_ (pairwise_mergeSort_isLE l) (pairwise_mergeSort_isLE l')
  intro a b ha hb hab hba
  exact heq a b ((List.mergeSort_perm l _).mem_iff.mp ha)
    (h.mem_iff.mpr ((List.mergeSort_perm l' _).mem_iff.mp hb))
    (Std.OrientedCmp.isLE_antisymm hab hba)

end Sorting

end RagStack.Common
