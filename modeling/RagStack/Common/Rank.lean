import Mathlib.Data.Finset.Max
import Mathlib.Data.Finset.Dedup

/-!
# Row numbers

`rankBy key rows row` is `ROW_NUMBER() OVER (ORDER BY key)` of a row among rows with
distinct keys: one more than the number of rows with a smaller key.

* `rankBy_injOn`: different rows have different numbers.
* `exists_rankBy`: the numbers are `1, …, n`.
-/

namespace RagStack.Common

variable {κ : Type} [LinearOrder κ]

/-! ## The number of smaller elements -/

theorem card_lt_strictMonoOn (s : Finset κ) :
    ∀ a ∈ s, ∀ b ∈ s, a < b → (s.filter (· < a)).card < (s.filter (· < b)).card := by
  intro a ha b hb hab
  apply Finset.card_lt_card
  refine Finset.ssubset_iff_of_subset (fun c hc => ?_) |>.mpr ⟨a, ?_, ?_⟩
  · rw [Finset.mem_filter] at hc ⊢
    exact ⟨hc.1, hc.2.trans hab⟩
  · exact Finset.mem_filter.mpr ⟨ha, hab⟩
  · exact fun h => lt_irrefl a (Finset.mem_filter.mp h).2

/-- By induction on the greatest element: it has all the others below it. -/
theorem exists_card_lt (s : Finset κ) :
    ∀ k < s.card, ∃ a ∈ s, (s.filter (· < a)).card = k := by
  induction s using Finset.induction_on_max with
  | empty => intro k hk; simp at hk
  | insert m s hmax ih =>
    have hm : m ∉ s := fun h => lt_irrefl m (hmax m h)
    intro k hk
    rw [Finset.card_insert_of_notMem hm] at hk
    rcases Nat.lt_succ_iff_lt_or_eq.mp hk with hlt | rfl
    · obtain ⟨a, ha, hcard⟩ := ih k hlt
      refine ⟨a, Finset.mem_insert_of_mem ha, ?_⟩
      rw [Finset.filter_insert, if_neg (not_lt.mpr (hmax a ha).le), hcard]
    · refine ⟨m, Finset.mem_insert_self m s, ?_⟩
      rw [Finset.filter_insert, if_neg (lt_irrefl m), Finset.filter_true_of_mem hmax]

/-! ## Row numbers -/

variable {α : Type} {key : α → κ}

/-- One more than the number of rows with a smaller key. -/
def rankBy (key : α → κ) (rows : List α) (row : α) : ℕ :=
  (rows.countP fun other => key other < key row) + 1

theorem rankBy_eq_card {rows : List α} (h : (rows.map key).Nodup) (row : α) :
    rankBy key rows row = (((rows.map key).toFinset).filter (· < key row)).card + 1 := by
  have hfilter : ((rows.map key).toFinset).filter (· < key row) =
      ((rows.map key).filter (· < key row)).toFinset := by
    ext
    simp
  rw [hfilter, List.toFinset_card_of_nodup (h.filter _), ← List.countP_eq_length_filter,
    List.countP_map]
  rfl

/-- A row's number is at most the number of rows: the row is not below itself. -/
theorem rankBy_le {rows : List α} {row : α} (h : row ∈ rows) :
    rankBy key rows row ≤ rows.length := by
  refine Nat.succ_le_of_lt (lt_of_le_of_ne List.countP_le_length fun hall => ?_)
  have hbelow := List.countP_eq_length.mp hall row h
  simp at hbelow

/-- Rows with the same number have the same key. -/
theorem rankBy_injOn {rows : List α} (h : (rows.map key).Nodup) {row other : α}
    (hrow : row ∈ rows) (hother : other ∈ rows)
    (heq : rankBy key rows row = rankBy key rows other) : key row = key other := by
  rw [rankBy_eq_card h, rankBy_eq_card h] at heq
  have hmem {a : α} (ha : a ∈ rows) : key a ∈ (rows.map key).toFinset :=
    List.mem_toFinset.mpr (List.mem_map_of_mem ha)
  rcases lt_trichotomy (key row) (key other) with hlt | heq' | hlt
  · have := card_lt_strictMonoOn _ _ (hmem hrow) _ (hmem hother) hlt
    omega
  · exact heq'
  · have := card_lt_strictMonoOn _ _ (hmem hother) _ (hmem hrow) hlt
    omega

/-- The row numbers are `1, …, n`. -/
theorem exists_rankBy {rows : List α} (h : (rows.map key).Nodup) {k : ℕ} (hpos : 1 ≤ k)
    (hk : k ≤ rows.length) : ∃ row ∈ rows, rankBy key rows row = k := by
  have hcard : (rows.map key).toFinset.card = rows.length := by
    rw [List.toFinset_card_of_nodup h, List.length_map]
  obtain ⟨a, ha, hrank⟩ := exists_card_lt (rows.map key).toFinset (k - 1) (by omega)
  obtain ⟨row, hrow, rfl⟩ := List.mem_map.mp (List.mem_toFinset.mp ha)
  refine ⟨row, hrow, ?_⟩
  rw [rankBy_eq_card h, hrank]
  omega

end RagStack.Common
