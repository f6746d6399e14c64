import Mathlib.Data.List.Perm.Basic

/-!
# Tallies

A record is filled from a list of values: the entry of the key of a value is
replaced by what `step` makes of the entry, if there is one, and the value. The
entries stand in the order in which their keys came first.

* `lookup_tally`: the entry of a key is made of the values with that key.
* `nodup_updateEntry`, `mem_iff_lookup`: a key has one entry.
* `lookup_tally_of_perm`: it does not depend on their order, if `step` does not.
-/

namespace RagStack.Common

variable {α κ ν : Type} [BEq κ]

/-- The entry of `key` becomes `f` of what it was. -/
def updateEntry (key : κ) (f : Option ν → ν) : List (κ × ν) → List (κ × ν)
  | [] => [(key, f none)]
  | entry :: record =>
    if key == entry.1 then (entry.1, f (some entry.2)) :: record
    else entry :: updateEntry key f record

/-- The record of a list of values. -/
def tally (key : α → κ) (step : Option ν → α → ν) (values : List α) : List (κ × ν) :=
  values.foldl (fun record value => updateEntry (key value) (step · value) record) []

theorem tally_map {β : Type} (key : β → κ) (step : Option ν → β → ν) (f : α → β)
    (values : List α) :
    tally key step (values.map f) =
      tally (fun value => key (f value)) (fun found value => step found (f value)) values :=
  List.foldl_map

variable [LawfulBEq κ]

theorem lookup_cons_of_ne {key k : κ} (hne : key ≠ k) (v : ν) (record : List (κ × ν)) :
    ((k, v) :: record).lookup key = record.lookup key := by
  rw [List.lookup_cons, beq_false_of_ne hne]

theorem lookup_updateEntry_self (key : κ) (f : Option ν → ν) (record : List (κ × ν)) :
    (updateEntry key f record).lookup key = some (f (record.lookup key)) := by
  induction record with
  | nil => simp [updateEntry]
  | cons entry record ih =>
    obtain ⟨k, v⟩ := entry
    by_cases hkey : key = k
    · subst hkey
      simp [updateEntry]
    · simp only [updateEntry, beq_false_of_ne hkey, Bool.false_eq_true, if_false]
      rw [lookup_cons_of_ne hkey, lookup_cons_of_ne hkey, ih]

theorem lookup_updateEntry_of_ne {key other : κ} (hne : other ≠ key) (f : Option ν → ν)
    (record : List (κ × ν)) :
    (updateEntry key f record).lookup other = record.lookup other := by
  induction record with
  | nil => exact lookup_cons_of_ne hne _ _
  | cons entry record ih =>
    obtain ⟨k, v⟩ := entry
    by_cases hkey : key = k
    · subst hkey
      simp only [updateEntry, BEq.rfl, if_true]
      rw [lookup_cons_of_ne hne, lookup_cons_of_ne hne]
    · simp only [updateEntry, beq_false_of_ne hkey, Bool.false_eq_true, if_false]
      by_cases hother : other = k
      · subst hother
        simp
      · rw [lookup_cons_of_ne hother, lookup_cons_of_ne hother, ih]

theorem lookup_foldl_updateEntry (key : α → κ) (step : Option ν → α → ν) (k : κ)
    (values : List α) : ∀ record : List (κ × ν),
    (values.foldl (fun record value => updateEntry (key value) (step · value) record)
        record).lookup k =
      (values.filter fun value => key value == k).foldl (fun found value => some (step found value))
        (record.lookup k) := by
  induction values with
  | nil => intro record; rfl
  | cons value values ih =>
    intro record
    rw [List.foldl_cons, ih]
    by_cases hkey : key value = k
    · subst hkey
      rw [lookup_updateEntry_self, List.filter_cons_of_pos (by simp), List.foldl_cons]
    · rw [lookup_updateEntry_of_ne (Ne.symm hkey), List.filter_cons_of_neg (by simpa using hkey)]

/-- A key is entered once. -/
theorem nodup_updateEntry {key : κ} {f : Option ν → ν} {record : List (κ × ν)}
    (h : (record.map Prod.fst).Nodup) : ((updateEntry key f record).map Prod.fst).Nodup := by
  have hkeys : ∀ record : List (κ × ν), ∀ k ∈ (updateEntry key f record).map Prod.fst,
      k = key ∨ k ∈ record.map Prod.fst := by
    intro record
    induction record with
    | nil => simp [updateEntry]
    | cons entry record ih =>
      intro k hk
      rw [updateEntry] at hk
      split_ifs at hk
      · exact Or.inr hk
      · rcases List.mem_cons.mp hk with rfl | hk
        · exact Or.inr List.mem_cons_self
        · exact (ih k hk).imp id (List.mem_cons_of_mem _)
  induction record with
  | nil => simp [updateEntry]
  | cons entry record ih =>
    rw [List.map_cons, List.nodup_cons] at h
    rw [updateEntry]
    split_ifs with hkey
    · exact List.nodup_cons.mpr h
    · refine List.nodup_cons.mpr ⟨fun hmem => ?_, ih h.2⟩
      rcases hkeys record entry.1 hmem with heq | hmem
      · simp [heq] at hkey
      · exact h.1 hmem

/-- Where every key is entered once, the entries are what is looked up. -/
theorem mem_iff_lookup {record : List (κ × ν)} (h : (record.map Prod.fst).Nodup) {key : κ} {v : ν} :
    (key, v) ∈ record ↔ record.lookup key = some v := by
  induction record with
  | nil => simp
  | cons entry record ih =>
    obtain ⟨k, w⟩ := entry
    rw [List.map_cons, List.nodup_cons] at h
    by_cases hkey : key = k
    · subst hkey
      have hnot : (key, v) ∉ record := fun hmem => h.1 (List.mem_map.mpr ⟨_, hmem, rfl⟩)
      simp [hnot, eq_comm]
    · rw [lookup_cons_of_ne hkey, ← ih h.2]
      simp [hkey]

/-- The entry of a key is made of the values with that key. -/
theorem lookup_tally (key : α → κ) (step : Option ν → α → ν) (values : List α) (k : κ) :
    (tally key step values).lookup k =
      (values.filter fun value => key value == k).foldl (fun found value => some (step found value))
        none :=
  lookup_foldl_updateEntry key step k values []

theorem lookup_tally_of_perm {key : α → κ} {step : Option ν → α → ν}
    [RightCommutative fun (found : Option ν) value => some (step found value)]
    {values values' : List α} (h : values.Perm values') (k : κ) :
    (tally key step values).lookup k = (tally key step values').lookup k := by
  rw [lookup_tally, lookup_tally]
  exact (h.filter _).foldl_eq none

end RagStack.Common
