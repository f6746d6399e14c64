import Mathlib.Data.List.Perm.Basic
import RagStack.Common.Lists
import RagStack.Common.Table

/-!
# Merging values by key

A table is filled one value at a time; a value whose key is taken is merged with
the row of that key. The operation `merge` keeps the key of its first argument.

* `Table.upsertAll` — the rows, in the order in which their keys came first.
* `get?_upsertAll`: the row of a key is the merge of the values with that key.
* `map_get?_upsertAll_of_perm`: a part of the row that merges by a commutative
  and associative operation does not depend on the order of the values.
* `map_rows_perm`: tables with the same images by key have the same images.
-/

namespace RagStack.Common

variable {α β γ κ : Type} {key : α → κ}

/-! ## Folding a group -/

/-- `b` is merged into what was there, if anything was. -/
def mergeInto (merge : β → β → β) (found : Option β) (b : β) : Option β :=
  match found with
  | none => some b
  | some a => some (merge a b)

theorem map_foldl_mergeInto {merge : α → α → α} {combine : β → β → β} {f : α → β}
    (hf : ∀ a b, f (merge a b) = combine (f a) (f b)) (group : List α) :
    ∀ found : Option α, (group.foldl (mergeInto merge) found).map f =
      (group.map f).foldl (mergeInto combine) (found.map f) := by
  induction group with
  | nil => intro found; rfl
  | cons a group ih =>
    intro found
    have hstep : (mergeInto merge found a).map f = mergeInto combine (found.map f) (f a) := by
      cases found with
      | none => rfl
      | some b => exact congrArg some (hf b a)
    rw [List.foldl_cons, List.map_cons, List.foldl_cons, ih, hstep]

instance {combine : β → β → β} [Std.Commutative combine] [Std.Associative combine] :
    RightCommutative (mergeInto combine) where
  right_comm found a b := by
    have hcomm : ∀ x y, combine x y = combine y x := Std.Commutative.comm
    have hassoc : ∀ x y z, combine (combine x y) z = combine x (combine y z) :=
      Std.Associative.assoc
    cases found with
    | none => exact congrArg some (hcomm a b)
    | some c =>
      refine congrArg some ?_
      calc combine (combine c a) b
          = combine c (combine a b) := hassoc c a b
        _ = combine c (combine b a) := by rw [hcomm a b]
        _ = combine (combine c b) a := (hassoc c b a).symm

/-- What every value of a group has and the merge keeps, the result has. -/
theorem of_mem_foldl_mergeInto {merge : α → α → α} {P : α → Prop}
    (hmerge : ∀ a b, P a → P b → P (merge a b)) {group : List α} (hgroup : ∀ a ∈ group, P a) :
    ∀ {found : Option α}, (∀ a ∈ found, P a) → ∀ a ∈ group.foldl (mergeInto merge) found, P a := by
  induction group with
  | nil => intro found hfound; exact hfound
  | cons b group ih =>
    intro found hfound
    have hb : P b := hgroup b (by simp)
    refine ih (fun a ha => hgroup a (by simp [ha])) ?_
    cases found with
    | none =>
      intro a ha
      cases ha
      exact hb
    | some c =>
      intro a ha
      cases ha
      exact hmerge c b (hfound c rfl) hb

namespace Table

variable [DecidableEq κ] {merge : α → α → α} {hmerge : ∀ a b, key (merge a b) = key a}

/-! ## Upserts -/

/-- The row with the key of `a` is merged with `a`; without one, `a` is added. -/
def upsert (merge : α → α → α) (hmerge : ∀ a b, key (merge a b) = key a) (t : Table α key) (a : α) :
    Table α key :=
  match h : t.get? (key a) with
  | none =>
    { rows := t.rows ++ [a]
      keys_nodup := by
        rw [List.map_append, List.nodup_append]
        refine ⟨t.keys_nodup, by simp, ?_⟩
        intro k hk k' hk'
        obtain ⟨b, hb, rfl⟩ := List.mem_map.mp hk
        rw [get?, List.find?_eq_none] at h
        simpa [List.mem_singleton.mp hk'] using h b hb }
  | some _ => t.update (key a) (fun b => merge b a) fun b => hmerge b a

/-- The table made of the values, one after the other. -/
def upsertAll (merge : α → α → α) (hmerge : ∀ a b, key (merge a b) = key a) (values : List α) :
    Table α key :=
  values.foldl (upsert merge hmerge) ⟨[], List.nodup_nil⟩

theorem get?_upsert (t : Table α key) (a : α) (k : κ) :
    (t.upsert merge hmerge a).get? k =
      if key a = k then mergeInto merge (t.get? k) a else t.get? k := by
  unfold upsert
  split
  · rename_i hnone
    rw [get?, List.find?_append, ← get?]
    by_cases hk : key a = k
    · subst hk
      rw [if_pos rfl, hnone]
      simp [mergeInto]
    · rw [if_neg hk]
      cases t.get? k <;> simp [hk]
  · rename_i b hsome
    rw [get?_update]
    by_cases hk : key a = k
    · subst hk
      rw [if_pos rfl, if_pos rfl, hsome]
      rfl
    · rw [if_neg (Ne.symm hk), if_neg hk]

theorem get?_foldl_upsert (values : List α) :
    ∀ (t : Table α key) (k : κ), (values.foldl (upsert merge hmerge) t).get? k =
      (values.filter fun a => key a = k).foldl (mergeInto merge) (t.get? k) := by
  induction values with
  | nil => intro t k; rfl
  | cons a values ih =>
    intro t k
    rw [List.foldl_cons, ih, get?_upsert]
    by_cases hk : key a = k
    · simp [hk]
    · simp [hk]

/-- The row of a key is the merge of the values with that key. -/
theorem get?_upsertAll (values : List α) (k : κ) :
    (upsertAll merge hmerge values).get? k =
      (values.filter fun a => key a = k).foldl (mergeInto merge) none :=
  get?_foldl_upsert values _ k

theorem isSome_foldl_mergeInto {group : List α} :
    ∀ {found : Option α}, (group.foldl (mergeInto merge) found).isSome = true ↔
      found.isSome = true ∨ group ≠ [] := by
  induction group with
  | nil => intro found; simp
  | cons a group ih =>
    intro found
    rw [List.foldl_cons, ih]
    cases found <;> simp [mergeInto]

/-- The keys of the table are the keys of the values. -/
theorem mem_keys_upsertAll {values : List α} {k : κ} :
    k ∈ (upsertAll merge hmerge values).rows.map key ↔ k ∈ values.map key := by
  have hget : k ∈ (upsertAll merge hmerge values).rows.map key ↔
      ((upsertAll merge hmerge values).get? k).isSome = true := by
    rw [get?, List.find?_isSome]
    simp
  rw [hget, get?_upsertAll, isSome_foldl_mergeInto]
  simp [List.filter_eq_nil_iff]

/-- Of values in another order, the same is found of a row that merges by a
    commutative and associative operation. -/
theorem map_get?_upsertAll_of_perm {combine : β → β → β} [Std.Commutative combine]
    [Std.Associative combine] {f : α → β} (hf : ∀ a b, f (merge a b) = combine (f a) (f b))
    {values values' : List α} (h : values.Perm values') (k : κ) :
    ((upsertAll merge hmerge values).get? k).map f =
      ((upsertAll merge hmerge values').get? k).map f := by
  rw [get?_upsertAll, get?_upsertAll, map_foldl_mergeInto hf, map_foldl_mergeInto hf]
  exact ((h.filter _).map f).foldl_eq _

/-- What all values of a key have and the merge keeps, their row has. -/
theorem of_get?_upsertAll {P : α → Prop} (hP : ∀ a b, P a → P b → P (merge a b))
    {values : List α} {k : κ} (h : ∀ a ∈ values, key a = k → P a) :
    ∀ a ∈ (upsertAll merge hmerge values).get? k, P a := by
  rw [get?_upsertAll]
  refine of_mem_foldl_mergeInto hP (fun a ha => ?_) (fun a ha => by cases ha)
  obtain ⟨hmem, hkey⟩ := List.mem_filter.mp ha
  exact h a hmem (by simpa using hkey)

/-! ## Images -/

theorem filterMap_keys (t : Table α key) (f : α → γ) :
    (t.rows.map key).filterMap (fun k => (t.get? k).map f) = t.rows.map f := by
  rw [List.filterMap_map]
  have hrow : ∀ a ∈ t.rows, ((fun k => (t.get? k).map f) ∘ key) a = some (f a) := by
    intro a ha
    show (t.get? (key a)).map f = some (f a)
    rw [t.get?_of_mem ha]
    rfl
  rw [List.filterMap_congr hrow]
  exact congrFun List.filterMap_eq_map' t.rows

/-- Tables whose rows have the same images key by key. -/
theorem map_rows_perm {t t' : Table α key} {f : α → γ}
    (h : ∀ k, (t.get? k).map f = (t'.get? k).map f) :
    (t.rows.map f).Perm (t'.rows.map f) := by
  have hmem : ∀ s : Table α key, ∀ k, k ∈ s.rows.map key ↔ ((s.get? k).map f).isSome = true := by
    intro s k
    rw [Option.isSome_map, get?, List.find?_isSome]
    simp
  have hkeys : (t.rows.map key).Perm (t'.rows.map key) := by
    refine (List.perm_ext_iff_of_nodup t.keys_nodup t'.keys_nodup).mpr fun k => ?_
    rw [hmem, hmem, h]
  have himages := hkeys.filterMap fun k => (t.get? k).map f
  rw [filterMap_keys] at himages
  rwa [List.filterMap_congr fun k _ => h k, filterMap_keys] at himages

end Table

end RagStack.Common
