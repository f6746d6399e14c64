import Mathlib.Data.List.Nodup

/-!
# Tables with a primary key

A `Table α key` is a list of rows no two of which share a key: the primary key
constraint is a field of the structure, so every operation has to keep it.

* `Table.get?` — the row with a given key.
* `Table.updateWhere`, `Table.update` — `UPDATE … WHERE`, with a row function
  that does not touch the key. `get?_updateWhere`, `get?_update` and
  `filter_updateWhere_of_imp` say which rows change.
* `Table.replace` — a row is overwritten as a whole.
* `Table.insertAll?` — `INSERT` of several rows, refused when a key is taken.
* `Table.delete` — `DELETE … WHERE key`.
-/

namespace RagStack.Common

/-- Rows with pairwise distinct keys. -/
structure Table (α : Type) {κ : Type} (key : α → κ) where
  rows : List α
  keys_nodup : (rows.map key).Nodup

namespace Table

variable {α κ : Type} {key : α → κ}

/-- The table without rows. -/
def empty : Table α key where
  rows := []
  keys_nodup := List.nodup_nil

theorem eq_of_key_eq (t : Table α key) {a b : α} (ha : a ∈ t.rows) (hb : b ∈ t.rows)
    (h : key a = key b) : a = b :=
  List.inj_on_of_nodup_map t.keys_nodup ha hb h

/-- `UPDATE … SET f WHERE p`; `f` leaves the key alone. -/
def updateWhere (t : Table α key) (p : α → Bool) (f : α → α) (hf : ∀ a, key (f a) = key a) :
    Table α key where
  rows := t.rows.map fun a => if p a then f a else a
  keys_nodup := by
    have h : (key ∘ fun a => if p a then f a else a) = key := by
      funext a
      by_cases hp : p a <;> simp [hp, hf]
    rw [List.map_map, h]
    exact t.keys_nodup

@[simp] theorem rows_updateWhere (t : Table α key) (p : α → Bool) (f : α → α) (hf) :
    (t.updateWhere p f hf).rows = t.rows.map fun a => if p a then f a else a := rfl

/-- Rows that satisfy `q` neither before nor after an update can be ignored. -/
theorem filter_updateWhere_of_imp (t : Table α key) (p q : α → Bool) (f : α → α) (hf)
    (h : ∀ a, p a = true → q a = false ∧ q (f a) = false) :
    (t.updateWhere p f hf).rows.filter q = t.rows.filter q := by
  rw [rows_updateWhere]
  induction t.rows with
  | nil => rfl
  | cons a l ih =>
    by_cases hp : p a = true
    · simp [hp, h a hp, ih]
    · by_cases hq : q a = true <;> simp [hp, hq, ih]

variable [DecidableEq κ]

/-- The row with key `k`. -/
def get? (t : Table α key) (k : κ) : Option α := t.rows.find? fun a => key a = k

/-- `UPDATE … SET f WHERE key = k`. -/
def update (t : Table α key) (k : κ) (f : α → α) (hf : ∀ a, key (f a) = key a) : Table α key :=
  t.updateWhere (fun a => key a = k) f hf

/-- The row with the key of `a` becomes `a`. -/
def replace (t : Table α key) (a : α) : Table α key :=
  t.updateWhere (fun _ => true) (fun b => if key b = key a then a else b) fun b => by
    split_ifs with h
    · exact h.symm
    · rfl

/-- `INSERT` of the rows `new`; `none` when the primary key would be violated. -/
def insertAll? (t : Table α key) (new : List α) : Option (Table α key) :=
  if h : ((t.rows ++ new).map key).Nodup then some ⟨t.rows ++ new, h⟩ else none

/-- `INSERT` of one row. -/
def insert? (t : Table α key) (a : α) : Option (Table α key) := t.insertAll? [a]

/-- `DELETE … WHERE key = k`. -/
def delete (t : Table α key) (k : κ) : Table α key where
  rows := t.rows.filter fun a => key a ≠ k
  keys_nodup := t.keys_nodup.sublist (List.filter_sublist.map key)

/-! ## Lookup -/

theorem get?_eq_some_iff (t : Table α key) (k : κ) (a : α) :
    t.get? k = some a ↔ a ∈ t.rows ∧ key a = k := by
  constructor
  · intro h
    exact ⟨List.mem_of_find?_eq_some h, by simpa using List.find?_some h⟩
  · rintro ⟨hmem, rfl⟩
    have hsome : (t.get? (key a)).isSome := by
      rw [get?, List.find?_isSome]
      exact ⟨a, hmem, by simp⟩
    obtain ⟨b, hb⟩ := Option.isSome_iff_exists.mp hsome
    have hkey : key b = key a := by simpa using List.find?_some hb
    rw [hb, t.eq_of_key_eq (List.mem_of_find?_eq_some hb) hmem hkey]

theorem get?_of_mem (t : Table α key) {a : α} (h : a ∈ t.rows) : t.get? (key a) = some a :=
  (t.get?_eq_some_iff _ _).mpr ⟨h, rfl⟩

theorem mem_of_get? {t : Table α key} {k : κ} {a : α} (h : t.get? k = some a) : a ∈ t.rows :=
  ((t.get?_eq_some_iff _ _).mp h).1

theorem key_of_get? {t : Table α key} {k : κ} {a : α} (h : t.get? k = some a) : key a = k :=
  ((t.get?_eq_some_iff _ _).mp h).2

/-! ## Updates by key -/

theorem get?_updateWhere (t : Table α key) (p : α → Bool) (f : α → α) (hf) (k : κ) :
    (t.updateWhere p f hf).get? k = (t.get? k).map fun a => if p a then f a else a := by
  have h : ((fun a => decide (key a = k)) ∘ fun a => if p a then f a else a) =
      fun a => decide (key a = k) := by
    funext a
    by_cases hp : p a <;> simp [hp, hf]
  rw [get?, rows_updateWhere, List.find?_map, h, get?]

theorem get?_update (t : Table α key) (k : κ) (f : α → α) (hf) (k' : κ) :
    (t.update k f hf).get? k' = if k' = k then (t.get? k').map f else t.get? k' := by
  rw [update, get?_updateWhere]
  cases h : t.get? k' with
  | none => simp
  | some a =>
    have hk : key a = k' := key_of_get? h
    by_cases hkk : k' = k <;> simp [hk, hkk]

theorem get?_update_self (t : Table α key) (k : κ) (f : α → α) (hf) :
    (t.update k f hf).get? k = (t.get? k).map f := by
  rw [get?_update, if_pos rfl]

theorem get?_update_of_ne (t : Table α key) {k k' : κ} (h : k' ≠ k) (f : α → α) (hf) :
    (t.update k f hf).get? k' = t.get? k' := by
  rw [get?_update, if_neg h]

/-- Updates of a table that keep a column. -/
theorem map_get?_update {β : Type} (t : Table α key) (k k' : κ) {g : α → α}
    (hg : ∀ a, key (g a) = key a) {column : α → β} (hc : ∀ a, column (g a) = column a) :
    ((t.update k g hg).get? k').map column = (t.get? k').map column := by
  rw [get?_update]
  split_ifs with hk
  · rw [Option.map_map]
    exact congrArg (fun f => (t.get? k').map f) (funext hc)
  · rfl

theorem get?_replace (t : Table α key) (a : α) (k : κ) :
    (t.replace a).get? k = if k = key a then (t.get? k).map fun _ => a else t.get? k := by
  rw [replace, get?_updateWhere]
  cases h : t.get? k with
  | none => simp
  | some b =>
    have hk : key b = k := key_of_get? h
    by_cases hka : k = key a
    · simp [hk, hka]
    · simp [hk, hka]

/-! ## Inserts -/

theorem rows_of_insertAll? {t t' : Table α key} {new : List α}
    (h : t.insertAll? new = some t') : t'.rows = t.rows ++ new := by
  unfold insertAll? at h
  split_ifs at h
  cases h
  rfl

theorem rows_of_insert? {t t' : Table α key} {a : α} (h : t.insert? a = some t') :
    t'.rows = t.rows ++ [a] :=
  rows_of_insertAll? h

theorem get?_insert?_self {t t' : Table α key} {a : α} (h : t.insert? a = some t') :
    t'.get? (key a) = some a := by
  apply get?_of_mem
  rw [rows_of_insert? h]
  simp

theorem get?_insert? {t t' : Table α key} {a : α} (h : t.insert? a = some t') (k : κ) :
    t'.get? k = if k = key a then some a else t.get? k := by
  by_cases hk : k = key a
  · rw [if_pos hk, hk, get?_insert?_self h]
  · rw [if_neg hk, get?, rows_of_insert? h, List.find?_append, ← get?]
    cases t.get? k <;> simp [Ne.symm hk]

/-- The key of an inserted row was free. -/
theorem get?_eq_none_of_insert? {t t' : Table α key} {a : α} (h : t.insert? a = some t') :
    t.get? (key a) = none := by
  rw [get?, List.find?_eq_none]
  intro b hb
  have hnodup := t'.keys_nodup
  rw [rows_of_insert? h, List.map_append, List.nodup_append] at hnodup
  simpa using hnodup.2.2 (key b) (List.mem_map_of_mem hb) (key a) (by simp)

theorem map_get?_insert? {β : Type} {t t' : Table α key} {a : α} (h : t.insert? a = some t')
    (column : α → β) (k : κ) :
    (t'.get? k).map column = if k = key a then some (column a) else (t.get? k).map column := by
  rw [get?_insert? h]
  split_ifs
  · rfl
  · rfl

theorem map_get?_insert?_self {β : Type} {t t' : Table α key} {a : α}
    (h : t.insert? a = some t') (column : α → β) :
    (t'.get? (key a)).map column = some (column a) := by
  rw [map_get?_insert? h, if_pos rfl]

/-- A row that was there is not the inserted one. -/
theorem ne_of_insert? {β : Type} {t t' : Table α key} {a : α} (h : t.insert? a = some t')
    {column : α → β} {k : κ} {b : β} (hk : (t.get? k).map column = some b) : k ≠ key a := by
  rintro rfl
  rw [get?_eq_none_of_insert? h] at hk
  cases hk

/-! ## Deletes -/

theorem get?_delete (t : Table α key) (k k' : κ) :
    (t.delete k).get? k' = if k' = k then none else t.get? k' := by
  apply Option.ext
  intro a
  have hmem : a ∈ (t.delete k).rows ↔ a ∈ t.rows ∧ key a ≠ k := by simp [delete]
  rw [get?_eq_some_iff, hmem]
  split_ifs with hk
  · subst hk
    simp
  · rw [get?_eq_some_iff]
    constructor
    · exact fun h => ⟨h.1.1, h.2⟩
    · exact fun h => ⟨⟨h.1, h.2 ▸ hk⟩, h.2⟩

end Table

end RagStack.Common
