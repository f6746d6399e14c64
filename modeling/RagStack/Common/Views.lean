import Mathlib.Data.List.Perm.Basic
import RagStack.Common.Table

/-!
# Reads of a database through a view

A view keeps some rows of each table. A read that gives the same result on the
view as on the database depends on nothing else. The order in which a query gives
rows that its ORDER BY does not tell apart is unknown, so a read has a set of
possible results: those on all databases with the same rows.

* `Table.restrict`, `Table.map`, `Table.findMany` — the rows of a view, the columns
  of a projection, and a query.
* `Table.exists_restrict_eq`: an order of the rows of one view can be taken over to
  a table whose view has the same rows.
* `possible_iff_of_view`: reads that depend on the view alone have the same possible
  results on two databases whose views have the same rows.
-/

namespace RagStack.Common

/-! ## Tables -/

namespace Table

variable {α β κ : Type} {key : α → κ} {key' : β → κ}

@[ext] theorem ext_rows {t t' : Table α key} (h : t.rows = t'.rows) : t = t' := by
  cases t
  cases t'
  cases h
  rfl

/-- The two tables have the same rows. -/
def SameRows (t t' : Table α key) : Prop := t.rows.Perm t'.rows

/-- The rows that satisfy `p`. -/
def restrict (t : Table α key) (p : α → Bool) : Table α key where
  rows := t.rows.filter p
  keys_nodup := t.keys_nodup.sublist (List.filter_sublist.map key)

/-- The table with other columns; `f` leaves the key alone. -/
def map (t : Table α key) (f : α → β) (hf : ∀ a, key' (f a) = key a) : Table β key' where
  rows := t.rows.map f
  keys_nodup := by
    have h : key' ∘ f = key := funext hf
    rw [List.map_map, h]
    exact t.keys_nodup

/-- `SELECT … WHERE p ORDER BY le`. Rows that the order does not tell apart come in
    the order of the table. -/
def findMany (t : Table α key) (p : α → Bool) (le : α → α → Bool) : List α :=
  (t.rows.filter p).mergeSort le

theorem mem_findMany {t : Table α key} {p : α → Bool} {le : α → α → Bool} {a : α} :
    a ∈ t.findMany p le ↔ a ∈ t.rows ∧ p a = true := by
  rw [findMany, List.mem_mergeSort, List.mem_filter]

/-- Rows that a condition does not admit can be left out before. -/
theorem filter_restrict (t : Table α key) {p q : α → Bool}
    (h : ∀ a ∈ t.rows, p a = true → q a = true) :
    (t.restrict q).rows.filter p = t.rows.filter p := by
  rw [restrict, List.filter_filter]
  refine List.filter_congr fun a ha => ?_
  cases hp : p a with
  | false => rfl
  | true => rw [h a ha hp]; rfl

theorem findMany_restrict (t : Table α key) {p q : α → Bool} (le : α → α → Bool)
    (h : ∀ a ∈ t.rows, p a = true → q a = true) :
    (t.restrict q).findMany p le = t.findMany p le := by
  rw [findMany, filter_restrict t h, findMany]

theorem countP_restrict (t : Table α key) {p q : α → Bool}
    (h : ∀ a ∈ t.rows, p a = true → q a = true) :
    (t.restrict q).rows.countP p = t.rows.countP p := by
  rw [List.countP_eq_length_filter, filter_restrict t h, List.countP_eq_length_filter]

theorem any_restrict (t : Table α key) {p q : α → Bool}
    (h : ∀ a ∈ t.rows, p a = true → q a = true) :
    (t.restrict q).rows.any p = t.rows.any p := by
  rw [Bool.eq_iff_iff, List.any_eq_true, List.any_eq_true]
  constructor
  · rintro ⟨a, ha, hp⟩
    exact ⟨a, (List.mem_filter.mp ha).1, hp⟩
  · rintro ⟨a, ha, hp⟩
    exact ⟨a, List.mem_filter.mpr ⟨ha, h a ha hp⟩, hp⟩

theorem find?_restrict (t : Table α key) {p q : α → Bool}
    (h : ∀ a ∈ t.rows, p a = true → q a = true) :
    (t.restrict q).rows.find? p = t.rows.find? p := by
  rw [← List.head?_filter, filter_restrict t h, List.head?_filter]

section Lookup

variable [DecidableEq κ]

theorem SameRows.get? {t t' : Table α key} (h : t.SameRows t') (k : κ) : t.get? k = t'.get? k := by
  apply Option.ext
  intro a
  rw [get?_eq_some_iff, get?_eq_some_iff, h.mem_iff]

theorem get?_map (t : Table α key) (f : α → β) (hf : ∀ a, key' (f a) = key a) (k : κ) :
    (t.map f hf).get? k = (t.get? k).map f := by
  rw [get?, map, List.find?_map, get?]
  congr 2
  funext a
  simp [hf]

theorem get?_restrict (t : Table α key) (q : α → Bool) (k : κ) :
    (t.restrict q).get? k = (t.get? k).filter q := by
  apply Option.ext
  intro a
  rw [get?_eq_some_iff, Option.filter_eq_some_iff, get?_eq_some_iff, restrict, List.mem_filter]
  tauto

/-- A condition that holds of kept rows only. -/
theorem any_get?_restrict (t : Table α key) {p q : α → Bool} (k : κ)
    (h : ∀ a, t.get? k = some a → p a = true → q a = true) :
    ((t.restrict q).get? k).any p = (t.get? k).any p := by
  rw [get?_restrict]
  cases hget : t.get? k with
  | none => rfl
  | some a =>
    cases hp : p a with
    | false => cases hq : q a <;> simp [Option.filter, hp, hq]
    | true => simp [Option.filter, h a hget hp, hp]

/-- A key whose row is kept. -/
theorem get?_restrict_of_imp (t : Table α key) {q : α → Bool} {k : κ}
    (h : ∀ a, t.get? k = some a → q a = true) : (t.restrict q).get? k = t.get? k := by
  rw [get?_restrict]
  cases hget : t.get? k with
  | none => rfl
  | some a => rw [Option.filter_some, if_pos (h a hget)]

end Lookup

/-- An order of the rows that `q` keeps can be taken over to a table where `q'` keeps
    the same rows. -/
theorem exists_restrict_eq {t t' t₁ : Table α key} {q q' : α → Bool}
    (h : (t.restrict q).SameRows (t'.restrict q')) (h₁ : t.SameRows t₁) :
    ∃ t₂ : Table α key, t'.SameRows t₂ ∧ t₂.restrict q' = t₁.restrict q := by
  have hkept : (t₁.rows.filter q).Perm (t'.rows.filter q') := (h₁.filter q).symm.trans h
  have hrows : t'.rows.Perm (t₁.rows.filter q ++ t'.rows.filter fun a => !q' a) :=
    (List.filter_append_perm q' t'.rows).symm.trans (hkept.symm.append_right _)
  have hnodup : ((t₁.rows.filter q ++ t'.rows.filter fun a => !q' a).map key).Nodup :=
    (hrows.map key).nodup_iff.mp t'.keys_nodup
  refine ⟨⟨_, hnodup⟩, hrows, ext_rows ?_⟩
  have hfirst : (t₁.rows.filter q).filter q' = t₁.rows.filter q :=
    List.filter_eq_self.mpr fun a ha => (List.mem_filter.mp (hkept.mem_iff.mp ha)).2
  have hsecond : (t'.rows.filter fun a => !q' a).filter q' = [] := by
    rw [List.filter_filter]
    exact List.filter_eq_nil_iff.mpr fun a _ => by simp
  simp only [restrict, List.filter_append, hfirst, hsecond, List.append_nil]

end Table

/-! ## Possible results -/

section Reads

variable {σ ρ : Type} {Same : σ → σ → Prop} {Ok : σ → Prop} {view : σ → σ} {read : σ → ρ}

/-- The result that a read may give: that on some state with the same rows. -/
def Possible (Same : σ → σ → Prop) (read : σ → ρ) (s : σ) (r : ρ) : Prop :=
  ∃ s', Same s s' ∧ read s' = r

theorem possible_of_view (hok : ∀ s s', Same s s' → Ok s → Ok s')
    (hread : ∀ s, Ok s → read (view s) = read s)
    (hlift : ∀ s t s', Same (view s) (view t) → Same s s' → ∃ t', Same t t' ∧ view t' = view s')
    {s t : σ} (hs : Ok s) (ht : Ok t) (h : Same (view s) (view t)) {r : ρ}
    (hr : Possible Same read s r) : Possible Same read t r := by
  obtain ⟨s', hss', rfl⟩ := hr
  obtain ⟨t', htt', hview⟩ := hlift s t s' h hss'
  refine ⟨t', htt', ?_⟩
  rw [← hread t' (hok t t' htt' ht), hview, hread s' (hok s s' hss' hs)]

theorem possible_iff_of_view (hsymm : ∀ s t, Same s t → Same t s)
    (hok : ∀ s s', Same s s' → Ok s → Ok s') (hread : ∀ s, Ok s → read (view s) = read s)
    (hlift : ∀ s t s', Same (view s) (view t) → Same s s' → ∃ t', Same t t' ∧ view t' = view s')
    {s t : σ} (hs : Ok s) (ht : Ok t) (h : Same (view s) (view t)) (r : ρ) :
    Possible Same read s r ↔ Possible Same read t r :=
  ⟨possible_of_view hok hread hlift hs ht h, possible_of_view hok hread hlift ht hs (hsymm _ _ h)⟩

end Reads

end RagStack.Common
