import Mathlib.Logic.Relation

/-!
# Logs of grants

A log to which every step appends an entry that is a root, or that has a parent in the log.
What such a log says of an entry, it says of the chain of entries behind it.

* `Lineal.snoc`: the step that keeps every entry traced back to a root.
* `TracesBack.exists_root`: what parents hand down, an entry has from its root.
-/

namespace RagStack.Common

variable {α : Type} {root : α → Prop} {parent : α → α → Prop} {log log' : List α} {a b : α}

/-- The entry comes from a root of the log, through entries of the log. -/
def TracesBack (root : α → Prop) (parent : α → α → Prop) (log : List α) (a : α) : Prop :=
  ∃ r ∈ log, root r ∧ Relation.ReflTransGen (fun b a => a ∈ log ∧ parent b a) r a

/-- Every entry is traced back. -/
def Lineal (root : α → Prop) (parent : α → α → Prop) (log : List α) : Prop :=
  ∀ a ∈ log, TracesBack root parent log a

theorem TracesBack.mono (hlog : log ⊆ log') (h : TracesBack root parent log a) :
    TracesBack root parent log' a := by
  obtain ⟨r, hr, hroot, hchain⟩ := h
  exact ⟨r, hlog hr, hroot, hchain.lift id fun b a hba => ⟨hlog hba.1, hba.2⟩⟩

theorem TracesBack.child (h : TracesBack root parent log b) (ha : a ∈ log) (hba : parent b a) :
    TracesBack root parent log a := by
  obtain ⟨r, hr, hroot, hchain⟩ := h
  exact ⟨r, hr, hroot, hchain.tail ⟨ha, hba⟩⟩

/-- What parents hand down, an entry has from its root. -/
theorem TracesBack.exists_root {β : Type} {f : α → β} (hparent : ∀ b a, parent b a → f b = f a)
    (h : TracesBack root parent log a) : ∃ r ∈ log, root r ∧ f r = f a := by
  obtain ⟨r, hr, hroot, hchain⟩ := h
  refine ⟨r, hr, hroot, ?_⟩
  induction hchain with
  | refl => rfl
  | tail _ hba ih => exact ih.trans (hparent _ _ hba.2)

theorem Lineal.nil : Lineal root parent [] := fun _ ha => absurd ha List.not_mem_nil

/-- The new entry is a root or has a parent in the log. -/
theorem Lineal.snoc (h : Lineal root parent log) (ha : root a ∨ ∃ b ∈ log, parent b a) :
    Lineal root parent (log ++ [a]) := by
  have hmem : a ∈ log ++ [a] := List.mem_append_right _ (List.mem_singleton_self a)
  intro entry hentry
  rcases List.mem_append.mp hentry with hold | hnew
  · exact (h entry hold).mono (List.subset_append_left log [a])
  · rw [List.mem_singleton.mp hnew]
    rcases ha with hroot | ⟨b, hb, hba⟩
    · exact ⟨a, hmem, hroot, .refl⟩
    · exact ((h b hb).mono (List.subset_append_left log [a])).child hmem hba

end RagStack.Common
