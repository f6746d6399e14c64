import RagStack.Common.Words

/-!
# Lines

A text over an arbitrary type and its lines, which end at the element `a`:
`List.splitOn a`, undone by `join [a]`.

* `splitOn_join`: the lines of joined texts are those of the texts.
* `splitOn_append_of_notMem`: a text without `a` in front of a text becomes part of
  its first line.
* `append_pair_cases`: where two pairs of neighbours stand in one list, if they do not
  overlap.
-/

namespace RagStack.Common

variable {α : Type}

section SplitOn

variable [BEq α] [LawfulBEq α] {a : α}

theorem splitOn_injective {text text' : List α} (h : text.splitOn a = text'.splitOn a) :
    text = text' := by
  have htext : join [a] (text.splitOn a) = text := List.intercalate_splitOn a
  rw [← htext, h]
  exact List.intercalate_splitOn a

theorem splitOn_join {parts : List (List α)} (hne : parts ≠ []) :
    (join [a] parts).splitOn a = parts.flatMap fun part => part.splitOn a := by
  induction parts with
  | nil => exact absurd rfl hne
  | cons part parts ih =>
    cases parts with
    | nil => simp
    | cons next parts =>
      rw [join_cons_cons, List.append_assoc, List.singleton_append,
        List.splitOn_append_cons_self, ih (by simp)]
      rfl

theorem splitOn_append_of_notMem {before : List α} (h : a ∉ before) (text : List α) :
    (before ++ text).splitOn a = (text.splitOn a).modifyHead (before ++ ·) := by
  induction before with
  | nil =>
    have hid : (fun line : List α => [] ++ line) = id := rfl
    rw [hid, List.modifyHead_id]
    rfl
  | cons c before ih =>
    obtain ⟨hc, hbefore⟩ := not_or.mp (mt List.mem_cons.mpr h)
    rw [List.cons_append, List.splitOn_cons_eq_if_modifyHead, ih hbefore,
      if_neg (by simpa using Ne.symm hc), List.modifyHead_modifyHead]
    rfl

theorem notMem_of_mem_splitOn {line text : List α} (h : line ∈ text.splitOn a) : a ∉ line := by
  induction text generalizing line with
  | nil =>
    rw [List.splitOn_nil, List.mem_singleton] at h
    simp [h]
  | cons c text ih =>
    rw [List.splitOn_cons_eq_if_modifyHead] at h
    split_ifs at h with hc
    · rcases List.mem_cons.mp h with rfl | hline
      · simp
      · exact ih hline
    · cases hlines : text.splitOn a with
      | nil => simp [hlines] at h
      | cons first rest =>
        rw [hlines, List.modifyHead_cons] at h
        rcases List.mem_cons.mp h with rfl | hline
        · have hfirst := ih (by simp [hlines] : first ∈ text.splitOn a)
          simp only [List.mem_cons, not_or]
          exact ⟨fun hca => hc (by simp [hca]), hfirst⟩
        · exact ih (by simp [hlines, hline])

theorem exists_splitOn {lines : List (List α)} (hne : lines ≠ [])
    (h : ∀ line ∈ lines, a ∉ line) : ∃ text : List α, text.splitOn a = lines :=
  ⟨join [a] lines, List.splitOn_intercalate a h hne⟩

end SplitOn

/-- An element that splits one list in two ways splits it at the same place, or one of the
    places is behind the other. -/
theorem append_cons_cases {before before' after after' : List α} {x : α}
    (h : before ++ x :: after = before' ++ x :: after') :
    (before = before' ∧ after = after') ∨
    (∃ mid, before' = before ++ x :: mid ∧ after = mid ++ x :: after') ∨
    ∃ mid, before = before' ++ x :: mid ∧ after' = mid ++ x :: after := by
  rcases List.append_eq_append_iff.mp h with ⟨mid, hbefore, hafter⟩ | ⟨mid, hbefore, hafter⟩
  · cases mid with
    | nil =>
      cases hafter
      exact Or.inl ⟨by rw [hbefore, List.append_nil], rfl⟩
    | cons y mid =>
      cases hafter
      exact Or.inr (Or.inl ⟨mid, hbefore, rfl⟩)
  · cases mid with
    | nil =>
      cases hafter
      exact Or.inl ⟨by rw [hbefore, List.append_nil], rfl⟩
    | cons y mid =>
      cases hafter
      exact Or.inr (Or.inr ⟨mid, hbefore, rfl⟩)

/-- Two pairs of neighbours in one list are the same, or one stands behind the other. -/
theorem append_pair_cases {before before' after after' : List α} {x y x' y' : α}
    (h : before ++ x :: y :: after = before' ++ x' :: y' :: after') (hyx : y ≠ x')
    (hyx' : y' ≠ x) :
    (before = before' ∧ x = x' ∧ y = y' ∧ after = after') ∨
    (∃ mid, before' = before ++ x :: y :: mid ∧ after = mid ++ x' :: y' :: after') ∨
    ∃ mid, before = before' ++ x' :: y' :: mid ∧ after' = mid ++ x :: y :: after := by
  rcases List.append_eq_append_iff.mp h with ⟨mid, hbefore, hafter⟩ | ⟨mid, hbefore, hafter⟩
  · match mid, hafter with
    | [], hafter =>
      cases hafter
      exact Or.inl ⟨by simp [hbefore], rfl, rfl, rfl⟩
    | [z], hafter =>
      cases hafter
      exact absurd rfl hyx
    | z :: w :: mid, hafter =>
      cases hafter
      exact Or.inr (Or.inl ⟨mid, hbefore, rfl⟩)
  · match mid, hafter with
    | [], hafter =>
      cases hafter
      exact Or.inl ⟨by simp [hbefore], rfl, rfl, rfl⟩
    | [z], hafter =>
      cases hafter
      exact absurd rfl hyx'
    | z :: w :: mid, hafter =>
      cases hafter
      exact Or.inr (Or.inr ⟨mid, hbefore, rfl⟩)

end RagStack.Common
