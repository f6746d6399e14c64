import RagStack.Common.Words

/-!
# The cores of the words

The core of a word is what is left of it without the edges at its two ends. A list
has the cores of its words, except those that are empty.

* `cores_edges_append`, `cores_append_edges`: edges around a list do not change its
  cores, whether they separate words or not.
* `cores_join`: joining with separators keeps the cores of the parts, in order.
* `cores_map`: a map that keeps separators and edges maps the cores.
* `eq_self_of_words`: a function that goes through the separators and keeps each
  word keeps the list.
-/

namespace RagStack.Common

variable {α : Type}

/-- The cores of a list of words. -/
def coresOf (edge : α → Bool) (ws : List (List α)) : List (List α) :=
  (ws.map (strip edge)).filter fun core => !core.isEmpty

/-- The cores of the words of a list. -/
def cores (sp edge : α → Bool) (text : List α) : List (List α) := coresOf edge (words sp text)

section Cores

variable {sp edge : α → Bool}

theorem coresOf_append (ws ws' : List (List α)) :
    coresOf edge (ws ++ ws') = coresOf edge ws ++ coresOf edge ws' := by
  rw [coresOf, List.map_append, List.filter_append]
  rfl

theorem coresOf_flushWord (cur : List α) :
    coresOf edge (flushWord cur) = flushWord (strip edge cur) := by
  cases cur with
  | nil => rfl
  | cons c cur =>
    have hword : flushWord (c :: cur) = [c :: cur] := rfl
    rw [hword, coresOf, List.map_singleton]
    cases h : strip edge (c :: cur) <;> rfl

theorem mem_cores {core text : List α} :
    core ∈ cores sp edge text ↔ (∃ w ∈ words sp text, strip edge w = core) ∧ core ≠ [] := by
  rw [cores, coresOf, List.mem_filter, List.mem_map]
  simp

/-! ## Edges around a list -/

theorem strip_cons_edge {e : α} (he : edge e = true) (cur : List α) :
    strip edge (e :: cur) = strip edge cur := by
  have hedge : ∀ c ∈ [e], edge c = true := fun c hc => by rwa [List.mem_singleton.mp hc]
  have h := strip_append_seps edge hedge (List.forall_mem_nil _) cur
  rwa [List.append_nil] at h

theorem strip_concat_edge {e : α} (he : edge e = true) (cur : List α) :
    strip edge (cur ++ [e]) = strip edge cur := by
  have hedge : ∀ c ∈ [e], edge c = true := fun c hc => by rwa [List.mem_singleton.mp hc]
  exact strip_append_seps edge (List.forall_mem_nil _) hedge cur

theorem coresOf_wordsFrom_cons {e : α} (he : edge e = true) (text : List α) :
    ∀ cur, coresOf edge (wordsFrom sp (e :: cur) text) = coresOf edge (wordsFrom sp cur text) := by
  induction text with
  | nil =>
    intro cur
    rw [wordsFrom, wordsFrom, coresOf_flushWord, coresOf_flushWord, strip_cons_edge he]
  | cons c text ih =>
    intro cur
    rw [wordsFrom, wordsFrom]
    split_ifs
    · rw [coresOf_append, coresOf_append, coresOf_flushWord, coresOf_flushWord,
        strip_cons_edge he]
    · exact ih (cur ++ [c])

theorem coresOf_wordsFrom_concat {e : α} (he : edge e = true) (text : List α) :
    ∀ cur, coresOf edge (wordsFrom sp cur (text ++ [e])) =
      coresOf edge (wordsFrom sp cur text) := by
  induction text with
  | nil =>
    intro cur
    rw [List.nil_append, wordsFrom, wordsFrom, wordsFrom, coresOf_flushWord]
    split_ifs
    · rw [coresOf_append, coresOf_flushWord, coresOf_flushWord, strip_nil]
      exact List.append_nil _
    · rw [wordsFrom, coresOf_flushWord, strip_concat_edge he]
  | cons c text ih =>
    intro cur
    rw [List.cons_append, wordsFrom, wordsFrom]
    split_ifs
    · rw [coresOf_append, coresOf_append, ih]
    · exact ih (cur ++ [c])

theorem cores_edge_cons {e : α} (he : edge e = true) (text : List α) :
    cores sp edge (e :: text) = cores sp edge text := by
  rw [cores, cores, words, wordsFrom]
  split_ifs
  · rfl
  · exact coresOf_wordsFrom_cons he text []

/-- Edges before a list do not change its cores. -/
theorem cores_edges_append {before : List α} (h : ∀ c ∈ before, edge c = true) (text : List α) :
    cores sp edge (before ++ text) = cores sp edge text := by
  induction before with
  | nil => rfl
  | cons e before ih =>
    obtain ⟨he, hbefore⟩ := List.forall_mem_cons.mp h
    rw [List.cons_append, cores_edge_cons he, ih hbefore]

/-- Edges behind a list do not change its cores. -/
theorem cores_append_edges {after : List α} (h : ∀ c ∈ after, edge c = true) (text : List α) :
    cores sp edge (text ++ after) = cores sp edge text := by
  induction after generalizing text with
  | nil => rw [List.append_nil]
  | cons e after ih =>
    obtain ⟨he, hafter⟩ := List.forall_mem_cons.mp h
    have hsplit : text ++ e :: after = text ++ [e] ++ after := by simp
    rw [hsplit, ih hafter]
    exact coresOf_wordsFrom_concat he text []

/-! ## Separators -/

theorem cores_append_sep {s : α} (hs : sp s = true) (a b : List α) :
    cores sp edge (a ++ s :: b) = cores sp edge a ++ cores sp edge b := by
  rw [cores, words_append_sep hs, coresOf_append]
  rfl

/-- Joining with a non-empty run of separators keeps the cores of the parts. -/
theorem cores_join {sep : List α} (hne : sep ≠ []) (hsep : ∀ c ∈ sep, sp c = true)
    (parts : List (List α)) :
    cores sp edge (join sep parts) = parts.flatMap (cores sp edge) := by
  rw [cores, words_join hne hsep]
  induction parts with
  | nil => rfl
  | cons p parts ih =>
    rw [List.flatMap_cons, List.flatMap_cons, coresOf_append, ih]
    rfl

/-- Where the edges are the separators, the cores are the words. -/
theorem cores_self (text : List α) : cores sp sp text = words sp text := by
  have hword : ∀ w ∈ words sp text, strip sp w = w := by
    intro w hw
    have hsp := (mem_words hw).2
    exact strip_eq_self sp (fun c hc => hsp c (List.mem_of_mem_head? hc))
      fun c hc => hsp c (List.mem_of_mem_getLast? hc)
  rw [cores, coresOf, List.map_congr_left hword, List.map_id', List.filter_eq_self]
  intro w hw
  simpa using (mem_words hw).1

end Cores

/-! ## Maps -/

section Maps

variable {β : Type} {sp edge : α → Bool} {sp' edge' : β → Bool} {f : α → β}

theorem strip_map {w : List α} (h : ∀ c ∈ w, edge' (f c) = edge c) :
    strip edge' (w.map f) = (strip edge w).map f := by
  have hdrop : ∀ l : List α, (∀ c ∈ l, edge' (f c) = edge c) →
      (l.map f).dropWhile edge' = (l.dropWhile edge).map f := by
    intro l hl
    induction l with
    | nil => rfl
    | cons c l ih =>
      obtain ⟨hc, hl⟩ := List.forall_mem_cons.mp hl
      rw [List.map_cons, List.dropWhile_cons, List.dropWhile_cons, hc]
      split_ifs
      · exact ih hl
      · rfl
  have hback : ∀ c ∈ (w.dropWhile edge).reverse, edge' (f c) = edge c := fun c hc =>
    h c ((List.dropWhile_suffix edge).subset (List.mem_reverse.mp hc))
  rw [strip, strip, hdrop w h, List.rdropWhile, List.rdropWhile, ← List.map_reverse, hdrop _ hback,
    List.map_reverse]

/-- A map that keeps separators and edges maps the cores. -/
theorem cores_map {text : List α} (hsp : ∀ c ∈ text, sp' (f c) = sp c)
    (hedge : ∀ c ∈ text, edge' (f c) = edge c) :
    cores sp' edge' (text.map f) = (cores sp edge text).map (List.map f) := by
  have hstrip : ∀ w ∈ words sp text, strip edge' (w.map f) = (strip edge w).map f := fun w hw =>
    strip_map fun c hc => hedge c ((infix_of_mem_words hw).subset hc)
  have hempty : ((fun core : List β => !core.isEmpty) ∘ List.map f) = fun core => !core.isEmpty := by
    funext core
    simp
  have hcores : (words sp text).map (strip edge' ∘ List.map f) =
      ((words sp text).map (strip edge)).map (List.map f) := by
    rw [List.map_map]
    exact List.map_congr_left hstrip
  rw [cores, words_map_of_sep hsp, coresOf, List.map_map, hcores, List.filter_map, hempty]
  rfl

end Maps

/-! ## Functions that go through the separators -/

section Through

variable {sp : α → Bool} {f : List α → List α}

/-- A function that goes through the separators of a list and keeps each of its words
    keeps the list. -/
theorem eq_self_of_words (hnil : f [] = []) {text : List α}
    (hsep : ∀ s ∈ text, sp s = true → ∀ a b, f (a ++ s :: b) = f a ++ s :: f b)
    (hword : ∀ w ∈ words sp text, f w = w) : f text = text := by
  have hfrom : ∀ cur, (∀ w ∈ wordsFrom sp cur text, f w = w) → f (cur ++ text) = cur ++ text := by
    clear hword
    induction text with
    | nil =>
      intro cur hcur
      rw [List.append_nil]
      cases cur with
      | nil => exact hnil
      | cons c cur => exact hcur _ (List.mem_singleton.mpr rfl)
    | cons c text ih =>
      intro cur hcur
      obtain ⟨hc, htext⟩ := List.forall_mem_cons.mp hsep
      rw [wordsFrom] at hcur
      split_ifs at hcur with hsp
      · have hrest : f text = text := ih htext [] fun w hw => hcur w (List.mem_append_right _ hw)
        have hfirst : f cur = cur := by
          cases cur with
          | nil => exact hnil
          | cons d cur => exact hcur _ (List.mem_append_left _ (List.mem_singleton.mpr rfl))
        rw [hc hsp, hfirst, hrest]
      · have hnext := ih htext (cur ++ [c]) hcur
        simpa using hnext
  exact hfrom [] hword

end Through

end RagStack.Common
