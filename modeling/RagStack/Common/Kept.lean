import RagStack.Common.Scan

/-!
# What text operations keep

The elements of a list that satisfy `p`, before and after splitting, substituting,
stripping and joining: they stay, in order, as long as the matches, the
replacements and the separators have none of them.

* `filter_replaceMatches`, `filter_splitAtMatches`: substituting and splitting.
* `filter_strip`, `filter_join`: stripping and joining.
* `flatMap_filter_words`: the words of a text.
-/

namespace RagStack.Common

variable {α : Type} {p : α → Bool}

theorem filter_eq_nil_of_forall {l : List α} (h : ∀ c ∈ l, p c = false) : l.filter p = [] :=
  List.filter_eq_nil_iff.mpr fun c hc => by simp [h c hc]

/-! ## Substituting -/

theorem filter_replaceGo {m : Matcher α} (hm : m.Within fun c => !p c) {repl : List α}
    (hrepl : ∀ c ∈ repl, p c = false) (rest : List α) :
    ∀ (prev : Option α) (skip : ℕ), (∀ c ∈ rest.take skip, p c = false) →
      (replaceGo m repl prev skip rest).filter p = rest.filter p := by
  induction rest with
  | nil => intro prev skip _; rfl
  | cons c rest ih =>
    intro prev skip hskip
    cases skip with
    | succ k =>
      have hc : p c = false := hskip c (by simp)
      rw [replaceGo, ih _ k fun d hd => hskip d (by simp [hd])]
      simp [hc]
    | zero =>
      have hmatch := hm prev (c :: rest)
      rw [replaceGo]
      cases hk : m prev (c :: rest) with
      | zero =>
        simp only [List.filter_cons]
        rw [ih _ 0 (by simp)]
      | succ k =>
        rw [hk] at hmatch
        have hc : p c = false := by simpa using hmatch c (by simp)
        simp only
        rw [List.filter_append, filter_eq_nil_of_forall hrepl,
          ih _ k fun d hd => by simpa using hmatch d (by simp [hd])]
        simp [hc]

theorem filter_replaceMatches {m : Matcher α} (hm : m.Within fun c => !p c) {repl : List α}
    (hrepl : ∀ c ∈ repl, p c = false) (text : List α) :
    (replaceMatches m repl text).filter p = text.filter p :=
  filter_replaceGo hm hrepl text none 0 (by simp)

/-! ## Splitting -/

theorem filter_splitGo {m : Matcher α} (hm : m.Within fun c => !p c) (rest : List α) :
    ∀ (prev : Option α) (skip : ℕ) (cur : List α), (∀ c ∈ rest.take skip, p c = false) →
      (splitGo m prev skip cur rest).flatMap (List.filter p) = cur.filter p ++ rest.filter p := by
  induction rest with
  | nil => intro prev skip cur _; simp [splitGo]
  | cons c rest ih =>
    intro prev skip cur hskip
    cases skip with
    | succ k =>
      have hc : p c = false := hskip c (by simp)
      rw [splitGo, ih _ k _ fun d hd => hskip d (by simp [hd])]
      simp [hc]
    | zero =>
      have hmatch := hm prev (c :: rest)
      rw [splitGo]
      cases hk : m prev (c :: rest) with
      | zero =>
        simp only
        rw [ih _ 0 _ (by simp), List.filter_append, List.append_assoc, ← List.filter_append]
        rfl
      | succ k =>
        rw [hk] at hmatch
        have hc : p c = false := by simpa using hmatch c (by simp)
        simp only [List.flatMap_cons]
        rw [ih _ k _ fun d hd => by simpa using hmatch d (by simp [hd])]
        simp [hc]

theorem filter_splitAtMatches {m : Matcher α} (hm : m.Within fun c => !p c) (text : List α) :
    (splitAtMatches m text).flatMap (List.filter p) = text.filter p := by
  have h := filter_splitGo hm text none 0 [] (by simp)
  simpa [splitAtMatches] using h

/-! ## Stripping and joining -/

theorem filter_strip {sp : α → Bool} (hsp : ∀ c, sp c = true → p c = false) (text : List α) :
    (strip sp text).filter p = text.filter p := by
  obtain ⟨pre, post, h, hpre, hpost⟩ := strip_spec sp text
  conv_rhs => rw [h]
  rw [List.filter_append, List.filter_append,
    filter_eq_nil_of_forall fun c hc => hsp c (hpre c hc),
    filter_eq_nil_of_forall fun c hc => hsp c (hpost c hc), List.nil_append, List.append_nil]

theorem filter_join {sep : List α} (hsep : ∀ c ∈ sep, p c = false) (parts : List (List α)) :
    (join sep parts).filter p = parts.flatMap (List.filter p) := by
  induction parts with
  | nil => rfl
  | cons q parts ih =>
    cases parts with
    | nil => simp
    | cons r parts =>
      rw [join_cons_cons, List.filter_append, List.filter_append, filter_eq_nil_of_forall hsep, ih,
        List.append_nil]
      rfl

/-- Parts that have none of the elements can be left out. -/
theorem flatMap_filter_filter {q : List α → Bool} {parts : List (List α)}
    (hq : ∀ part ∈ parts, q part = false → part.filter p = []) :
    (parts.filter q).flatMap (List.filter p) = parts.flatMap (List.filter p) := by
  induction parts with
  | nil => rfl
  | cons part parts ih =>
    have htail := ih fun other hother => hq other (List.mem_cons_of_mem part hother)
    rw [List.filter_cons, List.flatMap_cons]
    split_ifs with hpart
    · rw [List.flatMap_cons, htail]
    · rw [htail, hq part List.mem_cons_self (by simpa using hpart), List.nil_append]

/-- A function that keeps the elements of each part keeps those of all. -/
theorem flatMap_filter_map {f : List α → List α}
    (hf : ∀ part, (f part).filter p = part.filter p) (parts : List (List α)) :
    (parts.map f).flatMap (List.filter p) = parts.flatMap (List.filter p) := by
  rw [List.flatMap_map]
  exact List.flatMap_congr fun part _ => hf part

/-- The words of a text have all of its elements that are no separators. -/
theorem flatMap_filter_words {sp : α → Bool} (hsp : ∀ c, sp c = true → p c = false)
    (text : List α) : (words sp text).flatMap (List.filter p) = text.filter p := by
  have hwithin : (runOf sp).Within fun c => !p c := by
    intro prev l c hc
    rw [runOf, ← List.prefix_iff_eq_take.mp (List.takeWhile_prefix sp)] at hc
    simp [hsp c (List.mem_takeWhile_imp hc)]
  rw [← filter_splitAtMatches_runOf, flatMap_filter_filter, filter_splitAtMatches hwithin]
  intro part _ hpart
  have hnil : part = [] := by simpa using hpart
  rw [hnil]
  rfl

end RagStack.Common
