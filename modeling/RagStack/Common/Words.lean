import Mathlib.Data.List.DropRight
import Mathlib.Data.List.Infix
import Mathlib.Tactic.Ring

/-!
# Words, stripping and joining

Lists over an arbitrary type with a separator predicate `sp`: the words of a
list are its maximal separator-free runs.

* `words`, `strip`, `join` — splitting at separators, trimming them at both
  ends, joining with a fixed list.
* `words_append_sep`: a separator between two lists separates their words.
* `words_strip`: trimming keeps the words.
* `words_join`: joining with separators keeps the words of the parts, in order.
* `strip_infix_strip`, `infix_join`: what is trimmed or joined is still there.
-/

namespace RagStack.Common

variable {α : Type}

/-- The word read so far, if it is not empty. -/
def flushWord (cur : List α) : List (List α) := if cur.isEmpty then [] else [cur]

/-- Split `text` at separators; `cur` is the word being read. -/
def wordsFrom (sp : α → Bool) (cur : List α) : List α → List (List α)
  | [] => flushWord cur
  | c :: rest =>
    if sp c then flushWord cur ++ wordsFrom sp [] rest else wordsFrom sp (cur ++ [c]) rest

/-- The maximal separator-free runs of `text`, in order. -/
def words (sp : α → Bool) (text : List α) : List (List α) := wordsFrom sp [] text

/-- `text` without the separators at its two ends. -/
def strip (sp : α → Bool) (text : List α) : List α := (text.dropWhile sp).rdropWhile sp

/-- `sep.join(parts)`. -/
def join (sep : List α) (parts : List (List α)) : List α := sep.intercalate parts

/-! ## Words -/

/-- What occurs around an element that is not in it, occurs on one side. -/
theorem infix_append_cons {w a b : List α} {c : α} (hc : c ∉ w) (h : w <:+: a ++ c :: b) :
    w <:+: a ∨ w <:+: b := by
  obtain ⟨pre, post, heq⟩ := h
  rw [List.append_assoc] at heq
  rcases List.append_eq_append_iff.mp heq with ⟨mid, hpre, hpost⟩ | ⟨mid, hpre, hpost⟩
  · rcases List.append_eq_append_iff.mp hpost with ⟨mid', hw, hpost'⟩ | ⟨mid', hw, hpost'⟩
    · exact Or.inl ⟨pre, mid', by rw [hpre, hw, List.append_assoc]⟩
    · cases mid' with
      | nil => exact Or.inl ⟨pre, [], by rw [hpre, hw]; simp⟩
      | cons d mid' =>
        cases hpost'
        exact absurd (by simp [hw]) hc
  · cases mid with
    | nil =>
      cases w with
      | nil => exact Or.inl List.nil_infix
      | cons d w =>
        cases hpost
        exact absurd List.mem_cons_self hc
    | cons d mid =>
      cases hpost
      exact Or.inr ⟨mid, post, by simp⟩

section Words

variable {sp : α → Bool}

@[simp] theorem words_nil : words sp ([] : List α) = [] := rfl

theorem wordsFrom_append_sep {s : α} (hs : sp s = true) (b : List α) :
    ∀ (a cur : List α), wordsFrom sp cur (a ++ s :: b) = wordsFrom sp cur a ++ words sp b := by
  intro a
  induction a with
  | nil => intro cur; simp [wordsFrom, words, hs]
  | cons c a ih =>
    intro cur
    rw [List.cons_append, wordsFrom, wordsFrom]
    split_ifs
    · rw [ih, List.append_assoc]
    · exact ih _

/-- A separator ends the word before it and starts a new one after it. -/
theorem words_append_sep {s : α} (hs : sp s = true) (a b : List α) :
    words sp (a ++ s :: b) = words sp a ++ words sp b :=
  wordsFrom_append_sep hs b a []

theorem words_sep_cons {s : α} (hs : sp s = true) (b : List α) : words sp (s :: b) = words sp b := by
  simpa using words_append_sep hs [] b

theorem words_seps_append {seps : List α} (h : ∀ c ∈ seps, sp c = true) (b : List α) :
    words sp (seps ++ b) = words sp b := by
  induction seps with
  | nil => rfl
  | cons s seps ih =>
    rw [List.cons_append, words_sep_cons (h s (by simp)), ih fun c hc => h c (by simp [hc])]

theorem words_of_seps {seps : List α} (h : ∀ c ∈ seps, sp c = true) : words sp seps = [] := by
  simpa using words_seps_append h []

/-- A non-empty run of separators between two lists separates their words. -/
theorem words_append_seps {seps : List α} (hne : seps ≠ []) (h : ∀ c ∈ seps, sp c = true)
    (a b : List α) : words sp (a ++ seps ++ b) = words sp a ++ words sp b := by
  cases seps with
  | nil => exact absurd rfl hne
  | cons s seps =>
    rw [List.append_assoc, List.cons_append, words_append_sep (h s (by simp)),
      words_seps_append fun c hc => h c (by simp [hc])]

theorem words_append_trailing {seps : List α} (h : ∀ c ∈ seps, sp c = true) (a : List α) :
    words sp (a ++ seps) = words sp a := by
  cases seps with
  | nil => simp
  | cons s seps =>
    rw [words_append_sep (h s (by simp)), words_of_seps fun c hc => h c (List.mem_cons_of_mem _ hc),
      List.append_nil]

theorem mem_wordsFrom {w : List α} :
    ∀ {text cur : List α}, (∀ c ∈ cur, sp c = false) → w ∈ wordsFrom sp cur text →
      w ≠ [] ∧ ∀ c ∈ w, sp c = false := by
  intro text
  induction text with
  | nil =>
    intro cur hcur hw
    unfold wordsFrom flushWord at hw
    split_ifs at hw with he
    · cases hw
    · rw [List.mem_singleton] at hw
      subst hw
      exact ⟨by simpa using he, hcur⟩
  | cons c text ih =>
    intro cur hcur hw
    rw [wordsFrom] at hw
    split_ifs at hw with hc
    · rcases List.mem_append.mp hw with hw | hw
      · unfold flushWord at hw
        split_ifs at hw with he
        · cases hw
        · rw [List.mem_singleton] at hw
          subst hw
          exact ⟨by simpa using he, hcur⟩
      · exact ih (by simp) hw
    · refine ih ?_ hw
      intro d hd
      rcases List.mem_append.mp hd with hd | hd
      · exact hcur d hd
      · rw [List.mem_singleton] at hd
        subst hd
        simpa using hc

/-- A word is not empty and has no separator in it. -/
theorem mem_words {w text : List α} (h : w ∈ words sp text) :
    w ≠ [] ∧ ∀ c ∈ w, sp c = false :=
  mem_wordsFrom (by simp) h

theorem wordsFrom_of_no_sep {text : List α} (h : ∀ c ∈ text, sp c = false) :
    ∀ cur, wordsFrom sp cur text = flushWord (cur ++ text) := by
  induction text with
  | nil => intro cur; simp [wordsFrom]
  | cons c text ih =>
    intro cur
    rw [wordsFrom, if_neg (by simp [h c (by simp)]), ih fun d hd => h d (by simp [hd])]
    simp

theorem words_of_no_sep {w : List α} (hne : w ≠ []) (h : ∀ c ∈ w, sp c = false) :
    words sp w = [w] := by
  rw [words, wordsFrom_of_no_sep h, List.nil_append, flushWord, if_neg (by simpa using hne)]

/-- How many words there are does not depend on the word that is being read. -/
theorem length_wordsFrom {cur cur' : List α} (hcur : cur ≠ []) (hcur' : cur' ≠ [])
    (text : List α) : (wordsFrom sp cur text).length = (wordsFrom sp cur' text).length := by
  induction text generalizing cur cur' with
  | nil => simp [wordsFrom, flushWord, hcur, hcur']
  | cons c text ih =>
    rw [wordsFrom, wordsFrom]
    split_ifs
    · simp [flushWord, hcur, hcur']
    · exact ih (by simp) (by simp)

/-- Nor on which word the text begins with. -/
theorem length_words_cons {a b : α} (ha : sp a = false) (hb : sp b = false) (text : List α) :
    (words sp (a :: text)).length = (words sp (b :: text)).length := by
  rw [words, words, wordsFrom, wordsFrom, if_neg (by simp [ha]), if_neg (by simp [hb])]
  exact length_wordsFrom (by simp) (by simp) text

/-- A map that keeps the separators maps the words. -/
theorem words_map_of_sep {β : Type} {sp' : β → Bool} {f : α → β} {text : List α}
    (h : ∀ c ∈ text, sp' (f c) = sp c) :
    words sp' (text.map f) = (words sp text).map (List.map f) := by
  have hfrom : ∀ cur, wordsFrom sp' (cur.map f) (text.map f) =
      (wordsFrom sp cur text).map (List.map f) := by
    induction text with
    | nil => intro cur; cases cur <;> rfl
    | cons c text ih =>
      intro cur
      obtain ⟨hc, htext⟩ := List.forall_mem_cons.mp h
      rw [List.map_cons, wordsFrom, wordsFrom, hc]
      split_ifs
      · rw [List.map_append, ← ih htext]
        cases cur <;> rfl
      · rw [← ih htext, List.map_append]
        rfl
  exact hfrom []

/-- The words of a text in which some separators were written as other ones. -/
theorem words_map {sp' : α → Bool} {f : α → α} (hf : ∀ c, sp (f c) = sp' c)
    (hkeep : ∀ c, sp' c = false → f c = c) (text : List α) :
    words sp (text.map f) = words sp' text := by
  have hword : ∀ w ∈ words sp' text, w.map f = w := by
    intro w hw
    rw [List.map_congr_left fun c hc => hkeep c ((mem_words hw).2 c hc), List.map_id']
  rw [words_map_of_sep fun c _ => hf c, List.map_congr_left hword, List.map_id']

theorem flatMap_words_words (text : List α) :
    (words sp text).flatMap (words sp) = words sp text := by
  have h : ∀ ws : List (List α), (∀ w ∈ ws, w ≠ [] ∧ ∀ c ∈ w, sp c = false) →
      ws.flatMap (words sp) = ws := by
    intro ws
    induction ws with
    | nil => intro _; rfl
    | cons w ws ih =>
      intro hws
      obtain ⟨hne, hsp⟩ := hws w (by simp)
      rw [List.flatMap_cons, words_of_no_sep hne hsp, ih fun v hv => hws v (by simp [hv])]
      rfl
  exact h _ fun w hw => mem_words hw

theorem wordsFrom_cur_infix {w : List α} (hne : w ≠ []) (hsp : ∀ c ∈ w, sp c = false) :
    ∀ {text cur : List α}, w <:+: cur ++ text → ∃ v ∈ wordsFrom sp cur text, w <:+: v := by
  have hflush {cur : List α} (h : w <:+: cur) : ∃ v ∈ flushWord cur, w <:+: v := by
    have hcur : cur ≠ [] := by
      rintro rfl
      exact hne (List.infix_nil.mp h)
    exact ⟨cur, by simp [flushWord, hcur], h⟩
  intro text
  induction text with
  | nil => intro cur h; simpa [wordsFrom] using hflush (by simpa using h)
  | cons c text ih =>
    intro cur h
    rw [wordsFrom]
    split_ifs with hc
    · -- the separator `c` is not in `w`, so `w` is on one side of it
      rcases infix_append_cons (fun hcw => by simp [hsp c hcw] at hc) h with h | h
      · obtain ⟨v, hv, hwv⟩ := hflush h
        exact ⟨v, List.mem_append_left _ hv, hwv⟩
      · obtain ⟨v, hv, hwv⟩ := ih (show w <:+: [] ++ text from h)
        exact ⟨v, List.mem_append_right _ hv, hwv⟩
    · exact ih (by simpa using h)

/-- A separator-free list that occurs in a text occurs in one of its words. -/
theorem exists_word_of_infix {w text : List α} (hne : w ≠ []) (hsp : ∀ c ∈ w, sp c = false)
    (h : w <:+: text) : ∃ v ∈ words sp text, w <:+: v :=
  wordsFrom_cur_infix hne hsp (show w <:+: [] ++ text from h)

theorem mem_wordsFrom_infix {w : List α} :
    ∀ {text cur : List α}, w ∈ wordsFrom sp cur text → w <:+: cur ++ text := by
  intro text
  induction text with
  | nil =>
    intro cur hw
    unfold wordsFrom flushWord at hw
    split_ifs at hw
    · cases hw
    · rw [List.mem_singleton.mp hw, List.append_nil]
  | cons c text ih =>
    intro cur hw
    rw [wordsFrom] at hw
    split_ifs at hw
    · rcases List.mem_append.mp hw with hw | hw
      · unfold flushWord at hw
        split_ifs at hw
        · cases hw
        · rw [List.mem_singleton.mp hw]
          exact (List.prefix_append _ _).isInfix
      · exact (ih hw).trans ((List.suffix_cons c text).trans (List.suffix_append _ _)).isInfix
    · simpa using ih hw

/-- A word occurs in its text. -/
theorem infix_of_mem_words {w text : List α} (h : w ∈ words sp text) : w <:+: text :=
  mem_wordsFrom_infix h

/-- A text without words consists of separators. -/
theorem sep_of_words_eq_nil {text : List α} (h : words sp text = []) : ∀ c ∈ text, sp c = true := by
  intro c hc
  by_contra hsep
  have hword : ∀ d ∈ [c], sp d = false := fun d hd => by
    rw [List.mem_singleton.mp hd]
    simpa using hsep
  obtain ⟨w, hw, -⟩ := exists_word_of_infix (List.cons_ne_nil c []) hword
    ((List.singleton_infix_iff c text).mpr hc)
  rw [h] at hw
  cases hw

/-- The words of two parts, of which the first ends with a separator. -/
theorem words_append_of_getLast? {a : List α} (ha : ∀ c ∈ a.getLast?, sp c = true) (b : List α) :
    words sp (a ++ b) = words sp a ++ words sp b := by
  cases hlast : a.getLast? with
  | none => rw [List.getLast?_eq_none_iff.mp hlast, List.nil_append, words_nil, List.nil_append]
  | some s =>
    obtain ⟨front, rfl⟩ := List.getLast?_eq_some_iff.mp hlast
    have hs : sp s = true := ha s hlast
    rw [List.append_assoc, List.singleton_append, words_append_sep hs,
      words_append_sep hs front [], words_nil, List.append_nil]

/-- The words of two parts, of which the second begins with a separator. -/
theorem words_append_of_head? {b : List α} (hb : ∀ c ∈ b.head?, sp c = true) (a : List α) :
    words sp (a ++ b) = words sp a ++ words sp b := by
  cases b with
  | nil => rw [List.append_nil, words_nil, List.append_nil]
  | cons s b => rw [words_append_sep (hb s rfl), words_sep_cons (hb s rfl)]

end Words

/-! ## Strip -/

section Strip

variable (sp : α → Bool)

/-- What `strip` removes are separators, before and after the result. -/
theorem strip_spec (text : List α) :
    ∃ pre post, text = pre ++ strip sp text ++ post ∧ (∀ c ∈ pre, sp c = true) ∧
      ∀ c ∈ post, sp c = true := by
  refine ⟨text.takeWhile sp, ((text.dropWhile sp).reverse.takeWhile sp).reverse, ?_, ?_, ?_⟩
  · have h : strip sp text ++ ((text.dropWhile sp).reverse.takeWhile sp).reverse =
        text.dropWhile sp := by
      rw [strip, List.rdropWhile, ← List.reverse_append, List.takeWhile_append_dropWhile,
        List.reverse_reverse]
    rw [List.append_assoc, h, List.takeWhile_append_dropWhile]
  · exact fun c hc => List.mem_takeWhile_imp hc
  · intro c hc
    exact List.mem_takeWhile_imp (List.mem_reverse.mp hc)

@[simp] theorem strip_nil : strip sp ([] : List α) = [] := rfl

variable {sp} in
/-- Trimming keeps the words, if it takes nothing but separators. -/
theorem words_strip_within {p : α → Bool} (hp : ∀ c, p c = true → sp c = true) (text : List α) :
    words sp (strip p text) = words sp text := by
  obtain ⟨pre, post, h, hpre, hpost⟩ := strip_spec p text
  conv_rhs => rw [h]
  rw [List.append_assoc, words_seps_append fun c hc => hp c (hpre c hc),
    words_append_trailing fun c hc => hp c (hpost c hc)]

theorem words_strip (text : List α) : words sp (strip sp text) = words sp text :=
  words_strip_within (fun _ h => h) text

theorem isInfix_strip (text : List α) : strip sp text <:+: text := by
  obtain ⟨pre, post, h, -, -⟩ := strip_spec sp text
  exact ⟨pre, post, h.symm⟩

theorem dropWhile_eq_self {text : List α} (hh : ∀ c ∈ text.head?, sp c = false) :
    text.dropWhile sp = text := by
  cases text with
  | nil => rfl
  | cons c text => exact List.dropWhile_cons_of_neg (by simp [hh c (by simp)])

theorem dropWhile_seps_append {seps : List α} (h : ∀ c ∈ seps, sp c = true) (rest : List α) :
    (seps ++ rest).dropWhile sp = rest.dropWhile sp := by
  rw [List.dropWhile_append, List.dropWhile_eq_nil_iff.mpr h]
  rfl

/-- A list without separators at its ends is its own `strip`. -/
theorem strip_eq_self {text : List α} (hh : ∀ c ∈ text.head?, sp c = false)
    (hl : ∀ c ∈ text.getLast?, sp c = false) : strip sp text = text := by
  rw [strip, dropWhile_eq_self sp hh, List.rdropWhile_eq_self_iff]
  intro hne
  simp [hl _ (List.getLast?_eq_some_getLast hne)]

theorem head?_strip (text : List α) : ∀ c ∈ (strip sp text).head?, sp c = false := by
  intro c hc
  have hpre : strip sp text <+: text.dropWhile sp := List.rdropWhile_prefix _ _
  cases hs : strip sp text with
  | nil => rw [hs] at hc; cases hc
  | cons d rest =>
    rw [hs] at hc hpre
    cases hc
    obtain ⟨tail, htail⟩ := hpre
    have := List.head_dropWhile_not sp (l := text) (by rw [← htail]; simp)
    simpa [← htail] using this

theorem getLast?_strip (text : List α) : ∀ c ∈ (strip sp text).getLast?, sp c = false := by
  intro c hc
  cases hs : strip sp text with
  | nil => rw [hs] at hc; cases hc
  | cons d rest =>
    have hne : strip sp text ≠ [] := by rw [hs]; simp
    have := List.rdropWhile_last_not sp (text.dropWhile sp) hne
    rw [List.getLast?_eq_some_getLast hne] at hc
    cases hc
    simpa [strip] using this

/-- Separators around a text are stripped. -/
theorem strip_append_seps {before after : List α} (hbefore : ∀ c ∈ before, sp c = true)
    (hafter : ∀ c ∈ after, sp c = true) (text : List α) :
    strip sp (before ++ text ++ after) = strip sp text := by
  have hback : ∀ rest : List α, (rest ++ after).rdropWhile sp = rest.rdropWhile sp := by
    intro rest
    rw [List.rdropWhile, List.rdropWhile, List.reverse_append,
      dropWhile_seps_append sp fun c hc => hafter c (List.mem_reverse.mp hc)]
  rw [strip, strip, List.append_assoc, dropWhile_seps_append sp hbefore, List.dropWhile_append]
  split_ifs with hempty
  · -- nothing is left of the text, and what comes behind it goes as well
    rw [List.isEmpty_iff.mp hempty, List.dropWhile_eq_nil_iff.mpr hafter]
  · exact hback _

/-- Stripping twice is stripping once. -/
theorem strip_strip (text : List α) : strip sp (strip sp text) = strip sp text :=
  strip_eq_self sp (head?_strip sp text) (getLast?_strip sp text)

theorem dropWhile_append_of_head {p : List α} (hne : p ≠ []) (hp : ∀ c ∈ p.head?, sp c = false)
    (b : List α) : ∀ a : List α, ∃ a', (a ++ p ++ b).dropWhile sp = a' ++ p ++ b := by
  intro a
  induction a with
  | nil =>
    obtain ⟨c, q, rfl⟩ := List.exists_cons_of_ne_nil hne
    exact ⟨[], by simp [hp c (by simp)]⟩
  | cons c a ih =>
    by_cases hc : sp c = true
    · obtain ⟨a', ha'⟩ := ih
      exact ⟨a', by simpa [hc] using ha'⟩
    · exact ⟨c :: a, by simp [hc]⟩

/-- What occurs in a text, still occurs in it when both are stripped. -/
theorem strip_infix_strip {p text : List α} (h : p <:+: text) : strip sp p <:+: strip sp text := by
  by_cases hne : strip sp p = []
  · rw [hne]
    exact List.nil_infix
  obtain ⟨a, b, hab⟩ := (isInfix_strip sp p).trans h
  obtain ⟨a', ha'⟩ := dropWhile_append_of_head sp hne (head?_strip sp p) b a
  have hrev : (strip sp p).reverse ≠ [] := by simpa using hne
  obtain ⟨b', hb'⟩ := dropWhile_append_of_head sp hrev
    (by simpa using getLast?_strip sp p) a'.reverse b.reverse
  have hstrip : strip sp text = ((a' ++ strip sp p ++ b).reverse.dropWhile sp).reverse := by
    rw [← ha', hab]
    rfl
  refine ⟨a', b'.reverse, ?_⟩
  rw [hstrip, List.reverse_append, List.reverse_append, ← List.append_assoc, hb']
  simp

variable {sp} in
/-- A separator survives `strip` if there is something else on both sides of it. -/
theorem sep_mem_strip_iff {c : α} (hc : sp c = true) {text : List α} :
    c ∈ strip sp text ↔
      ∃ u v, text = u ++ c :: v ∧ (∃ x ∈ u, sp x = false) ∧ ∃ y ∈ v, sp y = false := by
  constructor
  · intro h
    obtain ⟨pre, post, htext, -, -⟩ := strip_spec sp text
    have hhead := head?_strip sp text
    have hlast := getLast?_strip sp text
    obtain ⟨a, b, hab⟩ := List.append_of_mem h
    rw [hab] at htext hhead hlast
    have ha : ∃ x ∈ a, sp x = false := by
      cases a with
      | nil => exact absurd (hhead c (by simp)) (by simp [hc])
      | cons x a => exact ⟨x, by simp, hhead x (by simp)⟩
    have hb : ∃ y ∈ b, sp y = false := by
      cases hbl : b.getLast? with
      | none =>
        rw [List.getLast?_eq_none_iff.mp hbl] at hlast
        exact absurd (hlast c (by simp)) (by simp [hc])
      | some y => exact ⟨y, List.mem_of_getLast? hbl, hlast y (by simp [List.getLast?_cons, hbl])⟩
    obtain ⟨x, hx, hxs⟩ := ha
    obtain ⟨y, hy, hys⟩ := hb
    refine ⟨pre ++ a, b ++ post, by rw [htext]; simp, ⟨x, by simp [hx], hxs⟩, ⟨y, by simp [hy], hys⟩⟩
  · rintro ⟨u, v, rfl, ⟨x, hx, hxs⟩, ⟨y, hy, hys⟩⟩
    obtain ⟨u₁, u₂, rfl⟩ := List.append_of_mem hx
    obtain ⟨v₁, v₂, rfl⟩ := List.append_of_mem hy
    -- the part from `x` to `y` is not touched
    have hself : strip sp (x :: u₂ ++ c :: v₁ ++ [y]) = x :: u₂ ++ c :: v₁ ++ [y] := by
      refine strip_eq_self sp (by simp [hxs]) fun d hd => ?_
      rw [List.getLast?_concat] at hd
      cases hd
      exact hys
    have hpart : x :: u₂ ++ c :: v₁ ++ [y] <:+: u₁ ++ x :: u₂ ++ c :: (v₁ ++ y :: v₂) :=
      ⟨u₁, v₂, by simp⟩
    have hkept := strip_infix_strip sp hpart
    rw [hself] at hkept
    exact hkept.subset (by simp)

end Strip

/-! ## Join -/

section Join

@[simp] theorem join_nil (sep : List α) : join sep [] = [] := rfl

@[simp] theorem join_singleton (sep p : List α) : join sep [p] = p := by
  simp [join, List.intercalate]

theorem join_cons_cons (sep p q : List α) (parts : List (List α)) :
    join sep (p :: q :: parts) = p ++ sep ++ join sep (q :: parts) := by
  simp [join, List.intercalate, List.intersperse]

/-- Joining with a non-empty run of separators keeps the words of the parts. -/
theorem words_join {sp : α → Bool} {sep : List α} (hne : sep ≠ [])
    (hsep : ∀ c ∈ sep, sp c = true) (parts : List (List α)) :
    words sp (join sep parts) = parts.flatMap (words sp) := by
  induction parts with
  | nil => rfl
  | cons p parts ih =>
    cases parts with
    | nil => simp
    | cons q parts =>
      rw [join_cons_cons, words_append_seps hne hsep, ih]
      rfl

theorem infix_join {sep p : List α} {parts : List (List α)} (h : p ∈ parts) :
    p <:+: join sep parts := by
  induction parts with
  | nil => cases h
  | cons q parts ih =>
    cases parts with
    | nil =>
      rw [List.mem_singleton] at h
      subst h
      simp
    | cons r parts =>
      rw [join_cons_cons, List.append_assoc]
      rcases List.mem_cons.mp h with rfl | h
      · exact (List.prefix_append _ _).isInfix
      · exact (ih h).trans ((List.suffix_append _ _).trans (List.suffix_append _ _)).isInfix

/-- Two parts that follow each other keep the separator between them. -/
theorem join_append_pair (sep p q : List α) (before after : List (List α)) :
    ∃ pre post, join sep (before ++ p :: q :: after) = pre ++ ((p ++ sep ++ q) ++ post) ∧
      (post = [] ∨ sep <+: post) := by
  induction before with
  | nil =>
    cases after with
    | nil => exact ⟨[], [], by simp [join_cons_cons], Or.inl rfl⟩
    | cons r after =>
      refine ⟨[], sep ++ join sep (r :: after), ?_, Or.inr (List.prefix_append _ _)⟩
      rw [List.nil_append, join_cons_cons, join_cons_cons]
      simp
  | cons b before ih =>
    obtain ⟨pre, post, heq, hpost⟩ := ih
    refine ⟨b ++ sep ++ pre, post, ?_, hpost⟩
    obtain ⟨next, rest, hnext⟩ :
        ∃ next rest, before ++ p :: q :: after = next :: rest :=
      List.exists_cons_of_ne_nil (by simp)
    rw [List.cons_append, hnext, join_cons_cons, ← hnext, heq]
    simp

theorem mem_join {sep : List α} {parts : List (List α)} {c : α} (h : c ∈ join sep parts) :
    c ∈ sep ∨ ∃ part ∈ parts, c ∈ part := by
  induction parts with
  | nil => cases h
  | cons part parts ih =>
    cases parts with
    | nil =>
      rw [join_singleton] at h
      exact Or.inr ⟨part, List.mem_singleton.mpr rfl, h⟩
    | cons next parts =>
      rw [join_cons_cons, List.append_assoc, List.mem_append, List.mem_append] at h
      rcases h with h | h | h
      · exact Or.inr ⟨part, List.mem_cons_self, h⟩
      · exact Or.inl h
      · rcases ih h with h | ⟨found, hfound, hc⟩
        · exact Or.inl h
        · exact Or.inr ⟨found, List.mem_cons_of_mem _ hfound, hc⟩

theorem length_join (sep : List α) (parts : List (List α)) :
    (join sep parts).length = (parts.map List.length).sum + sep.length * (parts.length - 1) := by
  induction parts with
  | nil => simp
  | cons p parts ih =>
    cases parts with
    | nil => simp
    | cons q parts =>
      rw [join_cons_cons, List.length_append, List.length_append, ih]
      simp only [List.map_cons, List.sum_cons, List.length_cons, Nat.add_sub_cancel]
      ring

end Join

end RagStack.Common
