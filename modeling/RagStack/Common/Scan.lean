import RagStack.Common.Words

/-!
# Splitting and substituting at matches

A pattern is a function `m : Option α → List α → ℕ`: given the element before
the current position and the rest of the list, the length of the match that
starts here (`0`: no match). The lookbehind of a pattern sees the first
argument, its lookahead sees the second. Matches are taken from left to right
and do not overlap, as in `re.split` and `re.sub`; no pattern here has an empty
match.

* `splitAtMatches m text` — `re.split`.
* `replaceMatches m repl text` — `re.sub`; `countMatches` is the count `re.subn`
  returns with it.
* `words_splitAtMatches`: if every match consists of separators, the parts have
  the words of the text, in order. `filter_splitAtMatches_runOf`: splitting at the
  maximal runs of separators leaves the words themselves.
* `exists_infix_splitAtMatches`: what no match begins in stays in one part.
* `splitAtMatches_cons`: what the first element does to the parts.
* `words_replaceMatches`: replacing separators by separators keeps the words.
-/

namespace RagStack.Common

variable {α : Type}

/-- A pattern: the length of the match at a position. -/
abbrev Matcher (α : Type) := Option α → List α → ℕ

/-- The loop of `splitAtMatches`: `prev` is the element before the current
    position, `skip` what is left of the current match, `cur` the current part. -/
def splitGo (m : Matcher α) (prev : Option α) (skip : ℕ) (cur : List α) :
    List α → List (List α)
  | [] => [cur]
  | c :: rest =>
    match skip with
    | k + 1 => splitGo m (some c) k cur rest
    | 0 =>
      match m prev (c :: rest) with
      | 0 => splitGo m (some c) 0 (cur ++ [c]) rest
      | k + 1 => cur :: splitGo m (some c) k [] rest

/-- The parts of `text` between the matches. -/
def splitAtMatches (m : Matcher α) (text : List α) : List (List α) := splitGo m none 0 [] text

/-- The loop of `replaceMatches`. -/
def replaceGo (m : Matcher α) (repl : List α) (prev : Option α) (skip : ℕ) : List α → List α
  | [] => []
  | c :: rest =>
    match skip with
    | k + 1 => replaceGo m repl (some c) k rest
    | 0 =>
      match m prev (c :: rest) with
      | 0 => c :: replaceGo m repl (some c) 0 rest
      | k + 1 => repl ++ replaceGo m repl (some c) k rest

/-- `text` with every match replaced by `repl`. -/
def replaceMatches (m : Matcher α) (repl text : List α) : List α := replaceGo m repl none 0 text

/-- The loop of `countMatches`. -/
def countGo (m : Matcher α) (prev : Option α) (skip : ℕ) : List α → ℕ
  | [] => 0
  | c :: rest =>
    match skip with
    | k + 1 => countGo m (some c) k rest
    | 0 =>
      match m prev (c :: rest) with
      | 0 => countGo m (some c) 0 rest
      | k + 1 => countGo m (some c) k rest + 1

/-- The number of matches in `text`. -/
def countMatches (m : Matcher α) (text : List α) : ℕ := countGo m none 0 text

/-- A maximal run of elements that satisfy `p`, for patterns such as `\s+`. -/
def runOf (p : α → Bool) : Matcher α := fun _ l => (l.takeWhile p).length

/-! ## Splitting -/

/-- Every match of `m` consists of elements that satisfy `p`. -/
def Matcher.Within (m : Matcher α) (p : α → Bool) : Prop :=
  ∀ (prev : Option α) (l : List α), ∀ c ∈ l.take (m prev l), p c = true

theorem words_splitGo {sp : α → Bool} {m : Matcher α} (hm : m.Within sp) :
    ∀ (rest : List α) (prev : Option α) (skip : ℕ) (cur : List α),
      (∀ c ∈ rest.take skip, sp c = true) → (0 < skip → cur = []) →
      (splitGo m prev skip cur rest).flatMap (words sp) = words sp (cur ++ rest) := by
  intro rest
  induction rest with
  | nil => intro prev skip cur _ _; simp [splitGo]
  | cons c rest ih =>
    intro prev skip cur hskip hcur
    cases skip with
    | succ k =>
      have hcur := hcur (Nat.succ_pos k)
      subst hcur
      rw [splitGo, ih _ k [] (fun d hd => hskip d (by simp [hd])) (fun _ => rfl)]
      exact (words_sep_cons (hskip c (by simp)) rest).symm
    | zero =>
      have hmatch := hm prev (c :: rest)
      rw [splitGo]
      cases hk : m prev (c :: rest) with
      | zero =>
        simp only
        rw [ih _ 0 _ (by simp) (fun h => absurd h (lt_irrefl 0))]
        simp
      | succ k =>
        rw [hk] at hmatch
        simp only [List.flatMap_cons]
        rw [ih _ k [] (fun d hd => hmatch d (by simp [hd])) (fun _ => rfl)]
        exact (words_append_sep (hmatch c (by simp)) cur rest).symm

/-- Splitting at separators keeps the words, in order. -/
theorem words_splitAtMatches {sp : α → Bool} {m : Matcher α} (hm : m.Within sp) (text : List α) :
    (splitAtMatches m text).flatMap (words sp) = words sp text := by
  exact words_splitGo hm text none 0 [] (by simp) (fun h => absurd h (lt_irrefl 0))

/-- No match of `m` begins in `mid` when `post` follows. -/
def Matcher.Misses (m : Matcher α) (mid post : List α) : Prop :=
  ∀ (prev : Option α) (before rest : List α), mid = before ++ rest → rest ≠ [] →
    m prev (rest ++ post) = 0

theorem exists_prefix_splitGo (m : Matcher α) (text : List α) :
    ∀ prev cur, ∃ part ∈ splitGo m prev 0 cur text, cur <+: part := by
  induction text with
  | nil => exact fun prev cur => ⟨cur, by simp [splitGo], List.prefix_refl cur⟩
  | cons c text ih =>
    intro prev cur
    rw [splitGo]
    cases m prev (c :: text) with
    | zero =>
      obtain ⟨part, hpart, hprefix⟩ := ih (some c) (cur ++ [c])
      exact ⟨part, hpart, (List.prefix_append cur [c]).trans hprefix⟩
    | succ k => exact ⟨cur, List.mem_cons_self, List.prefix_refl cur⟩

/-- What no match begins in is read into the current part. -/
theorem splitGo_of_misses {m : Matcher α} {mid post : List α} (hmiss : m.Misses mid post) :
    ∀ prev cur, ∃ prev',
      splitGo m prev 0 cur (mid ++ post) = splitGo m prev' 0 (cur ++ mid) post := by
  induction mid with
  | nil => exact fun prev cur => ⟨prev, by simp⟩
  | cons c mid ih =>
    intro prev cur
    have htail : m.Misses mid post := fun prev before rest heq hne =>
      hmiss prev (c :: before) rest (by rw [heq]; rfl) hne
    obtain ⟨prev', hprev'⟩ := ih htail (some c) (cur ++ [c])
    have hnone : m prev (c :: (mid ++ post)) = 0 := hmiss prev [] (c :: mid) rfl (by simp)
    refine ⟨prev', ?_⟩
    rw [List.cons_append, splitGo, hnone]
    simp only
    rw [hprev', List.append_assoc, List.singleton_append]

theorem exists_infix_splitGo {m : Matcher α} (hone : ∀ prev text, m prev text ≤ 1)
    {mid post : List α} (hmiss : m.Misses mid post) (pre : List α) :
    ∀ prev cur, ∃ part ∈ splitGo m prev 0 cur (pre ++ (mid ++ post)), mid <:+: part := by
  induction pre with
  | nil =>
    intro prev cur
    obtain ⟨prev', hsplit⟩ := splitGo_of_misses hmiss prev cur
    obtain ⟨part, hpart, hprefix⟩ := exists_prefix_splitGo m post prev' (cur ++ mid)
    refine ⟨part, ?_, (List.suffix_append cur mid).isInfix.trans hprefix.isInfix⟩
    rw [List.nil_append, hsplit]
    exact hpart
  | cons c pre ih =>
    intro prev cur
    have hlength := hone prev (c :: (pre ++ (mid ++ post)))
    rw [List.cons_append, splitGo]
    cases hmatch : m prev (c :: (pre ++ (mid ++ post))) with
    | zero => exact ih (some c) (cur ++ [c])
    | succ k =>
      rw [hmatch] at hlength
      obtain rfl : k = 0 := by omega
      obtain ⟨part, hpart, hinfix⟩ := ih (some c) []
      exact ⟨part, List.mem_cons_of_mem _ hpart, hinfix⟩

/-- What no match of one element begins in stays in one part. -/
theorem exists_infix_splitAtMatches {m : Matcher α} (hone : ∀ prev text, m prev text ≤ 1)
    {pre mid post : List α} (hmiss : m.Misses mid post) :
    ∃ part ∈ splitAtMatches m (pre ++ (mid ++ post)), mid <:+: part :=
  exists_infix_splitGo hone hmiss pre none []

/-! ## The first element -/

/-- `m` has no lookbehind. -/
def Matcher.NoLookbehind (m : Matcher α) : Prop := ∀ prev prev' l, m prev l = m prev' l

/-- Without lookbehind, what is read before a position is put in front of the first part
    from there on. -/
theorem splitGo_of_noLookbehind {m : Matcher α} (hm : m.NoLookbehind) :
    ∀ (rest : List α) (skip : ℕ), ∃ part parts, ∀ prev cur,
      splitGo m prev skip cur rest = (cur ++ part) :: parts := by
  intro rest
  induction rest with
  | nil => exact fun _ => ⟨[], [], fun prev cur => by simp [splitGo]⟩
  | cons c rest ih =>
    intro skip
    cases skip with
    | succ k =>
      obtain ⟨part, parts, h⟩ := ih k
      exact ⟨part, parts, fun prev cur => by rw [splitGo, h]⟩
    | zero =>
      cases hmatch : m none (c :: rest) with
      | zero =>
        obtain ⟨part, parts, h⟩ := ih 0
        refine ⟨c :: part, parts, fun prev cur => ?_⟩
        rw [splitGo, hm prev none, hmatch]
        simp only
        rw [h, List.append_assoc, List.singleton_append]
      | succ k =>
        refine ⟨[], splitGo m (some c) k [] rest, fun prev cur => ?_⟩
        rw [splitGo, hm prev none, hmatch, List.append_nil]

/-- An element that no match begins at is the first one of the first part. -/
theorem splitAtMatches_cons {m : Matcher α} (hm : m.NoLookbehind) (rest : List α) :
    ∃ part parts, ∀ c, m none (c :: rest) = 0 →
      splitAtMatches m (c :: rest) = (c :: part) :: parts := by
  obtain ⟨part, parts, h⟩ := splitGo_of_noLookbehind hm rest 0
  refine ⟨part, parts, fun c hnone => ?_⟩
  rw [splitAtMatches, splitGo, hnone]
  simp only
  rw [h]
  rfl

theorem countGo_of_noLookbehind {m : Matcher α} (hm : m.NoLookbehind) (prev prev' : Option α)
    (skip : ℕ) (rest : List α) : countGo m prev skip rest = countGo m prev' skip rest := by
  cases rest with
  | nil => rfl
  | cons c rest =>
    cases skip with
    | succ k => rfl
    | zero => rw [countGo, countGo, hm prev prev']

theorem countMatches_cons {m : Matcher α} (hm : m.NoLookbehind) {c : α} {rest : List α}
    (hnone : m none (c :: rest) = 0) : countMatches m (c :: rest) = countMatches m rest := by
  rw [countMatches, countGo, hnone]
  exact countGo_of_noLookbehind hm _ _ 0 rest

/-! ## Substituting -/

theorem words_replaceGo {sp : α → Bool} {m : Matcher α} (hm : m.Within sp) {repl : List α}
    (hne : repl ≠ []) (hrepl : ∀ c ∈ repl, sp c = true) :
    ∀ (rest : List α) (prev : Option α) (skip : ℕ) (a : List α),
      (∀ c ∈ rest.take skip, sp c = true) →
      (0 < skip → ∃ a' s, a = a' ++ [s] ∧ sp s = true) →
      words sp (a ++ replaceGo m repl prev skip rest) = words sp (a ++ rest) := by
  intro rest
  induction rest with
  | nil => intro prev skip a _ _; rw [replaceGo]
  | cons c rest ih =>
    intro prev skip a hskip ha
    cases skip with
    | succ k =>
      -- the rest of the match is behind a separator already
      obtain ⟨a', s, rfl, hs⟩ := ha (Nat.succ_pos k)
      have hc : sp c = true := hskip c (by simp)
      rw [replaceGo, ih _ k _ (fun d hd => hskip d (by simp [hd])) (fun _ => ⟨a', s, rfl, hs⟩)]
      simp only [List.append_assoc, List.singleton_append]
      rw [words_append_sep hs, words_append_sep hs, words_sep_cons hc]
    | zero =>
      have hmatch := hm prev (c :: rest)
      rw [replaceGo]
      cases hk : m prev (c :: rest) with
      | zero =>
        have hrest := ih (some c) 0 (a ++ [c]) (by simp) (fun h => absurd h (lt_irrefl 0))
        simpa using hrest
      | succ k =>
        rw [hk] at hmatch
        have hc : sp c = true := hmatch c (by simp)
        have hlast : repl.dropLast ++ [repl.getLast hne] = repl := List.dropLast_append_getLast hne
        have hrest := ih (some c) k (a ++ repl) (fun d hd => hmatch d (by simp [hd]))
          (fun _ => ⟨a ++ repl.dropLast, repl.getLast hne, by rw [List.append_assoc, hlast],
            hrepl _ (List.getLast_mem hne)⟩)
        simp only
        rw [← List.append_assoc, hrest, words_append_seps hne hrepl, words_append_sep hc]

/-- Replacing separators by separators keeps the words. -/
theorem words_replaceMatches {sp : α → Bool} {m : Matcher α} (hm : m.Within sp) {repl : List α}
    (hne : repl ≠ []) (hrepl : ∀ c ∈ repl, sp c = true) (text : List α) :
    words sp (replaceMatches m repl text) = words sp text :=
  words_replaceGo hm hne hrepl text none 0 [] (by simp) (fun h => absurd h (lt_irrefl 0))

/-! ## Maximal runs -/

section RunOf

variable {sp : α → Bool}

theorem runOf_within : (runOf sp).Within sp := by
  intro prev l c hc
  refine List.mem_takeWhile_imp (l := l) ?_
  have htake : l.take (l.takeWhile sp).length = l.takeWhile sp :=
    List.prefix_iff_eq_take.mp (List.takeWhile_prefix sp) |>.symm
  rwa [runOf, htake] at hc

/-- The separators at the head of the list are skipped. -/
theorem splitGo_runOf_skip (prev : Option α) (cur rest : List α) :
    ∃ prev', splitGo (runOf sp) prev (rest.takeWhile sp).length cur rest =
      splitGo (runOf sp) prev' 0 cur (rest.dropWhile sp) := by
  induction rest generalizing prev with
  | nil => exact ⟨prev, rfl⟩
  | cons c rest ih =>
    by_cases hc : sp c = true
    · obtain ⟨prev', h⟩ := ih (some c)
      refine ⟨prev', ?_⟩
      rw [List.takeWhile_cons_of_pos hc, List.length_cons, splitGo, h, List.dropWhile_cons_of_pos hc]
    · exact ⟨prev, by simp [hc]⟩

theorem filter_splitGo_runOf (n : ℕ) :
    ∀ (rest : List α) (prev : Option α) (cur : List α), rest.length ≤ n →
      (splitGo (runOf sp) prev 0 cur rest).filter (fun part => !part.isEmpty) =
        wordsFrom sp cur rest := by
  induction n with
  | zero =>
    intro rest prev cur hlen
    obtain rfl : rest = [] := List.length_eq_zero_iff.mp (Nat.le_zero.mp hlen)
    cases cur <;> rfl
  | succ n ih =>
    intro rest prev cur hlen
    cases rest with
    | nil => cases cur <;> rfl
    | cons c rest =>
      have hrest : rest.length ≤ n := Nat.le_of_succ_le_succ hlen
      rw [splitGo]
      by_cases hc : sp c = true
      · -- the run starts here; behind it a new part is read
        have hrun : runOf sp prev (c :: rest) = (rest.takeWhile sp).length + 1 := by
          simp [runOf, hc]
        obtain ⟨prev', hskip⟩ := splitGo_runOf_skip (some c) [] rest
        have hshort : (rest.dropWhile sp).length ≤ n :=
          (List.length_dropWhile_le _ _).trans hrest
        have hseps : ∀ d ∈ rest.takeWhile sp, sp d = true := fun d hd => List.mem_takeWhile_imp hd
        have hwords : wordsFrom sp [] (rest.dropWhile sp) = wordsFrom sp [] rest := by
          have h := words_seps_append hseps (rest.dropWhile sp)
          rw [List.takeWhile_append_dropWhile] at h
          exact h.symm
        rw [hrun]
        simp only
        rw [hskip, List.filter_cons, ih _ prev' [] hshort, hwords, wordsFrom, if_pos hc]
        cases cur <;> rfl
      · have hrun : runOf sp prev (c :: rest) = 0 := by simp [runOf, hc]
        rw [hrun]
        simp only
        rw [ih _ _ _ hrest, wordsFrom, if_neg hc]

/-- Split at the maximal runs of separators, a text falls into its words; at its
    ends there may be an empty part. -/
theorem filter_splitAtMatches_runOf (text : List α) :
    (splitAtMatches (runOf sp) text).filter (fun part => !part.isEmpty) = words sp text :=
  filter_splitGo_runOf text.length text none [] le_rfl

theorem mem_replaceGo {m : Matcher α} {repl : List α} {c : α} :
    ∀ {rest : List α} {prev : Option α} {skip : ℕ},
      c ∈ replaceGo m repl prev skip rest → c ∈ rest ∨ c ∈ repl := by
  intro rest
  induction rest with
  | nil => intro prev skip h; cases h
  | cons d rest ih =>
    intro prev skip h
    cases skip with
    | succ k =>
      rw [replaceGo] at h
      exact (ih h).imp (List.mem_cons_of_mem _) id
    | zero =>
      rw [replaceGo] at h
      split at h
      · rcases List.mem_cons.mp h with rfl | h
        · exact Or.inl (by simp)
        · exact (ih h).imp (List.mem_cons_of_mem _) id
      · rcases List.mem_append.mp h with h | h
        · exact Or.inr h
        · exact (ih h).imp (List.mem_cons_of_mem _) id

/-- Of the separators a substitution of their runs leaves none. -/
theorem mem_replaceGo_runOf {repl : List α} {c : α} :
    ∀ {rest : List α} {prev : Option α} {skip : ℕ},
      c ∈ replaceGo (runOf sp) repl prev skip rest → (c ∈ rest ∧ sp c = false) ∨ c ∈ repl := by
  intro rest
  induction rest with
  | nil => intro prev skip h; cases h
  | cons d rest ih =>
    intro prev skip h
    have hlater {k : ℕ} (h : c ∈ replaceGo (runOf sp) repl (some d) k rest) :
        (c ∈ d :: rest ∧ sp c = false) ∨ c ∈ repl :=
      (ih h).imp (fun h => ⟨List.mem_cons_of_mem d h.1, h.2⟩) id
    cases skip with
    | succ k => exact hlater h
    | zero =>
      rw [replaceGo] at h
      split at h
      · rename_i hrun
        rcases List.mem_cons.mp h with rfl | h
        · refine Or.inl ⟨List.mem_cons_self, ?_⟩
          by_contra hsep
          simp [runOf, hsep] at hrun
        · exact hlater h
      · rcases List.mem_append.mp h with h | h
        · exact Or.inr h
        · exact hlater h

theorem mem_replaceMatches_runOf {repl text : List α} {c : α}
    (h : c ∈ replaceMatches (runOf sp) repl text) : (c ∈ text ∧ sp c = false) ∨ c ∈ repl :=
  mem_replaceGo_runOf h

/-- What a substitution leaves was there before, or is in the replacement. -/
theorem mem_replaceMatches {m : Matcher α} {repl text : List α} {c : α}
    (h : c ∈ replaceMatches m repl text) : c ∈ text ∨ c ∈ repl :=
  mem_replaceGo h

end RunOf

end RagStack.Common
