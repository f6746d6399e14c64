import Mathlib.Logic.Function.Basic

/-!
# Runs of a labelled transition system

`step : σ → ε → Option σ` is a deterministic step function: the event `e` says
which nondeterministic choice is taken, and `none` means that the event is not
enabled. A run is a start state and a list of events; it ends at the first
event that is not enabled.

* `Always step P s es`: `P` holds in every state the run visits.
* `EachStep step C s es`: `C` relates the two ends of every step of the run.
* `always_of_inv`: the invariant rule; `always_of_eachStep` is that for the runs whose steps
  meet a condition.
* `always_iff_eachStep`: when `P` survives a step exactly if the step meets
  `C`, then `P` always holds exactly if every step meets `C`.
* `eachStep_congr`: two conditions on steps that agree under an invariant hold
  of the same runs.
* `always_iff_final`: what no step can repair always holds exactly if it holds
  at the end.

`interleave` composes the atomic steps of many parties over a shared store;
`interleave_inv` is the proof rule for an invariant with one conjunct for each
party: the step of a party has to keep its own conjunct and those of the others.
`interleave_stable` is its case for a conjunct that reads the store.
`interleave_pairwise` is the rule for one conjunct for each pair of parties.
-/

namespace RagStack.Common

variable {σ ε : Type}

section Runs

variable (step : σ → ε → Option σ)

/-- The state after the events `es`, if all of them are enabled. -/
def exec : σ → List ε → Option σ
  | s, [] => some s
  | s, e :: es =>
    match step s e with
    | none => none
    | some s' => exec s' es

/-- `P` holds in every state that the run visits. -/
def Always (P : σ → Prop) : σ → List ε → Prop
  | s, [] => P s
  | s, e :: es =>
    P s ∧ match step s e with
      | none => True
      | some s' => Always P s' es

/-- `C` holds of every step of the run. -/
def EachStep (C : σ → ε → σ → Prop) : σ → List ε → Prop
  | _, [] => True
  | s, e :: es =>
    match step s e with
    | none => True
    | some s' => C s e s' ∧ EachStep C s' es

variable {step}

theorem always_cons_of_some {P : σ → Prop} {s s' : σ} {e : ε} {es : List ε}
    (h : step s e = some s') : Always step P s (e :: es) ↔ P s ∧ Always step P s' es := by
  simp only [Always, h]

theorem eachStep_cons_of_some {C : σ → ε → σ → Prop} {s s' : σ} {e : ε} {es : List ε}
    (h : step s e = some s') :
    EachStep step C s (e :: es) ↔ C s e s' ∧ EachStep step C s' es := by
  simp only [EachStep, h]

instance decidableEachStep {C : σ → ε → σ → Prop} [∀ s e s', Decidable (C s e s')] :
    ∀ s es, Decidable (EachStep step C s es)
  | _, [] => .isTrue trivial
  | s, e :: es =>
    match h : step s e with
    | none => .isTrue (by simp [EachStep, h])
    | some s' =>
      have := decidableEachStep (C := C) s' es
      decidable_of_iff (C s e s' ∧ EachStep step C s' es) (eachStep_cons_of_some h).symm

theorem Always.start {P : σ → Prop} {s : σ} {es : List ε} (h : Always step P s es) : P s := by
  cases es with
  | nil => exact h
  | cons e es => exact h.1

theorem Always.final {P : σ → Prop} {es : List ε} :
    ∀ {s s' : σ}, Always step P s es → exec step s es = some s' → P s' := by
  induction es with
  | nil =>
    intro s s' h he
    cases he
    exact h
  | cons e es ih =>
    intro s s' h he
    rw [exec] at he
    cases hs : step s e with
    | none => rw [hs] at he; cases he
    | some t =>
      rw [hs] at he
      exact ih ((always_cons_of_some hs).mp h).2 he

theorem Always.mono {P Q : σ → Prop} (hPQ : ∀ s, P s → Q s) :
    ∀ {es : List ε} {s : σ}, Always step P s es → Always step Q s es := by
  intro es
  induction es with
  | nil => intro s h; exact hPQ s h
  | cons e es ih =>
    intro s h
    cases hs : step s e with
    | none => exact ⟨hPQ s h.1, by simp [hs]⟩
    | some t =>
      rw [always_cons_of_some hs] at h ⊢
      exact ⟨hPQ s h.1, ih h.2⟩

theorem exec_snoc {e : ε} {es : List ε} :
    ∀ {s t : σ}, exec step s es = some t → exec step s (es ++ [e]) = step t e := by
  induction es with
  | nil =>
    intro s t h
    cases h
    simp only [List.nil_append, exec]
    cases step s e <;> rfl
  | cons e' es ih =>
    intro s t h
    rw [exec] at h
    simp only [List.cons_append, exec]
    cases hs : step s e' with
    | none => rw [hs] at h; cases h
    | some s' =>
      rw [hs] at h
      exact ih h

/-- A condition on steps holds of the last step of a run. -/
theorem EachStep.last {C : σ → ε → σ → Prop} {e : ε} {es : List ε} :
    ∀ {s t u : σ}, EachStep step C s (es ++ [e]) → exec step s es = some t →
      exec step s (es ++ [e]) = some u → C t e u := by
  induction es with
  | nil =>
    intro s t u h ht hu
    cases ht
    rw [exec_snoc rfl] at hu
    exact ((eachStep_cons_of_some hu).mp h).1
  | cons e' es ih =>
    intro s t u h ht hu
    rw [exec] at ht
    rw [List.cons_append, exec] at hu
    cases hs : step s e' with
    | none => rw [hs] at ht; cases ht
    | some s' =>
      rw [hs] at ht hu
      exact ih ((eachStep_cons_of_some hs).mp h).2 ht hu

/-- The invariant rule for an invariant that every step keeps. -/
theorem always_of_inv {I : σ → Prop} (hstep : ∀ s e s', I s → step s e = some s' → I s')
    (es : List ε) {s : σ} (hI : I s) : Always step I s es := by
  induction es generalizing s with
  | nil => exact hI
  | cons e es ih =>
    cases hs : step s e with
    | none => exact ⟨hI, by simp [hs]⟩
    | some t =>
      rw [always_cons_of_some hs]
      exact ⟨hI, ih (hstep s e t hI hs)⟩

/-- The invariant rule for an invariant that the steps meeting `C` keep. -/
theorem always_of_eachStep {I : σ → Prop} {C : σ → ε → σ → Prop}
    (hstep : ∀ s e s', I s → step s e = some s' → C s e s' → I s') :
    ∀ {es : List ε} {s : σ}, EachStep step C s es → I s → Always step I s es := by
  intro es
  induction es with
  | nil => exact fun _ hI => hI
  | cons e es ih =>
    intro s hC hI
    cases hs : step s e with
    | none => exact ⟨hI, by simp [hs]⟩
    | some t =>
      rw [eachStep_cons_of_some hs] at hC
      rw [always_cons_of_some hs]
      exact ⟨hI, ih hC.2 (hstep s e t hI hs hC.1)⟩

/-- What a step from an `I`-state meets, if every step keeps `I`. -/
theorem eachStep_of_inv {I : σ → Prop} {C : σ → ε → σ → Prop}
    (hstep : ∀ s e s', I s → step s e = some s' → I s' ∧ C s e s') (es : List ε) {s : σ}
    (hI : I s) : EachStep step C s es := by
  induction es generalizing s with
  | nil => trivial
  | cons e es ih =>
    cases hs : step s e with
    | none => simp [EachStep, hs]
    | some t =>
      rw [eachStep_cons_of_some hs]
      obtain ⟨hI', hC⟩ := hstep s e t hI hs
      exact ⟨hC, ih hI'⟩

/-- If, under an invariant `I` that the steps meeting `C` keep, a step from a
    `P`-state leads to a `P`-state exactly when it meets `C`, then the runs
    along which `P` always holds are those all of whose steps meet `C`. -/
theorem always_iff_eachStep {I P : σ → Prop} {C : σ → ε → σ → Prop}
    (hinv : ∀ s e s', I s → P s → step s e = some s' → C s e s' → I s')
    (hstep : ∀ s e s', I s → P s → step s e = some s' → (P s' ↔ C s e s')) :
    ∀ {es : List ε} {s : σ}, I s → P s → (Always step P s es ↔ EachStep step C s es) := by
  intro es
  induction es with
  | nil => intro s _ hP; exact iff_of_true hP trivial
  | cons e es ih =>
    intro s hI hP
    cases hs : step s e with
    | none => exact iff_of_true ⟨hP, by simp [hs]⟩ (by simp [EachStep, hs])
    | some t =>
      rw [always_cons_of_some hs, eachStep_cons_of_some hs]
      constructor
      · rintro ⟨-, ht⟩
        have hC := (hstep s e t hI hP hs).mp ht.start
        exact ⟨hC, (ih (hinv s e t hI hP hs hC) ht.start).mp ht⟩
      · rintro ⟨hC, ht⟩
        have hPt := (hstep s e t hI hP hs).mpr hC
        exact ⟨hP, (ih (hinv s e t hI hP hs hC) hPt).mpr ht⟩

/-- Two conditions that agree on the steps from `I`-states hold of the same
    runs, if the steps that meet the first one keep `I`. -/
theorem eachStep_congr {I : σ → Prop} {C D : σ → ε → σ → Prop}
    (hinv : ∀ s e s', I s → step s e = some s' → C s e s' → I s')
    (hCD : ∀ s e s', I s → step s e = some s' → (C s e s' ↔ D s e s')) :
    ∀ {es : List ε} {s : σ}, I s → (EachStep step C s es ↔ EachStep step D s es) := by
  intro es
  induction es with
  | nil => intro s _; exact Iff.rfl
  | cons e es ih =>
    intro s hI
    cases hs : step s e with
    | none => simp [EachStep, hs]
    | some t =>
      rw [eachStep_cons_of_some hs, eachStep_cons_of_some hs, hCD s e t hI hs]
      constructor
      · rintro ⟨hD, ht⟩
        exact ⟨hD, (ih (hinv s e t hI hs ((hCD s e t hI hs).mpr hD))).mp ht⟩
      · rintro ⟨hD, ht⟩
        exact ⟨hD, (ih (hinv s e t hI hs ((hCD s e t hI hs).mpr hD))).mpr ht⟩

/-- If no step from an `I`-state leads from a state without `P` to one with it,
    then `P` holds along a run exactly if it holds at its end. -/
theorem always_iff_final {I P : σ → Prop}
    (hinv : ∀ s e s', I s → step s e = some s' → I s')
    (hback : ∀ s e s', I s → step s e = some s' → P s' → P s) :
    ∀ {es : List ε} {s s' : σ}, I s → exec step s es = some s' → (Always step P s es ↔ P s') := by
  intro es
  induction es with
  | nil =>
    intro s s' _ he
    cases he
    exact Iff.rfl
  | cons e es ih =>
    intro s s' hI he
    rw [exec] at he
    cases hs : step s e with
    | none => rw [hs] at he; cases he
    | some t =>
      rw [hs] at he
      have hrest := ih (hinv s e t hI hs) he
      rw [always_cons_of_some hs]
      constructor
      · exact fun h => hrest.mp h.2
      · intro h
        have ht := hrest.mpr h
        exact ⟨hback s e t hI hs ht.start, ht⟩

end Runs

/-! ## Parties that share a store -/

section Interleave

variable {ι τ μ : Type} [DecidableEq ι]

/-- One atomic step of party `i`: the program `prog i` acts on the shared store
    and on the local state of `i` only. -/
def interleave (prog : ι → τ → μ → ε → Option (τ × μ)) (s : τ × (ι → μ)) (ie : ι × ε) :
    Option (τ × (ι → μ)) :=
  (prog ie.1 s.1 (s.2 ie.1) ie.2).map fun r => (r.1, Function.update s.2 ie.1 r.2)

variable {prog : ι → τ → μ → ε → Option (τ × μ)}

theorem interleave_eq_some {s s' : τ × (ι → μ)} {ie : ι × ε} :
    interleave prog s ie = some s' ↔
      ∃ store l, prog ie.1 s.1 (s.2 ie.1) ie.2 = some (store, l) ∧
        s' = (store, Function.update s.2 ie.1 l) := by
  unfold interleave
  rw [Option.map_eq_some_iff]
  constructor
  · rintro ⟨⟨store, l⟩, h, rfl⟩
    exact ⟨store, l, h, rfl⟩
  · rintro ⟨store, l, h, rfl⟩
    exact ⟨(store, l), h, rfl⟩

/-- A conjunct for each party: after a step it holds of the party that has taken
    the step (`own`), and of every other party, whose local state is as before
    (`other`). -/
theorem interleave_inv {s s' : τ × (ι → μ)} {ie : ι × ε} (hs : interleave prog s ie = some s')
    {J : ι → μ → Prop}
    (own : ∀ l, prog ie.1 s.1 (s.2 ie.1) ie.2 = some (s'.1, l) → J ie.1 l)
    (other : ∀ l, prog ie.1 s.1 (s.2 ie.1) ie.2 = some (s'.1, l) → ∀ k ≠ ie.1, J k (s.2 k)) :
    ∀ k, J k (s'.2 k) := by
  obtain ⟨store, l, hp, rfl⟩ := interleave_eq_some.mp hs
  intro k
  by_cases hk : k = ie.1
  · subst hk
    simpa using own l hp
  · simpa [hk] using other l hp k hk

/-- A conjunct that reads the store: it holds of the party that has taken the step
    (`own`), and of the others as it survives every change that `R` allows. -/
theorem interleave_stable {s s' : τ × (ι → μ)} {ie : ι × ε} (hs : interleave prog s ie = some s')
    {R : τ → τ → Prop} {J : ι → τ → μ → Prop} (before : ∀ k, J k s.1 (s.2 k))
    (stable : ∀ k t t' m, R t t' → J k t m → J k t' m) (grows : R s.1 s'.1)
    (own : ∀ l, prog ie.1 s.1 (s.2 ie.1) ie.2 = some (s'.1, l) → J ie.1 s'.1 l) :
    ∀ k, J k s'.1 (s'.2 k) :=
  interleave_inv hs (J := fun k m => J k s'.1 m) own fun _ _ k _ =>
    stable k _ _ _ grows (before k)

/-- A symmetric conjunct for each two parties: the party that takes the step has
    to establish it against every other one. -/
theorem interleave_pairwise {s s' : τ × (ι → μ)} {ie : ι × ε} (hs : interleave prog s ie = some s')
    {K : μ → μ → Prop} (symm : ∀ l m, K l m → K m l) (before : ∀ i j, i ≠ j → K (s.2 i) (s.2 j))
    (own : ∀ l, prog ie.1 s.1 (s.2 ie.1) ie.2 = some (s'.1, l) → ∀ k ≠ ie.1, K l (s.2 k)) :
    ∀ i j, i ≠ j → K (s'.2 i) (s'.2 j) := by
  obtain ⟨store, l, hp, rfl⟩ := interleave_eq_some.mp hs
  intro i j hij
  by_cases hi : i = ie.1
  · have hj : j ≠ ie.1 := fun h => hij (hi.trans h.symm)
    subst hi
    simpa [hj] using own l hp j hj
  · by_cases hj : j = ie.1
    · subst hj
      simpa [hi] using symm _ _ (own l hp i hi)
    · simpa [hi, hj] using before i j hij

end Interleave

end RagStack.Common
