import RagStack.Chunking.Units
import Mathlib.Data.List.Chain

/-!
# `Chunker`: grouping units into chunks

`app/services/chunker.py`, lines 321–397: the units of a section are grouped up
to a token limit; a group starts with an overlap taken from the group before it,
and the section's title is put in front.

* `groupUnits_spec`: the groups are an overlap followed by fresh units. The
  fresh units are all units, in order; the overlap is a suffix of the units of
  the previous group that are not headings; a group exceeds the limit only if it
  is a single unit.
* `groupUnits_total`: this holds for every target and every overlap, and the loop of the
  source ends.
-/

namespace RagStack.Chunking

open RagStack.Common RagStack.Worker

/-- `_apply_sticky_heading` (lines 365–385). -/
def Chunker.applyStickyHeading (ck : Chunker) (units : List TextUnit) (stickyHeading : Option Text)
    (headingLevel : Option ℕ) : List TextUnit :=
  match truthy stickyHeading with
  | none => units
  | some heading =>
    if units.head?.any fun u => u.text = heading then units
    else
      { text := heading
        tokenCount := ck.tokenCounter.count heading
        pageNumbers := units.head?.elim [] TextUnit.pageNumbers
        blockKinds := [.heading]
        blockIndexes := units.head?.elim [] fun u => u.blockIndexes.take 1
        sectionTitle := some heading
        sectionPath := units.head?.elim [] TextUnit.sectionPath
        headingLevel := headingLevel } :: units

/-- The loop of `_build_overlap` over the reversed units. -/
def overlapGo (overlapTokens : ℕ) (overlap : List TextUnit) (tokens : ℕ) :
    List TextUnit → List TextUnit
  | [] => overlap
  | unit :: rest =>
    if unit.isHeading then overlapGo overlapTokens overlap tokens rest
    else if overlapTokens ≤ tokens + unit.tokenCount then unit :: overlap
    else overlapGo overlapTokens (unit :: overlap) (tokens + unit.tokenCount) rest

/-- `_build_overlap` (lines 387–397). -/
def Chunker.buildOverlap (ck : Chunker) (units : List TextUnit) : List TextUnit :=
  overlapGo ck.settings.chunkOverlapTokens [] 0 units.reverse

/-- The token counts of a list of units, added up. -/
def unitTokens (units : List TextUnit) : ℕ := (units.map TextUnit.tokenCount).sum

/-- The loop that drops overlap units until the next unit fits (lines 355–357). -/
def trimOverlap (limit next : ℕ) (tokens : ℕ) : List TextUnit → List TextUnit × ℕ
  | [] => ([], tokens)
  | unit :: rest =>
    if limit < tokens + next then trimOverlap limit next (tokens - unit.tokenCount) rest
    else (unit :: rest, tokens)

/-- The variables of the loop of `_group_units`. -/
structure GroupState where
  grouped : List (List TextUnit)
  current : List TextUnit
  currentTokens : ℕ
  rest : List TextUnit

/-- The loop body of `_group_units` (lines 338–359). -/
def Chunker.groupStep (ck : Chunker) (stickyHeading : Option Text) (headingLevel : Option ℕ)
    (limit : ℕ) (s : GroupState) : GroupState :=
  match s.rest with
  | [] => s
  | unit :: rest =>
    if s.current = [] then
      { s with current := [unit], currentTokens := unit.tokenCount, rest := rest }
    else if s.currentTokens + unit.tokenCount ≤ limit then
      { s with
        current := s.current ++ [unit]
        currentTokens := s.currentTokens + unit.tokenCount
        rest := rest }
    else
      -- the group is closed; the unit is read again after the overlap
      let overlap := ck.buildOverlap s.current
      let (overlap, tokens) := trimOverlap limit unit.tokenCount (unitTokens overlap) overlap
      { grouped := s.grouped ++ [ck.applyStickyHeading s.current stickyHeading headingLevel]
        current := overlap
        currentTokens := tokens
        rest := unit :: rest }

/-- Bounds the iterations of the loop: an iteration either reads a unit, or
    makes room for it. -/
def groupVariant (limit : ℕ) (s : GroupState) : ℕ :=
  match s.rest with
  | [] => 0
  | unit :: rest =>
    2 * rest.length + 1 +
      if s.current ≠ [] ∧ limit < s.currentTokens + unit.tokenCount then 1 else 0

/-- `chunk_limit` (lines 331–332). -/
def Chunker.chunkLimit (ck : Chunker) (stickyHeading : Option Text) : ℕ :=
  max 1 (ck.settings.chunkTargetTokens - (truthy stickyHeading).elim 0 ck.tokenCounter.count)

/-- `_group_units` (lines 321–363). -/
def Chunker.groupUnits (ck : Chunker) (units : List TextUnit) (stickyHeading : Option Text)
    (headingLevel : Option ℕ) : List (List TextUnit) :=
  let limit := ck.chunkLimit stickyHeading
  let s := whileLoop (groupVariant limit) (fun s => s.rest ≠ [])
    (ck.groupStep stickyHeading headingLevel limit)
    { grouped := [], current := [], currentTokens := 0, rest := units }
  if s.current = [] then s.grouped
  else s.grouped ++ [ck.applyStickyHeading s.current stickyHeading headingLevel]

/-! ## Overlaps -/

theorem overlapGo_suffix (overlapTokens : ℕ) (reversed : List TextUnit) :
    ∀ overlap tokens, ∃ taken, taken <:+ reversed.reverse.filter (fun u => !u.isHeading) ∧
      overlapGo overlapTokens overlap tokens reversed = taken ++ overlap := by
  induction reversed with
  | nil => intro overlap tokens; exact ⟨[], by simp, rfl⟩
  | cons unit rest ih =>
    intro overlap tokens
    unfold overlapGo
    by_cases hh : unit.isHeading = true
    · obtain ⟨taken, htaken, heq⟩ := ih overlap tokens
      refine ⟨taken, ?_, by rw [if_pos hh, heq]⟩
      simpa [hh] using htaken
    · rw [if_neg hh]
      split_ifs
      · refine ⟨[unit], ?_, rfl⟩
        simp [hh]
      · obtain ⟨taken, htaken, heq⟩ := ih (unit :: overlap) (tokens + unit.tokenCount)
        refine ⟨taken ++ [unit], ?_, by rw [heq]; simp⟩
        obtain ⟨before, hbefore⟩ := htaken
        exact ⟨before, by simp [hh, ← hbefore]⟩

/-- The overlap repeats the last units that are not headings. -/
theorem buildOverlap_suffix (ck : Chunker) (units : List TextUnit) :
    ck.buildOverlap units <:+ units.filter fun u => !u.isHeading := by
  obtain ⟨taken, htaken, heq⟩ :=
    overlapGo_suffix ck.settings.chunkOverlapTokens units.reverse [] 0
  rw [Chunker.buildOverlap, heq, List.append_nil]
  simpa using htaken

/-- Trimming drops units from the front until the next unit fits. -/
theorem trimOverlap_spec (limit next : ℕ) (overlap : List TextUnit) :
    (trimOverlap limit next (unitTokens overlap) overlap).1 <:+ overlap ∧
      (trimOverlap limit next (unitTokens overlap) overlap).2 =
        unitTokens (trimOverlap limit next (unitTokens overlap) overlap).1 ∧
      ((trimOverlap limit next (unitTokens overlap) overlap).1 = [] ∨
        (trimOverlap limit next (unitTokens overlap) overlap).2 + next ≤ limit) := by
  induction overlap with
  | nil => simp [trimOverlap, unitTokens]
  | cons unit rest ih =>
    have hsub : unitTokens (unit :: rest) - unit.tokenCount = unitTokens rest := by
      simp [unitTokens]
    unfold trimOverlap
    split_ifs with hlt
    · rw [hsub]
      exact ⟨ih.1.trans (List.suffix_cons unit rest), ih.2⟩
    · exact ⟨List.suffix_refl _, rfl, Or.inr (by simpa using hlt)⟩

/-! ## Splits -/

/-- The units of a group that are not headings. -/
def bodyUnits (units : List TextUnit) : List TextUnit := units.filter fun u => !u.isHeading

/-- How the units of a chunk came together: the title put in front, the overlap
    with the chunk before, and the units that no earlier chunk has. -/
structure Split where
  heading : List TextUnit
  overlap : List TextUnit
  fresh : List TextUnit
deriving DecidableEq, Repr

/-- The units of the chunk. -/
def Split.units (sp : Split) : List TextUnit := sp.heading ++ sp.overlap ++ sp.fresh

/-- The overlap of `b` is a suffix of the non-heading units of `a`. -/
def Follows (a b : Split) : Prop := b.overlap <:+ bodyUnits a.units

/-- The token counts of a group are within the limit, unless it is one unit. -/
def Fits (limit : ℕ) (units : List TextUnit) : Prop :=
  unitTokens units ≤ limit ∨ ∃ u, units = [u]

/-- The heading of a group is at most one unit: the title, marked as a heading. -/
def HeadingFor (ck : Chunker) (title : Option Text) (heading : List TextUnit) : Prop :=
  heading = [] ∨ ∃ h, heading = [h] ∧ h.isHeading = true ∧ truthy title = some h.text ∧
    h.tokenCount = ck.tokenCounter.count h.text

/-- The title is put in front of the units, unless they start with it. -/
theorem applyStickyHeading_spec (ck : Chunker) (units : List TextUnit) (title : Option Text)
    (level : Option ℕ) :
    ∃ heading, ck.applyStickyHeading units title level = heading ++ units ∧
      HeadingFor ck title heading ∧ ∀ t ∈ truthy title, ∃ u ∈ heading ++ units, u.text = t := by
  unfold Chunker.applyStickyHeading
  cases ht : truthy title with
  | none => exact ⟨[], rfl, Or.inl rfl, fun t h => by cases h⟩
  | some t =>
    simp only
    split_ifs with hhead
    · refine ⟨[], rfl, Or.inl rfl, ?_⟩
      intro t' ht'
      cases ht'
      obtain ⟨u, hu, htext⟩ := (Option.any_eq_true _ _).mp hhead
      exact ⟨u, List.mem_of_mem_head? hu, by simpa using htext⟩
    · refine ⟨[_], rfl, Or.inr ⟨_, rfl, by simp [TextUnit.isHeading], ht, rfl⟩, ?_⟩
      intro t' ht'
      cases ht'
      exact ⟨_, List.mem_cons_self, rfl⟩

theorem HeadingFor.bodyUnits_nil {ck : Chunker} {title : Option Text} {heading : List TextUnit}
    (h : HeadingFor ck title heading) : bodyUnits heading = [] := by
  rcases h with rfl | ⟨h, rfl, hh, -⟩
  · rfl
  · simp [bodyUnits, hh]

/-- A group that the loop may close. -/
structure SplitOk (ck : Chunker) (title : Option Text) (limit : ℕ) (units : List TextUnit)
    (sp : Split) : Prop where
  heading : HeadingFor ck title sp.heading
  fresh_ne_nil : sp.fresh ≠ []
  fits : Fits limit (sp.overlap ++ sp.fresh)
  title_mem : ∀ t ∈ truthy title, ∃ u ∈ sp.units, u.text = t
  subset : sp.overlap ++ sp.fresh ⊆ units
  units_eq : ∃ level, sp.units = ck.applyStickyHeading (sp.overlap ++ sp.fresh) title level

/-- The invariant of `_group_units`: the closed groups are `splits`, the open
    one is `overlap ++ fresh`, and what was read is the fresh units. -/
structure GroupInv (ck : Chunker) (title : Option Text) (limit : ℕ) (units : List TextUnit)
    (splits : List Split) (overlap fresh : List TextUnit) (s : GroupState) : Prop where
  grouped : s.grouped = splits.map Split.units
  current : s.current = overlap ++ fresh
  tokens : s.currentTokens = unitTokens s.current
  read : splits.flatMap Split.fresh ++ fresh ++ s.rest = units
  closed : ∀ sp ∈ splits, SplitOk ck title limit units sp
  chain : splits.IsChain Follows
  start : ∀ sp ∈ splits.head?, sp.overlap = []
  overlap_suffix : overlap <:+ splits.getLast?.elim [] fun sp => bodyUnits sp.units
  open_fits : s.current = [] ∨ Fits limit s.current
  open_subset : s.current ⊆ units
  /-- An open group without fresh units has room for the next unit. -/
  room : fresh = [] → s.current = [] ∨
    ∃ unit rest, s.rest = unit :: rest ∧ s.currentTokens + unit.tokenCount ≤ limit

variable {ck : Chunker} {title : Option Text} {level : Option ℕ} {limit : ℕ}
  {units overlap fresh : List TextUnit} {splits : List Split} {s : GroupState}

/-- Closing the open group. -/
theorem GroupInv.close (h : GroupInv ck title limit units splits overlap fresh s)
    (level : Option ℕ) (hfresh : fresh ≠ []) :
    ∃ sp : Split, sp.overlap = overlap ∧ sp.fresh = fresh ∧
      ck.applyStickyHeading s.current title level = sp.units ∧
      bodyUnits sp.units = bodyUnits s.current ∧
      (∀ sp' ∈ splits ++ [sp], SplitOk ck title limit units sp') ∧
      (splits ++ [sp]).IsChain Follows ∧ ∀ sp' ∈ (splits ++ [sp]).head?, sp'.overlap = [] := by
  obtain ⟨heading, happly, hheading, htitle⟩ := applyStickyHeading_spec ck s.current title level
  have hne : s.current ≠ [] := by
    rw [h.current]
    simp [hfresh]
  refine ⟨⟨heading, overlap, fresh⟩, rfl, rfl, ?_, ?_, ?_, ?_, ?_⟩
  · rw [happly, h.current, Split.units, List.append_assoc]
  · have hbody := hheading.bodyUnits_nil
    simp only [Split.units, bodyUnits, List.filter_append, h.current] at hbody ⊢
    rw [hbody, List.nil_append]
  · intro sp hsp
    rcases List.mem_append.mp hsp with hsp | hsp
    · exact h.closed sp hsp
    · rw [List.mem_singleton.mp hsp]
      refine ⟨hheading, hfresh, ?_, ?_, ?_, level, ?_⟩
      · rw [← h.current]
        exact h.open_fits.resolve_left hne
      · rw [Split.units, List.append_assoc, ← h.current]
        exact htitle
      · rw [← h.current]
        exact h.open_subset
      · rw [← h.current, happly, h.current, Split.units, List.append_assoc]
  · refine List.isChain_append.mpr ⟨h.chain, List.isChain_singleton _, ?_⟩
    intro a ha b hb
    cases hb
    have := h.overlap_suffix
    rw [Option.mem_def.mp ha] at this
    exact this
  · cases splits with
    | nil =>
      intro sp hsp
      cases hsp
      simpa using h.overlap_suffix
    | cons sp splits => exact h.start

section Step

variable {unit : TextUnit} {rest : List TextUnit}

theorem GroupInv.next_mem (h : GroupInv ck title limit units splits overlap fresh s)
    (hnext : s.rest = unit :: rest) : unit ∈ units := by
  rw [← h.read, hnext]
  simp

/-- The loop reads the first unit of a group. -/
theorem GroupInv.first (h : GroupInv ck title limit units splits overlap fresh s)
    (hnext : s.rest = unit :: rest) (hcurrent : s.current = []) :
    GroupInv ck title limit units splits [] [unit]
      { s with current := [unit], currentTokens := unit.tokenCount, rest := rest } where
  grouped := h.grouped
  current := rfl
  tokens := by simp [unitTokens]
  read := by
    have hnil : overlap = [] ∧ fresh = [] := by simpa [h.current] using hcurrent
    rw [← h.read, hnext, hnil.2]
    simp
  closed := h.closed
  chain := h.chain
  start := h.start
  overlap_suffix := List.nil_suffix
  open_fits := Or.inr (Or.inr ⟨unit, rfl⟩)
  open_subset := by simpa using h.next_mem hnext
  room := fun hnil => by simp at hnil

/-- The loop reads a unit that fits into the group. -/
theorem GroupInv.extend (h : GroupInv ck title limit units splits overlap fresh s)
    (hnext : s.rest = unit :: rest) (hfit : s.currentTokens + unit.tokenCount ≤ limit) :
    GroupInv ck title limit units splits overlap (fresh ++ [unit])
      { s with
        current := s.current ++ [unit]
        currentTokens := s.currentTokens + unit.tokenCount
        rest := rest } where
  grouped := h.grouped
  current := by simp [h.current]
  tokens := by simp [h.tokens, unitTokens]
  read := by
    rw [← h.read, hnext]
    simp
  closed := h.closed
  chain := h.chain
  start := h.start
  overlap_suffix := h.overlap_suffix
  open_fits := by
    rw [h.tokens] at hfit
    exact Or.inr (Or.inl (by simpa [unitTokens] using hfit))
  open_subset := List.append_subset.mpr ⟨h.open_subset, by simpa using h.next_mem hnext⟩
  room := fun hnil => by simp at hnil

/-- A full group has a fresh unit: an overlap alone leaves room for the next one. -/
theorem GroupInv.fresh_ne_nil (h : GroupInv ck title limit units splits overlap fresh s)
    (hnext : s.rest = unit :: rest) (hcurrent : s.current ≠ [])
    (hfull : limit < s.currentTokens + unit.tokenCount) : fresh ≠ [] := by
  intro hnil
  rcases h.room hnil with hempty | ⟨unit', rest', hnext', hroom⟩
  · exact hcurrent hempty
  · rw [hnext] at hnext'
    cases hnext'
    omega

/-- The loop closes a full group. The overlap that it takes over is empty or leaves
    room for the next unit. -/
theorem GroupInv.full (h : GroupInv ck title limit units splits overlap fresh s)
    (hnext : s.rest = unit :: rest) (hcurrent : s.current ≠ [])
    (hfull : limit < s.currentTokens + unit.tokenCount) (level : Option ℕ)
    {overlap' : List TextUnit} {tokens : ℕ}
    (htrim : trimOverlap limit unit.tokenCount (unitTokens (ck.buildOverlap s.current))
      (ck.buildOverlap s.current) = (overlap', tokens)) :
    (overlap' = [] ∨ tokens + unit.tokenCount ≤ limit) ∧
      ∃ splits, GroupInv ck title limit units splits overlap' []
        { grouped := s.grouped ++ [ck.applyStickyHeading s.current title level]
          current := overlap'
          currentTokens := tokens
          rest := unit :: rest } := by
  obtain ⟨sp, -, hsp, hunits, hbody, hclosed, hchain, hstart⟩ :=
    h.close level (h.fresh_ne_nil hnext hcurrent hfull)
  have hspec := trimOverlap_spec limit unit.tokenCount (ck.buildOverlap s.current)
  rw [htrim] at hspec
  obtain ⟨hsuffix, htokens, hroom⟩ := hspec
  have hcarried : overlap' <:+ bodyUnits s.current :=
    hsuffix.trans (buildOverlap_suffix ck s.current)
  refine ⟨hroom, splits ++ [sp], ?_⟩
  exact
    { grouped := by simp [h.grouped, hunits]
      current := by simp
      tokens := htokens
      read := by
        rw [← h.read, hnext]
        simp [hsp]
      closed := hclosed
      chain := hchain
      start := hstart
      overlap_suffix := by
        rw [List.getLast?_append_cons, List.getLast?_singleton]
        simpa only [Option.elim_some, hbody] using hcarried
      open_fits := by
        rcases hroom with hempty | hroom
        · exact Or.inl hempty
        · exact Or.inr (Or.inl (by simp only at htokens ⊢; omega))
      open_subset := fun u hu =>
        h.open_subset (List.mem_of_mem_filter (hcarried.subset hu))
      room := fun _ => hroom.imp id fun hroom => ⟨unit, rest, rfl, hroom⟩ }

/-- Reading a unit decreases the variant. -/
theorem groupVariant_read (hnext : s.rest = unit :: rest) (grouped : List (List TextUnit))
    (current : List TextUnit) (tokens : ℕ) :
    groupVariant limit ⟨grouped, current, tokens, rest⟩ < groupVariant limit s := by
  rw [groupVariant, groupVariant, hnext]
  cases rest with
  | nil => simp
  | cons next rest =>
    simp only [List.length_cons]
    split_ifs <;> omega

/-- Making room for the next unit decreases the variant. -/
theorem groupVariant_full (hnext : s.rest = unit :: rest) (hcurrent : s.current ≠ [])
    (hfull : limit < s.currentTokens + unit.tokenCount) {overlap' : List TextUnit} {tokens : ℕ}
    (hroom : overlap' = [] ∨ tokens + unit.tokenCount ≤ limit) (grouped : List (List TextUnit)) :
    groupVariant limit ⟨grouped, overlap', tokens, unit :: rest⟩ < groupVariant limit s := by
  have hnew : ¬(overlap' ≠ [] ∧ limit < tokens + unit.tokenCount) := by
    rintro ⟨hne, hlt⟩
    rcases hroom with hempty | hroom
    · exact hne hempty
    · omega
  rw [groupVariant, groupVariant, hnext]
  simp only
  rw [if_neg hnew, if_pos ⟨hcurrent, hfull⟩]
  omega

end Step

/-- One iteration keeps the invariant and decreases the variant. -/
theorem GroupInv.step (h : GroupInv ck title limit units splits overlap fresh s)
    (hrest : s.rest ≠ []) :
    (∃ splits overlap fresh, GroupInv ck title limit units splits overlap fresh
      (ck.groupStep title level limit s)) ∧
      groupVariant limit (ck.groupStep title level limit s) < groupVariant limit s := by
  obtain ⟨unit, rest, hnext⟩ := List.exists_cons_of_ne_nil hrest
  unfold Chunker.groupStep
  rw [hnext]
  simp only
  split_ifs with hcurrent hfit
  · exact ⟨⟨splits, [], [unit], h.first hnext hcurrent⟩, groupVariant_read hnext _ _ _⟩
  · exact ⟨⟨splits, overlap, fresh ++ [unit], h.extend hnext hfit⟩, groupVariant_read hnext _ _ _⟩
  · have hfull : limit < s.currentTokens + unit.tokenCount := by omega
    obtain ⟨hroom, splits', hinv⟩ := h.full hnext hcurrent hfull level rfl
    exact ⟨⟨splits', _, [], hinv⟩, groupVariant_full hnext hcurrent hfull hroom _⟩

/-! ## Groups -/

/-- `chunk_limit` for any `chunk_target_tokens`. -/
def Chunker.chunkLimitAt (ck : Chunker) (chunkTargetTokens : ℕ) (stickyHeading : Option Text) : ℕ :=
  max 1 (chunkTargetTokens - (truthy stickyHeading).elim 0 ck.tokenCounter.count)

/-- `while index < len(units)`. -/
def unitsLeft (s : GroupState) : Bool := s.rest ≠ []

/-- The variables before the loop. -/
def groupStart (units : List TextUnit) : GroupState where
  grouped := []
  current := []
  currentTokens := 0
  rest := units

/-- The variables after the loop. -/
def Chunker.groupLoop (ck : Chunker) (chunkTargetTokens : ℕ) (units : List TextUnit)
    (stickyHeading : Option Text) (headingLevel : Option ℕ) : GroupState :=
  let limit := ck.chunkLimitAt chunkTargetTokens stickyHeading
  whileLoop (groupVariant limit) unitsLeft (ck.groupStep stickyHeading headingLevel limit)
    (groupStart units)

/-- The groups, when the last one is closed (lines 361–363). -/
def Chunker.closeGroups (ck : Chunker) (stickyHeading : Option Text) (headingLevel : Option ℕ)
    (s : GroupState) : List (List TextUnit) :=
  if s.current = [] then s.grouped
  else s.grouped ++ [ck.applyStickyHeading s.current stickyHeading headingLevel]

/-- `_group_units` for any `chunk_target_tokens`. The overlap of a chunker can be any
    number as well, so this is the function without the bounds of the settings. -/
def Chunker.groupUnitsAt (ck : Chunker) (chunkTargetTokens : ℕ) (units : List TextUnit)
    (stickyHeading : Option Text) (headingLevel : Option ℕ) : List (List TextUnit) :=
  ck.closeGroups stickyHeading headingLevel
    (ck.groupLoop chunkTargetTokens units stickyHeading headingLevel)

theorem groupUnits_eq (ck : Chunker) (units : List TextUnit) (title : Option Text)
    (level : Option ℕ) : ck.groupUnits units title level =
      ck.groupUnitsAt ck.settings.chunkTargetTokens units title level := rfl

theorem groupInv_groupStart (ck : Chunker) (title : Option Text) (limit : ℕ)
    (units : List TextUnit) : GroupInv ck title limit units [] [] [] (groupStart units) :=
  ⟨rfl, rfl, rfl, rfl, by simp, List.isChain_nil, by simp, List.nil_suffix, Or.inl rfl,
    List.nil_subset _, fun _ => Or.inl rfl⟩

/-- The groups of `_group_units`: fresh units are the units, in order; overlaps
    repeat the group before; a group is within the limit or a single unit. -/
theorem groupUnitsAt_spec (ck : Chunker) (chunkTargetTokens : ℕ) (units : List TextUnit)
    (title : Option Text) (level : Option ℕ) :
    ∃ splits : List Split,
      ck.groupUnitsAt chunkTargetTokens units title level = splits.map Split.units ∧
      splits.flatMap Split.fresh = units ∧ splits.IsChain Follows ∧
      (∀ sp ∈ splits.head?, sp.overlap = []) ∧
      ∀ sp ∈ splits, SplitOk ck title (ck.chunkLimitAt chunkTargetTokens title) units sp := by
  set limit := ck.chunkLimitAt chunkTargetTokens title with hlimit
  obtain ⟨⟨splits, overlap, fresh, h⟩, hend⟩ := @whileLoop_rule GroupState
    (groupVariant limit) unitsLeft (ck.groupStep title level limit)
    (fun s => ∃ splits overlap fresh, GroupInv ck title limit units splits overlap fresh s)
    (fun s ⟨_, _, _, hs⟩ hc => hs.step (by simpa [unitsLeft] using hc))
    (groupStart units) ⟨[], [], [], groupInv_groupStart ck title limit units⟩
  unfold Chunker.groupUnitsAt Chunker.closeGroups Chunker.groupLoop
  simp only [← hlimit]
  set s := whileLoop (groupVariant limit) unitsLeft (ck.groupStep title level limit)
    (groupStart units)
  have hrest : s.rest = [] := by simpa [unitsLeft] using hend
  have hread := h.read
  rw [hrest, List.append_nil] at hread
  split_ifs with hcur
  · have hnil : fresh = [] := by
      have := h.current
      rw [hcur] at this
      exact (List.append_eq_nil_iff.mp this.symm).2
    rw [hnil, List.append_nil] at hread
    exact ⟨splits, h.grouped, hread, h.chain, h.start, h.closed⟩
  · have hfresh : fresh ≠ [] := by
      intro hnil
      rcases h.room hnil with hc | ⟨unit, rest, heq, -⟩
      · exact hcur hc
      · rw [hrest] at heq
        cases heq
    obtain ⟨sp, -, hsp, hunits, -, hclosed, hchain, hstart⟩ := h.close level hfresh
    refine ⟨splits ++ [sp], ?_, ?_, hchain, hstart, hclosed⟩
    · simp [h.grouped, hunits]
    · simpa [hsp] using hread

/-- The groups with the target of the settings. -/
theorem groupUnits_spec (ck : Chunker) (units : List TextUnit) (title : Option Text)
    (level : Option ℕ) :
    ∃ splits : List Split, ck.groupUnits units title level = splits.map Split.units ∧
      splits.flatMap Split.fresh = units ∧ splits.IsChain Follows ∧
      (∀ sp ∈ splits.head?, sp.overlap = []) ∧
      ∀ sp ∈ splits, SplitOk ck title (ck.chunkLimit title) units sp := by
  rw [groupUnits_eq]
  exact groupUnitsAt_spec ck ck.settings.chunkTargetTokens units title level

/-- The loop ends: each iteration reads a unit or makes room for the next one. -/
theorem loopEnds_groupLoop (ck : Chunker) (chunkTargetTokens : ℕ) (units : List TextUnit)
    (title : Option Text) (level : Option ℕ) :
    LoopEnds unitsLeft (ck.groupStep title level (ck.chunkLimitAt chunkTargetTokens title))
      (groupStart units) (ck.groupLoop chunkTargetTokens units title level) :=
  @loopEnds_whileLoop GroupState _ unitsLeft _
    (fun s => ∃ splits overlap fresh, GroupInv ck title
      (ck.chunkLimitAt chunkTargetTokens title) units splits overlap fresh s)
    (fun s ⟨_, _, _, hs⟩ hc => hs.step (by simpa [unitsLeft] using hc)) _
    ⟨[], [], [], groupInv_groupStart ck title _ units⟩

/-- A group is the sticky heading or none, an overlap, and fresh units, and within the
    limit of the target less the heading, unless it is a single unit. -/
structure GroupOf (ck : Chunker) (chunkTargetTokens : ℕ) (title : Option Text) (sp : Split) :
    Prop where
  heading : HeadingFor ck title sp.heading
  fresh_ne_nil : sp.fresh ≠ []
  tokens : unitTokens sp.overlap + unitTokens sp.fresh ≤
      max 1 (chunkTargetTokens - (truthy title).elim 0 ck.tokenCounter.count) ∨
    ∃ u, sp.overlap ++ sp.fresh = [u]

/-- Grouping ends, loses and repeats no unit but by the overlaps, and keeps the limit, for
    every target and every overlap. -/
theorem groupUnits_total (ck : Chunker) (chunkTargetTokens : ℕ) (units : List TextUnit)
    (title : Option Text) (level : Option ℕ) :
    LoopEnds unitsLeft (ck.groupStep title level (ck.chunkLimitAt chunkTargetTokens title))
        (groupStart units) (ck.groupLoop chunkTargetTokens units title level) ∧
      ∃ splits : List Split,
        ck.groupUnitsAt chunkTargetTokens units title level = splits.map Split.units ∧
        splits.flatMap Split.fresh = units ∧ splits.IsChain Follows ∧
        (∀ sp ∈ splits.head?, sp.overlap = []) ∧
        ∀ sp ∈ splits, GroupOf ck chunkTargetTokens title sp := by
  refine ⟨loopEnds_groupLoop ck chunkTargetTokens units title level, ?_⟩
  obtain ⟨splits, hgroups, hfresh, hchain, hstart, hok⟩ :=
    groupUnitsAt_spec ck chunkTargetTokens units title level
  refine ⟨splits, hgroups, hfresh, hchain, hstart, fun sp hsp => ?_⟩
  have hsplit := hok sp hsp
  refine ⟨hsplit.heading, hsplit.fresh_ne_nil, hsplit.fits.imp (fun hfits => ?_) id⟩
  simpa [unitTokens, Chunker.chunkLimitAt] using hfits

end RagStack.Chunking
