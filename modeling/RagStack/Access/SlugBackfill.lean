import Mathlib.Data.Prod.Lex
import RagStack.Access.KnowledgeBases
import RagStack.Common.Lines
import RagStack.Common.Lists
import RagStack.Common.Rank

/-!
# The slugs of the phase 7 migration

`prisma/migrations/20260404210000_phase7_schema_hardening/migration.sql`, lines 19–47
and 61–62: knowledge bases without a slug get one made of their name, with a row
number behind it from the second knowledge base of one base slug on.

* `backfilledSlugs_nodup_iff`: the unique index can be created if and only if no
  numbered slug is the base slug of another knowledge base.
-/

namespace RagStack.Access

open RagStack.Common RagStack.Api
open RagStack.Worker (Text)
open RagStack.Ingest (Id Time)

/-- The columns of `KnowledgeBase` that the `UPDATE` reads. -/
structure ExistingKb where
  id : Id
  name : Text
  createdAt : Time
deriving DecidableEq, Repr

/-- `TRIM(BOTH '-' FROM regexp_replace(lower(name), '[^a-z0-9]+', '-', 'g'))`. -/
def trimmedSlug (lower : Text → Text) (name : Text) : Text :=
  strip (fun c => c == '-') (replaceMatches (runOf isSlugBreak) ['-'] (lower name))

/-- `base_slug` (lines 22–28). -/
def baseSlug (lower : Text → Text) (name : Text) : Text :=
  (if trimmedSlug lower name = [] then "knowledge-base".toList else trimmedSlug lower name).take 48

/-- `ORDER BY kb."createdAt", kb."id"`. -/
def backfillOrder (kb : ExistingKb) : Time ×ₗ Id := toLex (kb.createdAt, kb.id)

/-- The rows of one partition. -/
def slugPartition (lower : Text → Text) (kbs : List ExistingKb) (base : Text) : List ExistingKb :=
  kbs.filter fun kb => baseSlug lower kb.name = base

/-- `slug_rank` (lines 29–38). -/
def slugRank (lower : Text → Text) (kbs : List ExistingKb) (kb : ExistingKb) : ℕ :=
  rankBy backfillOrder (slugPartition lower kbs (baseSlug lower kb.name)) kb

/-- The slug that the `UPDATE` sets (lines 41–45). -/
def backfilledSlug (lower : Text → Text) (kbs : List ExistingKb) (kb : ExistingKb) : Text :=
  if slugRank lower kbs kb = 1 then baseSlug lower kb.name
  else suffixed (baseSlug lower kb.name) (slugRank lower kbs kb)

/-- `CREATE UNIQUE INDEX "KnowledgeBase_slug_key"` succeeds: the column is of type `citext`. -/
def SlugIndexCreated (lower : Text → Text) (kbs : Table ExistingKb ExistingKb.id) : Prop :=
  (kbs.rows.map fun kb => foldCase (backfilledSlug lower kbs.rows kb)).Nodup

/-! ## Slugs -/

variable {lower : Text → Text}

/-- A character of a slug is its own lower case. -/
def IsSlugText (slug : Text) : Prop := ∀ c ∈ slug, c = '-' ∨ isSlugBreak c = false

theorem foldCase_of_isSlugText {slug : Text} (h : IsSlugText slug) : foldCase slug = slug := by
  refine (List.map_congr_left fun c hc => ?_).trans (List.map_id _)
  rcases h c hc with rfl | hkept
  · rfl
  · refine dif_neg ?_
    show ¬ (65 ≤ c.toNat ∧ c.toNat ≤ 90)
    have hval : c.toNat = c.val.toNat := rfl
    have hranges : (97 ≤ c.val.toNat ∧ c.val.toNat ≤ 122) ∨
        48 ≤ c.val.toNat ∧ c.val.toNat ≤ 57 := by
      delta isSlugBreak Char.isLower Char.isDigit at hkept
      simp only [Bool.not_eq_false', Bool.or_eq_true, Bool.and_eq_true, decide_eq_true_eq,
        ge_iff_le, UInt32.le_iff_toNat_le] at hkept
      exact hkept
    omega

theorem isSlugText_baseSlug (name : Text) : IsSlugText (baseSlug lower name) := by
  intro c hc
  unfold baseSlug at hc
  have hmem := List.mem_of_mem_take hc
  split_ifs at hmem
  · exact forall_mem_of_all (p := fun c => c = '-' ∨ isSlugBreak c = false) (by decide) c hmem
  · have hdashed := (isInfix_strip _ _).subset hmem
    rcases mem_replaceMatches_runOf hdashed with ⟨-, hkept⟩ | hdash
    · exact Or.inr hkept
    · exact Or.inl (by simpa using hdash)

theorem isSlugText_suffixed {base : Text} (h : IsSlugText base) (k : ℕ) :
    IsSlugText (suffixed base k) := by
  intro c hc
  rcases List.mem_append.mp hc with hc | hc
  · exact h c hc
  rcases List.mem_cons.mp hc with rfl | hc
  · exact Or.inl rfl
  · right
    rw [show toString k = k.repr from rfl, Nat.toList_repr] at hc
    simp [isSlugBreak, Nat.isDigit_of_mem_toDigits (by decide) (by decide) hc]

/-- The last dash of a numbered slug is the one before its number. -/
theorem suffixed_injective {base base' : Text} {k k' : ℕ}
    (h : suffixed base k = suffixed base' k') : base = base' ∧ k = k' := by
  have hdash (n : ℕ) : '-' ∉ (toString n).toList := by
    intro hmem
    rw [show toString n = n.repr from rfl, Nat.toList_repr] at hmem
    have hdigit := Nat.isDigit_of_mem_toDigits (by decide) (by decide) hmem
    revert hdigit
    decide
  rcases append_cons_cases h with ⟨hbase, hnumber⟩ | ⟨mid, -, hnumber⟩ | ⟨mid, -, hnumber⟩
  · refine ⟨hbase, toDigits_injective ?_⟩
    rwa [show toString k = k.repr from rfl, show toString k' = k'.repr from rfl, Nat.toList_repr,
      Nat.toList_repr] at hnumber
  · exact absurd (hnumber ▸ by simp) (hdash k)
  · exact absurd (hnumber ▸ by simp) (hdash k')

theorem suffixed_ne (base : Text) (k : ℕ) : suffixed base k ≠ base := by
  intro h
  have hlength := congrArg List.length h
  simp [suffixed] at hlength

/-! ## The partitions -/

variable {kbs : Table ExistingKb ExistingKb.id}

theorem backfillOrder_nodup (kbs : Table ExistingKb ExistingKb.id) :
    (kbs.rows.map backfillOrder).Nodup := by
  refine List.Nodup.of_map (fun order => (ofLex order).2) ?_
  rw [List.map_map]
  exact kbs.keys_nodup

theorem slugPartition_nodup (kbs : Table ExistingKb ExistingKb.id) (base : Text) :
    ((slugPartition lower kbs.rows base).map backfillOrder).Nodup :=
  (backfillOrder_nodup kbs).sublist (List.filter_sublist.map _)

theorem mem_slugPartition {rows : List ExistingKb} {base : Text} {kb : ExistingKb} :
    kb ∈ slugPartition lower rows base ↔ kb ∈ rows ∧ baseSlug lower kb.name = base := by
  simp [slugPartition]

/-- Two knowledge bases of one partition have different ranks. -/
theorem eq_of_slugRank {kb other : ExistingKb} (hkb : kb ∈ kbs.rows) (hother : other ∈ kbs.rows)
    (hbase : baseSlug lower kb.name = baseSlug lower other.name)
    (hrank : slugRank lower kbs.rows kb = slugRank lower kbs.rows other) : kb = other := by
  unfold slugRank at hrank
  rw [hbase] at hrank
  have horder := rankBy_injOn (slugPartition_nodup kbs _) (mem_slugPartition.mpr ⟨hkb, hbase⟩)
    (mem_slugPartition.mpr ⟨hother, rfl⟩) hrank
  exact List.inj_on_of_nodup_map (backfillOrder_nodup kbs) hkb hother horder

theorem slugRank_pos (rows : List ExistingKb) (kb : ExistingKb) : 1 ≤ slugRank lower rows kb :=
  Nat.le_add_left 1 _

theorem slugRank_le {rows : List ExistingKb} {kb : ExistingKb} (h : kb ∈ rows) :
    slugRank lower rows kb ≤ (slugPartition lower rows (baseSlug lower kb.name)).length :=
  rankBy_le (mem_slugPartition.mpr ⟨h, rfl⟩)

/-- The ranks of a partition are `1, …, n`. -/
theorem exists_slugRank {base : Text} {k : ℕ} (hpos : 1 ≤ k)
    (hk : k ≤ (slugPartition lower kbs.rows base).length) :
    ∃ kb ∈ kbs.rows, baseSlug lower kb.name = base ∧ slugRank lower kbs.rows kb = k := by
  obtain ⟨kb, hmem, hrank⟩ := exists_rankBy (slugPartition_nodup kbs base) hpos hk
  obtain ⟨hkb, rfl⟩ := mem_slugPartition.mp hmem
  exact ⟨kb, hkb, rfl, hrank⟩

/-! ## The index -/

theorem isSlugText_backfilledSlug (rows : List ExistingKb) (kb : ExistingKb) :
    IsSlugText (backfilledSlug lower rows kb) := by
  unfold backfilledSlug
  split_ifs
  · exact isSlugText_baseSlug kb.name
  · exact isSlugText_suffixed (isSlugText_baseSlug kb.name) _

/-- The slugs have no upper case, so that `citext` compares them as they are. -/
theorem slugIndexCreated_iff : SlugIndexCreated lower kbs ↔
    ∀ kb ∈ kbs.rows, ∀ other ∈ kbs.rows,
      backfilledSlug lower kbs.rows kb = backfilledSlug lower kbs.rows other → kb = other := by
  have hfold : (fun kb => foldCase (backfilledSlug lower kbs.rows kb)) =
      backfilledSlug lower kbs.rows :=
    funext fun kb => foldCase_of_isSlugText (isSlugText_backfilledSlug kbs.rows kb)
  rw [SlugIndexCreated, hfold]
  constructor
  · intro hnodup kb hkb other hother heq
    exact List.inj_on_of_nodup_map hnodup hkb hother heq
  · intro hinj
    exact (List.Nodup.of_map _ kbs.keys_nodup).map_on hinj

/-- The slug `base-k` of the knowledge base of rank `k` is the base slug of another one. -/
def NumberedSlugTaken (lower : Text → Text) (kbs : Table ExistingKb ExistingKb.id) : Prop :=
  ∃ base k, 2 ≤ k ∧ k ≤ (slugPartition lower kbs.rows base).length ∧
    ∃ other ∈ kbs.rows, baseSlug lower other.name = suffixed base k

/-- Only the numbered slug of one partition meets the base slug of another: by the
    last dash, numbered slugs determine their partition and their rank. -/
theorem backfilledSlug_inj (h : ¬ NumberedSlugTaken lower kbs) {kb other : ExistingKb}
    (hkb : kb ∈ kbs.rows) (hother : other ∈ kbs.rows)
    (heq : backfilledSlug lower kbs.rows kb = backfilledSlug lower kbs.rows other) :
    kb = other := by
  have htaken {first second : ExistingKb} (hfirst : first ∈ kbs.rows) (hsecond : second ∈ kbs.rows)
      (hrank : slugRank lower kbs.rows first ≠ 1)
      (hslug : suffixed (baseSlug lower first.name) (slugRank lower kbs.rows first) =
        baseSlug lower second.name) : NumberedSlugTaken lower kbs := by
    have hpos : 1 ≤ slugRank lower kbs.rows first := slugRank_pos _ _
    exact ⟨_, _, by omega, slugRank_le hfirst, second, hsecond, hslug.symm⟩
  unfold backfilledSlug at heq
  split_ifs at heq with hone hone' hone'
  · exact eq_of_slugRank hkb hother heq (hone.trans hone'.symm)
  · exact absurd (htaken hother hkb hone' heq.symm) h
  · exact absurd (htaken hkb hother hone heq) h
  · obtain ⟨hbase, hrank⟩ := suffixed_injective heq
    exact eq_of_slugRank hkb hother hbase hrank

/-- A base slug that is a numbered slug of another partition is set twice. -/
theorem not_slugIndexCreated (h : NumberedSlugTaken lower kbs) : ¬ SlugIndexCreated lower kbs := by
  obtain ⟨base, k, htwo, hk, other, hother, hslug⟩ := h
  obtain ⟨kb, hkb, hbase, hrank⟩ := exists_slugRank (by omega : 1 ≤ k) hk
  have hfirst : 1 ≤ (slugPartition lower kbs.rows (suffixed base k)).length :=
    List.length_pos_of_mem (mem_slugPartition.mpr ⟨hother, hslug⟩)
  obtain ⟨first, hfirst, hfirstBase, hfirstRank⟩ := exists_slugRank le_rfl hfirst
  rw [slugIndexCreated_iff]
  intro hinj
  have hsame : kb = first := by
    refine hinj kb hkb first hfirst ?_
    rw [backfilledSlug, backfilledSlug, if_pos hfirstRank, if_neg (by omega), hfirstBase, hbase,
      hrank]
  rw [← hsame, hbase] at hfirstBase
  exact suffixed_ne base k hfirstBase.symm

/-- The unique index can be created if and only if no numbered slug is the base slug
    of another knowledge base. -/
theorem backfilledSlugs_nodup_iff (lower : Text → Text) (kbs : Table ExistingKb ExistingKb.id) :
    SlugIndexCreated lower kbs ↔ ¬ NumberedSlugTaken lower kbs := by
  constructor
  · exact fun hindex htaken => not_slugIndexCreated htaken hindex
  · exact fun htaken => slugIndexCreated_iff.mpr fun _ hkb _ hother heq =>
      backfilledSlug_inj htaken hkb hother heq

/-- Three knowledge bases with the names "A", "A" and "A 2". -/
def numberedNames : Table ExistingKb ExistingKb.id where
  rows := [{ id := 1, name := "A".toList, createdAt := 1 },
    { id := 2, name := "A".toList, createdAt := 2 },
    { id := 3, name := "A 2".toList, createdAt := 3 }]
  keys_nodup := by decide

/-- Their slugs are "a", "a-2" and "a-2". -/
theorem backfilledSlugs_numberedNames :
    ¬ ∀ kbs : Table ExistingKb ExistingKb.id, SlugIndexCreated (List.map Char.toLower) kbs := by
  intro h
  have hindex := h numberedNames
  revert hindex
  unfold SlugIndexCreated
  decide +kernel

end RagStack.Access
