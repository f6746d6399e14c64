import Mathlib.Data.List.Perm.Subperm
import RagStack.Access.Authorization
import RagStack.Api.Numbers
import RagStack.Common.Loop

/-!
# Creating a knowledge base

`services/api/src/knowledge-bases/knowledge-bases.service.ts`: `create` and
`generateUniqueSlug`, with `kb-slug.ts`.

* `slugTaken_generateUniqueSlug`: the loop of `generateUniqueSlug` ends, with a
  slug that is free.
-/

namespace RagStack.Access

open RagStack.Common RagStack.Api
open RagStack.Worker (Text)
open RagStack.Ingest (Id Time)

/-- `[^a-z0-9]`. -/
def isSlugBreak (c : Char) : Bool := !(c.isLower || c.isDigit)

/-- `slugifyKnowledgeBaseName` (kb-slug.ts). -/
def slugifyKnowledgeBaseName (uni : EcmaUnicode) (value : Text) : Text :=
  let dashed := replaceMatches (runOf isSlugBreak) ['-'] (uni.toLowerCase (trim value))
  let normalized := strip (fun c => c == '-') dashed
  if normalized = [] then "knowledge-base".toList else normalized

/-- A knowledge base has this slug; the column is of type `citext`. -/
def slugTaken (db : Database) (slug : Text) : Bool :=
  db.knowledgeBases.rows.any fun kb => foldCase kb.slug = foldCase slug

/-- The candidate and the next suffix of `generateUniqueSlug`. -/
structure SlugSearch where
  candidate : Text
  suffix : ℕ := 2

/-- `` `${baseSlug}-${suffix}` ``. -/
def suffixed (baseSlug : Text) (suffix : ℕ) : Text := baseSlug ++ '-' :: (toString suffix).toList

/-- `generateUniqueSlug` (lines 219–232). -/
def generateUniqueSlug (uni : EcmaUnicode) (db : Database) (name : Text) : Text :=
  let baseSlug := slugifyKnowledgeBaseName uni name
  (whileLoop (fun s => db.knowledgeBases.rows.length + 2 - s.suffix)
    (fun s => slugTaken db s.candidate)
    (fun s => { candidate := suffixed baseSlug s.suffix, suffix := s.suffix + 1 })
    ({ candidate := baseSlug } : SlugSearch)).candidate

/-- `CreateKnowledgeBaseDto`. -/
structure CreateKnowledgeBaseDto where
  name : Text
  description : Option Text := none
  visibility : KbVisibility := .private
deriving DecidableEq, Repr

/-- `create` (lines 23–49) under the UUID `kbId`: the knowledge base and its owner
    are one nested write; `none` when a constraint refuses it. -/
def create (uni : EcmaUnicode) (user : AuthenticatedUser) (dto : CreateKnowledgeBaseDto)
    (kbId : Id) (now : Time) (db : Database) : Option (Database × KnowledgeBase) := do
  let kb : KnowledgeBase :=
    { id := kbId, slug := generateUniqueSlug uni db dto.name, name := dto.name,
      description := dto.description, visibility := dto.visibility, createdAt := now,
      updatedAt := now }
  let owner : KbMember := { kbId := kbId, userId := user.id, role := .owner, createdAt := now }
  guard ((db.users.get? user.id).isSome ∧ slugTaken db kb.slug = false)
  let knowledgeBases ← db.knowledgeBases.insert? kb
  let members ← db.members.insert? owner
  return ({ db with knowledgeBases := knowledgeBases, members := members }, kb)

/-! ## The search for a slug -/

theorem toLower_of_isDigit {c : Char} (h : c.isDigit = true) : c.toLower = c := by
  have hrange : 48 ≤ c.toNat ∧ c.toNat ≤ 57 := by
    simpa [Char.isDigit, UInt32.le_iff_toNat_le] using h
  refine dif_neg ?_
  show ¬ (65 ≤ c.toNat ∧ c.toNat ≤ 90)
  omega

/-- The candidates of `generateUniqueSlug`, in the order in which they are tried. -/
def slugCandidate (baseSlug : Text) : ℕ → Text
  | 0 => baseSlug
  | k + 1 => suffixed baseSlug (k + 2)

/-- No two candidates are equal up to case. -/
theorem foldCase_slugCandidate_injective (baseSlug : Text) :
    Function.Injective fun k => foldCase (slugCandidate baseSlug k) := by
  have hdigits : ∀ k : ℕ, foldCase (toString k).toList = Nat.toDigits 10 k := by
    intro k
    rw [show toString k = k.repr from rfl, Nat.toList_repr, foldCase]
    refine (List.map_congr_left fun c hc => ?_).trans (List.map_id _)
    exact toLower_of_isDigit (Nat.isDigit_of_mem_toDigits (by decide) (by decide) hc)
  have hsuffixed : ∀ k, foldCase (suffixed baseSlug k) =
      foldCase baseSlug ++ '-' :: Nat.toDigits 10 k := by
    intro k
    rw [← hdigits]
    simp [suffixed, foldCase]
  have hbase : ∀ k, foldCase baseSlug ≠ foldCase (suffixed baseSlug k) := by
    intro k h
    have hlen := congrArg List.length h
    rw [hsuffixed] at hlen
    simp at hlen
  intro m n h
  simp only at h
  rcases m with _ | m <;> rcases n with _ | n
  · rfl
  · exact absurd h (hbase _)
  · exact absurd h.symm (hbase _)
  · rw [slugCandidate, slugCandidate, hsuffixed, hsuffixed] at h
    have htail := (List.cons.inj (List.append_cancel_left h)).2
    have := toDigits_injective htail
    omega

/-- At most as many candidates are taken as there are knowledge bases. -/
theorem length_le_of_slugTaken {db : Database} {baseSlug : Text} {k : ℕ}
    (h : ∀ j < k, slugTaken db (slugCandidate baseSlug j) = true) :
    k ≤ db.knowledgeBases.rows.length := by
  have hnodup : ((List.range k).map fun j => foldCase (slugCandidate baseSlug j)).Nodup :=
    List.nodup_range.map (foldCase_slugCandidate_injective baseSlug)
  have hsub : ((List.range k).map fun j => foldCase (slugCandidate baseSlug j)) ⊆
      db.knowledgeBases.rows.map fun kb => foldCase kb.slug := by
    intro slug hslug
    obtain ⟨j, hj, rfl⟩ := List.mem_map.mp hslug
    obtain ⟨kb, hkb, hsame⟩ := List.any_eq_true.mp (h j (List.mem_range.mp hj))
    exact List.mem_map.mpr ⟨kb, hkb, of_decide_eq_true hsame⟩
  simpa using (List.subperm_of_subset hnodup hsub).length_le

/-- The search is at its candidate `k`, and the earlier ones were taken. -/
def Tried (db : Database) (baseSlug : Text) (s : SlugSearch) : Prop :=
  ∃ k, s.candidate = slugCandidate baseSlug k ∧ s.suffix = k + 2 ∧
    ∀ j < k, slugTaken db (slugCandidate baseSlug j) = true

/-- A taken candidate leads to the next one; there are not more of them than
    knowledge bases. -/
theorem Tried.next {db : Database} {baseSlug : Text} {s : SlugSearch} (h : Tried db baseSlug s)
    (hcond : slugTaken db s.candidate = true) :
    Tried db baseSlug { candidate := suffixed baseSlug s.suffix, suffix := s.suffix + 1 } ∧
      db.knowledgeBases.rows.length + 2 - (s.suffix + 1) <
        db.knowledgeBases.rows.length + 2 - s.suffix := by
  obtain ⟨k, hcandidate, hsuffix, htaken⟩ := h
  have htaken' : ∀ j < k + 1, slugTaken db (slugCandidate baseSlug j) = true := by
    intro j hj
    rcases Nat.lt_succ_iff_lt_or_eq.mp hj with hj | rfl
    · exact htaken j hj
    · rwa [← hcandidate]
  have hbound := length_le_of_slugTaken htaken'
  refine ⟨⟨k + 1, ?_, ?_, htaken'⟩, by omega⟩
  · rw [hsuffix]
    rfl
  · show s.suffix + 1 = k + 1 + 2
    omega

/-- The loop of `generateUniqueSlug` ends with a slug that no knowledge base has. -/
theorem slugTaken_generateUniqueSlug (uni : EcmaUnicode) (db : Database) (name : Text) :
    slugTaken db (generateUniqueSlug uni db name) = false := by
  have hstart : Tried db (slugifyKnowledgeBaseName uni name)
      { candidate := slugifyKnowledgeBaseName uni name } :=
    ⟨0, rfl, rfl, fun j hj => absurd hj (Nat.not_lt_zero j)⟩
  exact (@whileLoop_rule _ _ _ _ (Tried db (slugifyKnowledgeBaseName uni name))
    (fun _ h hcond => h.next hcond) _ hstart).2

end RagStack.Access
