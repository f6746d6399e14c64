import Mathlib.Data.List.Nodup
import RagStack.Api.JsonParse

/-!
# Redaction of JSON values

A value goes out with the members of its objects covered whose keys are sensitive, keys renamed,
strings and arrays cut, and objects that are too deep replaced.

* `redact_eq_of_agree`: what goes out does not depend on what is covered.
* `redact_eq_self_iff`: the values that go out as they are (`Redacted`).
* `redacted_redact`: those that went out are of them, if no key becomes sensitive only by its
  new name.
-/

namespace RagStack.Api

open RagStack.Worker (Text)

/-- What is covered, renamed and cut. -/
structure RedactionRules where
  hides : Text → Bool
  rename : Text → Text
  cover : Text
  cut : Text → Text
  maxItems : Option ℕ
  maxDepth : Option ℕ
  truncated : Text

namespace RedactionRules

variable (r : RedactionRules)

/-- The first items of an array. -/
def first (items : List Json) : List Json :=
  match r.maxItems with
  | none => items
  | some n => items.take n

/-- An object at this depth is replaced. -/
def tooDeep (depth : ℕ) : Bool := r.maxDepth.any (· ≤ depth)

mutual

/-- The value as it goes out. -/
def redact (depth : ℕ) : Json → Json
  | .str text => .str (r.cut text)
  | .arr items => .arr (r.first (redactItems (depth + 1) items))
  | .obj entries =>
    if r.tooDeep depth then .str r.truncated else jsonObject (redactEntries (depth + 1) entries)
  | .null => .null
  | .bool value => .bool value
  | .num value => .num value

def redactItems (depth : ℕ) : List Json → List Json
  | [] => []
  | item :: items => redact depth item :: redactItems depth items

def redactEntries (depth : ℕ) : List (Text × Json) → List (Text × Json)
  | [] => []
  | entry :: entries => redactEntry depth entry :: redactEntries depth entries

def redactEntry (depth : ℕ) : Text × Json → Text × Json
  | (key, value) => (r.rename key, if r.hides key then .str r.cover else redact depth value)

end

end RedactionRules

/-! ## Agreement -/

mutual

/-- The values differ under keys that are hidden at most. -/
inductive AgreeOutside (hides : Text → Bool) : Json → Json → Prop
  | same (value : Json) : AgreeOutside hides value value
  | array {items items' : List Json} (h : ItemsAgree hides items items') :
      AgreeOutside hides (.arr items) (.arr items')
  | object {entries entries' : List (Text × Json)} (h : EntriesAgree hides entries entries') :
      AgreeOutside hides (.obj entries) (.obj entries')

inductive ItemsAgree (hides : Text → Bool) : List Json → List Json → Prop
  | nil : ItemsAgree hides [] []
  | cons {item item' : Json} {items items' : List Json} (h : AgreeOutside hides item item')
      (hrest : ItemsAgree hides items items') : ItemsAgree hides (item :: items) (item' :: items')

inductive EntriesAgree (hides : Text → Bool) : List (Text × Json) → List (Text × Json) → Prop
  | nil : EntriesAgree hides [] []
  | hidden {key : Text} (value value' : Json) {entries entries' : List (Text × Json)}
      (h : hides key = true) (hrest : EntriesAgree hides entries entries') :
      EntriesAgree hides ((key, value) :: entries) ((key, value') :: entries')
  | cons {key : Text} {value value' : Json} {entries entries' : List (Text × Json)}
      (h : AgreeOutside hides value value') (hrest : EntriesAgree hides entries entries') :
      EntriesAgree hides ((key, value) :: entries) ((key, value') :: entries')

end

section Agreement

variable {r : RedactionRules}

mutual

/-- What goes out does not depend on what is covered. -/
theorem redact_eq_of_agree : ∀ {value value' : Json}, AgreeOutside r.hides value value' →
    ∀ depth, r.redact depth value = r.redact depth value'
  | _, _, .same _, _ => rfl
  | _, _, .array h, depth => by
    rw [RedactionRules.redact, redactItems_eq_of_agree h, RedactionRules.redact]
  | _, _, .object h, depth => by
    rw [RedactionRules.redact, redactEntries_eq_of_agree h, RedactionRules.redact]

theorem redactItems_eq_of_agree : ∀ {items items' : List Json}, ItemsAgree r.hides items items' →
    ∀ depth, r.redactItems depth items = r.redactItems depth items'
  | _, _, .nil, _ => rfl
  | _, _, .cons h hrest, depth => by
    rw [RedactionRules.redactItems, redact_eq_of_agree h, redactItems_eq_of_agree hrest,
      RedactionRules.redactItems]

theorem redactEntries_eq_of_agree : ∀ {entries entries' : List (Text × Json)},
    EntriesAgree r.hides entries entries' →
    ∀ depth, r.redactEntries depth entries = r.redactEntries depth entries'
  | _, _, .nil, _ => rfl
  | _, _, .hidden value value' h hrest, depth => by
    rw [RedactionRules.redactEntries, redactEntries_eq_of_agree hrest,
      RedactionRules.redactEntries, RedactionRules.redactEntry, RedactionRules.redactEntry,
      if_pos h, if_pos h]
  | _, _, .cons h hrest, depth => by
    rw [RedactionRules.redactEntries, redactEntries_eq_of_agree hrest,
      RedactionRules.redactEntries, RedactionRules.redactEntry, redact_eq_of_agree h,
      RedactionRules.redactEntry]

end

end Agreement

/-! ## Members of an object -/

section Members

variable {entries acc : List (Text × Json)}

theorem mem_setEntry {entry other : Text × Json} (h : other ∈ setEntry entries entry) :
    other ∈ entries ∨ other = entry := by
  unfold setEntry at h
  split_ifs at h
  · obtain ⟨found, hfound, rfl⟩ := List.mem_map.mp h
    split_ifs
    · exact Or.inr rfl
    · exact Or.inl hfound
  · simpa using h

theorem mem_foldl_setEntry {other : Text × Json} (h : other ∈ entries.foldl setEntry acc) :
    other ∈ acc ∨ other ∈ entries := by
  induction entries generalizing acc with
  | nil => exact Or.inl h
  | cons entry entries ih =>
    rcases ih h with hacc | hrest
    · rcases mem_setEntry hacc with hold | rfl
      · exact Or.inl hold
      · exact Or.inr List.mem_cons_self
    · exact Or.inr (List.mem_cons_of_mem _ hrest)

theorem keys_setEntry (entry : Text × Json) :
    (setEntry entries entry).map Prod.fst =
      if entries.any (·.1 = entry.1) then entries.map Prod.fst
      else entries.map Prod.fst ++ [entry.1] := by
  unfold setEntry
  split_ifs
  · rw [List.map_map]
    refine List.map_congr_left fun other _ => ?_
    by_cases hkey : other.1 = entry.1 <;> simp [hkey]
  · rw [List.map_append, List.map_singleton]

/-- The members of an object have different keys. -/
theorem nodup_keys_foldl_setEntry (h : (acc.map Prod.fst).Nodup) :
    ((entries.foldl setEntry acc).map Prod.fst).Nodup := by
  induction entries generalizing acc with
  | nil => exact h
  | cons entry entries ih =>
    refine ih ?_
    rw [keys_setEntry]
    split_ifs with hany
    · exact h
    · have hfresh : entry.1 ∉ acc.map Prod.fst := by simpa using hany
      exact List.nodup_append.mpr ⟨h, List.nodup_singleton _, fun key hkey key' hkey' heq =>
        hfresh (by rwa [← List.mem_singleton.mp hkey', ← heq])⟩

theorem length_foldl_setEntry_le :
    (entries.foldl setEntry acc).length ≤ acc.length + entries.length := by
  induction entries generalizing acc with
  | nil => exact Nat.le_refl _
  | cons entry entries ih =>
    have hset : (setEntry acc entry).length ≤ acc.length + 1 := by
      unfold setEntry
      split_ifs <;> simp
    calc _ ≤ (setEntry acc entry).length + entries.length := ih
      _ ≤ acc.length + (entry :: entries).length := by rw [List.length_cons]; omega

/-- If no member is lost, none has replaced another one. -/
theorem foldl_setEntry_of_length
    (h : (entries.foldl setEntry acc).length = acc.length + entries.length) :
    entries.foldl setEntry acc = acc ++ entries := by
  induction entries generalizing acc with
  | nil => exact (List.append_nil acc).symm
  | cons entry entries ih =>
    rw [List.foldl_cons] at h ⊢
    have hle := @length_foldl_setEntry_le entries (setEntry acc entry)
    by_cases hany : acc.any (·.1 = entry.1) = true
    · have hset : (setEntry acc entry).length = acc.length := by simp [setEntry, hany]
      rw [List.length_cons] at h
      omega
    · have hset : setEntry acc entry = acc ++ [entry] := by simp only [setEntry, hany]; rfl
      rw [ih (by rw [h, hset]; simp; omega), hset, List.append_assoc, List.singleton_append]

theorem foldl_setEntry_of_nodup (h : ((acc ++ entries).map Prod.fst).Nodup) :
    entries.foldl setEntry acc = acc ++ entries := by
  induction entries generalizing acc with
  | nil => exact (List.append_nil acc).symm
  | cons entry entries ih =>
    have hsplit : acc ++ entry :: entries = acc ++ [entry] ++ entries := by simp
    have hset : setEntry acc entry = acc ++ [entry] := by
      have hfresh : ¬ acc.any (·.1 = entry.1) = true := by
        intro hany
        obtain ⟨other, hother, heq⟩ := List.any_eq_true.mp hany
        rw [List.map_append, List.nodup_append] at h
        exact h.2.2 other.1 (List.mem_map_of_mem hother) entry.1 (by simp) (of_decide_eq_true heq)
      simp only [setEntry, hfresh]
      rfl
    rw [List.foldl_cons, hset, ih (by rw [← hsplit]; exact h), hsplit]

end Members

/-! ## What goes out as it is -/

section Fixed

variable (r : RedactionRules)

mutual

/-- Every sensitive member is covered, and nothing is left to be renamed or cut. -/
def Redacted (depth : ℕ) : Json → Prop
  | .str text => r.cut text = text
  | .arr items => r.first items = items ∧ ItemsRedacted (depth + 1) items
  | .obj entries =>
    r.tooDeep depth = false ∧ (entries.map Prod.fst).Nodup ∧ EntriesRedacted (depth + 1) entries
  | .null => True
  | .bool _ => True
  | .num _ => True

def ItemsRedacted (depth : ℕ) : List Json → Prop
  | [] => True
  | item :: items => Redacted depth item ∧ ItemsRedacted depth items

def EntriesRedacted (depth : ℕ) : List (Text × Json) → Prop
  | [] => True
  | entry :: entries => EntryRedacted depth entry ∧ EntriesRedacted depth entries

def EntryRedacted (depth : ℕ) : Text × Json → Prop
  | (key, value) =>
    r.rename key = key ∧ if r.hides key then value = .str r.cover else Redacted depth value

end

mutual

/-- No member becomes sensitive by its new key only. -/
def Unexposed : Json → Prop
  | .arr items => ItemsUnexposed items
  | .obj entries => EntriesUnexposed entries
  | .str _ => True
  | .null => True
  | .bool _ => True
  | .num _ => True

def ItemsUnexposed : List Json → Prop
  | [] => True
  | item :: items => Unexposed item ∧ ItemsUnexposed items

def EntriesUnexposed : List (Text × Json) → Prop
  | [] => True
  | entry :: entries => EntryUnexposed entry ∧ EntriesUnexposed entries

def EntryUnexposed : Text × Json → Prop
  | (key, value) =>
    if r.hides key then True else r.hides (r.rename key) = false ∧ Unexposed value

end

mutual

/-- Where keys are kept, none becomes sensitive. -/
theorem unexposed_of_rename {r : RedactionRules} (h : ∀ key, r.rename key = key) :
    ∀ value, Unexposed r value
  | .arr items => itemsUnexposed_of_rename h items
  | .obj entries => entriesUnexposed_of_rename h entries
  | .str _ => trivial
  | .null => trivial
  | .bool _ => trivial
  | .num _ => trivial

theorem itemsUnexposed_of_rename {r : RedactionRules} (h : ∀ key, r.rename key = key) :
    ∀ items, ItemsUnexposed r items
  | [] => trivial
  | item :: items => ⟨unexposed_of_rename h item, itemsUnexposed_of_rename h items⟩

theorem entriesUnexposed_of_rename {r : RedactionRules} (h : ∀ key, r.rename key = key) :
    ∀ entries, EntriesUnexposed r entries
  | [] => trivial
  | entry :: entries => ⟨entryUnexposed_of_rename h entry, entriesUnexposed_of_rename h entries⟩

theorem entryUnexposed_of_rename {r : RedactionRules} (h : ∀ key, r.rename key = key) :
    ∀ entry, EntryUnexposed r entry
  | (key, value) => by
    by_cases hkey : r.hides key = true
    · rw [EntryUnexposed, if_pos hkey]
      trivial
    · rw [EntryUnexposed, if_neg hkey, h key]
      exact ⟨by simpa using hkey, unexposed_of_rename h value⟩

end

/-- What a second redaction would do to texts and keys, it does not. -/
structure RedactionRules.Lawful : Prop where
  cut_cut : ∀ text, r.cut (r.cut text) = r.cut text
  cut_cover : r.cut r.cover = r.cover
  cut_truncated : r.cut r.truncated = r.truncated
  rename_rename : ∀ key, r.rename (r.rename key) = r.rename key

variable {r}

theorem first_eq_self_of_length {items : List Json} (h : (r.first items).length = items.length) :
    r.first items = items := by
  unfold RedactionRules.first at h ⊢
  split at h
  · rfl
  · exact List.take_of_length_le (by simpa using h.ge)

theorem first_eq_self_iff {items items' : List Json} (h : items.length = items'.length) :
    r.first items = items ↔ r.first items' = items' := by
  unfold RedactionRules.first
  cases r.maxItems with
  | none => simp
  | some n => simp [List.take_eq_self_iff, h]

theorem length_redactItems (depth : ℕ) (items : List Json) :
    (r.redactItems depth items).length = items.length := by
  induction items with
  | nil => rfl
  | cons item items ih => simp [RedactionRules.redactItems, ih]

theorem length_redactEntries (depth : ℕ) (entries : List (Text × Json)) :
    (r.redactEntries depth entries).length = entries.length := by
  induction entries with
  | nil => rfl
  | cons entry entries ih => simp [RedactionRules.redactEntries, ih]

mutual

/-- The values that go out as they are. -/
theorem redact_eq_self_iff : ∀ (value : Json) (depth : ℕ),
    r.redact depth value = value ↔ Redacted r depth value
  | .str text, depth => by simp [RedactionRules.redact, Redacted]
  | .arr items, depth => by
    have hlength := length_redactItems (r := r) (depth + 1) items
    rw [RedactionRules.redact, Redacted, Json.arr.injEq, ← redactItems_eq_self_iff,
      ← first_eq_self_iff hlength]
    constructor
    · intro h
      have hfirst := first_eq_self_of_length (r := r) (by rw [h, hlength])
      exact ⟨hfirst, hfirst.symm.trans h⟩
    · exact fun h => h.1.trans h.2
  | .obj entries, depth => by
    have hlength := length_redactEntries (r := r) (depth + 1) entries
    rw [RedactionRules.redact, Redacted, ← redactEntries_eq_self_iff]
    cases r.tooDeep depth with
    | true => simp
    | false =>
      simp only [Bool.false_eq_true, if_false, jsonObject, Json.obj.injEq, true_and]
      constructor
      · intro h
        have hkeys := @nodup_keys_foldl_setEntry (r.redactEntries (depth + 1) entries) []
          List.nodup_nil
        rw [h] at hkeys
        have hkept := @foldl_setEntry_of_length (r.redactEntries (depth + 1) entries) []
          (by rw [h, hlength]; simp)
        exact ⟨hkeys, hkept.symm.trans h⟩
      · rintro ⟨hkeys, heq⟩
        rw [heq]
        exact foldl_setEntry_of_nodup hkeys
  | .null, _ => by simp [RedactionRules.redact, Redacted]
  | .bool _, _ => by simp [RedactionRules.redact, Redacted]
  | .num _, _ => by simp [RedactionRules.redact, Redacted]

theorem redactItems_eq_self_iff : ∀ (items : List Json) (depth : ℕ),
    r.redactItems depth items = items ↔ ItemsRedacted r depth items
  | [], _ => by simp [RedactionRules.redactItems, ItemsRedacted]
  | item :: items, depth => by
    rw [RedactionRules.redactItems, ItemsRedacted, List.cons.injEq, redact_eq_self_iff item,
      redactItems_eq_self_iff items]

theorem redactEntries_eq_self_iff : ∀ (entries : List (Text × Json)) (depth : ℕ),
    r.redactEntries depth entries = entries ↔ EntriesRedacted r depth entries
  | [], _ => by simp [RedactionRules.redactEntries, EntriesRedacted]
  | entry :: entries, depth => by
    rw [RedactionRules.redactEntries, EntriesRedacted, List.cons.injEq,
      redactEntry_eq_self_iff entry, redactEntries_eq_self_iff entries]

theorem redactEntry_eq_self_iff : ∀ (entry : Text × Json) (depth : ℕ),
    r.redactEntry depth entry = entry ↔ EntryRedacted r depth entry
  | (key, value), depth => by
    rw [RedactionRules.redactEntry, EntryRedacted, Prod.mk.injEq]
    refine and_congr_right fun _ => ?_
    split_ifs
    · exact eq_comm
    · exact redact_eq_self_iff value depth

end

theorem itemsRedacted_iff {depth : ℕ} {items : List Json} :
    ItemsRedacted r depth items ↔ ∀ item ∈ items, Redacted r depth item := by
  induction items with
  | nil => simp [ItemsRedacted]
  | cons item items ih => simp [ItemsRedacted, ih]

theorem entriesRedacted_iff {depth : ℕ} {entries : List (Text × Json)} :
    EntriesRedacted r depth entries ↔ ∀ entry ∈ entries, EntryRedacted r depth entry := by
  induction entries with
  | nil => simp [EntriesRedacted]
  | cons entry entries ih => simp only [EntriesRedacted, ih, List.forall_mem_cons]

theorem first_subset (items : List Json) : r.first items ⊆ items := by
  unfold RedactionRules.first
  split
  · exact List.Subset.refl items
  · exact List.take_subset _ _

theorem first_first (items : List Json) : r.first (r.first items) = r.first items := by
  unfold RedactionRules.first
  split <;> simp

mutual

/-- What went out goes out as it is, if no member has become sensitive. -/
theorem redacted_redact (laws : r.Lawful) : ∀ (value : Json) (depth : ℕ), Unexposed r value →
    Redacted r depth (r.redact depth value)
  | .str text, _, _ => laws.cut_cut text
  | .arr items, depth, h => by
    rw [RedactionRules.redact, Redacted]
    refine ⟨first_first _, itemsRedacted_iff.mpr fun item hitem => ?_⟩
    exact itemsRedacted_iff.mp (redacted_redactItems laws items (depth + 1) h) item
      (first_subset _ hitem)
  | .obj entries, depth, h => by
    rw [RedactionRules.redact]
    split_ifs with hdeep
    · exact laws.cut_truncated
    · rw [jsonObject, Redacted]
      refine ⟨by simpa using hdeep, nodup_keys_foldl_setEntry List.nodup_nil,
        entriesRedacted_iff.mpr fun entry hentry => ?_⟩
      have hmem := (mem_foldl_setEntry hentry).resolve_left List.not_mem_nil
      exact entriesRedacted_iff.mp (redacted_redactEntries laws entries (depth + 1) h) entry hmem
  | .null, _, _ => trivial
  | .bool _, _, _ => trivial
  | .num _, _, _ => trivial

theorem redacted_redactItems (laws : r.Lawful) : ∀ (items : List Json) (depth : ℕ),
    ItemsUnexposed r items → ItemsRedacted r depth (r.redactItems depth items)
  | [], _, _ => trivial
  | item :: items, depth, h => by
    rw [RedactionRules.redactItems]
    exact ⟨redacted_redact laws item depth h.1, redacted_redactItems laws items depth h.2⟩

theorem redacted_redactEntries (laws : r.Lawful) : ∀ (entries : List (Text × Json)) (depth : ℕ),
    EntriesUnexposed r entries → EntriesRedacted r depth (r.redactEntries depth entries)
  | [], _, _ => trivial
  | entry :: entries, depth, h => by
    rw [RedactionRules.redactEntries]
    exact ⟨redacted_redactEntry laws entry depth h.1, redacted_redactEntries laws entries depth h.2⟩

theorem redacted_redactEntry (laws : r.Lawful) : ∀ (entry : Text × Json) (depth : ℕ),
    EntryUnexposed r entry → EntryRedacted r depth (r.redactEntry depth entry)
  | (key, value), depth, h => by
    rw [EntryUnexposed] at h
    rw [RedactionRules.redactEntry, EntryRedacted]
    refine ⟨laws.rename_rename key, ?_⟩
    by_cases hkey : r.hides key = true
    · -- the cover goes out as it is also under the new key
      rw [if_pos hkey]
      split_ifs
      · rfl
      · exact laws.cut_cover
    · rw [if_neg hkey] at h ⊢
      rw [if_neg (by simp [h.1])]
      exact redacted_redact laws value depth h.2

end

end Fixed

end RagStack.Api
