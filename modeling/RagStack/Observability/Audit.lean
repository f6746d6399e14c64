import RagStack.Api.Redaction
import RagStack.Chat.SnippetLength

/-!
# The audit log

`services/api/src/common/audit/audit.service.ts`: the row that an action leaves, with its metadata
sanitized.

* `redacted_iff_sanitized`: the values that go out as they are, in the numbers of the source.
* `audit_payload`: a payload does not depend on what is under a redacted key, and the payloads are
  exactly the values with every such member redacted, texts of at most 200 units, arrays of at
  most 20 items and no object below the second level.
-/

namespace RagStack.Observability

open RagStack.Api
open RagStack.Worker (Text)
open RagStack.Chat (unitsBefore utf16Length_unitsBefore_le utf16Length_append)

/-! ## Sanitizing -/

def REDACTED_KEYS : List Text :=
  ["password".toList, "passwordhash".toList, "token".toList, "accesstoken".toList,
    "refreshtoken".toList, "secret".toList, "authorization".toList, "content".toList]

/-- A long text is cut at its 197th unit (lines 77–79). -/
def cutText (text : Text) : Text :=
  if 200 < utf16Length text then unitsBefore 197 text ++ "...".toList else text

/-- `sanitizeMetadata` of what is there (lines 73–99). -/
def auditRules (uni : EcmaUnicode) : RedactionRules where
  hides key := REDACTED_KEYS.contains (uni.toLowerCase key)
  rename := id
  cover := "[redacted]".toList
  cut := cutText
  maxItems := some 20
  maxDepth := some 2
  truncated := "[truncated]".toList

/-- `sanitizeMetadata` (lines 68–99); `none` is `undefined`. No key of the metadata is
    `__proto__`, which an assignment does not make a member. -/
def sanitizeMetadata (uni : EcmaUnicode) (metadata : Option Json) : Json :=
  match metadata with
  | none => .obj []
  | some metadata => (auditRules uni).redact 0 metadata

/-! ## Rows -/

/-- `AuditLogInput`. -/
structure AuditLogInput where
  actorId : Option Ingest.Id
  action : String
  entityType : String
  entityId : String
  kbId : Option Ingest.Id := none
  metadata : Option Json := none

/-- The input for the arguments one by one (lines 47–53). -/
def AuditLogInput.ofArguments (actorId : Option Ingest.Id)
    (entityType entityId action : Option String) (payload : Option Json) : AuditLogInput where
  actorId := actorId
  action := action.getD "UNKNOWN"
  entityType := entityType.getD "UnknownEntity"
  entityId := entityId.getD "unknown-entity-id"
  metadata := payload

/-- A row of the audit log. -/
structure AuditLog where
  actorId : Option Ingest.Id
  entityType : String
  entityId : String
  action : String
  kbId : Option Ingest.Id
  payload : Json

/-- `logAction` (lines 36–66): the row that is created. -/
def logAction (uni : EcmaUnicode) (input : AuditLogInput) : AuditLog where
  actorId := input.actorId
  entityType := input.entityType
  entityId := input.entityId
  action := input.action
  kbId := input.kbId
  payload := sanitizeMetadata uni input.metadata

/-! ## Payloads -/

section Sanitized

variable (uni : EcmaUnicode)

mutual

/-- Texts of at most 200 units, arrays of at most 20 items, no object below the second level, and
    every member with a redacted key covered. -/
def Sanitized (depth : ℕ) : Json → Prop
  | .str text => utf16Length text ≤ 200
  | .arr items => items.length ≤ 20 ∧ ItemsSanitized (depth + 1) items
  | .obj entries =>
    depth < 2 ∧ (entries.map Prod.fst).Nodup ∧ EntriesSanitized (depth + 1) entries
  | .null => True
  | .bool _ => True
  | .num _ => True

def ItemsSanitized (depth : ℕ) : List Json → Prop
  | [] => True
  | item :: items => Sanitized depth item ∧ ItemsSanitized depth items

def EntriesSanitized (depth : ℕ) : List (Text × Json) → Prop
  | [] => True
  | entry :: entries => EntrySanitized depth entry ∧ EntriesSanitized depth entries

def EntrySanitized (depth : ℕ) : Text × Json → Prop
  | (key, value) =>
    if REDACTED_KEYS.contains (uni.toLowerCase key) then value = .str "[redacted]".toList
    else Sanitized depth value

end

end Sanitized

theorem cutText_eq_self_iff {text : Text} : cutText text = text ↔ utf16Length text ≤ 200 := by
  unfold cutText
  split_ifs with hlong
  · refine iff_of_false (fun heq => ?_) (Nat.not_le.mpr hlong)
    have hcut := utf16Length_unitsBefore_le text 197
    have hdots : utf16Length "...".toList = 3 := rfl
    rw [← heq, utf16Length_append, hdots] at hlong
    omega
  · exact iff_of_true rfl (Nat.not_lt.mp hlong)

theorem cutText_cutText (text : Text) : cutText (cutText text) = cutText text := by
  rw [cutText_eq_self_iff]
  unfold cutText
  split_ifs with hlong
  · have hcut := utf16Length_unitsBefore_le text 197
    have hdots : utf16Length "...".toList = 3 := rfl
    rw [utf16Length_append, hdots]
    omega
  · exact Nat.not_lt.mp hlong

theorem lawful_auditRules (uni : EcmaUnicode) : (auditRules uni).Lawful where
  cut_cut := cutText_cutText
  cut_cover := rfl
  cut_truncated := rfl
  rename_rename _ := rfl

mutual

/-- The rules leave a value as it is if it is sanitized. -/
theorem redacted_iff_sanitized (uni : EcmaUnicode) : ∀ (value : Json) (depth : ℕ),
    Redacted (auditRules uni) depth value ↔ Sanitized uni depth value
  | .str text, depth => by
    rw [Redacted, Sanitized]
    exact cutText_eq_self_iff
  | .arr items, depth => by
    rw [Redacted, Sanitized, itemsRedacted_iff_sanitized uni items]
    exact and_congr_left fun _ => List.take_eq_self_iff items
  | .obj entries, depth => by
    rw [Redacted, Sanitized, entriesRedacted_iff_sanitized uni entries]
    refine and_congr_left fun _ => ?_
    simp [RedactionRules.tooDeep, auditRules]
  | .null, _ => by rw [Redacted, Sanitized]
  | .bool _, _ => by rw [Redacted, Sanitized]
  | .num _, _ => by rw [Redacted, Sanitized]

theorem itemsRedacted_iff_sanitized (uni : EcmaUnicode) : ∀ (items : List Json) (depth : ℕ),
    ItemsRedacted (auditRules uni) depth items ↔ ItemsSanitized uni depth items
  | [], _ => by rw [ItemsRedacted, ItemsSanitized]
  | item :: items, depth => by
    rw [ItemsRedacted, ItemsSanitized, redacted_iff_sanitized uni item,
      itemsRedacted_iff_sanitized uni items]

theorem entriesRedacted_iff_sanitized (uni : EcmaUnicode) :
    ∀ (entries : List (Text × Json)) (depth : ℕ),
      EntriesRedacted (auditRules uni) depth entries ↔ EntriesSanitized uni depth entries
  | [], _ => by rw [EntriesRedacted, EntriesSanitized]
  | entry :: entries, depth => by
    rw [EntriesRedacted, EntriesSanitized, entryRedacted_iff_sanitized uni entry,
      entriesRedacted_iff_sanitized uni entries]

theorem entryRedacted_iff_sanitized (uni : EcmaUnicode) : ∀ (entry : Text × Json) (depth : ℕ),
    EntryRedacted (auditRules uni) depth entry ↔ EntrySanitized uni depth entry
  | (key, value), depth => by
    rw [EntryRedacted, EntrySanitized, ← redacted_iff_sanitized uni value]
    exact and_iff_right rfl

end

theorem sanitized_sanitizeMetadata (uni : EcmaUnicode) (metadata : Option Json) :
    Sanitized uni 0 (sanitizeMetadata uni metadata) := by
  rw [← redacted_iff_sanitized]
  cases metadata with
  | none => exact ⟨rfl, List.nodup_nil, trivial⟩
  | some metadata =>
    exact redacted_redact (lawful_auditRules uni) metadata 0 (unexposed_of_rename (fun _ => rfl) _)

/-- A payload does not depend on what is under a redacted key. The payloads are the values that
    are sanitized already, and such a value is stored as it is. -/
theorem audit_payload (uni : EcmaUnicode) :
    (∀ (input : AuditLogInput) metadata metadata',
      AgreeOutside (auditRules uni).hides metadata metadata' →
      logAction uni { input with metadata := some metadata } =
        logAction uni { input with metadata := some metadata' }) ∧
    (∀ payload, (∃ input, (logAction uni input).payload = payload) ↔ Sanitized uni 0 payload) ∧
    ∀ (input : AuditLogInput) payload, Sanitized uni 0 payload →
      (logAction uni { input with metadata := some payload }).payload = payload := by
  have hself : ∀ payload, Sanitized uni 0 payload →
      sanitizeMetadata uni (some payload) = payload := fun payload h =>
    (redact_eq_self_iff payload 0).mpr ((redacted_iff_sanitized uni payload 0).mpr h)
  refine ⟨fun input metadata metadata' hagree => ?_, fun payload => ⟨?_, fun h => ?_⟩,
    fun input payload h => hself payload h⟩
  · simp only [logAction, sanitizeMetadata, redact_eq_of_agree hagree 0]
  · rintro ⟨input, rfl⟩
    exact sanitized_sanitizeMetadata uni input.metadata
  · exact ⟨.ofArguments none none none none (some payload), hself payload h⟩

/-- What a user has sent with a token. -/
def tokenInput (token : String) : AuditLogInput where
  actorId := none
  action := "LOGIN"
  entityType := "User"
  entityId := "1"
  metadata := some (.obj [("Token".toList, .str token.toList)])

theorem audit_payload_token :
    logAction .ascii (tokenInput "a") = logAction .ascii (tokenInput "b") :=
  (audit_payload .ascii).1 (tokenInput "a") _ _
    (.object (.hidden _ _ (by decide +kernel) .nil))

end RagStack.Observability
