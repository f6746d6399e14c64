import RagStack.Api.JsonParse
import RagStack.Api.Numbers
import RagStack.Chat.GroundedAnswer
import RagStack.OpenAi.Gateway

/-!
# The output of the model

`OpenAiGroundedChatService` (`services/api/src/openai/openai-grounded-chat.service.ts`):
the answer that the provider's output text stands for, if the text keeps to the schema of
the request. Tracing and the metrics are left out.

* `readsAsStatus_iff`: the status is checked as `String(parsed.status)`. Besides
  the three strings the arrays pass whose only item passes.
* `parseGroundedAnswer_eq`: on what keeps to the schema, the answer is that of
  `Chat.parseGroundedAnswer`.
* `validatorExact_iff`: the check is exact on all texts but those whose status is such an
  array.
-/

namespace RagStack.OpenAi

open RagStack.Common RagStack.Api
open RagStack.Worker (Text)
open RagStack.Chat (ChatStatus GroundedOutput trim_trim)

/-! ## Reading values -/

/-- `String(value)` of a number that is not `NaN`: it is written in digits, with a minus in
    front, or as `Infinity`. -/
structure EcmaNumbers where
  toText : ℚ → Text
  head : ∀ value, ∃ c rest, toText value = c :: rest ∧ (c.isDigit = true ∨ c = '-' ∨ c = 'I')

theorem integerText_head (value : ℤ) :
    ∃ c rest, integerText value = c :: rest ∧ (c.isDigit = true ∨ c = '-' ∨ c = 'I') := by
  unfold integerText
  split_ifs with hneg
  · exact ⟨_, _, rfl, .inr (.inl rfl)⟩
  · obtain ⟨c, rest, heq⟩ := List.exists_cons_of_ne_nil
      (Nat.toDigits_ne_nil (b := 10) (n := value.natAbs))
    refine ⟨c, rest, heq, .inl (Nat.isDigit_of_mem_toDigits (b := 10) (n := value.natAbs)
      (by decide) (by decide) ?_)⟩
    rw [heq]
    exact List.mem_cons_self

/-- The numbers rounded down: right for whole numbers. -/
def EcmaNumbers.integers : EcmaNumbers where
  toText value := integerText ⌊value⌋
  head value := integerText_head ⌊value⌋

/-- `value[name]`: `none` for a `TypeError`, `some none` for `undefined`. -/
def property (name : Text) : Json → Option (Option Json)
  | .null => none
  | .obj entries => some (entries.lookup name)
  | _ => some none

def isNull : Json → Bool
  | .null => true
  | _ => false

mutual

/-- `String(value)` of a value that `JSON.parse` made; `none` for a `TypeError`. An object
    that has a property `toString` of its own cannot be called by it. -/
def textOf (numbers : EcmaNumbers) : Json → Option Text
  | .null => some "null".toList
  | .bool value => some (if value then "true".toList else "false".toList)
  | .num value => some (numbers.toText value)
  | .str value => some value
  | .arr items => (itemTexts numbers items).map (join [','])
  | .obj entries =>
    if (entries.lookup "toString".toList).isSome then none else some "[object Object]".toList

/-- The texts that `join` puts together: that of `null` is empty. -/
def itemTexts (numbers : EcmaNumbers) : List Json → Option (List Text)
  | [] => some []
  | item :: items =>
    match (if isNull item then some [] else textOf numbers item), itemTexts numbers items with
    | some text, some texts => some (text :: texts)
    | _, _ => none

end

/-- `String(value)`, where `none` is `undefined`. -/
def stringOf (numbers : EcmaNumbers) : Option Json → Option Text
  | none => some "undefined".toList
  | some value => textOf numbers value

/-- The items, if each of them is a string. -/
def stringItems : List Json → Option (List Text)
  | [] => some []
  | .str value :: items => (stringItems items).map (value :: ·)
  | _ :: _ => none

/-- `value === text`. -/
def equalsText (text : Text) : Option Json → Bool
  | some (.str value) => value = text
  | _ => false

/-! ## The answer -/

/-- The statuses of `GROUNDED_CHAT_OUTPUT_SCHEMA`. -/
def STATUSES : List Text :=
  ["grounded".toList, "insufficient_data".toList, "out_of_scope".toList]

/-- `parsed.status as ModelAnswer["status"]`, with the other fields of a `ModelAnswer`. -/
structure ParsedAnswer where
  status : Option Json
  answer : Text
  usedChunkIds : List Text

/-- `normalizedChunkIds` (lines 238–244). -/
def normalizedChunkIds (citationLimit : ℕ) (status : Option Json) (used_chunk_ids : List Text) :
    List Text :=
  if equalsText "grounded".toList status then
    (((used_chunk_ids.map trim).filter fun chunkId => chunkId ≠ []).eraseDups).take citationLimit
  else []

/-- The error of an output text that is no answer. -/
def outputError (params : RequestInfo) (message : String) : Thrown :=
  .gateway (params.failure .chatFailed message false none)

/-- `parseGroundedAnswer` (lines 178–251). -/
def parseGroundedAnswer (numbers : EcmaNumbers) (citationLimit : ℕ) (params : RequestInfo)
    (outputText : Text) : Except Thrown ParsedAnswer :=
  match jsonParse outputText with
  | none => .error (outputError params "OpenAI returned malformed grounded output")
  | some parsed =>
    match property "status".toList parsed with
    | none => .error .other
    | some status =>
      match stringOf numbers status with
      | none => .error .other
      | some statusText =>
        if STATUSES.contains statusText = false then
          .error (outputError params "OpenAI returned invalid grounded output fields")
        else
          match property "answer".toList parsed, property "used_chunk_ids".toList parsed with
          | some (some (.str rawAnswer)), some (some (.arr items)) =>
            match stringItems items with
            | none => .error (outputError params "OpenAI returned invalid grounded output fields")
            | some used_chunk_ids =>
              let answer := trim rawAnswer
              if answer = [] then
                .error (outputError params "OpenAI returned a blank grounded answer")
              else .ok
                { status := status
                  answer := answer
                  usedChunkIds := normalizedChunkIds citationLimit status used_chunk_ids }
          | _, _ => .error (outputError params "OpenAI returned invalid grounded output fields")

/-! ## The request -/

/-- The part of `OpenAiChatModelConfig` that decides how a request ends. -/
structure OpenAiChatModelConfig where
  model : Text
  featureEnabled : Bool
  available : Bool

/-- A response of the client: the contents of the messages of its choices. -/
structure ChatCompletion where
  choices : List (Option Text)
  usage : CompletionUsage := {}

/-- `OpenAiClientResult` (openai.types.ts, lines 70–73). -/
structure OpenAiClientResult where
  attempts : ℕ
  response : ChatCompletion

/-- `GroundedAnswerResult` (openai.types.ts, lines 115–120). -/
structure GroundedAnswerResult where
  answer : ParsedAnswer
  usage : OpenAiUsage
  model : Text
  latencyMs : ℤ

/-- `String(choices[0]?.message?.content ?? "").trim()`. -/
def ChatCompletion.outputText (completion : ChatCompletion) : Text :=
  trim (completion.choices.head?.join.getD [])

/-- The body of the `try` (lines 87–148), with the time at its end. -/
def answerRequest (numbers : EcmaNumbers) (citationLimit : ℕ) (modelConfig : OpenAiChatModelConfig)
    (requestType : OpenAiRequestType) (latencyMs : ℤ)
    (completed : Except Thrown OpenAiClientResult) : Except Thrown GroundedAnswerResult :=
  match completed with
  | .error thrown => .error thrown
  | .ok result =>
    let outputText := result.response.outputText
    if outputText = [] then
      .error (.gateway
        { code := .responseEmpty
          message := "OpenAI returned an empty grounded response"
          requestType := requestType
          retryable := false
          metadata :=
            { attempts := some result.attempts, latencyMs := some latencyMs,
              model := some modelConfig.model } })
    else
      match parseGroundedAnswer numbers citationLimit
          { requestType := requestType
            latencyMs := some latencyMs
            model := some modelConfig.model }
          outputText with
      | .error thrown => .error thrown
      | .ok answer => .ok
        { answer := answer
          usage := mapUsage result.response.usage
          model := modelConfig.model
          latencyMs := latencyMs }

/-- What the `catch` throws (lines 150–174). -/
def failedRequest (modelConfig : OpenAiChatModelConfig) (requestType : OpenAiRequestType)
    (latencyMs : ℤ) (thrown : Thrown) : OpenAiGatewayError :=
  let mapped := mapOpenAiError
    { requestType := requestType, model := some modelConfig.model, latencyMs := some latencyMs }
    thrown
  { mapped with
    metadata :=
      { mapped.metadata with
        attempts := some (mapped.metadata.attempts.getD 1)
        latencyMs := some latencyMs
        model := some modelConfig.model } }

/-- `createGroundedAnswer` (lines 49–176): `completed` is what the client returns or throws,
    `latencyMs` and `failedLatencyMs` are the times of lines 110 and 150. -/
def createGroundedAnswer (numbers : EcmaNumbers) (citationLimit : ℕ)
    (modelConfig : OpenAiChatModelConfig) (requestType : OpenAiRequestType)
    (latencyMs failedLatencyMs : ℤ) (completed : Except Thrown OpenAiClientResult) :
    Except Thrown GroundedAnswerResult :=
  let refused (message : String) : Except Thrown GroundedAnswerResult := .error (.gateway
    { code := .chatFailed
      message := message
      requestType := requestType
      retryable := false
      metadata := { model := some modelConfig.model } })
  if modelConfig.featureEnabled = false then refused "Grounded chat is disabled by configuration"
  else if modelConfig.available = false then
    refused "Grounded chat is unavailable because OPENAI_API_KEY is missing"
  else
    match answerRequest numbers citationLimit modelConfig requestType latencyMs completed with
    | .error thrown =>
      .error (.gateway (failedRequest modelConfig requestType failedLatencyMs thrown))
    | .ok result => .ok result

/-! ## The check of the status -/

/-- An array whose only item is one of the statuses or again such an array. -/
inductive WrapsStatus : Json → Prop
  | status {text : Text} (h : text ∈ STATUSES) : WrapsStatus (.arr [.str text])
  | array {value : Json} (h : WrapsStatus value) : WrapsStatus (.arr [value])

/-- `String(value)` is one of the statuses. -/
def ReadsAsStatus (numbers : EcmaNumbers) (value : Json) : Prop :=
  ∃ text ∈ STATUSES, textOf numbers value = some text

/-- A status has no comma, and begins like no number. -/
theorem no_comma_of_mem_STATUSES : ∀ text ∈ STATUSES, ',' ∉ text :=
  forall_mem_of_all (by decide)

theorem head_of_mem_STATUSES :
    ∀ text ∈ STATUSES, text.head? = some 'g' ∨ text.head? = some 'i' ∨ text.head? = some 'o' :=
  forall_mem_of_all (by decide)

theorem textOf_singleton (numbers : EcmaNumbers) {value : Json} (h : isNull value = false) :
    textOf numbers (.arr [value]) = textOf numbers value := by
  simp only [textOf, itemTexts, h]
  cases textOf numbers value <;> simp

theorem exists_cons_of_itemTexts {numbers : EcmaNumbers} {item : Json} {items : List Json}
    {texts : List Text} (h : itemTexts numbers (item :: items) = some texts) :
    ∃ text more, texts = text :: more ∧ itemTexts numbers items = some more := by
  simp only [itemTexts] at h
  split at h
  case h_1 text more htext hmore =>
    cases h
    exact ⟨text, more, rfl, hmore⟩
  case h_2 => cases h

theorem not_readsAsStatus_cons_cons {numbers : EcmaNumbers} {first second : Json}
    {items : List Json} : ¬ ReadsAsStatus numbers (.arr (first :: second :: items)) := by
  rintro ⟨text, hmem, htext⟩
  obtain ⟨texts, htexts, rfl⟩ := Option.map_eq_some_iff.mp htext
  obtain ⟨text, more, rfl, hmore⟩ := exists_cons_of_itemTexts htexts
  obtain ⟨next, more, rfl, -⟩ := exists_cons_of_itemTexts hmore
  refine no_comma_of_mem_STATUSES _ hmem ?_
  simp [join_cons_cons]

theorem WrapsStatus.readsAsStatus {numbers : EcmaNumbers} {value : Json} (h : WrapsStatus value) :
    ReadsAsStatus numbers value := by
  induction h with
  | @status text h => exact ⟨text, h, textOf_singleton numbers rfl⟩
  | @array value h ih =>
    obtain ⟨text, hmem, htext⟩ := ih
    refine ⟨text, hmem, (textOf_singleton numbers ?_).trans htext⟩
    cases h <;> rfl

/-- What passes as a status is one of the strings, or an array around one. -/
theorem wraps_of_readsAsStatus {numbers : EcmaNumbers} :
    ∀ {value : Json}, ReadsAsStatus numbers value →
      (∃ text ∈ STATUSES, value = .str text) ∨ WrapsStatus value
  | .null, ⟨text, hmem, htext⟩ => by
    cases htext
    exact absurd hmem (by decide)
  | .bool value, ⟨text, hmem, htext⟩ => by
    cases value <;> cases htext <;> exact absurd hmem (by decide)
  | .num value, ⟨text, hmem, htext⟩ => by
    obtain ⟨c, rest, heq, hhead⟩ := numbers.head value
    cases htext
    have hstatus := head_of_mem_STATUSES _ hmem
    simp only [heq, List.head?_cons, Option.some.injEq] at hstatus
    obtain rfl | rfl | rfl := hstatus <;> exact absurd hhead (by decide)
  | .str value, ⟨text, hmem, htext⟩ => by
    cases htext
    exact .inl ⟨value, hmem, rfl⟩
  | .arr [], ⟨text, hmem, htext⟩ => by
    cases htext
    exact absurd hmem (by decide)
  | .arr [item], ⟨text, hmem, htext⟩ => by
    cases hnull : isNull item with
    | true =>
      simp only [textOf, itemTexts, hnull] at htext
      cases htext
      exact absurd hmem (by decide)
    | false =>
      rw [textOf_singleton numbers hnull] at htext
      obtain ⟨inner, hinner, rfl⟩ | hwraps := wraps_of_readsAsStatus ⟨text, hmem, htext⟩
      · exact .inr (.status hinner)
      · exact .inr (.array hwraps)
  | .arr (first :: second :: items), h => absurd h not_readsAsStatus_cons_cons
  | .obj entries, ⟨text, hmem, htext⟩ => by
    simp only [textOf] at htext
    split_ifs at htext
    cases htext
    exact absurd hmem (by decide)

theorem readsAsStatus_iff {numbers : EcmaNumbers} {value : Json} :
    ReadsAsStatus numbers value ↔ (∃ text ∈ STATUSES, value = .str text) ∨ WrapsStatus value := by
  refine ⟨wraps_of_readsAsStatus, ?_⟩
  rintro (⟨text, hmem, rfl⟩ | hwraps)
  · exact ⟨text, hmem, rfl⟩
  · exact hwraps.readsAsStatus

/-! ## Accepted texts -/

theorem stringItems_eq_some_iff {items : List Json} {texts : List Text} :
    stringItems items = some texts ↔ items = texts.map Json.str := by
  induction items generalizing texts with
  | nil => cases texts <;> simp [stringItems]
  | cons item items ih =>
    cases item <;> cases texts <;> simp [stringItems, ih, and_comm]

theorem property_eq_some {name : Text} {parsed value : Json}
    (h : property name parsed = some (some value)) :
    ∃ entries, parsed = .obj entries ∧ entries.lookup name = some value := by
  cases parsed <;> simp_all [property]

/-- What `undefined` is written as is no status. -/
theorem exists_readsAsStatus {numbers : EcmaNumbers} {status : Option Json} {text : Text}
    (h : stringOf numbers status = some text) (hmem : text ∈ STATUSES) :
    ∃ value, status = some value ∧ ReadsAsStatus numbers value := by
  cases status with
  | none =>
    cases h
    exact absurd hmem (by decide)
  | some value => exact ⟨value, rfl, text, hmem, h⟩

/-- The text is JSON for an object with this status, this answer and these chunk ids. -/
def HasFields (outputText : Text) (status : Json) (answer : Text) (used_chunk_ids : List Text) :
    Prop :=
  ∃ entries, IsJson outputText (.obj entries) ∧
    entries.lookup "status".toList = some status ∧
    entries.lookup "answer".toList = some (.str answer) ∧
    entries.lookup "used_chunk_ids".toList = some (.arr (used_chunk_ids.map Json.str))

section

variable {numbers : EcmaNumbers} {citationLimit : ℕ} {params : RequestInfo} {outputText : Text}

theorem HasFields.unique {status status' : Json} {answer answer' : Text} {ids ids' : List Text}
    (h : HasFields outputText status answer ids) (h' : HasFields outputText status' answer' ids') :
    status = status' ∧ answer = answer' := by
  obtain ⟨entries, hjson, hstatus, hanswer, -⟩ := h
  obtain ⟨entries', hjson', hstatus', hanswer', -⟩ := h'
  have hsame := (jsonParse_eq_some_iff.mpr hjson).symm.trans (jsonParse_eq_some_iff.mpr hjson')
  cases hsame
  rw [hstatus] at hstatus'
  rw [hanswer] at hanswer'
  cases hstatus'
  cases hanswer'
  exact ⟨rfl, rfl⟩

/-- An object with these fields comes as far as the check of the answer. -/
theorem parseGroundedAnswer_fields {status : Json} {answer : Text} {ids : List Text}
    (h : HasFields outputText status answer ids) (hstatus : ReadsAsStatus numbers status) :
    parseGroundedAnswer numbers citationLimit params outputText =
      if trim answer = [] then
        .error (outputError params "OpenAI returned a blank grounded answer")
      else .ok
        { status := some status
          answer := trim answer
          usedChunkIds := normalizedChunkIds citationLimit (some status) ids } := by
  obtain ⟨entries, hjson, hfield, hfield', hfield''⟩ := h
  obtain ⟨text, hmem, htext⟩ := hstatus
  have hcontains : STATUSES.contains text = true := List.contains_iff_mem.mpr hmem
  simp only [parseGroundedAnswer, jsonParse_eq_some_iff.mpr hjson, property, hfield, hfield',
    hfield'', stringOf, htext, hcontains, Bool.true_eq_false, if_false,
    stringItems_eq_some_iff.mpr rfl]

theorem fields_of_parseGroundedAnswer {answer : ParsedAnswer}
    (h : parseGroundedAnswer numbers citationLimit params outputText = .ok answer) :
    ∃ status rawAnswer ids, HasFields outputText status rawAnswer ids ∧
      ReadsAsStatus numbers status ∧ trim rawAnswer ≠ [] ∧
      answer =
        { status := some status
          answer := trim rawAnswer
          usedChunkIds := normalizedChunkIds citationLimit (some status) ids } := by
  unfold parseGroundedAnswer at h
  split at h
  case h_1 => cases h
  case h_2 parsed hparsed =>
    split at h
    case h_1 => cases h
    case h_2 status hstatus =>
      split at h
      case h_1 => cases h
      case h_2 statusText hstatusText =>
        split_ifs at h with hmem
        split at h
        case h_2 => cases h
        case h_1 rawAnswer items hanswer hitems =>
          split at h
          case h_1 => cases h
          case h_2 ids hids =>
            simp only at h
            split_ifs at h with hblank
            cases h
            obtain ⟨value, rfl, hreads⟩ := exists_readsAsStatus hstatusText
              (List.contains_iff_mem.mp (eq_true_of_ne_false hmem))
            obtain ⟨entries, rfl, hfield⟩ := property_eq_some hstatus
            obtain ⟨_, heq, hfield'⟩ := property_eq_some hanswer
            obtain ⟨_, heq', hfield''⟩ := property_eq_some hitems
            cases heq
            cases heq'
            obtain rfl := stringItems_eq_some_iff.mp hids
            exact ⟨value, rawAnswer, ids, ⟨entries, jsonParse_eq_some_iff.mp hparsed, hfield,
              hfield', hfield''⟩, hreads, hblank, rfl⟩

/-- A status as the output names it. -/
def statusText : ChatStatus → Text
  | .grounded => "grounded".toList
  | .insufficientData => "insufficient_data".toList
  | .outOfScope => "out_of_scope".toList

theorem statusText_mem (status : ChatStatus) : statusText status ∈ STATUSES := by
  cases status <;> decide

/-- A text that keeps to the schema is read as the fields that it spells. -/
theorem parseGroundedAnswer_eq {parsed : GroundedOutput}
    (h : HasFields outputText (.str (statusText parsed.status)) parsed.answer
      parsed.used_chunk_ids) :
    parseGroundedAnswer numbers citationLimit params outputText =
      match Chat.parseGroundedAnswer citationLimit parsed with
      | none => .error (outputError params "OpenAI returned a blank grounded answer")
      | some answer => .ok
        { status := some (.str (statusText answer.status))
          answer := answer.answer
          usedChunkIds := answer.usedChunkIds } := by
  have hreads : ReadsAsStatus numbers (.str (statusText parsed.status)) :=
    ⟨_, statusText_mem parsed.status, rfl⟩
  have hgrounded : equalsText "grounded".toList (some (.str (statusText parsed.status))) =
      decide (parsed.status = .grounded) := by
    cases parsed.status <;> rfl
  rw [parseGroundedAnswer_fields h hreads]
  by_cases hblank : trim parsed.answer = []
  · simp only [Chat.parseGroundedAnswer, hblank, if_true]
  · simp only [Chat.parseGroundedAnswer, hblank, if_false, normalizedChunkIds, hgrounded,
      decide_eq_true_eq]

/-! ## The schema -/

/-- The text is JSON for an object whose status is one of the three strings, whose answer is
    a string that is not blank and whose chunk ids are strings. -/
def DeclaredSchema (outputText : Text) : Prop :=
  ∃ status answer used_chunk_ids, status ∈ STATUSES ∧ trim answer ≠ [] ∧
    HasFields outputText (.str status) answer used_chunk_ids

/-- The status is an array around one of the strings, and the rest keeps to the schema. -/
def SlipsThrough (outputText : Text) : Prop :=
  ∃ status answer used_chunk_ids, WrapsStatus status ∧ trim answer ≠ [] ∧
    HasFields outputText status answer used_chunk_ids

/-- What the schema promises of an answer that is read from the text. -/
structure AnswerExact (citationLimit : ℕ) (outputText : Text) (answer : ParsedAnswer) : Prop where
  status : ∃ status ∈ STATUSES, answer.status = some (.str status)
  trimmed : ∀ chunkId ∈ answer.usedChunkIds, trim chunkId = chunkId
  nonempty : ∀ chunkId ∈ answer.usedChunkIds, chunkId ≠ []
  distinct : answer.usedChunkIds.Nodup
  order : ∃ status rawAnswer used_chunk_ids,
    HasFields outputText status rawAnswer used_chunk_ids ∧
    (∀ chunkId ∈ answer.usedChunkIds, chunkId ∈ used_chunk_ids.map trim) ∧
    answer.usedChunkIds.Pairwise fun first second =>
      (used_chunk_ids.map trim).idxOf first < (used_chunk_ids.map trim).idxOf second
  limit : answer.usedChunkIds.length ≤ citationLimit
  ungrounded : answer.status ≠ some (.str "grounded".toList) → answer.usedChunkIds = []

/-- The validator accepts exactly the declared schema. -/
structure ValidatorExact (numbers : EcmaNumbers) (citationLimit : ℕ) (outputText : Text) :
    Prop where
  accepts : ∀ params,
    (∃ answer, parseGroundedAnswer numbers citationLimit params outputText = .ok answer) ↔
      DeclaredSchema outputText
  returned : ∀ params answer,
    parseGroundedAnswer numbers citationLimit params outputText = .ok answer →
      AnswerExact citationLimit outputText answer
  refuses : ¬ DeclaredSchema outputText →
    ∀ modelConfig requestType latencyMs failedLatencyMs result,
      result.response.outputText = outputText →
      ∃ error, createGroundedAnswer numbers citationLimit modelConfig requestType latencyMs
        failedLatencyMs (.ok result) = .error (.gateway error)

theorem mem_normalizedChunkIds {status : Option Json} {ids : List Text} {chunkId : Text}
    (h : chunkId ∈ normalizedChunkIds citationLimit status ids) :
    chunkId ∈ ids.map trim ∧ chunkId ≠ [] := by
  unfold normalizedChunkIds at h
  split_ifs at h
  · simpa using List.mem_eraseDups.mp (List.mem_of_mem_take h)
  · cases h

theorem pairwise_normalizedChunkIds (status : Option Json) (ids : List Text) :
    (normalizedChunkIds citationLimit status ids).Pairwise fun first second =>
      (ids.map trim).idxOf first < (ids.map trim).idxOf second := by
  unfold normalizedChunkIds
  split_ifs
  · have hdedup := pairwise_idxOf_eraseDups ((ids.map trim).filter fun chunkId => chunkId ≠ [])
    refine (hdedup.imp_of_mem fun hfirst hsecond hlt => ?_).sublist (List.take_sublist _ _)
    have hkept : ∀ {chunkId},
        chunkId ∈ ((ids.map trim).filter fun chunkId => chunkId ≠ []).eraseDups →
        decide (chunkId ≠ []) = true :=
      fun h => (List.mem_filter.mp (List.mem_eraseDups.mp h)).2
    exact idxOf_lt_of_filter (hkept hfirst) (hkept hsecond) hlt
  · exact .nil

theorem answerExact_of_fields {status : Text} {rawAnswer : Text} {ids : List Text}
    (hstatus : status ∈ STATUSES) (h : HasFields outputText (.str status) rawAnswer ids) :
    AnswerExact citationLimit outputText
      { status := some (.str status)
        answer := trim rawAnswer
        usedChunkIds := normalizedChunkIds citationLimit (some (.str status)) ids } where
  status := ⟨status, hstatus, rfl⟩
  trimmed chunkId hmem := by
    obtain ⟨raw, -, rfl⟩ := List.mem_map.mp (mem_normalizedChunkIds hmem).1
    exact trim_trim raw
  nonempty chunkId hmem := (mem_normalizedChunkIds hmem).2
  distinct := (pairwise_normalizedChunkIds _ ids).imp fun hlt heq => by
    rw [heq] at hlt
    exact absurd hlt (Nat.lt_irrefl _)
  order := ⟨.str status, rawAnswer, ids, h, fun _ hmem => (mem_normalizedChunkIds hmem).1,
    pairwise_normalizedChunkIds _ ids⟩
  limit := by
    unfold normalizedChunkIds
    split_ifs
    · exact List.length_take_le _ _
    · exact Nat.zero_le _
  ungrounded hne := by
    refine if_neg fun hgrounded => hne ?_
    rw [of_decide_eq_true hgrounded]

/-- An error that is thrown in a request reaches the caller as a gateway error. -/
theorem createGroundedAnswer_of_error {modelConfig : OpenAiChatModelConfig}
    {requestType : OpenAiRequestType} {latencyMs failedLatencyMs : ℤ}
    {completed : Except Thrown OpenAiClientResult} {thrown : Thrown}
    (h : answerRequest numbers citationLimit modelConfig requestType latencyMs completed =
      .error thrown) :
    ∃ error, createGroundedAnswer numbers citationLimit modelConfig requestType latencyMs
      failedLatencyMs completed = .error (.gateway error) := by
  unfold createGroundedAnswer
  split_ifs
  · exact ⟨_, rfl⟩
  · exact ⟨_, rfl⟩
  · rw [h]
    exact ⟨_, rfl⟩

/-- A text that is no answer makes the request fail. -/
theorem exists_error_answerRequest {modelConfig : OpenAiChatModelConfig}
    {requestType : OpenAiRequestType} {latencyMs : ℤ} {result : OpenAiClientResult}
    (h : ∀ params answer, parseGroundedAnswer numbers citationLimit params
      result.response.outputText ≠ .ok answer) :
    ∃ thrown, answerRequest numbers citationLimit modelConfig requestType latencyMs (.ok result) =
      .error thrown := by
  simp only [answerRequest]
  split_ifs
  · exact ⟨_, rfl⟩
  · split
    case h_1 thrown hparse => exact ⟨thrown, rfl⟩
    case h_2 answer hparse => exact absurd hparse (h _ _)

theorem accepts_iff :
    (∃ answer, parseGroundedAnswer numbers citationLimit params outputText = .ok answer) ↔
      DeclaredSchema outputText ∨ SlipsThrough outputText := by
  constructor
  · rintro ⟨answer, h⟩
    obtain ⟨status, rawAnswer, ids, hfields, hreads, hne, -⟩ := fields_of_parseGroundedAnswer h
    obtain ⟨text, hmem, rfl⟩ | hwraps := readsAsStatus_iff.mp hreads
    · exact .inl ⟨text, rawAnswer, ids, hmem, hne, hfields⟩
    · exact .inr ⟨status, rawAnswer, ids, hwraps, hne, hfields⟩
  · rintro (⟨text, _, _, hmem, hne, hfields⟩ | ⟨_, _, _, hwraps, hne, hfields⟩)
    · have hreads : ReadsAsStatus numbers (.str text) :=
        readsAsStatus_iff.mpr (.inl ⟨text, hmem, rfl⟩)
      exact ⟨_, (parseGroundedAnswer_fields hfields hreads).trans (if_neg hne)⟩
    · have hreads : ReadsAsStatus numbers _ := readsAsStatus_iff.mpr (.inr hwraps)
      exact ⟨_, (parseGroundedAnswer_fields hfields hreads).trans (if_neg hne)⟩

theorem not_declaredSchema_of_slipsThrough (h : SlipsThrough outputText) :
    ¬ DeclaredSchema outputText := by
  rintro ⟨text, _, _, -, -, hfields'⟩
  obtain ⟨status, _, _, hwraps, -, hfields⟩ := h
  cases (hfields.unique hfields').1
  cases hwraps

theorem not_validatorExact_of_slipsThrough (h : SlipsThrough outputText) :
    ¬ ValidatorExact numbers citationLimit outputText := by
  intro hexact
  exact not_declaredSchema_of_slipsThrough h
    ((hexact.accepts { requestType := .groundedChat }).mp (accepts_iff.mpr (.inr h)))

/-- The answer of such a text has a status that equals no string, and names no chunk even
    where the array says `grounded`. -/
theorem answer_of_slipsThrough (h : SlipsThrough outputText) {answer : ParsedAnswer}
    (hparse : parseGroundedAnswer numbers citationLimit params outputText = .ok answer) :
    (∀ text, equalsText text answer.status = false) ∧ answer.usedChunkIds = [] := by
  obtain ⟨status, rawAnswer, ids, hwraps, hne, hfields⟩ := h
  rw [parseGroundedAnswer_fields hfields hwraps.readsAsStatus, if_neg hne] at hparse
  cases hparse
  have hnever : ∀ text, equalsText text (some status) = false := fun text => by
    cases hwraps <;> rfl
  refine ⟨hnever, if_neg ?_⟩
  rw [hnever]
  exact Bool.false_ne_true

theorem validatorExact_iff :
    ValidatorExact numbers citationLimit outputText ↔ ¬ SlipsThrough outputText := by
  constructor
  · exact fun hexact hslips => not_validatorExact_of_slipsThrough hslips hexact
  · intro hslips
    have haccepts : ∀ params,
        (∃ answer, parseGroundedAnswer numbers citationLimit params outputText = .ok answer) ↔
          DeclaredSchema outputText :=
      fun params => accepts_iff.trans (or_iff_left hslips)
    refine ⟨haccepts, fun params answer h => ?_, fun hschema => ?_⟩
    · obtain ⟨status, rawAnswer, ids, hfields, hreads, hne, rfl⟩ := fields_of_parseGroundedAnswer h
      obtain ⟨text, hmem, rfl⟩ | hwraps := readsAsStatus_iff.mp hreads
      · exact answerExact_of_fields hmem hfields
      · exact absurd ⟨status, rawAnswer, ids, hwraps, hne, hfields⟩ hslips
    · intro modelConfig requestType latencyMs failedLatencyMs result htext
      have hnone : ∀ params answer, parseGroundedAnswer numbers citationLimit params
          result.response.outputText ≠ .ok answer :=
        fun params answer h => hschema ((haccepts params).mp ⟨answer, htext ▸ h⟩)
      obtain ⟨thrown, hthrown⟩ := exists_error_answerRequest hnone
      exact createGroundedAnswer_of_error hthrown

end

/-- The status of the schema, but in an array. -/
def slippedOutput : Text :=
  "\x7b\"status\":[\"grounded\"],\"answer\":\"x\",\"used_chunk_ids\":[]\x7d".toList

def slippedTokens : List JsonToken :=
  [.openBrace,
    .str "status".toList, .colon, .openBracket, .str "grounded".toList, .closeBracket, .comma,
    .str "answer".toList, .colon, .str "x".toList, .comma,
    .str "used_chunk_ids".toList, .colon, .openBracket, .closeBracket,
    .closeBrace]

theorem isJson_slippedOutput :
    IsJson slippedOutput (jsonObject
      [("status".toList, .arr [.str "grounded".toList]), ("answer".toList, .str "x".toList),
        ("used_chunk_ids".toList, .arr [])]) := by
  have hstatus : Spells (.value (.arr [.str "grounded".toList]))
      [.openBracket, .str "grounded".toList, .closeBracket] := .array (.lastItem (.literal rfl))
  have hanswer : Spells (.value (.str "x".toList)) [.str "x".toList] := .literal rfl
  exact ⟨slippedTokens, by decide +kernel,
    .object (.member hstatus (.member hanswer (.lastMember .emptyArray)))⟩

/-- The text is accepted, though its status is no string. -/
theorem slippedOutput_accepted : ¬ ValidatorExact EcmaNumbers.integers 3 slippedOutput :=
  not_validatorExact_of_slipsThrough
    ⟨.arr [.str "grounded".toList], "x".toList, [], .status (by decide), by decide,
      _, isJson_slippedOutput, rfl, rfl, rfl⟩

end RagStack.OpenAi
