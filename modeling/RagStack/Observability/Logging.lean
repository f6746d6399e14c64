import RagStack.Api.Redaction
import RagStack.OpenAi.GroundedChat
import RagStack.Worker.LineGrammar

/-!
# Log lines

The record that a message leaves in the log: of the API
(`services/api/src/common/observability/json-logger.service.ts`) and of the worker
(`app/core/logging.py`). A record is the list of its members, in the order in which they were
made; writing it out is left out.

* `log_records_hide`: neither record depends on what is under a sensitive key.
-/

namespace RagStack.Observability

open RagStack.Common RagStack.Api
open RagStack.Worker (Text LineUnicode)
open RagStack.OpenAi (EcmaNumbers)

/-- The word occurs in the text. -/
def occursIn (text word : Text) : Bool := decide (word <:+: text)

/-! ## The API -/

/-- The alternatives of `SENSITIVE_KEY_PATTERN`. -/
def SENSITIVE_KEY_WORDS : List Text :=
  ["authorization".toList, "password".toList, "passwordhash".toList, "secret".toList,
    "token".toList, "apikey".toList, "api-key".toList, "api_key".toList, "s3key".toList,
    "objectkey".toList, "prompt".toList, "instructions".toList, "input".toList]

/-- `SENSITIVE_KEY_PATTERN.test(key)`: without the flag `u`, only ASCII letters match another
    letter. -/
def isSensitiveKey (key : Text) : Bool :=
  SENSITIVE_KEY_WORDS.any (occursIn (key.map Char.toLower))

/-- `replace(/([a-z0-9])([A-Z])/g, '$1_$2')`. -/
def splitCamel : Text → Text
  | c :: d :: rest =>
    if (c.isLower || c.isDigit) && d.isUpper then c :: '_' :: splitCamel (d :: rest)
    else c :: splitCamel (d :: rest)
  | text => text

/-- `toSnakeCase` (lines 97–102). -/
def toSnakeCase (uni : EcmaUnicode) (value : Text) : Text :=
  uni.toLowerCase
    (replaceMatches (runOf fun c => c == '-' || isSpace c) ['_'] (splitCamel value))

/-- The rules of `redactValue`. -/
def loggerRules (uni : EcmaUnicode) : RedactionRules where
  hides := isSensitiveKey
  rename := toSnakeCase uni
  cover := "[REDACTED]".toList
  cut := id
  maxItems := none
  maxDepth := none
  truncated := []

/-- `redactValue` (lines 80–95). -/
def redactValue (uni : EcmaUnicode) (value : Json) : Json := (loggerRules uni).redact 0 value

/-- What the methods of the logger are given: a string, an `Error`, or anything else. -/
inductive LogMessage
  | text (text : Text)
  | error (name message : Text) (stack : Option Text)
  | value (value : Json)

/-- `parseMessage` (lines 63–78). -/
def parseMessage (message : LogMessage) : LogMessage :=
  match message with
  | .text text =>
    match trim text with
    | '{' :: _ | '[' :: _ => ((jsonParse (trim text)).map LogMessage.value).getD message
    | _ => message
  | _ => message

/-- The members that `...value` copies from an object or an array. -/
def spread : Json → List (Text × Json)
  | .obj entries => entries
  | .arr items => items.mapIdx fun i item => (Nat.toDigits 10 i, item)
  | _ => []

/-- `payload` (lines 35–44). -/
def logPayload (uni : EcmaUnicode) (numbers : EcmaNumbers) (message : LogMessage) :
    List (Text × Json) :=
  match parseMessage message with
  | .error name message stack =>
    [("errorName".toList, .str name), ("message".toList, .str message)] ++
      (stack.map fun stack => ("stack".toList, Json.str stack)).toList
  | .text text => [("message".toList, .str text)]
  | .value value =>
    match value with
    | .obj _ | .arr _ => spread (redactValue uni value)
    | _ => [("message".toList, .str ((OpenAi.textOf numbers value).getD []))]

/-- What `writeStructured` reads besides the message. -/
structure LogSite where
  timestamp : Text
  level : Text
  context : Option Text
  loggerContext : Option Text
  pid : ℕ
  trace : Option Text

/-- `writeStructured` (lines 33–61): the members of the record. -/
def writeStructured (uni : EcmaUnicode) (numbers : EcmaNumbers) (site : LogSite)
    (message : LogMessage) : List (Text × Json) :=
  let base : List (Text × Json) :=
    [("timestamp".toList, .str site.timestamp), ("level".toList, .str site.level),
      ("context".toList,
        .str ((site.context.or site.loggerContext).getD "Application".toList)),
      ("pid".toList, .num site.pid)]
  let trace := (site.trace.filter (· ≠ [])).map fun trace => ("trace".toList, Json.str trace)
  (logPayload uni numbers message ++ trace.toList).foldl setEntry base

/-! ## The worker -/

/-- `SENSITIVE_KEYS`. -/
def SENSITIVE_KEYS : List Text :=
  ["authorization".toList, "password".toList, "secret".toList, "token".toList, "api_key".toList,
    "apikey".toList, "s3_key".toList, "object_key".toList, "prompt".toList, "input".toList]

/-- `any(marker in key.lower() for marker in SENSITIVE_KEYS)`. -/
def hasMarker (lu : LineUnicode) (key : Text) : Bool :=
  SENSITIVE_KEYS.any (occursIn (lu.lower key))

/-- The loop of `_to_snake_case`, behind the character `previous`. -/
def snakeCaseGo (lu : LineUnicode) : Option Char → Text → Text
  | _, [] => []
  | previous, c :: rest =>
    (if lu.isUpperText [c] && previous.any (fun p => !(['_', '-', ' '].contains p)) then ['_']
      else []) ++
    (if ['-', ' '].contains c then ['_'] else lu.lower [c]) ++ snakeCaseGo lu (some c) rest

/-- `_to_snake_case` (lines 32–41). -/
def snakeCase (lu : LineUnicode) (value : Text) : Text := snakeCaseGo lu none value

/-- The rules of `_redact` (lines 21–29). -/
def workerRules (lu : LineUnicode) : RedactionRules where
  hides := hasMarker lu
  rename := snakeCase lu
  cover := "[REDACTED]".toList
  cut := id
  maxItems := none
  maxDepth := none
  truncated := []

/-- What `format` reads of a `LogRecord`; `members` are those of its `__dict__` that are not of a
    bare record, with `None` as `null`. Their values are JSON values: `_redact` does not enter
    tuples and other objects. -/
structure LogRecord where
  levelname : Text
  name : Text
  message : Text
  members : List (Text × Json)
  excInfo : Option Text

/-- `format` (lines 49–68): the members of the payload. -/
def format (lu : LineUnicode) (timestamp : Text) (record : LogRecord) : List (Text × Json) :=
  let base : List (Text × Json) :=
    [("timestamp".toList, .str timestamp), ("level".toList, .str record.levelname),
      ("logger".toList, .str record.name), ("message".toList, .str record.message)]
  let extras := record.members.filter fun member => !OpenAi.isNull member.2
  let exception := record.excInfo.map fun text => ("exception".toList, Json.str text)
  ((workerRules lu).redactEntries 0 extras ++ exception.toList).foldl setEntry base

/-! ## What the records depend on -/

section Records

variable {uni : EcmaUnicode} {lu : LineUnicode}

/-- The payload of two values of one shape. -/
theorem logPayload_eq_of_agree {numbers : EcmaNumbers} {message message' : LogMessage}
    {value value' : Json} (h : parseMessage message = .value value)
    (h' : parseMessage message' = .value value')
    (hagree : AgreeOutside isSensitiveKey value value') :
    logPayload uni numbers message = logPayload uni numbers message' := by
  have hredacted : redactValue uni value = redactValue uni value' :=
    redact_eq_of_agree (r := loggerRules uni) hagree 0
  unfold logPayload
  rw [h, h']
  cases hagree with
  | same => rfl
  | array hitems => exact congrArg spread hredacted
  | object hentries => exact congrArg spread hredacted

end Records

/-- The record of a message that is, or is written as, a JSON value does not depend on what is
    under a sensitive key, and neither does that of the worker on what is under one, but for
    members that are `None`. -/
theorem log_records_hide (uni : EcmaUnicode) (numbers : EcmaNumbers) (lu : LineUnicode) :
    (∀ site message message' value value', parseMessage message = .value value →
      parseMessage message' = .value value' → AgreeOutside isSensitiveKey value value' →
      writeStructured uni numbers site message = writeStructured uni numbers site message') ∧
    ∀ timestamp (record : LogRecord) members',
      EntriesAgree (hasMarker lu) (record.members.filter fun member => !OpenAi.isNull member.2)
        (members'.filter fun member => !OpenAi.isNull member.2) →
      format lu timestamp record = format lu timestamp { record with members := members' } := by
  constructor
  · intro site message message' value value' h h' hagree
    simp only [writeStructured, logPayload_eq_of_agree h h' hagree]
  · intro timestamp record members' hagree
    have hredacted := redactEntries_eq_of_agree (r := workerRules lu) hagree 0
    simp only [format, hredacted]

/-- A message of the API with a password. -/
def passwordMessage (password : String) : LogMessage :=
  .value (.obj [("user".toList, .str "ann".toList), ("password".toList, .str password.toList)])

/-- Where it is written. -/
def bareSite : LogSite where
  timestamp := []
  level := "log".toList
  context := none
  loggerContext := none
  pid := 1
  trace := none

theorem log_records_hide_password :
    writeStructured .ascii .integers bareSite (passwordMessage "a") =
      writeStructured .ascii .integers bareSite (passwordMessage "b") :=
  (log_records_hide .ascii .integers .ascii).1 bareSite _ _ _ _ rfl rfl
    (.object (.cons (.same _) (.hidden _ _ (by decide +kernel) .nil)))

end RagStack.Observability
