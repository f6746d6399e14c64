import RagStack.Api.Basic

/-!
# JSON text

`JSON.parse` of a text: the text is cut into tokens (`lex`), and the tokens are read by
recursive descent (`parseValue`).

* `Spells part tokens` — the grammar: the tokens spell the value, the items of an
  array or the members of an object. Any tokens may stand next to each other in `lex`;
  it is the grammar that refuses `01` or `truefalse`, as two values in a row.
* `jsonParse_eq_some_iff`: `jsonParse` reads exactly the texts whose tokens spell a
  value, and returns that value.

A number is its decimal value, not yet rounded. The half of a surrogate pair that an
escape leaves alone is written U+FFFD.
-/

namespace RagStack.Api

open RagStack.Worker (Text)

/-! ## Tokens -/

/-- A token of the JSON grammar; a string is held with its escapes read. -/
inductive JsonToken
  | openBrace
  | closeBrace
  | openBracket
  | closeBracket
  | colon
  | comma
  | null
  | bool (value : Bool)
  | num (value : ℚ)
  | str (value : Text)
deriving DecidableEq

/-- White space between two tokens. -/
def isJsonSpace (c : Char) : Bool := c = '\t' ∨ c = '\n' ∨ c = '\r' ∨ c = ' '

/-- The UTF-16 units of a character. -/
def unitsOf (c : Char) : List ℕ :=
  if c.toNat < 0x10000 then [c.toNat]
  else [0xD800 + (c.toNat - 0x10000) / 0x400, 0xDC00 + (c.toNat - 0x10000) % 0x400]

/-- The text of a list of UTF-16 units. -/
def textOfUnits : List ℕ → Text
  | [] => []
  | [unit] => [if 0xD800 ≤ unit ∧ unit < 0xE000 then '\uFFFD' else Char.ofNat unit]
  | unit :: next :: units =>
    if 0xD800 ≤ unit ∧ unit < 0xDC00 ∧ 0xDC00 ≤ next ∧ next < 0xE000 then
      Char.ofNat (0x10000 + (unit - 0xD800) * 0x400 + (next - 0xDC00)) :: textOfUnits units
    else
      (if 0xD800 ≤ unit ∧ unit < 0xE000 then '\uFFFD' else Char.ofNat unit) ::
        textOfUnits (next :: units)

/-- The value of a hexadecimal digit. -/
def hexValue (c : Char) : Option ℕ :=
  if '0' ≤ c ∧ c ≤ '9' then some (c.toNat - '0'.toNat)
  else if 'a' ≤ c ∧ c ≤ 'f' then some (c.toNat - 'a'.toNat + 10)
  else if 'A' ≤ c ∧ c ≤ 'F' then some (c.toNat - 'A'.toNat + 10)
  else none

/-- The character that a backslash and `c` stand for. -/
def unescape (c : Char) : Option Char :=
  (['"', '\\', '/', 'b', 'f', 'n', 'r', 't'].zip
    ['"', '\\', '/', '\x08', '\x0c', '\n', '\r', '\t']).lookup c

/-- The rest of a string literal, behind the opening quote: its UTF-16 units and the
    text behind the closing quote. -/
def readString : Text → Option (List ℕ × Text)
  | [] => none
  | '\\' :: 'u' :: a :: b :: c :: d :: text => do
    let unit := (← hexValue a) * 4096 + (← hexValue b) * 256 + (← hexValue c) * 16 +
      (← hexValue d)
    let (units, rest) ← readString text
    return (unit :: units, rest)
  | '\\' :: c :: text => do
    let char ← unescape c
    let (units, rest) ← readString text
    return (unitsOf char ++ units, rest)
  | c :: text =>
    if c = '"' then some ([], text)
    else if c = '\\' ∨ c.toNat < 0x20 then none
    else do
      let (units, rest) ← readString text
      return (unitsOf c ++ units, rest)

/-- The digits that `text` begins with, and the rest. -/
def readDigits (text : Text) : Text × Text :=
  (text.takeWhile Char.isDigit, text.dropWhile Char.isDigit)

/-- The whole part of a number: `0`, or digits that do not begin with `0`. -/
def readWhole (text : Text) : Option (ℕ × Text) :=
  match text with
  | '0' :: rest => some (0, rest)
  | _ =>
    let (digits, rest) := readDigits text
    if digits = [] then none else some (Nat.ofDigitChars 10 digits 0, rest)

/-- `(\.\d+)?`. -/
def readFraction (text : Text) : ℚ × Text :=
  match text with
  | '.' :: behind =>
    let (digits, rest) := readDigits behind
    if digits = [] then (0, text)
    else ((Nat.ofDigitChars 10 digits 0 : ℚ) / 10 ^ digits.length, rest)
  | _ => (0, text)

/-- `([eE][+-]?\d+)?`; the factor that it stands for. -/
def readExponent (text : Text) : ℚ × Text :=
  match text with
  | [] => (1, text)
  | mark :: behind =>
    if mark = 'e' ∨ mark = 'E' then
      let (digits, rest) :=
        readDigits (if behind.head? = some '+' ∨ behind.head? = some '-' then behind.tail
          else behind)
      let factor : ℚ := 10 ^ Nat.ofDigitChars 10 digits 0
      if digits = [] then (1, text)
      else (if behind.head? = some '-' then 1 / factor else factor, rest)
    else (1, text)

/-- A number: `-?(0|[1-9]\d*)(\.\d+)?([eE][+-]?\d+)?`. -/
def readNumber (text : Text) : Option (ℚ × Text) := do
  let negative := text.head? = some '-'
  let (whole, rest) ← readWhole (if negative then text.tail else text)
  let (fraction, rest) := readFraction rest
  let (factor, rest) := readExponent rest
  let value := (whole + fraction) * factor
  return (if negative then -value else value, rest)

/-- The token that `text` begins with, and the text behind it. -/
def readToken (text : Text) : Option (JsonToken × Text) :=
  match text with
  | '{' :: rest => some (.openBrace, rest)
  | '}' :: rest => some (.closeBrace, rest)
  | '[' :: rest => some (.openBracket, rest)
  | ']' :: rest => some (.closeBracket, rest)
  | ':' :: rest => some (.colon, rest)
  | ',' :: rest => some (.comma, rest)
  | '"' :: rest => (readString rest).map fun (units, rest) => (.str (textOfUnits units), rest)
  | 'n' :: 'u' :: 'l' :: 'l' :: rest => some (.null, rest)
  | 't' :: 'r' :: 'u' :: 'e' :: rest => some (.bool true, rest)
  | 'f' :: 'a' :: 'l' :: 's' :: 'e' :: rest => some (.bool false, rest)
  | _ => (readNumber text).map fun (value, rest) => (.num value, rest)

/-- The loop of `lex`; `skip` is what is left of the current token. -/
def lexGo (skip : ℕ) : Text → Option (List JsonToken)
  | [] => some []
  | c :: text =>
    match skip with
    | k + 1 => lexGo k text
    | 0 =>
      if isJsonSpace c then lexGo 0 text
      else
        match readToken (c :: text) with
        | none => none
        | some (token, rest) => (lexGo (text.length - rest.length) text).map (token :: ·)

/-- The tokens of a text. -/
def lex (text : Text) : Option (List JsonToken) := lexGo 0 text

/-! ## The grammar -/

/-- The value of a token that is a value on its own. -/
def JsonToken.literal : JsonToken → Option Json
  | .null => some .null
  | .bool value => some (.bool value)
  | .num value => some (.num value)
  | .str value => some (.str value)
  | _ => none

/-- A member of an object is read: a key that is there already keeps its place and takes
    the new value. -/
def setEntry (entries : List (Text × Json)) (entry : Text × Json) : List (Text × Json) :=
  if entries.any (·.1 = entry.1) then
    entries.map fun other => if other.1 = entry.1 then entry else other
  else entries ++ [entry]

/-- The object with the given members, in the order of the text. -/
def jsonObject (members : List (Text × Json)) : Json := .obj (members.foldl setEntry [])

/-- What a list of tokens may spell: a value, the items of an array that is not empty, or
    the members of an object that is not empty. -/
inductive JsonPart
  | value (value : Json)
  | items (items : List Json)
  | members (members : List (Text × Json))

/-- The grammar of JSON. -/
inductive Spells : JsonPart → List JsonToken → Prop
  | literal {token : JsonToken} {value : Json} (h : token.literal = some value) :
      Spells (.value value) [token]
  | emptyArray : Spells (.value (.arr [])) [.openBracket, .closeBracket]
  | array {items : List Json} {tokens : List JsonToken} (h : Spells (.items items) tokens) :
      Spells (.value (.arr items)) (.openBracket :: (tokens ++ [.closeBracket]))
  | emptyObject : Spells (.value (jsonObject [])) [.openBrace, .closeBrace]
  | object {members : List (Text × Json)} {tokens : List JsonToken}
      (h : Spells (.members members) tokens) :
      Spells (.value (jsonObject members)) (.openBrace :: (tokens ++ [.closeBrace]))
  | lastItem {value : Json} {tokens : List JsonToken} (h : Spells (.value value) tokens) :
      Spells (.items [value]) tokens
  | item {value : Json} {items : List Json} {tokens more : List JsonToken}
      (h : Spells (.value value) tokens) (hmore : Spells (.items items) more) :
      Spells (.items (value :: items)) (tokens ++ .comma :: more)
  | lastMember {key : Text} {value : Json} {tokens : List JsonToken}
      (h : Spells (.value value) tokens) :
      Spells (.members [(key, value)]) (.str key :: .colon :: tokens)
  | member {key : Text} {value : Json} {members : List (Text × Json)}
      {tokens more : List JsonToken} (h : Spells (.value value) tokens)
      (hmore : Spells (.members members) more) :
      Spells (.members ((key, value) :: members)) (.str key :: .colon :: (tokens ++ .comma :: more))

/-! ## The parser -/

mutual

/-- A value at the start of the tokens, and the tokens behind it. -/
def parseValue : ℕ → List JsonToken → Option (Json × List JsonToken)
  | 0, _ => none
  | n + 1, tokens =>
    match tokens with
    | [] => none
    | .openBracket :: .closeBracket :: rest => some (.arr [], rest)
    | .openBracket :: tokens =>
      (parseItems n tokens).map fun (items, rest) => (.arr items, rest)
    | .openBrace :: .closeBrace :: rest => some (jsonObject [], rest)
    | .openBrace :: tokens =>
      (parseMembers n tokens).map fun (members, rest) => (jsonObject members, rest)
    | token :: rest => token.literal.map fun value => (value, rest)

/-- The items of an array up to its closing bracket, and the tokens behind that. -/
def parseItems : ℕ → List JsonToken → Option (List Json × List JsonToken)
  | 0, _ => none
  | n + 1, tokens =>
    match parseValue n tokens with
    | some (value, .closeBracket :: rest) => some ([value], rest)
    | some (value, .comma :: more) =>
      (parseItems n more).map fun (items, rest) => (value :: items, rest)
    | _ => none

/-- The members of an object up to its closing brace, and the tokens behind that. -/
def parseMembers : ℕ → List JsonToken → Option (List (Text × Json) × List JsonToken)
  | 0, _ => none
  | n + 1, tokens =>
    match tokens with
    | .str key :: .colon :: tokens =>
      match parseValue n tokens with
      | some (value, .closeBrace :: rest) => some ([(key, value)], rest)
      | some (value, .comma :: more) =>
        (parseMembers n more).map fun (members, rest) => ((key, value) :: members, rest)
      | _ => none
    | _ => none

end

/-- `JSON.parse(text)`; `none` for a `SyntaxError`. Every call spends a token or goes from a
    bracket to its first item, so the number of tokens is enough. -/
def jsonParse (text : Text) : Option Json :=
  match lex text with
  | none => none
  | some tokens =>
    match parseValue tokens.length tokens with
    | some (value, []) => some value
    | _ => none

/-! ## What is parsed is spelled -/

/-- What one call with fuel `n` takes from the front of the tokens spells what it returns. -/
structure ParseSound (n : ℕ) : Prop where
  value : ∀ {tokens value rest}, parseValue n tokens = some (value, rest) →
    ∃ used, tokens = used ++ rest ∧ Spells (.value value) used
  items : ∀ {tokens items rest}, parseItems n tokens = some (items, rest) →
    ∃ used, tokens = used ++ .closeBracket :: rest ∧ Spells (.items items) used
  members : ∀ {tokens members rest}, parseMembers n tokens = some (members, rest) →
    ∃ used, tokens = used ++ .closeBrace :: rest ∧ Spells (.members members) used

theorem parseSound_zero : ParseSound 0 where
  value h := by simp [parseValue] at h
  items h := by simp [parseItems] at h
  members h := by simp [parseMembers] at h

theorem spells_of_parseValue {n : ℕ} (ih : ParseSound n) {tokens : List JsonToken} {value : Json}
    {rest : List JsonToken} (h : parseValue (n + 1) tokens = some (value, rest)) :
    ∃ used, tokens = used ++ rest ∧ Spells (.value value) used := by
  unfold parseValue at h
  dsimp only at h
  split at h
  case h_1 => cases h
  case h_2 behind =>
    cases h
    exact ⟨_, rfl, .emptyArray⟩
  case h_3 tokens hnonempty =>
    obtain ⟨⟨items, behind⟩, hitems, heq⟩ := Option.map_eq_some_iff.1 h
    cases heq
    obtain ⟨used, rfl, hused⟩ := ih.items hitems
    exact ⟨_, by simp, .array hused⟩
  case h_4 behind =>
    cases h
    exact ⟨_, rfl, .emptyObject⟩
  case h_5 tokens hnonempty =>
    obtain ⟨⟨members, behind⟩, hmembers, heq⟩ := Option.map_eq_some_iff.1 h
    cases heq
    obtain ⟨used, rfl, hused⟩ := ih.members hmembers
    exact ⟨_, by simp, .object hused⟩
  case h_6 token behind hbracket hbrace =>
    obtain ⟨literal, hliteral, heq⟩ := Option.map_eq_some_iff.1 h
    cases heq
    exact ⟨_, rfl, .literal hliteral⟩

theorem spells_of_parseItems {n : ℕ} (ih : ParseSound n) {tokens : List JsonToken}
    {items : List Json} {rest : List JsonToken}
    (h : parseItems (n + 1) tokens = some (items, rest)) :
    ∃ used, tokens = used ++ .closeBracket :: rest ∧ Spells (.items items) used := by
  unfold parseItems at h
  split at h
  case h_1 value behind hvalue =>
    cases h
    obtain ⟨used, rfl, hused⟩ := ih.value hvalue
    exact ⟨used, rfl, .lastItem hused⟩
  case h_2 value more hvalue =>
    obtain ⟨⟨items', behind⟩, hitems, heq⟩ := Option.map_eq_some_iff.1 h
    cases heq
    obtain ⟨used, rfl, hused⟩ := ih.value hvalue
    obtain ⟨used', rfl, hused'⟩ := ih.items hitems
    exact ⟨_, by simp, .item hused hused'⟩
  case h_3 => cases h

theorem spells_of_parseMembers {n : ℕ} (ih : ParseSound n) {tokens : List JsonToken}
    {members : List (Text × Json)} {rest : List JsonToken}
    (h : parseMembers (n + 1) tokens = some (members, rest)) :
    ∃ used, tokens = used ++ .closeBrace :: rest ∧ Spells (.members members) used := by
  unfold parseMembers at h
  dsimp only at h
  split at h
  case h_1 key behind =>
    split at h
    case h_1 value behind hvalue =>
      cases h
      obtain ⟨used, rfl, hused⟩ := ih.value hvalue
      exact ⟨_, by simp, .lastMember hused⟩
    case h_2 value more hvalue =>
      obtain ⟨⟨members', behind⟩, hmembers, heq⟩ := Option.map_eq_some_iff.1 h
      cases heq
      obtain ⟨used, rfl, hused⟩ := ih.value hvalue
      obtain ⟨used', rfl, hused'⟩ := ih.members hmembers
      exact ⟨_, by simp, .member hused hused'⟩
    case h_3 => cases h
  case h_2 => cases h

theorem parseSound (n : ℕ) : ParseSound n := by
  induction n with
  | zero => exact parseSound_zero
  | succ n ih =>
    exact ⟨spells_of_parseValue ih, spells_of_parseItems ih, spells_of_parseMembers ih⟩

/-! ## What is spelled is parsed -/

/-- The first token of a part neither closes an array nor an object. -/
theorem Spells.exists_cons {part : JsonPart} {tokens : List JsonToken} (h : Spells part tokens) :
    ∃ token more, tokens = token :: more ∧ token ≠ .closeBracket ∧ token ≠ .closeBrace := by
  induction h with
  | @literal token value h =>
    refine ⟨token, [], rfl, ?_, ?_⟩ <;>
    · rintro rfl
      simp [JsonToken.literal] at h
  | emptyArray | array | emptyObject | object | lastMember | member => simp
  | lastItem h ih => exact ih
  | item h hmore ih =>
    obtain ⟨token, more, rfl, hbracket, hbrace⟩ := ih
    exact ⟨token, _, rfl, hbracket, hbrace⟩

theorem parseValue_array (n : ℕ) {token : JsonToken} (tokens : List JsonToken)
    (h : token ≠ .closeBracket) :
    parseValue (n + 1) (.openBracket :: token :: tokens) =
      (parseItems n (token :: tokens)).map fun (items, rest) => (.arr items, rest) := by
  cases token <;> first | rfl | exact absurd rfl h

theorem parseValue_object (n : ℕ) {token : JsonToken} (tokens : List JsonToken)
    (h : token ≠ .closeBrace) :
    parseValue (n + 1) (.openBrace :: token :: tokens) =
      (parseMembers n (token :: tokens)).map fun (members, rest) => (jsonObject members, rest) := by
  cases token <;> first | rfl | exact absurd rfl h

theorem parseValue_literal (n : ℕ) {token : JsonToken} {value : Json} (rest : List JsonToken)
    (h : token.literal = some value) : parseValue (n + 1) (token :: rest) = some (value, rest) := by
  cases token <;> cases h <;> rfl

theorem parseItems_last {n : ℕ} {tokens rest : List JsonToken} {value : Json}
    (h : parseValue n tokens = some (value, .closeBracket :: rest)) :
    parseItems (n + 1) tokens = some ([value], rest) := by
  simp only [parseItems, h]

theorem parseItems_comma {n : ℕ} {tokens more : List JsonToken} {value : Json}
    (h : parseValue n tokens = some (value, .comma :: more)) :
    parseItems (n + 1) tokens =
      (parseItems n more).map fun (items, rest) => (value :: items, rest) := by
  rw [parseItems, h]

theorem parseMembers_last {n : ℕ} {key : Text} {tokens rest : List JsonToken} {value : Json}
    (h : parseValue n tokens = some (value, .closeBrace :: rest)) :
    parseMembers (n + 1) (.str key :: .colon :: tokens) = some ([(key, value)], rest) := by
  simp only [parseMembers, h]

theorem parseMembers_comma {n : ℕ} {key : Text} {tokens more : List JsonToken} {value : Json}
    (h : parseValue n tokens = some (value, .comma :: more)) :
    parseMembers (n + 1) (.str key :: .colon :: tokens) =
      (parseMembers n more).map fun (members, rest) => ((key, value) :: members, rest) := by
  simp only [parseMembers, h]

/-- With `n` calls left, the call for a part takes exactly the tokens that spell it. -/
def ParseComplete (n : ℕ) : JsonPart → List JsonToken → Prop
  | .value value, tokens => ∀ rest, parseValue n (tokens ++ rest) = some (value, rest)
  | .items items, tokens =>
    ∀ rest, parseItems n (tokens ++ .closeBracket :: rest) = some (items, rest)
  | .members members, tokens =>
    ∀ rest, parseMembers n (tokens ++ .closeBrace :: rest) = some (members, rest)

/-- The calls that a part needs: one for each token, and one to go from a list of items to its
    first item. -/
def JsonPart.calls : JsonPart → List JsonToken → ℕ
  | .items _, tokens => tokens.length + 1
  | _, tokens => tokens.length

theorem Spells.exists_succ {part : JsonPart} {tokens : List JsonToken} (h : Spells part tokens)
    {n : ℕ} (hn : part.calls tokens ≤ n) : ∃ m, n = m + 1 := by
  obtain ⟨token, more, rfl, -⟩ := h.exists_cons
  refine ⟨n - 1, ?_⟩
  cases part <;> simp only [JsonPart.calls, List.length_cons] at hn <;> omega

theorem Spells.parseComplete {part : JsonPart} {tokens : List JsonToken} (h : Spells part tokens) :
    ∀ n, part.calls tokens ≤ n → ParseComplete n part tokens := by
  induction h with
  | literal h =>
    intro n hn rest
    obtain ⟨n, rfl⟩ := (Spells.literal h).exists_succ hn
    exact parseValue_literal n rest h
  | emptyArray =>
    intro n hn rest
    obtain ⟨n, rfl⟩ := Spells.emptyArray.exists_succ hn
    rfl
  | @array items tokens h ih =>
    intro n hn rest
    obtain ⟨n, rfl⟩ := (Spells.array h).exists_succ hn
    have hitems := ih n (by simp [JsonPart.calls] at hn ⊢; omega) rest
    obtain ⟨token, more, rfl, hbracket, -⟩ := h.exists_cons
    simp only [List.cons_append, List.append_assoc, List.nil_append] at hitems ⊢
    rw [parseValue_array n _ hbracket, hitems]
    rfl
  | emptyObject =>
    intro n hn rest
    obtain ⟨n, rfl⟩ := Spells.emptyObject.exists_succ hn
    rfl
  | @object members tokens h ih =>
    intro n hn rest
    obtain ⟨n, rfl⟩ := (Spells.object h).exists_succ hn
    have hmembers := ih n (by simp [JsonPart.calls] at hn ⊢; omega) rest
    obtain ⟨token, more, rfl, -, hbrace⟩ := h.exists_cons
    simp only [List.cons_append, List.append_assoc, List.nil_append] at hmembers ⊢
    rw [parseValue_object n _ hbrace, hmembers]
    rfl
  | @lastItem value tokens h ih =>
    intro n hn rest
    obtain ⟨n, rfl⟩ := (Spells.lastItem h).exists_succ hn
    exact parseItems_last (ih n (by simp [JsonPart.calls] at hn ⊢; omega) _)
  | @item value items tokens more h hmore ih ihmore =>
    intro n hn rest
    obtain ⟨n, rfl⟩ := (Spells.item h hmore).exists_succ hn
    have hvalue := ih n (by simp [JsonPart.calls] at hn ⊢; omega)
      (.comma :: (more ++ .closeBracket :: rest))
    have hitems := ihmore n (by simp [JsonPart.calls] at hn ⊢; omega) rest
    rw [List.append_assoc, List.cons_append, parseItems_comma hvalue, hitems]
    rfl
  | @lastMember key value tokens h ih =>
    intro n hn rest
    obtain ⟨n, rfl⟩ := (Spells.lastMember h).exists_succ hn
    exact parseMembers_last (ih n (by simp [JsonPart.calls] at hn ⊢; omega) _)
  | @member key value members tokens more h hmore ih ihmore =>
    intro n hn rest
    obtain ⟨n, rfl⟩ := (Spells.member h hmore).exists_succ hn
    have hvalue := ih n (by simp [JsonPart.calls] at hn ⊢; omega)
      (.comma :: (more ++ .closeBrace :: rest))
    have hmembers := ihmore n (by simp [JsonPart.calls] at hn ⊢; omega) rest
    rw [List.cons_append, List.cons_append, List.append_assoc, List.cons_append,
      parseMembers_comma hvalue, hmembers]
    rfl

/-! ## The texts that are read -/

/-- The text is JSON for the value: its tokens spell the value. -/
def IsJson (text : Text) (value : Json) : Prop :=
  ∃ tokens, lex text = some tokens ∧ Spells (.value value) tokens

theorem jsonParse_eq_some_iff {text : Text} {value : Json} :
    jsonParse text = some value ↔ IsJson text value := by
  unfold jsonParse
  constructor
  · intro h
    split at h
    · cases h
    case h_2 tokens htokens =>
      split at h
      case h_1 other hparse =>
        cases h
        obtain ⟨used, hused, hspells⟩ := (parseSound _).value hparse
        rw [List.append_nil] at hused
        exact ⟨tokens, htokens, hused ▸ hspells⟩
      case h_2 => cases h
  · rintro ⟨tokens, htokens, hspells⟩
    have hparse := hspells.parseComplete tokens.length (Nat.le_refl _) []
    rw [List.append_nil] at hparse
    simp only [htokens, hparse]

end RagStack.Api
