import Mathlib.Data.List.DropRight
import RagStack.Chat.Ask

/-!
# The history in the prompt

`ask` of `services/api/src/chat/chat.service.ts` stores the question (line 106) before it
reads the history (line 204), and takes the system messages out (line 214) after the limit
was applied.

* `getPromptHistory_of_sorted`: the history is the end of the conversation.
* `promptHistory_of_ask`: the prompt of a question has the question as the last message of
  its history, and one message less of the conversation than the limit allows.
-/

namespace RagStack.Chat

open RagStack.Common RagStack.Api
open RagStack.Worker (Text)
open RagStack.Ingest (Id)
open RagStack.Access (AuthenticatedUser)

/-! ## Messages of a conversation -/

/-- The messages of a conversation, in the order in which they were stored. -/
def conversationMessages (db : Database) (conversationId : Id) : List Message :=
  db.messages.rows.filter fun m => m.conversationId = conversationId

/-- The messages that a prompt may show, as it shows them. -/
def shownMessages (messages : List Message) : List PromptContextMessage :=
  (messages.filter fun m => m.role ≠ .system).map fun m => { role := m.role, content := m.content }

/-- The last messages stored before a question that a prompt may show, up to a limit. -/
def precedingHistory (stored : List Message) (limit : ℕ) : List PromptContextMessage :=
  (shownMessages stored).rtake (min stored.length limit)

/-- A question as a message of a history. -/
def questionEntry (question : Text) : PromptContextMessage where
  role := .user
  content := question

theorem shownMessages_append (messages messages' : List Message) :
    shownMessages (messages ++ messages') = shownMessages messages ++ shownMessages messages' := by
  rw [shownMessages, List.filter_append, List.map_append]
  rfl

/-- The history is the end of the conversation, if its messages were stored one after the
    other. -/
theorem getPromptHistory_of_sorted {db : Database} {conversationId : Id}
    (h : (conversationMessages db conversationId).Pairwise fun a b => a.createdAt < b.createdAt)
    (limit : ℕ) :
    getPromptHistory db conversationId limit =
      (conversationMessages db conversationId).rtake limit := by
  have hdescending : ((conversationMessages db conversationId).reverse).Pairwise
      fun a b => decide (b.createdAt ≤ a.createdAt) = true := by
    rw [List.pairwise_reverse]
    exact h.imp fun hlt => decide_eq_true hlt.le
  have hsorted : (conversationMessages db conversationId).mergeSort
      (fun a b => decide (b.createdAt ≤ a.createdAt)) =
        (conversationMessages db conversationId).reverse := by
    refine ((List.mergeSort_perm _ _).trans (List.reverse_perm _).symm).eq_of_pairwise ?_
      (List.pairwise_mergeSort (fun a b c hab hbc => ?_) (fun a b => ?_) _) hdescending
    · -- two messages of the same time are one message
      intro a b ha hb hab hba
      have hnodup : ((conversationMessages db conversationId).map Message.createdAt).Nodup :=
        List.pairwise_map.mpr (h.imp fun hlt => hlt.ne)
      refine List.inj_on_of_nodup_map hnodup ((List.mergeSort_perm _ _).mem_iff.mp ha)
        (List.mem_reverse.mp hb) ?_
      exact Nat.le_antisymm (of_decide_eq_true hba) (of_decide_eq_true hab)
    · exact decide_eq_true ((of_decide_eq_true hbc).trans (of_decide_eq_true hab))
    · simpa using Nat.le_total b.createdAt a.createdAt
  rw [List.rtake_eq_reverse_take_reverse, ← hsorted]
  rfl

/-! ## Asking -/

section Ask

variable {uni : EcmaUnicode} {locale : LocaleCompare} {config : ChatConfig} {gateway : Gateway}
  {retrieve : Id → Except HttpException RetrievalResult} {db before : Database} {io : AskIo}
  {user : AuthenticatedUser} {dto : AskQuestionDto} {asked : AskOutcome}

/-- The row of a question. -/
def questionMessage (io : AskIo) (conversationId : Id) (question : Text) : Message where
  id := io.userMessageId
  conversationId := conversationId
  role := .user
  content := question
  createdAt := io.now .createUserMessage

theorem messages_of_createUserMessage {db db' : Database} {conversationId : Id} {question : Text}
    (h : createUserMessage db io conversationId question = some db') :
    db'.messages.rows = db.messages.rows ++ [questionMessage io conversationId question] := by
  simp only [createUserMessage, Option.bind_eq_bind, Option.bind_eq_some_iff] at h
  obtain ⟨db₁, hmessage, htouch⟩ := h
  rw [(touchConversation_spec htouch).1, (createMessage_spec hmessage).1]
  rfl

/-- When `ask` has stored the question, it is the last message of its conversation. -/
theorem conversationMessages_of_asked
    (h : askOutcome uni locale config gateway retrieve db io user dto = (before, .ok asked)) :
    conversationMessages before asked.conversationId =
      conversationMessages db asked.conversationId ++
        [questionMessage io asked.conversationId dto.question] := by
  unfold askOutcome at h
  split at h
  · simp at h
  · rename_i kb hkb
    split at h
    · simp at h
    · rename_i db₁ conversation hconversation
      split at h
      · simp at h
      · rename_i db₂ hmessage
        obtain ⟨rfl, hasked⟩ := Prod.mk.inj h
        have hid : asked.conversationId = conversation.id := by
          simp only [bind, Except.bind] at hasked
          split at hasked
          · cases hasked
          · split at hasked
            · cases hasked
            · split at hasked
              · cases hasked
              · cases hasked
                rfl
        obtain ⟨_, rfl⟩ := ensureConversationForAsk_spec hconversation
        have hrows := messages_of_createUserMessage hmessage
        rw [hid, conversationMessages, hrows, List.filter_append]
        simp [conversationMessages, questionMessage]

/-- The messages of the conversation that go into the prompt of a question. -/
def promptHistory (config : ChatConfig) (question : Text) (before : Database)
    (asked : AskOutcome) : List PromptContextMessage :=
  (chatPrompt question (getPromptHistory before asked.conversationId config.promptHistoryLimit)
    asked.retrieval).conversationHistory

/-- The history in the prompt: the question is its last message, and takes the place of one
    of the conversation. -/
theorem promptHistory_eq
    (h : askOutcome uni locale config gateway retrieve db io user dto = (before, .ok asked))
    (hsorted : (conversationMessages db asked.conversationId).Pairwise
      fun a b => a.createdAt < b.createdAt)
    (hnow : ∀ m ∈ conversationMessages db asked.conversationId,
      m.createdAt < io.now .createUserMessage)
    (hlimit : 1 ≤ config.promptHistoryLimit) :
    promptHistory config dto.question before asked =
      shownMessages ((conversationMessages db asked.conversationId).rtake
        (config.promptHistoryLimit - 1)) ++ [questionEntry dto.question] := by
  have hmessages := conversationMessages_of_asked h
  have hall : (conversationMessages before asked.conversationId).Pairwise
      fun a b => a.createdAt < b.createdAt := by
    rw [hmessages, List.pairwise_append]
    refine ⟨hsorted, List.pairwise_singleton _ _, fun m hm m' hm' => ?_⟩
    rw [List.mem_singleton.mp hm']
    exact hnow m hm
  have hlast : ((conversationMessages db asked.conversationId) ++
      [questionMessage io asked.conversationId dto.question]).rtake config.promptHistoryLimit =
        (conversationMessages db asked.conversationId).rtake (config.promptHistoryLimit - 1) ++
          [questionMessage io asked.conversationId dto.question] := by
    conv_lhs => rw [← Nat.sub_add_cancel hlimit]
    exact List.rtake_concat_succ _ _ _
  calc promptHistory config dto.question before asked
      = shownMessages ((conversationMessages before asked.conversationId).rtake
          config.promptHistoryLimit) := by
        rw [← getPromptHistory_of_sorted hall]
        rfl
    _ = shownMessages ((conversationMessages db asked.conversationId).rtake
            (config.promptHistoryLimit - 1)) ++ [questionEntry dto.question] := by
        rw [hmessages, hlast, shownMessages_append]
        rfl

end Ask

/-- No prompt has the messages before its question as its history: the question is one of
    those that it has. -/
theorem promptHistory_of_ask (uni : EcmaUnicode) (locale : LocaleCompare) (config : ChatConfig)
    (gateway : Gateway) (retrieve : Id → Except HttpException RetrievalResult)
    (db before : Database) (io : AskIo) (user : AuthenticatedUser) (dto : AskQuestionDto)
    (asked : AskOutcome)
    (h : askOutcome uni locale config gateway retrieve db io user dto = (before, .ok asked))
    (hsorted : (conversationMessages db asked.conversationId).Pairwise
      fun a b => a.createdAt < b.createdAt)
    (hnow : ∀ m ∈ conversationMessages db asked.conversationId,
      m.createdAt < io.now .createUserMessage)
    (hlimit : 1 ≤ config.promptHistoryLimit) :
    ¬ (promptHistory config dto.question before asked =
          precedingHistory (conversationMessages db asked.conversationId)
            config.promptHistoryLimit ∧
        questionEntry dto.question ∉ promptHistory config dto.question before asked) ∧
      promptHistory config dto.question before asked =
        shownMessages ((conversationMessages db asked.conversationId).rtake
          (config.promptHistoryLimit - 1)) ++ [questionEntry dto.question] := by
  have heq := promptHistory_eq h hsorted hnow hlimit
  refine ⟨fun hclaim => hclaim.2 ?_, heq⟩
  rw [heq]
  exact List.mem_append_right _ List.mem_cons_self

/-! ## A second question -/

/-- The guide, with a conversation of two messages about it. -/
def followUpDb : Database :=
  { guideDb with
    conversations := ⟨[
      { id := 1
        userId := 1
        kbId := 1
        lastActivityAt := 2
        createdAt := 1
        updatedAt := 2 }], by decide⟩
    messages := ⟨[
      { id := 1
        conversationId := 1
        role := .user
        content := "guide".toList
        createdAt := 1 },
      { id := 2
        conversationId := 1
        role := .assistant
        content := "Read it.".toList
        createdAt := 2 }], by decide⟩ }

def followUpIo : AskIo :=
  { guideIo with
    userMessageId := 3
    assistantMessageId := 4
    now := fun _ => 3 }

/-- Two messages may go into the prompt. -/
def followUpConfig : ChatConfig where
  promptHistoryLimit := 2
  configuredChatModel := "chat"

/-- `ask` up to the answer, for another question in the conversation. -/
def askFollowUp : Database × Except HttpException AskOutcome :=
  askOutcome .ascii .numeric followUpConfig (fun _ => some (workerOutput, {}))
    (fun _ => .ok (lexicalRetrieval (5 / 100))) followUpDb followUpIo { id := 1 }
    { workerQuestion with conversationId := some 1 }

theorem exists_askFollowUp :
    ∃ before asked, askFollowUp = (before, .ok asked) ∧ asked.conversationId = 1 := by
  have hid : askFollowUp.2.toOption.map AskOutcome.conversationId = some 1 := by decide +kernel
  obtain ⟨asked, hasked, hconversation⟩ := Option.map_eq_some_iff.mp hid
  refine ⟨askFollowUp.1, asked, Prod.ext rfl ?_, hconversation⟩
  cases h : askFollowUp.2 with
  | error e =>
    rw [h] at hasked
    cases hasked
  | ok result =>
    rw [h] at hasked
    cases hasked
    rfl

theorem promptHistory_of_ask_followUp :
    ∃ before asked, askFollowUp = (before, .ok asked) ∧
      ¬ (promptHistory followUpConfig workerQuestion.question before asked =
            precedingHistory (conversationMessages followUpDb asked.conversationId) 2 ∧
          questionEntry workerQuestion.question ∉
            promptHistory followUpConfig workerQuestion.question before asked) ∧
        promptHistory followUpConfig workerQuestion.question before asked =
          shownMessages ((conversationMessages followUpDb asked.conversationId).rtake 1) ++
            [questionEntry workerQuestion.question] := by
  obtain ⟨before, asked, hasked, hid⟩ := exists_askFollowUp
  refine ⟨before, asked, hasked, promptHistory_of_ask .ascii .numeric followUpConfig
    (fun _ => some (workerOutput, {})) (fun _ => .ok (lexicalRetrieval (5 / 100))) followUpDb
    before followUpIo { id := 1 } { workerQuestion with conversationId := some 1 } asked hasked ?_ ?_
    (by decide)⟩
  · rw [hid]
    decide
  · rw [hid]
    decide

/-- Of the two messages before the question, the first is not in the prompt; the question
    is there twice. -/
theorem promptHistory_followUp_ne :
    ∃ before asked, askFollowUp = (before, .ok asked) ∧
      ((conversationMessages followUpDb asked.conversationId).Pairwise
        fun a b => a.createdAt < b.createdAt) ∧
      (∀ m ∈ conversationMessages followUpDb asked.conversationId,
        m.createdAt < followUpIo.now .createUserMessage) ∧
      1 ≤ followUpConfig.promptHistoryLimit ∧
      promptHistory followUpConfig workerQuestion.question before asked =
        [{ role := .assistant, content := "Read it.".toList },
          questionEntry workerQuestion.question] ∧
      precedingHistory (conversationMessages followUpDb asked.conversationId)
          followUpConfig.promptHistoryLimit =
        [{ role := .user, content := "guide".toList },
          { role := .assistant, content := "Read it.".toList }] ∧
      ¬ (promptHistory followUpConfig workerQuestion.question before asked =
            precedingHistory (conversationMessages followUpDb asked.conversationId)
              followUpConfig.promptHistoryLimit ∧
          questionEntry workerQuestion.question ∉
            promptHistory followUpConfig workerQuestion.question before asked) := by
  obtain ⟨before, asked, hasked, hid⟩ := exists_askFollowUp
  have hsorted : (conversationMessages followUpDb asked.conversationId).Pairwise
      fun a b => a.createdAt < b.createdAt := by
    rw [hid]
    decide
  have hnow : ∀ m ∈ conversationMessages followUpDb asked.conversationId,
      m.createdAt < followUpIo.now .createUserMessage := by
    rw [hid]
    decide
  have hhistory : promptHistory followUpConfig workerQuestion.question before asked =
      [{ role := .assistant, content := "Read it.".toList },
        questionEntry workerQuestion.question] := by
    have heq := promptHistory_eq hasked hsorted hnow (by decide)
    rw [hid] at heq
    exact heq
  refine ⟨before, asked, hasked, hsorted, hnow, by decide, hhistory, ?_, fun hclaim => ?_⟩
  · rw [hid]
    decide
  · refine hclaim.2 ?_
    rw [hhistory]
    decide

end RagStack.Chat
