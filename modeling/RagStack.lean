import RagStack.Common.Table
import RagStack.Common.Lists
import RagStack.Common.Greedy
import RagStack.Common.Views
import RagStack.Common.Upsert
import RagStack.Common.Runs
import RagStack.Common.Lineage
import RagStack.Common.Retry
import RagStack.Common.Loop
import RagStack.Common.Outline
import RagStack.Common.Pack
import RagStack.Common.Words
import RagStack.Common.Scan
import RagStack.Common.Kept
import RagStack.Common.Rank
import RagStack.Common.Rounding
import RagStack.Common.Margins
import RagStack.Common.PrefixQuery
import RagStack.Worker.Text
import RagStack.Worker.Models
import RagStack.Worker.TokenCounter
import RagStack.Worker.Normalizer
import RagStack.Worker.Alphanumerics
import RagStack.Worker.ParserFactory
import RagStack.Worker.LineGrammar
import RagStack.Worker.LineMarkers
import RagStack.Worker.LineBlocks
import RagStack.Worker.PdfMargins
import RagStack.Worker.DocxTable
import RagStack.Chunking.Sections
import RagStack.Chunking.FaqPairs
import RagStack.Chunking.HeadingPaths
import RagStack.Chunking.Provenance
import RagStack.Chunking.Units
import RagStack.Chunking.Grouping
import RagStack.Chunking.Document
import RagStack.Common.Lines
import RagStack.Chunking.Checksums
import RagStack.Chunking.Headings
import RagStack.Chunking.Sizes
import RagStack.Ingest.Schema
import RagStack.Ingest.StatusManager
import RagStack.Ingest.Indexer
import RagStack.Ingest.Pipeline
import RagStack.Ingest.Embedder
import RagStack.Ingest.Queue
import RagStack.Ingest.Deliveries
import RagStack.Ingest.ChunkCounts
import RagStack.Ingest.Requests
import RagStack.Ingest.OpenJobs
import RagStack.Retrieval.Candidates
import RagStack.Ingest.Visibility
import RagStack.Auth.Sessions
import RagStack.Auth.Rotation
import RagStack.Api.Basic
import RagStack.Auth.Accounts
import RagStack.Auth.TokenLineage
import RagStack.Auth.Registration
import RagStack.Api.JsonParse
import RagStack.Api.Numbers
import RagStack.Chat.Types
import RagStack.Api.Schema
import RagStack.Documents.Upload
import RagStack.Documents.Recognition
import RagStack.Access.Authorization
import RagStack.Access.KnowledgeBases
import RagStack.Access.SlugBackfill
import RagStack.Access.Members
import RagStack.Access.Lifecycle
import RagStack.Access.Grants
import RagStack.Access.Reads
import RagStack.Access.View
import RagStack.Chat.ScoringUtils
import RagStack.Chat.QuotedPhrases
import RagStack.Chat.LexicalQuery
import RagStack.Chat.PhraseSearch
import RagStack.Chat.HybridScorer
import RagStack.Chat.Snippets
import RagStack.Chat.CitationAssembler
import RagStack.Chat.Retrieval
import RagStack.Chat.NearDuplicates
import RagStack.Chat.ExactDuplicates
import RagStack.Chat.IndexedGate
import RagStack.Chat.SnippetLength
import RagStack.Chat.CitationSelection
import RagStack.Chat.GroundedAnswer
import RagStack.Chat.Conversations
import RagStack.Chat.Ask
import RagStack.Chat.ConversationReads
import RagStack.Chat.RetrievalQueries
import RagStack.Chat.HybridScores
import RagStack.Access.Noninterference
import RagStack.Evals.Execute
import RagStack.Evals.Rubric
import RagStack.Evals.Scoring
import RagStack.Evals.Verdicts
import RagStack.Evals.CitationIntegrity
import RagStack.Common.Tally
import RagStack.Evals.Summary
import RagStack.Evals.StoredItems
import RagStack.Evals.Comparison
import RagStack.Evals.Regressions
import RagStack.Evals.Runs
import RagStack.Common.Cores
import RagStack.Chat.PlainTerms
import RagStack.Chat.Prompt
import RagStack.Chat.PromptHistory
import RagStack.Chat.Excerpts
import RagStack.Chat.SnippetWords
import RagStack.Chat.LocalAnswer
import RagStack.OpenAi.Gateway
import RagStack.OpenAi.GroundedChat
import RagStack.Worker.LineContent
import RagStack.Worker.Parsers
import RagStack.Worker.WellFormed
import RagStack.Chunking.Content
import RagStack.Ingest.Uploads
import RagStack.Ingest.System
import RagStack.Ingest.SystemWrites
import RagStack.Ingest.SystemRuns
import RagStack.Ingest.SystemContent
import RagStack.OpenAi.Retries
import RagStack.OpenAi.QueryEmbedding
import RagStack.Chat.Dialogues
import RagStack.Chat.DialogueRuns
import RagStack.Api.Redaction
import RagStack.Observability.Audit
import RagStack.Observability.Logging
