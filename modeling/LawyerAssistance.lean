import LawyerAssistance.AiContext.Selections
import LawyerAssistance.AiRuns.Atomicity
import LawyerAssistance.AiRuns.Dialogues
import LawyerAssistance.AiRuns.Exclusive
import LawyerAssistance.AiRuns.ManifestUnits
import LawyerAssistance.AiRuns.Terminal
import LawyerAssistance.Backups.FailedWrites
import LawyerAssistance.Backups.Revocations
import LawyerAssistance.Citations.Mentions
import LawyerAssistance.Citations.Numerals
import LawyerAssistance.Citations.Quotes
import LawyerAssistance.Citations.Rechecks
import LawyerAssistance.Drafts.Revisions
import LawyerAssistance.Fields.JsonMembers
import LawyerAssistance.Privacy.AliasRuns
import LawyerAssistance.Privacy.DictionaryMatches
import LawyerAssistance.Privacy.Egress
import LawyerAssistance.Privacy.FindingEvidence
import LawyerAssistance.Privacy.FindingIds
import LawyerAssistance.Privacy.MatchSelection
import LawyerAssistance.Privacy.McpTicketRuns
import LawyerAssistance.Privacy.PlainJson
import LawyerAssistance.Privacy.Replacements
import LawyerAssistance.Privacy.ResidualSoundness
import LawyerAssistance.Privacy.ReviewHistory
import LawyerAssistance.Privacy.ReviewRefresh
import LawyerAssistance.Privacy.RiskSoundness
import LawyerAssistance.PrivacyText.Dismissals
import LawyerAssistance.PrivacyText.OrganizationAliases
import LawyerAssistance.PrivacyText.Overlaps
import LawyerAssistance.Providers.Capabilities
import LawyerAssistance.Providers.ChatHistory
import LawyerAssistance.Providers.Chunking
import LawyerAssistance.Providers.SecretGuard
import LawyerAssistance.Redaction.ChunkRanges
import LawyerAssistance.Redaction.Chunks
import LawyerAssistance.Redaction.Placements
import LawyerAssistance.Retrieval.ExactArticles
import LawyerAssistance.Retrieval.Visibility
import LawyerAssistance.Std.Machine
import LawyerAssistance.Storage.Pagination
import LawyerAssistance.Storage.Readers
import LawyerAssistance.Workspace.InitialMessages
import LawyerAssistance.Workspace.McpRead
import LawyerAssistance.Workspace.Recovery
import LawyerAssistance.Workspace.Submissions
