import BobbyBotique.Admission.Lease
import BobbyBotique.Admission.Renewal
import BobbyBotique.Background.Accounting
import BobbyBotique.Broadcast.Erasure
import BobbyBotique.Broadcast.Partial
import BobbyBotique.Broadcast.Retention
import BobbyBotique.Context.Chunking
import BobbyBotique.Daily.Guesses
import BobbyBotique.Daily.ImageLimiter
import BobbyBotique.Daily.Law2048
import BobbyBotique.Daily.Preparation
import BobbyBotique.Daily.Shuffle
import BobbyBotique.Daily.Trivia
import BobbyBotique.Daily.Words
import BobbyBotique.Debounce.Delivery
import BobbyBotique.Delivery.Cutting
import BobbyBotique.Delivery.Repair
import BobbyBotique.Documents.Coverage
import BobbyBotique.Documents.Selection
import BobbyBotique.Games.BudgetGrants
import BobbyBotique.Games.ClassicRuns
import BobbyBotique.Games.EditDistance
import BobbyBotique.Games.Mutation
import BobbyBotique.Games.Replay
import BobbyBotique.Memory.Exactness
import BobbyBotique.Observability.EventCut
import BobbyBotique.Observability.Selection
import BobbyBotique.Observability.WriterReports
import BobbyBotique.Privacy.Compensation
import BobbyBotique.Prompts.Registry
import BobbyBotique.Providers.Breaker
import BobbyBotique.Queue.Capacity
import BobbyBotique.Queue.Delivery
import BobbyBotique.Queue.Enqueue
import BobbyBotique.Queue.Guard
import BobbyBotique.Queue.Listing
import BobbyBotique.Queue.Payload
import BobbyBotique.Queue.Refusals
import BobbyBotique.Queue.Replay
import BobbyBotique.Queue.ScriptAccounts
import BobbyBotique.Reader.Emphasis
import BobbyBotique.Reader.Links
import BobbyBotique.Reminders.Polling
import BobbyBotique.Router.Bounds
import BobbyBotique.Router.Cooldown
import BobbyBotique.Router.Stream
import BobbyBotique.Settings.History
import BobbyBotique.Speech.Pipeline
import BobbyBotique.Updates.Capacity
import BobbyBotique.Updates.Processor
import BobbyBotique.UserState.Ownership
import BobbyBotique.Webhook.Acceptance
import BobbyBotique.Webhook.Gate
