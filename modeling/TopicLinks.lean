import TopicLinks.Pool.Session
import TopicLinks.Identity.Describe
import TopicLinks.Page.Topics
import TopicLinks.Page.Agreement
import TopicLinks.Walker
import TopicLinks.Batch
import TopicLinks.Catalog
import TopicLinks.Toml.Document
import TopicLinks.Settings.File
import TopicLinks.Forms
import TopicLinks.JsonValue.Numeral
import TopicLinks.Proofs.Identity.Readable
import TopicLinks.Proofs.Pool.Table
import TopicLinks.Proofs.Pool.Consistency
import TopicLinks.Proofs.Pool.Runs
import TopicLinks.Proofs.Pool.Invariant
import TopicLinks.Proofs.Pool.Sharing
import TopicLinks.Proofs.Pool.Reclamation
import TopicLinks.Proofs.Pool.Reinterning
import TopicLinks.Proofs.Pool.Erasure
import TopicLinks.Proofs.Pool.Languages
import TopicLinks.Proofs.Walk.Dialogue
import TopicLinks.Proofs.Walk.Occurrences
import TopicLinks.Proofs.Walk.Settling
import TopicLinks.Proofs.Walk.Pages
import TopicLinks.Proofs.Walk.Settlements
import TopicLinks.Proofs.Walk.Outcomes
import TopicLinks.Proofs.Walk.Diagnostics
import TopicLinks.Proofs.Walk.Refinement
import TopicLinks.Proofs.Walk.Rebuilding
import TopicLinks.Proofs.Walk.Lookups
import TopicLinks.Proofs.Walk.Certainty
import TopicLinks.Proofs.Walk.Roots
import TopicLinks.Proofs.Walk.Deduplication
import TopicLinks.Proofs.Walk.Repetition
import TopicLinks.Proofs.Walk.RepeatedChapters
import TopicLinks.Proofs.Identity.Canonical
import TopicLinks.Proofs.Identity.Absolute
import TopicLinks.Proofs.Walk.Entries
import TopicLinks.Proofs.Walk.Pools
import TopicLinks.Proofs.Batch.Schedules
import TopicLinks.Proofs.Batch.Accounting
import TopicLinks.Proofs.Batch.Outcome
import TopicLinks.Proofs.Walk.Sequences
import TopicLinks.Proofs.Walk.Stopping
import TopicLinks.Proofs.Walk.Fallback
import TopicLinks.Proofs.Walk.Severities
import TopicLinks.Proofs.Batch.Interference
import TopicLinks.Proofs.Batch.Downloads
import TopicLinks.Proofs.Link.Grammar
import TopicLinks.Proofs.Text.Pattern
import TopicLinks.Proofs.Link.Pattern
import TopicLinks.Proofs.Walk.Turns
import TopicLinks.Proofs.Walk.Curation
import TopicLinks.Proofs.Text.Percent
import TopicLinks.Proofs.Identity.Paths
import TopicLinks.Proofs.Pool.Appending
import TopicLinks.Proofs.Pool.Spellings
import TopicLinks.Proofs.Identity.BundleLinks
import TopicLinks.Proofs.Walk.SecondChance
import TopicLinks.Proofs.Identity.Gaps
import TopicLinks.Proofs.Pool.Fragments
import TopicLinks.Proofs.Page.Insertion
import TopicLinks.Proofs.Toml.Keys
import TopicLinks.Proofs.Toml.Writing
import TopicLinks.Proofs.Text.Decoding
import TopicLinks.Proofs.Settings.Reading
import TopicLinks.Proofs.Settings.Loading
