import Marginalia.Disk.Compare
import Marginalia.Dispatch
import Marginalia.Indexer.Schedule
import Marginalia.Json.Writer
import Marginalia.Main
import Marginalia.Markup.Reading
import Marginalia.Observers
import Marginalia.Proofs.Rounds
import Marginalia.Proofs.Runs
import Marginalia.Proofs.Quiescence
import Marginalia.Proofs.Scans
import Marginalia.Proofs.Events
import Marginalia.Proofs.Announcements
import Marginalia.Proofs.Batches
import Marginalia.Proofs.Containment
import Marginalia.Proofs.Convergence
import Marginalia.Proofs.Labels
import Marginalia.Proofs.Preparation
import Marginalia.Proofs.Presentation
import Marginalia.Proofs.Summaries
import Marginalia.Proofs.Vocabularies
import Marginalia.Proofs.ActiveDocument
import Marginalia.Proofs.WrittenNotes
import Marginalia.Proofs.Drift
import Marginalia.Proofs.Provenance
import Marginalia.Proofs.Walks
import Marginalia.Proofs.Links
import Marginalia.Proofs.Pacing
import Marginalia.Proofs.Supplies
import Marginalia.Proofs.ContainedTags
import Marginalia.Proofs.JsonLimits
import Marginalia.Proofs.LoadedSettings
import Marginalia.Proofs.LoneScans
import Marginalia.Proofs.LostScans
import Marginalia.Proofs.PatternLimits
import Marginalia.Proofs.TagFaults
import Marginalia.Proofs.Exchange
import Marginalia.Proofs.Failures
import Marginalia.Proofs.Rolls
import Marginalia.Proofs.Subscriptions
import Marginalia.Proofs.WrittenSettings
import Marginalia.Proofs.Merges
