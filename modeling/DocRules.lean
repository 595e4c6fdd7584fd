import DocRules.Folder
import DocRules.Inspect
import DocRules.Main
import DocRules.Proofs.DispatchVisit
import DocRules.Proofs.CompleteStart
import DocRules.Proofs.OpenPath
import DocRules.Proofs.SkippedSpan
import DocRules.Proofs.Containment
import DocRules.Proofs.Finishing
import DocRules.Proofs.Spelling
import DocRules.Proofs.Resolution
import DocRules.Proofs.Rearrangement
import DocRules.Proofs.Filing
import DocRules.Proofs.ActionOrder
import DocRules.Proofs.AllOrNothing
import DocRules.Proofs.Framing
import DocRules.Proofs.Replay
import DocRules.Proofs.Retelling
import DocRules.Proofs.Splicing
import DocRules.Proofs.TwoPasses
import DocRules.Proofs.Cutting
import DocRules.Proofs.Draft
import DocRules.Proofs.Escaping
import DocRules.Proofs.PlainTags
import DocRules.Proofs.RoundTrip
import DocRules.Proofs.Template
import DocRules.Proofs.Unclosed
import DocRules.Proofs.Tracing
import DocRules.Proofs.Halting
import DocRules.Proofs.Ordering
import DocRules.Proofs.Offsets
import DocRules.Proofs.Spans
import DocRules.Proofs.Placing
import DocRules.Proofs.TagAttributes
import DocRules.Proofs.FatalPlace
import DocRules.Proofs.Roots
import DocRules.Proofs.Trimming
