import CrossRef.Files.Tree
import CrossRef.Main
import CrossRef.Proofs.Document
import CrossRef.Proofs.Dom.History
import CrossRef.Proofs.Pass.Identifiers
import CrossRef.Proofs.Index.Anchor
import CrossRef.Proofs.Destination
import CrossRef.Proofs.Index.Maps
import CrossRef.Proofs.Pass.Contents
import CrossRef.Proofs.Build.Pages
import CrossRef.Proofs.Dom.Effect
import CrossRef.Proofs.Dom.Traversal
import CrossRef.Proofs.Dom.Events
import CrossRef.Proofs.Pass.Unchanged
import CrossRef.Proofs.Pass.Numbering
import CrossRef.Proofs.Pass.Renumbering
import CrossRef.Proofs.Pass.Rerendering
import CrossRef.Proofs.Config.RoundTrip
import CrossRef.Proofs.Manifest.RoundTrip
import CrossRef.Proofs.Pass.Targets
import CrossRef.Proofs.Index.Section
import CrossRef.Proofs.Index.Equation
import CrossRef.Proofs.Pass.ChapterName
import CrossRef.Proofs.Page.ShownContents
import CrossRef.Proofs.Index.Analysis
import CrossRef.Proofs.Page.Content
import CrossRef.Proofs.Manifest.Navigation
import CrossRef.Proofs.Config.Discovery
import CrossRef.Proofs.CommandLine.Precedence
