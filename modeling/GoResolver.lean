import GoResolver.Text.Alphanumeric
import GoResolver.Text.Blank
import GoResolver.Text.Printable
import GoResolver.Text.Search
import GoResolver.Text.Quoted
import GoResolver.Decimal.Shortest
import GoResolver.Constraint.Parser
import GoResolver.Constraint.Header
import GoResolver.FileTree
import GoResolver.ImportPath
import GoResolver.Package
import GoResolver.GoContext.Locate
import GoResolver.Suggester
import GoResolver.Candidate.Json
import GoResolver.Json.Library
import GoResolver.Strategy.Json
import GoResolver.Toml.Reader
import GoResolver.Toml.Writer
import GoResolver.Settings.Load
import GoResolver.Settings.Save
import GoResolver.Main
import GoResolver.Proofs.Constraint.Reading
import GoResolver.Proofs.Importer.Transparency
import GoResolver.Proofs.Importer.Isolation
import GoResolver.Proofs.Session.Invariant
import GoResolver.Proofs.Constraint.Header
import GoResolver.Proofs.Session.Containment
import GoResolver.Proofs.GoContext.Search
import GoResolver.Proofs.GoContext.RootSoundness
import GoResolver.Proofs.FileTree.Sources
import GoResolver.Proofs.Path.Resolution
import GoResolver.Proofs.Constraint.Printing
import GoResolver.Proofs.Constraint.RoundTrip
import GoResolver.Proofs.Session.Epoch
import GoResolver.Proofs.Session.Observation
import GoResolver.Proofs.FileTree.Spelling
import GoResolver.Proofs.GoContext.Spelling
import GoResolver.Proofs.Constraint.Comments
import GoResolver.Proofs.GoContext.ListingOrder
import GoResolver.Proofs.GoContext.Local
import GoResolver.Proofs.Settings.RoundTrip
import GoResolver.Proofs.Constraint.Lexing
import GoResolver.Proofs.Constraint.PlusLines
import GoResolver.Proofs.Constraint.PlusHeaders
import GoResolver.Proofs.Constraint.Nesting
import GoResolver.Proofs.Importer.Effects
import GoResolver.Proofs.GoContext.Canonical
import GoResolver.Proofs.GoContext.FileNames
import GoResolver.Proofs.GoContext.Growth
import GoResolver.Proofs.GoContext.Tags
import GoResolver.Proofs.GoContext.Releases
import GoResolver.Proofs.Constraint.Layout
import GoResolver.Proofs.Importer.FirstWins
import GoResolver.Proofs.Toml.Tables
import GoResolver.Proofs.Settings.Keys
import GoResolver.Proofs.Settings.Stacking
import GoResolver.Proofs.Settings.Files
import GoResolver.Proofs.Settings.Variables
import GoResolver.Proofs.Settings.Layering
import GoResolver.Proofs.Settings.Overriding
import GoResolver.Proofs.Settings.Workspace
import GoResolver.Proofs.Json.RoundTrip
import GoResolver.Proofs.Candidate.Forms
import GoResolver.Proofs.Command.Init
