import MarkupAudit.Audit.Fix
import MarkupAudit.Audit.Scan
import MarkupAudit.Catalog
import MarkupAudit.Command.Execute
import MarkupAudit.Config.Loader
import MarkupAudit.Contrast
import MarkupAudit.Edit.Mending
import MarkupAudit.Evaluation
import MarkupAudit.Guideline.All
import MarkupAudit.Json.Reader
import MarkupAudit.Json.Writer
import MarkupAudit.Main
import MarkupAudit.Markup.Amend
import MarkupAudit.Markup.Style
import MarkupAudit.Pattern.Search
import MarkupAudit.Region
import MarkupAudit.Report.File
import MarkupAudit.Proofs.Edit.Requests
import MarkupAudit.Proofs.Edit.Substitution
import MarkupAudit.Proofs.Edit.Composition
import MarkupAudit.Proofs.Pattern.Equations
import MarkupAudit.Proofs.Pattern.Scan
import MarkupAudit.Proofs.Text.Fold
import MarkupAudit.Proofs.Markup.Equations
import MarkupAudit.Proofs.Region.Scanner
import MarkupAudit.Proofs.Region.Blanking
import MarkupAudit.Proofs.Region.Idempotence
import MarkupAudit.Proofs.Region.Comments
import MarkupAudit.Proofs.Text.Plain
import MarkupAudit.Proofs.Text.Lower
import MarkupAudit.Proofs.Pattern.First
import MarkupAudit.Proofs.Markup.Attribute
import MarkupAudit.Proofs.Markup.Written
import MarkupAudit.Proofs.Markup.Opening
import MarkupAudit.Proofs.Markup.Readers
import MarkupAudit.Proofs.Markup.Layout
import MarkupAudit.Proofs.Region.Layout
import MarkupAudit.Proofs.Pattern.Bounds
import MarkupAudit.Proofs.Evaluation.Reports
import MarkupAudit.Proofs.Evaluation.Detection
import MarkupAudit.Proofs.Markup.Amendment
import MarkupAudit.Proofs.Markup.Relayout
import MarkupAudit.Proofs.Markup.Elements
import MarkupAudit.Proofs.Edit.Amendment
import MarkupAudit.Proofs.Edit.Remedies
import MarkupAudit.Proofs.Edit.Resolution
import MarkupAudit.Proofs.Catalog.Complete
import MarkupAudit.Proofs.Catalog.Merging
import MarkupAudit.Proofs.Catalog.Resolution
import MarkupAudit.Proofs.Edit.Commit
import MarkupAudit.Proofs.Audit.Scanning
import MarkupAudit.Proofs.Audit.Fixing
import MarkupAudit.Proofs.Command.Effects
import MarkupAudit.Proofs.Edit.Insertions
import MarkupAudit.Proofs.Edit.Regions
import MarkupAudit.Proofs.Pattern.Order
import MarkupAudit.Proofs.Document.Positions
import MarkupAudit.Proofs.Evaluation.Order
import MarkupAudit.Proofs.Evaluation.Independence
import MarkupAudit.Proofs.Evaluation.Comments
import MarkupAudit.Proofs.Evaluation.Faults
import MarkupAudit.Proofs.Json.Reader
import MarkupAudit.Proofs.Config.Loading
import MarkupAudit.Proofs.Report.Confinement
import MarkupAudit.Proofs.Audit.Outcome
import MarkupAudit.Proofs.Audit.Gate
import MarkupAudit.Proofs.Edit.Conflicts
import MarkupAudit.Proofs.Edit.Supplements
import MarkupAudit.Proofs.Text.Spelling
import MarkupAudit.Proofs.Markup.Rendered
import MarkupAudit.Proofs.Markup.Assignment
import MarkupAudit.Proofs.Guideline.Repairs
import MarkupAudit.Proofs.Edit.Controls
import MarkupAudit.Proofs.Edit.Permutation
import MarkupAudit.Proofs.Evaluation.Visibility
import MarkupAudit.Proofs.Markup.Window
import MarkupAudit.Proofs.Guideline.Containers
import MarkupAudit.Proofs.Pattern.Language
import MarkupAudit.Proofs.Guideline.Labels
import MarkupAudit.Proofs.Markup.Scanner
import MarkupAudit.Proofs.Markup.Names
import MarkupAudit.Proofs.Markup.Enclosure
import MarkupAudit.Proofs.Catalog.Validation
import MarkupAudit.Proofs.Catalog.Disabling
import MarkupAudit.Proofs.Json.Writer
import MarkupAudit.Proofs.Config.NormalForm
import MarkupAudit.Proofs.Markup.InnerText
import MarkupAudit.Proofs.Markup.Masking
import MarkupAudit.Proofs.Markup.Values
import MarkupAudit.Proofs.Markup.Declarations
import MarkupAudit.Proofs.Guideline.Contrast
