import FlavorTable.Page.Render
import FlavorTable.Session
import FlavorTable.Proofs.Query.Requery
import FlavorTable.Proofs.Csv.RoundTrip
import FlavorTable.Proofs.Csv.Separators
import FlavorTable.Proofs.Index.Views
import FlavorTable.Proofs.Query.RowOrder
import FlavorTable.Proofs.Csv.Margins
import FlavorTable.Proofs.Page.Containers
import FlavorTable.Proofs.Page.Pressed
import FlavorTable.Proofs.Page.Download
import FlavorTable.Proofs.Row.Checking
import FlavorTable.Proofs.Text.Utf8
import FlavorTable.Proofs.Engine.Building
import FlavorTable.Proofs.File.Loading
import FlavorTable.Proofs.Page.Announcements
import FlavorTable.Proofs.Page.Answer
import FlavorTable.Proofs.Page.Endings
import FlavorTable.Proofs.Csv.Format
import FlavorTable.Proofs.Session.Snapshot
import FlavorTable.Proofs.Page.Again
import FlavorTable.Proofs.Lookup.Coverage
import FlavorTable.Proofs.Lookup.Partition
import FlavorTable.Proofs.Csv.Delimiter
import FlavorTable.Proofs.Grid.Layout
import FlavorTable.Proofs.Text.Names
import FlavorTable.Proofs.Page.Reach
import FlavorTable.Proofs.Lookup.Pattern
import FlavorTable.Proofs.Query.EmptySuffix
import FlavorTable.Proofs.Csv.Header
import FlavorTable.Proofs.Row.Rendering
import FlavorTable.Proofs.Csv.Breaks
import FlavorTable.Proofs.Row.Lattice
import FlavorTable.Proofs.Query.Rewriting
import FlavorTable.Proofs.Value.Written
import FlavorTable.Proofs.Number.Shortest
