import ComponentAtlas.Main
import ComponentAtlas.Proofs.Graph.Identity
import ComponentAtlas.Proofs.Diagram.Focus
import ComponentAtlas.Proofs.Graph.Relations
import ComponentAtlas.Proofs.Graph.Order
import ComponentAtlas.Proofs.Graph.RelativeImports
import ComponentAtlas.Proofs.Graph.Growth
import ComponentAtlas.Proofs.Graph.Heritage
import ComponentAtlas.Proofs.Session
import ComponentAtlas.Proofs.Status.Trace
import ComponentAtlas.Proofs.Session.Survival
import ComponentAtlas.Proofs.Extract.Facts
import ComponentAtlas.Proofs.Watch
import ComponentAtlas.Proofs.Settings.Store
import ComponentAtlas.Proofs.Diagram.Identifiers
import ComponentAtlas.Proofs.Diagram.Form
import ComponentAtlas.Proofs.Diagram.Quotes
import ComponentAtlas.Proofs.Settings.Saving
import ComponentAtlas.Proofs.Watch.Delivery
import ComponentAtlas.Proofs.Graph.Neighbourhood
import ComponentAtlas.Proofs.Diagram.Selection
import ComponentAtlas.Proofs.Settings.Merging
import ComponentAtlas.Proofs.Graph.Collection
import ComponentAtlas.Proofs.Graph.DefaultImports
import ComponentAtlas.Proofs.Extract.BaseList
import ComponentAtlas.Proofs.Extract.Bases
import ComponentAtlas.Proofs.Source.Descriptions
import ComponentAtlas.Proofs.Extract.ExportClause
import ComponentAtlas.Proofs.Extract.FromImports
import ComponentAtlas.Proofs.Extract.Imports
import ComponentAtlas.Proofs.Source.Listings
import ComponentAtlas.Proofs.Graph.ModuleImports
import ComponentAtlas.Proofs.Extract.Bodies
import ComponentAtlas.Proofs.Workspace.Exclusion
import ComponentAtlas.Proofs.Graph.Stats
import ComponentAtlas.Proofs.Text.Offsets
