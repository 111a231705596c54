import CollisionMesh.AxisMap
import CollisionMesh.Batch
import CollisionMesh.CommandLine
import CollisionMesh.CommandLine.Arguments
import CollisionMesh.CommandLine.Command
import CollisionMesh.Conversion
import CollisionMesh.Failure
import CollisionMesh.FileSystem
import CollisionMesh.FileSystem.Scan
import CollisionMesh.FileSystem.Text
import CollisionMesh.FileSystem.Writing
import CollisionMesh.Geometry
import CollisionMesh.Grid
import CollisionMesh.Identifier
import CollisionMesh.Interchange
import CollisionMesh.Main
import CollisionMesh.Manifest
import CollisionMesh.Manifest.Build
import CollisionMesh.Manifest.Document
import CollisionMesh.Mesh
import CollisionMesh.Mesh.Reader
import CollisionMesh.Mesh.Statement
import CollisionMesh.Mesh.Triangulation
import CollisionMesh.Number.Binary64
import CollisionMesh.Number.Literal
import CollisionMesh.Number.Shortest
import CollisionMesh.Number.Stepwise
import CollisionMesh.Options
import CollisionMesh.Options.Document
import CollisionMesh.Path
import CollisionMesh.Surface
import CollisionMesh.Surface.Source
import CollisionMesh.Text.Blank
import CollisionMesh.Text.LowerCase
import CollisionMesh.Text.Quoted
import CollisionMesh.Text.Visible
import CollisionMesh.Toml.Draft
import CollisionMesh.Toml.Moment
import CollisionMesh.Toml.Quoted
import CollisionMesh.Toml.Reader
import CollisionMesh.Toml.Scalar
import CollisionMesh.Toml.Value
import CollisionMesh.TriangleList
import CollisionMesh.TriangleList.Reader
import CollisionMesh.Proofs.BlankText
import CollisionMesh.Proofs.Traversal
import CollisionMesh.Proofs.Triangulation
import CollisionMesh.Proofs.Identifiers
import CollisionMesh.Proofs.MeshReading
import CollisionMesh.Proofs.SurfaceRecords
import CollisionMesh.Proofs.PathPieces
import CollisionMesh.Proofs.TriangleListText
import CollisionMesh.Proofs.Walking
import CollisionMesh.Proofs.SourceLines
import CollisionMesh.Proofs.SourceReading
import CollisionMesh.Proofs.TwoStages
import CollisionMesh.Proofs.ValidSurfaces
import CollisionMesh.Proofs.PathDirectories
import CollisionMesh.Proofs.Trees
import CollisionMesh.Proofs.Directories
import CollisionMesh.Proofs.TemporaryFiles
import CollisionMesh.Proofs.AllOrNothing
import CollisionMesh.Proofs.PathJoin
import CollisionMesh.Proofs.Scanning
import CollisionMesh.Proofs.BatchOrders
import CollisionMesh.Proofs.BatchRuns
import CollisionMesh.Proofs.BatchIndependence
import CollisionMesh.Proofs.ManifestReading
import CollisionMesh.Proofs.OptionFaults
import CollisionMesh.Proofs.ManifestJobs
import CollisionMesh.Proofs.ManifestBuild
import CollisionMesh.Proofs.ConfinedNames
import CollisionMesh.Proofs.Destinations
import CollisionMesh.Proofs.RunEffects
import CollisionMesh.Proofs.BatchOutputs
import CollisionMesh.Proofs.ManifestHeader
import CollisionMesh.Proofs.VertexPolicies
import CollisionMesh.Proofs.SignedPermutations
import CollisionMesh.Proofs.SavedTriangles
import CollisionMesh.Proofs.HeaderDeclarations
import CollisionMesh.Proofs.SharedFields
import CollisionMesh.Proofs.ManifestParts
import CollisionMesh.Proofs.ManifestLayers
import CollisionMesh.Proofs.Rescanning
import CollisionMesh.Proofs.BatchReruns
import CollisionMesh.Proofs.ExactDecimals
import CollisionMesh.Proofs.AskedOptions
import CollisionMesh.Proofs.ConversionRoutes
import CollisionMesh.Proofs.LinkedOutputs
import CollisionMesh.Proofs.EncodedText
import CollisionMesh.Proofs.FanBoundary
import CollisionMesh.Proofs.LineLayout
import CollisionMesh.Proofs.AppendedMeshes
import CollisionMesh.Proofs.PlainReferences
import CollisionMesh.Proofs.SmallLetters
import CollisionMesh.Proofs.AxisTexts
import CollisionMesh.Proofs.PathComponents
import CollisionMesh.Proofs.PathOrder
import CollisionMesh.Proofs.ScannedFiles
import CollisionMesh.Proofs.DefaultNames
import CollisionMesh.Proofs.QuotedText
import CollisionMesh.Proofs.NamedOthers
import CollisionMesh.Proofs.FixedIdentifiers
import CollisionMesh.Proofs.WholeParts
import CollisionMesh.Proofs.CountedGrid
