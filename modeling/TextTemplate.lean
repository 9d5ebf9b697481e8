import TextTemplate.Bundle
import TextTemplate.Code.EscapedUnit
import TextTemplate.Code.FixedText
import TextTemplate.Code.Keyword
import TextTemplate.Code.StringLiteral
import TextTemplate.Collect
import TextTemplate.Collect.Frame
import TextTemplate.Collect.Includes
import TextTemplate.Collect.LiteralRun
import TextTemplate.Collect.OpenSources
import TextTemplate.Collect.Walk
import TextTemplate.Command.Arguments
import TextTemplate.Command.Elapsed
import TextTemplate.Command.FileTree
import TextTemplate.Command.PathText
import TextTemplate.Command.Run
import TextTemplate.Directive.Schema
import TextTemplate.Exchange.Reading
import TextTemplate.Exchange.Writing
import TextTemplate.Json.Number
import TextTemplate.Json.Reader
import TextTemplate.Json.Token
import TextTemplate.Json.Value
import TextTemplate.Json.Writer
import TextTemplate.Macros
import TextTemplate.Main
import TextTemplate.Piece
import TextTemplate.Problem
import TextTemplate.Problem.Report
import TextTemplate.Program
import TextTemplate.Program.Draft
import TextTemplate.Program.Options
import TextTemplate.Projection
import TextTemplate.Projection.Injection
import TextTemplate.Projection.Table
import TextTemplate.Proofs.Absorption
import TextTemplate.Proofs.BuiltTemplates
import TextTemplate.Proofs.Effects
import TextTemplate.Proofs.Encounters
import TextTemplate.Proofs.EscapedUnits
import TextTemplate.Proofs.Layout
import TextTemplate.Proofs.LiteralRuns
import TextTemplate.Proofs.Lookup
import TextTemplate.Proofs.Origins
import TextTemplate.Proofs.PositionMaps
import TextTemplate.Proofs.Provenance
import TextTemplate.Proofs.OffsetSums
import TextTemplate.Proofs.TrimmedValues
import TextTemplate.Proofs.TakenPlaces
import TextTemplate.Proofs.SingleFrame
import TextTemplate.Proofs.Slices
import TextTemplate.Proofs.TracedCode
import TextTemplate.Proofs.Transformation
import TextTemplate.Proofs.Visits
import TextTemplate.Proofs.WrittenPieces
import TextTemplate.SourcePath
import TextTemplate.Span
import TextTemplate.Template
import TextTemplate.Template.Builder
import TextTemplate.Text.Blank
import TextTemplate.Text.Hex
import TextTemplate.Text.Letters
import TextTemplate.Text.Lines
import TextTemplate.Text.Position
import TextTemplate.Text.Utf16
import TextTemplate.Text.Width
import TextTemplate.Proofs.RecordedPieces
import TextTemplate.Proofs.Traversal
import TextTemplate.Proofs.Cancellation
import TextTemplate.Proofs.OpenIncludes
import TextTemplate.Proofs.RecordedProblems
import TextTemplate.Proofs.RecordedReferences
import TextTemplate.Proofs.ChangedBundles
import TextTemplate.Proofs.CutTexts
import TextTemplate.Proofs.FirstTemplate
import TextTemplate.Proofs.SkippedNodes
import TextTemplate.Proofs.SourceStack
import TextTemplate.Proofs.LocatedReports
import TextTemplate.Proofs.Utf16Slices
import TextTemplate.Proofs.HostedCode
import TextTemplate.Proofs.OffsetRange
import TextTemplate.Proofs.NormalPaths
import TextTemplate.Proofs.SelfIncludes
import TextTemplate.Proofs.StringLiterals
import TextTemplate.Proofs.JsonRoundTrip
import TextTemplate.Proofs.BundleRoundTrip
import TextTemplate.Proofs.FileContents
import TextTemplate.Proofs.FilePaths
import TextTemplate.Proofs.BundleFiles
import TextTemplate.Proofs.DirectoryRuns
import TextTemplate.Proofs.EscapedRanges
import TextTemplate.Proofs.CountedLines
import TextTemplate.Proofs.RunLines
import TextTemplate.Proofs.MacroReferences
import TextTemplate.Proofs.ResolvedPaths
import TextTemplate.Proofs.ClassBody
import TextTemplate.Proofs.TableScans
import TextTemplate.Proofs.TiledTexts
import TextTemplate.Proofs.DirectiveFates
import TextTemplate.Proofs.DeclaredParameters
import TextTemplate.Proofs.MacroScopes
import TextTemplate.Proofs.CapturedBases
import TextTemplate.Proofs.NestedFrames
import TextTemplate.Proofs.SpacedPieces
import TextTemplate.Proofs.PlacedStretches
import TextTemplate.Proofs.TextPositions
import TextTemplate.Proofs.MarkedRanges
import TextTemplate.Proofs.ConservedText
import TextTemplate.Proofs.SharedPrograms
import TextTemplate.Proofs.Boundaries
import TextTemplate.Proofs.LiteralUnits
import TextTemplate.Proofs.Utf16Offsets
