import IdlStencil.CommandLine.Arguments
import IdlStencil.CommandLine.Invocation
import IdlStencil.CommandLine.Log
import IdlStencil.CommandLine.Pass
import IdlStencil.CommandLine.Path
import IdlStencil.CommandLine.Report
import IdlStencil.CommandLine.Run
import IdlStencil.CommandLine.World
import IdlStencil.Decimal.Binary64
import IdlStencil.Decimal.Layout
import IdlStencil.Decimal.Shortest
import IdlStencil.Diagnostic
import IdlStencil.Emission
import IdlStencil.Idl.Annot
import IdlStencil.Idl.Declaration
import IdlStencil.Idl.Literal
import IdlStencil.Idl.Scalar
import IdlStencil.Idl.Ty
import IdlStencil.Idl.Unit
import IdlStencil.Idl.Version
import IdlStencil.Interchange.Read
import IdlStencil.Interchange.Write
import IdlStencil.Json.Doc
import IdlStencil.Json.Fault
import IdlStencil.Json.Number
import IdlStencil.Json.Reader
import IdlStencil.Json.Record
import IdlStencil.Json.Token
import IdlStencil.Json.Value
import IdlStencil.Main
import IdlStencil.OrderedMap
import IdlStencil.Proofs.CompactText
import IdlStencil.Proofs.ReadsBack
import IdlStencil.Proofs.LongestKeyScan
import IdlStencil.Render.Annotations
import IdlStencil.Render.Context
import IdlStencil.Render.Declaration
import IdlStencil.Render.FieldList
import IdlStencil.Render.Function
import IdlStencil.Render.Naming
import IdlStencil.Render.Spelling
import IdlStencil.Sample
import IdlStencil.Snippet.Load
import IdlStencil.Snippet.Name
import IdlStencil.Snippet.Table
import IdlStencil.Template.Fill
import IdlStencil.Template.Substitutions
import IdlStencil.Text.Comparison
import IdlStencil.Text.Controls
import IdlStencil.Text.Find
import IdlStencil.Text.GraphemeExtend
import IdlStencil.Text.Lines
import IdlStencil.Text.Printable
import IdlStencil.Text.Quoted
import IdlStencil.Text.Ranges
import IdlStencil.Toml.Document
import IdlStencil.Toml.Plain
import IdlStencil.Toml.Strings
import IdlStencil.Toml.Table
import IdlStencil.Proofs.RoundTrip
import IdlStencil.Proofs.Parametric
import IdlStencil.Proofs.NameHoles
import IdlStencil.Proofs.PassNotes
import IdlStencil.Proofs.KeptNewlines
import IdlStencil.Proofs.SectionIsolation
import IdlStencil.Proofs.DepthBounds
import IdlStencil.Proofs.NormalForm
import IdlStencil.Proofs.Interleaving
import IdlStencil.Proofs.WorldFiles
import IdlStencil.Proofs.AllSections
import IdlStencil.Proofs.SameLookups
import IdlStencil.Proofs.SuffixShapes
import IdlStencil.Proofs.UnbrokenLines
import IdlStencil.Proofs.RecordReading
import IdlStencil.Proofs.Respelling
import IdlStencil.Proofs.Tolerance
import IdlStencil.Proofs.SpellingInvariance
import IdlStencil.Proofs.TableKeys
import IdlStencil.Proofs.FileOrder
import IdlStencil.Proofs.LoadedNames
import IdlStencil.Proofs.PlainSpelling
import IdlStencil.Proofs.UnknownSection
import IdlStencil.Proofs.CallFlowFacts
import IdlStencil.Proofs.DocumentKeys
import IdlStencil.Proofs.VersionGrammar
import IdlStencil.Proofs.PointedKeys
import IdlStencil.Proofs.TableBuilding
import IdlStencil.Proofs.FieldOrder
import IdlStencil.Proofs.DeclarationText
import IdlStencil.Proofs.CommandRuns
import IdlStencil.Proofs.CheckVerdict
import IdlStencil.Proofs.AliasFacts
