import Texel.Device.Scripted
import Texel.Graph.Edit
import Texel.Main
import Texel.Proofs.Action
import Texel.Proofs.Builtin.Library
import Texel.Proofs.Builtin.Specialised
import Texel.Proofs.Builtin.Table
import Texel.Proofs.Device.Binding
import Texel.Proofs.Device.Validator
import Texel.Proofs.Document.Acceptance
import Texel.Proofs.Document.Rebuild
import Texel.Proofs.Document.Text
import Texel.Proofs.Glsl.Blocks
import Texel.Proofs.Glsl.Braces
import Texel.Proofs.Glsl.Callees
import Texel.Proofs.Glsl.Closure
import Texel.Proofs.Glsl.Comments
import Texel.Proofs.Glsl.Correspondence
import Texel.Proofs.Glsl.Emission
import Texel.Proofs.Glsl.Extraction
import Texel.Proofs.Glsl.Grammar
import Texel.Proofs.Glsl.Interruption
import Texel.Proofs.Glsl.Lexing
import Texel.Proofs.Glsl.Library
import Texel.Proofs.Glsl.Lines
import Texel.Proofs.Glsl.Nesting
import Texel.Proofs.Glsl.Paste
import Texel.Proofs.Glsl.Pieces
import Texel.Proofs.Glsl.Recognition
import Texel.Proofs.Glsl.Renaming
import Texel.Proofs.Glsl.Rendering
import Texel.Proofs.Glsl.Respelling
import Texel.Proofs.Glsl.Spans
import Texel.Proofs.Glsl.Substitution
import Texel.Proofs.Glsl.Template
import Texel.Proofs.Graph.Ancestors
import Texel.Proofs.Graph.Bare
import Texel.Proofs.Graph.Cycles
import Texel.Proofs.Graph.Dataflow
import Texel.Proofs.Graph.Freshness
import Texel.Proofs.Graph.History
import Texel.Proofs.Graph.Marks
import Texel.Proofs.Graph.Params
import Texel.Proofs.Graph.Schedule
import Texel.Proofs.Graph.Standard
import Texel.Proofs.Graph.Wiring
import Texel.Proofs.Json.Numeral
import Texel.Proofs.Json.RoundTrip
import Texel.Proofs.Number.Range
import Texel.Proofs.Program.Assembly
import Texel.Proofs.Program.Blueprint
import Texel.Proofs.Program.Calls
import Texel.Proofs.Program.Correctness
import Texel.Proofs.Program.Definitions
import Texel.Proofs.Program.Denotation
import Texel.Proofs.Program.Descent
import Texel.Proofs.Program.Execution
import Texel.Proofs.Program.Failures
import Texel.Proofs.Program.Generation
import Texel.Proofs.Program.Inputs
import Texel.Proofs.Program.Layout
import Texel.Proofs.Program.Linking
import Texel.Proofs.Program.Names
import Texel.Proofs.Program.Outcome
import Texel.Proofs.Program.Provenance
import Texel.Proofs.Program.Scope
import Texel.Proofs.Program.Shape
import Texel.Proofs.Program.Simulation
import Texel.Proofs.Program.Structure
import Texel.Proofs.Program.Uniforms
import Texel.Proofs.Program.Unsupported
import Texel.Proofs.Program.Values
import Texel.Proofs.Program.WellTyped
import Texel.Proofs.Program.Wording
import Texel.Proofs.Session.History
import Texel.Proofs.Session.Outcome
import Texel.Proofs.Session.Ready
import Texel.Proofs.Session.Reopening
import Texel.Proofs.Session.Uploads
import Texel.Proofs.Shader.Reading
import Texel.Proofs.Shader.Statements
import Texel.Proofs.Shader.Typing
