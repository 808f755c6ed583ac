import BatchShader.Batch
import BatchShader.Binary32
import BatchShader.Binary32.Functions
import BatchShader.Binary32.Text
import BatchShader.Builtin.Catalogue
import BatchShader.Builtin.Componentwise
import BatchShader.Builtin.Geometric
import BatchShader.Builtin.Overload
import BatchShader.Builtin.Overview
import BatchShader.Builtin.Registry
import BatchShader.Builtin.SelfCheck
import BatchShader.Builtin.TextureLookup
import BatchShader.Config
import BatchShader.Conversion
import BatchShader.Decimal.Shortest
import BatchShader.Declaration.Grammar
import BatchShader.Declaration.Token
import BatchShader.Failure
import BatchShader.Folding
import BatchShader.Interpreter
import BatchShader.LiveChain
import BatchShader.Lock.Blocking
import BatchShader.Lock.LazyCell
import BatchShader.Lock.Lifecycle
import BatchShader.Lock.Platform
import BatchShader.Lock.Spinning
import BatchShader.Lock.System
import BatchShader.Main
import BatchShader.Operation
import BatchShader.Operator
import BatchShader.Proofs.Batch
import BatchShader.Proofs.Builtin.Directions
import BatchShader.Proofs.Builtin.Names
import BatchShader.Proofs.Builtin.Policy
import BatchShader.Proofs.Builtin.Refusal
import BatchShader.Proofs.Builtin.Registry
import BatchShader.Proofs.Builtin.Relations
import BatchShader.Proofs.Builtin.Resolution
import BatchShader.Proofs.Builtin.RowTexture
import BatchShader.Proofs.Builtin.RowWise
import BatchShader.Proofs.Builtin.Slots
import BatchShader.Proofs.Builtin.Standard
import BatchShader.Proofs.Builtin.Stray
import BatchShader.Proofs.Builtin.Sums
import BatchShader.Proofs.Builtin.TextureLookup
import BatchShader.Proofs.Constructor
import BatchShader.Proofs.Coverage
import BatchShader.Proofs.Declaration.Expansion
import BatchShader.Proofs.Declaration.Grammar
import BatchShader.Proofs.Declaration.Offending
import BatchShader.Proofs.Declaration.RoundTrip
import BatchShader.Proofs.Declaration.Scanning
import BatchShader.Proofs.Equality
import BatchShader.Proofs.FloatEquality
import BatchShader.Proofs.FoldedForm
import BatchShader.Proofs.Folding
import BatchShader.Proofs.InRange
import BatchShader.Proofs.Interpreter.Assignment
import BatchShader.Proofs.Interpreter.Components
import BatchShader.Proofs.Interpreter.Expression
import BatchShader.Proofs.Interpreter.History
import BatchShader.Proofs.Interpreter.Names
import BatchShader.Proofs.Interpreter.OneRow
import BatchShader.Proofs.Interpreter.Policy
import BatchShader.Proofs.Interpreter.Reads
import BatchShader.Proofs.Interpreter.Selection
import BatchShader.Proofs.Interpreter.Shapes
import BatchShader.Proofs.Interpreter.Statement
import BatchShader.Proofs.Interpreter.Trail
import BatchShader.Proofs.Interpreter.WriteMask
import BatchShader.Proofs.LaneLoop
import BatchShader.Proofs.LinearAlgebra
import BatchShader.Proofs.LiveChain
import BatchShader.Proofs.LiveSet
import BatchShader.Proofs.Lock.Blocking
import BatchShader.Proofs.Lock.LazyCell
import BatchShader.Proofs.Lock.Lifecycle
import BatchShader.Proofs.Operation
import BatchShader.Proofs.Policy
import BatchShader.Proofs.Restrict
import BatchShader.Proofs.Result
import BatchShader.Proofs.Row
import BatchShader.Proofs.Safety.Execution
import BatchShader.Proofs.Safety.Operation
import BatchShader.Proofs.Safety.Run
import BatchShader.Proofs.Sequence
import BatchShader.Proofs.Texture.Addressing
import BatchShader.Proofs.Texture.Reads
import BatchShader.Proofs.Texture.Sampling
import BatchShader.Proofs.Texture.Wrap
import BatchShader.Proofs.Texture.WrapLaws
import BatchShader.Proofs.Transpose
import BatchShader.Proofs.WidestRuns
import BatchShader.Proofs.WorkSplit
import BatchShader.Register
import BatchShader.Shader
import BatchShader.ShaderType
import BatchShader.Signature
import BatchShader.Store
import BatchShader.Sweep
import BatchShader.Text.Blank
import BatchShader.Text.Printable
import BatchShader.Text.Quoted
import BatchShader.Texture.CubeMap
import BatchShader.Texture.Image
import BatchShader.Texture.Units
import BatchShader.Texture.Wrap
import BatchShader.Value
import BatchShader.VectorPaths
