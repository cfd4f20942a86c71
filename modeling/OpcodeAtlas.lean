import OpcodeAtlas.Attribute
import OpcodeAtlas.CpuMode.Basic
import OpcodeAtlas.CpuMode.Specifier
import OpcodeAtlas.CpuidFeature
import OpcodeAtlas.Decorator
import OpcodeAtlas.Dispatch.Component
import OpcodeAtlas.Dispatch.Group
import OpcodeAtlas.Dispatch.Index
import OpcodeAtlas.Dispatch.Residual
import OpcodeAtlas.Dispatch.Tree
import OpcodeAtlas.Encoding.Basic
import OpcodeAtlas.Encoding.Field
import OpcodeAtlas.Encoding.Parse
import OpcodeAtlas.Encoding.Token
import OpcodeAtlas.Evex
import OpcodeAtlas.ExceptionType
import OpcodeAtlas.Filter
import OpcodeAtlas.Flag
import OpcodeAtlas.FpuFlag
import OpcodeAtlas.Golden.Parse
import OpcodeAtlas.Golden.Reader
import OpcodeAtlas.Golden.Run
import OpcodeAtlas.Instruction.Basic
import OpcodeAtlas.Instruction.Build
import OpcodeAtlas.Instruction.Mnemonic
import OpcodeAtlas.Instruction.Payload
import OpcodeAtlas.Instruction.Summary
import OpcodeAtlas.LegacyPrefix
import OpcodeAtlas.Line
import OpcodeAtlas.LineDiff.Alignment
import OpcodeAtlas.LineDiff.Report
import OpcodeAtlas.Log
import OpcodeAtlas.Metadata.Basic
import OpcodeAtlas.Metadata.Entry
import OpcodeAtlas.Operand.Basic
import OpcodeAtlas.Operand.Fixed
import OpcodeAtlas.Operand.Parse
import OpcodeAtlas.Operand.Size
import OpcodeAtlas.Operand.Type
import OpcodeAtlas.OperandAccess
import OpcodeAtlas.OrderedSet
import OpcodeAtlas.Proofs.Dispatch.Placement
import OpcodeAtlas.Proofs.Traversal
import OpcodeAtlas.SimdException
import OpcodeAtlas.SpecError
import OpcodeAtlas.Specification.Failure
import OpcodeAtlas.Specification.Load
import OpcodeAtlas.Specification.Source
import OpcodeAtlas.Specification.Trees
import OpcodeAtlas.Templates.Basic
import OpcodeAtlas.Templates.Load
import OpcodeAtlas.Templates.Standard
import OpcodeAtlas.Templates.Table
import OpcodeAtlas.Text.Basic
import OpcodeAtlas.Text.Number
import OpcodeAtlas.Update
import OpcodeAtlas.Vocabulary
import OpcodeAtlas.Proofs.Dispatch.Growth
import OpcodeAtlas.Proofs.Dispatch.Leaves
import OpcodeAtlas.Proofs.Specification.Trees
import OpcodeAtlas.Proofs.Dispatch.Path
import OpcodeAtlas.Proofs.Dispatch.Separation
import OpcodeAtlas.Proofs.Dispatch.Order
import OpcodeAtlas.Proofs.Dispatch.Failure
import OpcodeAtlas.Proofs.Encoding.Values
import OpcodeAtlas.Proofs.Specification.Conflicts
import OpcodeAtlas.Proofs.Specification.Checks
import OpcodeAtlas.Proofs.Instruction.Build
import OpcodeAtlas.Proofs.Instruction.Operands
import OpcodeAtlas.Proofs.Metadata.Order
import OpcodeAtlas.Proofs.Encoding.Spelling
import OpcodeAtlas.Proofs.Encoding.Merging
import OpcodeAtlas.Proofs.Dispatch.Merging
import OpcodeAtlas.Proofs.Encoding.Attributes
import OpcodeAtlas.Proofs.Instruction.Attributes
import OpcodeAtlas.Proofs.Instruction.Filters
import OpcodeAtlas.Proofs.Instruction.Inference
import OpcodeAtlas.Proofs.Instruction.EvexMode
import OpcodeAtlas.Proofs.Instruction.OperandFlags
import OpcodeAtlas.Proofs.Text.Marks
import OpcodeAtlas.Proofs.Vocabulary
import OpcodeAtlas.Proofs.Decorators
import OpcodeAtlas.Proofs.Operand.Grammar
import OpcodeAtlas.Proofs.Operand.Decorators
import OpcodeAtlas.Proofs.Operand.Mask
import OpcodeAtlas.Proofs.Instruction.MaskOperand
import OpcodeAtlas.Proofs.Metadata.Access
import OpcodeAtlas.Proofs.Instruction.Access
import OpcodeAtlas.Proofs.Text.Deletion
import OpcodeAtlas.Proofs.NestedDecorators
import OpcodeAtlas.Proofs.Encoding.Position
import OpcodeAtlas.Proofs.Encoding.Contributions
import OpcodeAtlas.Proofs.Encoding.Grammar
import OpcodeAtlas.Proofs.Encoding.Shorthand
import OpcodeAtlas.Proofs.Encoding.Signs
import OpcodeAtlas.Proofs.Encoding.Exchange
import OpcodeAtlas.Proofs.ModeClauses
import OpcodeAtlas.Proofs.Text.Output
import OpcodeAtlas.Proofs.Dispatch.Dump
import OpcodeAtlas.Proofs.Dispatch.Depth
import OpcodeAtlas.Proofs.Dispatch.Bounds
import OpcodeAtlas.Proofs.Specification.Loading
import OpcodeAtlas.Proofs.Golden.Lines
import OpcodeAtlas.Proofs.Golden.Verdict
import OpcodeAtlas.Proofs.Golden.BlankLines
import OpcodeAtlas.Proofs.LineDiff.Visibility
import OpcodeAtlas.Proofs.Templates.Substitution
import OpcodeAtlas.Proofs.Templates.Definitions
import OpcodeAtlas.Proofs.CpuidFeature
import OpcodeAtlas.Proofs.FlagEntries
import OpcodeAtlas.Proofs.OrderedSet.History
import OpcodeAtlas.Proofs.OrderedSet.Rendering
import OpcodeAtlas.Proofs.TokenLists
import OpcodeAtlas.Proofs.FailedUpdates
import OpcodeAtlas.Proofs.Dispatch.Index
