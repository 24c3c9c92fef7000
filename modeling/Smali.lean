import Smali.Text.Blank
import Smali.Text.Cut
import Smali.Text.Numeral
import Smali.Text.Quoted
import Smali.Table
import Smali.Descriptor
import Smali.Slot
import Smali.Literal
import Smali.Identifier
import Smali.Flags
import Smali.Token
import Smali.Instruction.Decode
import Smali.Binary.Arithmetic
import Smali.Decimal.Reader
import Smali.Decimal.Shortest
import Smali.Source.Reader
import Smali.Machine.Arithmetic
import Smali.Machine.Heap
import Smali.Machine.Slots
import Smali.Machine.State
import Smali.Machine.Resolve
import Smali.Machine.Library
import Smali.Machine.Run
import Smali.Main
import Smali.Proofs.Faults
import Smali.Proofs.Walks
import Smali.Proofs.Flow
import Smali.Proofs.Elements
import Smali.Proofs.Changes
import Smali.Proofs.Moves
import Smali.Proofs.Session
import Smali.Proofs.Handles
import Smali.Proofs.Reach
import Smali.Proofs.CallBalance
import Smali.Proofs.DepthLimit
import Smali.Proofs.Termination
import Smali.Proofs.Lines
import Smali.Proofs.Loading
import Smali.Proofs.VoidArrays
import Smali.Proofs.HeapMoves
import Smali.Proofs.HeapTyping
import Smali.Proofs.Superclasses
import Smali.Proofs.Labels
import Smali.Proofs.ClassMoves
import Smali.Proofs.ClassStatus
import Smali.Proofs.Names
import Smali.Proofs.StaticTypes
import Smali.Proofs.FailedInitializers
import Smali.Proofs.StringPool
import Smali.Proofs.Executions
import Smali.Proofs.SlotWrites
import Smali.Proofs.InPlace
import Smali.Proofs.Footprint
import Smali.Proofs.Cells
import Smali.Proofs.Memory
import Smali.Proofs.Reading
import Smali.Proofs.SourceText
import Smali.Proofs.JoinedSources
import Smali.Proofs.FailedSources
import Smali.Proofs.Definitions
import Smali.Proofs.RenumberedRuns
import Smali.Proofs.SourceOrder
import Smali.Proofs.Annotations
import Smali.Proofs.DescriptorTexts
import Smali.Proofs.Noise
import Smali.Proofs.StringLiterals
import Smali.Proofs.IntegerArithmetic
import Smali.Proofs.SlotHistories
import Smali.Proofs.QuietRuns
import Smali.Proofs.ParameterLayout
import Smali.Proofs.NestedRuns
import Smali.Proofs.LibraryMethods
import Smali.Proofs.HostKeys
import Smali.Proofs.ReturnValues
import Smali.Proofs.SlotContents
import Smali.Proofs.NearestDeclaration
import Smali.Proofs.OutsideLookup
import Smali.Proofs.ReflectiveWrites
import Smali.Proofs.MethodTexts
import Smali.Proofs.InstructionTable
import Smali.Proofs.LiteralValues
import Smali.Proofs.Immediates
import Smali.Proofs.SwitchDispatch
import Smali.Proofs.IdentifierTexts
import Smali.Proofs.TokenTexts
import Smali.Proofs.CharacterLiterals
import Smali.Proofs.LastReturn
import Smali.Proofs.CodePoints
import Smali.Proofs.StringUnits
import Smali.Proofs.EntryArguments
