import ObjectMachine.Command.Answer
import ObjectMachine.Main
import ObjectMachine.Proofs.ArenaBytes
import ObjectMachine.Proofs.Headers
import ObjectMachine.Proofs.Tiling
import ObjectMachine.Proofs.StoredValues
import ObjectMachine.Proofs.Objects
import ObjectMachine.Proofs.SlotWrites
import ObjectMachine.Proofs.FreeSpace
import ObjectMachine.Proofs.Allocation
import ObjectMachine.Proofs.Collection
import ObjectMachine.Proofs.Heaps
import ObjectMachine.Proofs.Layouts
import ObjectMachine.Proofs.RegularMemory
import ObjectMachine.Proofs.TypedStore
import ObjectMachine.Proofs.Agreement
import ObjectMachine.Proofs.AlikeMachines
import ObjectMachine.Proofs.AllocatingInstructions
import ObjectMachine.Proofs.CallInstructions
import ObjectMachine.Proofs.Cycles
import ObjectMachine.Proofs.Sessions
import ObjectMachine.Proofs.Transparency
import ObjectMachine.Proofs.Outlines
import ObjectMachine.Proofs.CheckedCode
import ObjectMachine.Proofs.OperationErrors
import ObjectMachine.Proofs.CheckedFrames
import ObjectMachine.Proofs.CheckedMachines
import ObjectMachine.Proofs.CheckedSessions
import ObjectMachine.Proofs.OutlinedImages
import ObjectMachine.Proofs.ValidImages
import ObjectMachine.Proofs.Numerals
import ObjectMachine.Proofs.Spacing
import ObjectMachine.Proofs.Literals
import ObjectMachine.Proofs.SourceLines
import ObjectMachine.Proofs.SourceText
import ObjectMachine.Proofs.ByteReaders
import ObjectMachine.Proofs.BinaryImages
import ObjectMachine.Proofs.Activations
import ObjectMachine.Proofs.InnerFrames
import ObjectMachine.Proofs.CallStacks
import ObjectMachine.Proofs.Callers
import ObjectMachine.Proofs.Lineages
import ObjectMachine.Proofs.Dispatch
import ObjectMachine.Proofs.ClassLayouts
import ObjectMachine.Proofs.LinkedImages
import ObjectMachine.Proofs.Receivers
import ObjectMachine.Proofs.SessionInvariants
import ObjectMachine.Proofs.FrameLives
import ObjectMachine.Proofs.WellFormedFrames
import ObjectMachine.Proofs.CharacterStream
import ObjectMachine.Proofs.Conversions
import ObjectMachine.Proofs.Exhaustion
import ObjectMachine.Proofs.HeapChanges
import ObjectMachine.Proofs.StringValues
import ObjectMachine.Proofs.RepeatedCollections
import ObjectMachine.Proofs.Ancestors
import ObjectMachine.Proofs.CanonicalFreeLists
import ObjectMachine.Proofs.FirstFit
import ObjectMachine.Proofs.MethodBodies
import ObjectMachine.Proofs.BranchLabels
import ObjectMachine.Proofs.Escapes
import ObjectMachine.Proofs.Arguments
import ObjectMachine.Proofs.TypeNames
import ObjectMachine.Proofs.WrittenIntegers
import ObjectMachine.Proofs.MarkingRounds
