import MemLogic.Main
import MemLogic.Operand.Grammar
import MemLogic.Proofs.CommandLine.Channels
import MemLogic.Proofs.CommandLine.MachineReadable
import MemLogic.Proofs.CommandLine.OutputFile
import MemLogic.Proofs.CommandLine.Trimming
import MemLogic.Proofs.CommandLine.Verbosity
import MemLogic.Proofs.Condition.AddressCollection
import MemLogic.Proofs.Condition.Denotation
import MemLogic.Proofs.Condition.DistinctAddresses
import MemLogic.Proofs.Condition.Document
import MemLogic.Proofs.Condition.FaithfulTable
import MemLogic.Proofs.Condition.SingleRequirement
import MemLogic.Proofs.Condition.TableShape
import MemLogic.Proofs.Condition.WellFormed
import MemLogic.Proofs.Json.Quotation
import MemLogic.Proofs.Json.Rendering
import MemLogic.Proofs.Operand.NumberSpellings
import MemLogic.Proofs.Operand.OrderedChoice
import MemLogic.Proofs.Operand.Preference
import MemLogic.Proofs.Payload.CanonicalNumber
import MemLogic.Proofs.Payload.FixedPoints
import MemLogic.Proofs.Requirement.AnyCase
import MemLogic.Proofs.Requirement.OrderedChoice
import MemLogic.Proofs.Requirement.Wrapping
import MemLogic.Requirement.Grammar
import MemLogic.Requirement.Reading
