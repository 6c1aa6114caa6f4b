import WireProxy.Access
import WireProxy.Code.Declarations
import WireProxy.Code.Definitions
import WireProxy.Code.Lines
import WireProxy.Code.Names
import WireProxy.CommandLine
import WireProxy.Disk.Basic
import WireProxy.Disk.Volume
import WireProxy.Fault
import WireProxy.Generation
import WireProxy.Journal
import WireProxy.Json.Protocol
import WireProxy.Json.Proxy
import WireProxy.Json.Settings
import WireProxy.Json.Value
import WireProxy.Loading
import WireProxy.Loading.Journal
import WireProxy.Main
import WireProxy.Proofs.AccessTable
import WireProxy.Proofs.Atomicity
import WireProxy.Proofs.BodyNames
import WireProxy.Proofs.Calls
import WireProxy.Proofs.Characters
import WireProxy.Proofs.ConstantNames
import WireProxy.Proofs.ConstantReading
import WireProxy.Proofs.Descriptors
import WireProxy.Proofs.Dispatch
import WireProxy.Proofs.Effect
import WireProxy.Proofs.Encoding
import WireProxy.Proofs.Exclusion
import WireProxy.Proofs.FieldOrder
import WireProxy.Proofs.FirstFault
import WireProxy.Proofs.FreeName
import WireProxy.Proofs.Grants
import WireProxy.Proofs.Growth
import WireProxy.Proofs.Members
import WireProxy.Proofs.NestedScan
import WireProxy.Proofs.Nesting
import WireProxy.Proofs.Numeral
import WireProxy.Proofs.Opcodes
import WireProxy.Proofs.Outline
import WireProxy.Proofs.ParameterLists
import WireProxy.Proofs.ParameterNames
import WireProxy.Proofs.Printing
import WireProxy.Proofs.Rearranging
import WireProxy.Proofs.Reordering
import WireProxy.Proofs.RoundTrip
import WireProxy.Proofs.Routes
import WireProxy.Proofs.Runs
import WireProxy.Proofs.Scanning
import WireProxy.Proofs.Signatures
import WireProxy.Proofs.Spans
import WireProxy.Proofs.Staging
import WireProxy.Proofs.Success
import WireProxy.Proofs.Validity
import WireProxy.Proofs.Versions
import WireProxy.Proofs.Volume
import WireProxy.Proofs.Writing
import WireProxy.Protocol.Argument
import WireProxy.Protocol.Basic
import WireProxy.Protocol.Interface
import WireProxy.Proxy.Basic
import WireProxy.Proxy.Journal
import WireProxy.Proxy.Lowering
import WireProxy.Settings
import WireProxy.Text.Blank
import WireProxy.Text.FreeName
import WireProxy.Text.Invisible
import WireProxy.Text.NameSet
import WireProxy.Text.Numeral
import WireProxy.Text.Ranges
import WireProxy.ValueType
import WireProxy.Xml.Character
import WireProxy.Xml.Document
import WireProxy.Xml.Namespace
import WireProxy.Xml.Node
import WireProxy.Xml.Reference
import WireProxy.Xml.Token
