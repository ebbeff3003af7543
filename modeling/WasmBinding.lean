import WasmBinding.Environment
import WasmBinding.Error
import WasmBinding.Exchange
import WasmBinding.Fault
import WasmBinding.Host.Args
import WasmBinding.Host.Basic
import WasmBinding.Host.Function
import WasmBinding.Host.Registry
import WasmBinding.Memory
import WasmBinding.Memory.View
import WasmBinding.Number.Ieee
import WasmBinding.Number.LittleEndian
import WasmBinding.Number.Sign
import WasmBinding.ParsedModule
import WasmBinding.Proofs.Host.Linking
import WasmBinding.Proofs.Host.Marshalling
import WasmBinding.Proofs.Host.OneMemory
import WasmBinding.Proofs.Host.Outcomes
import WasmBinding.Proofs.Host.Registry
import WasmBinding.Proofs.Host.Resolution
import WasmBinding.Proofs.Host.Rollback
import WasmBinding.Proofs.Host.Session
import WasmBinding.Proofs.Host.TypedCalls
import WasmBinding.Proofs.Signature
import WasmBinding.Proofs.Store.Calling
import WasmBinding.Proofs.Store.Dispatch
import WasmBinding.Proofs.Store.Frame
import WasmBinding.Proofs.Store.ImportCalls
import WasmBinding.Proofs.Store.Loading
import WasmBinding.Proofs.Store.SharedMemory
import WasmBinding.Proofs.Store.Slots
import WasmBinding.Proofs.Wasm.Endings
import WasmBinding.Proofs.Wasm.Execution
import WasmBinding.Proofs.Wasm.Validity
import WasmBinding.Proofs.Wasm.Values
import WasmBinding.Scalar
import WasmBinding.Script.HostScript
import WasmBinding.Script.MemoryStep
import WasmBinding.Script.RawScript
import WasmBinding.Settings
import WasmBinding.Signature
import WasmBinding.Store.Basic
import WasmBinding.Store.Call
import WasmBinding.Store.Import
import WasmBinding.Store.Load
import WasmBinding.Text.Basic
import WasmBinding.Text.Json
import WasmBinding.Text.Utf8
import WasmBinding.Text.Visible
import WasmBinding.Wasm.Binary.Code
import WasmBinding.Wasm.Binary.Module
import WasmBinding.Wasm.Binary.Name
import WasmBinding.Wasm.Binary.Reader
import WasmBinding.Wasm.Instance
import WasmBinding.Wasm.Instantiate
import WasmBinding.Wasm.Instr
import WasmBinding.Wasm.LinearMemory
import WasmBinding.Wasm.Machine
import WasmBinding.Wasm.Module
import WasmBinding.Wasm.Numeric
import WasmBinding.Wasm.Trap
import WasmBinding.Wasm.Typing.Code
import WasmBinding.Wasm.Value
import WasmBinding.Proofs.Store.Growth
import WasmBinding.Proofs.Store.Service
import WasmBinding.Proofs.Host.MemoryGrowth
import WasmBinding.Proofs.Store.LeftResults
import WasmBinding.Proofs.Host.Ownership
import WasmBinding.Proofs.Host.SharedViews
import WasmBinding.Proofs.Host.LinkTypes
import WasmBinding.Proofs.Store.Lookup
import WasmBinding.Proofs.Store.Isolation
import WasmBinding.Proofs.Host.Isolation
import WasmBinding.Proofs.Store.Cells
import WasmBinding.Proofs.Host.Cells
import WasmBinding.Proofs.Store.SilentLoad
import WasmBinding.Proofs.Host.SilentLoad
import WasmBinding.Proofs.Store.DeferredSize
import WasmBinding.Proofs.Host.DeferredSize
import WasmBinding.Proofs.Memory.Access
import WasmBinding.Proofs.Memory.Steps
import WasmBinding.Proofs.Memory.Arrays
import WasmBinding.Proofs.Memory.RoundTrip
import WasmBinding.Proofs.Text.Utf8
import WasmBinding.Proofs.Memory.Strings
import WasmBinding.Proofs.Host.ResultSlot
import WasmBinding.Proofs.Wasm.SlotBits
import WasmBinding.Proofs.Wasm.Answers
import WasmBinding.Proofs.Store.Pool
import WasmBinding.Proofs.Store.Places
import WasmBinding.Proofs.Store.RawCalls
import WasmBinding.Proofs.Store.Twins
import WasmBinding.Proofs.Store.SlotValues
import WasmBinding.Proofs.Host.SignatureText
import WasmBinding.Proofs.Wasm.Rejections
import WasmBinding.Proofs.Wasm.Underrun
import WasmBinding.Proofs.Host.Listing
import WasmBinding.Proofs.Store.ImportTable
import WasmBinding.Proofs.Host.Keys
import WasmBinding.Proofs.Scalar
