import BoardBlob.Blob.Compile
import BoardBlob.Blob.CompileFault
import BoardBlob.Blob.Decompile
import BoardBlob.Blob.EntryBuffer
import BoardBlob.Blob.Layout
import BoardBlob.Blob.Listing
import BoardBlob.Blob.LoadFault
import BoardBlob.Blob.NameTable
import BoardBlob.Blob.View
import BoardBlob.Blob.Writing
import BoardBlob.Board.Conversion
import BoardBlob.Board.Document
import BoardBlob.Board.Loading
import BoardBlob.Board.Parsing
import BoardBlob.Board.Source
import BoardBlob.Bytes.LittleEndian
import BoardBlob.Bytes.Slice
import BoardBlob.Bytes.Utf8
import BoardBlob.CommandLine.Argument
import BoardBlob.CommandLine.Fault
import BoardBlob.CommandLine.Given
import BoardBlob.CommandLine.Help
import BoardBlob.CommandLine.Parsing
import BoardBlob.CommandLine.Request
import BoardBlob.CommandLine.Run
import BoardBlob.CommandLine.Value
import BoardBlob.CommandLine.Vocabulary
import BoardBlob.Device.AuxSlot
import BoardBlob.Device.Device
import BoardBlob.Device.Fault
import BoardBlob.Device.Flags
import BoardBlob.Device.Kind
import BoardBlob.Device.Slots
import BoardBlob.Device.Validation
import BoardBlob.Failure
import BoardBlob.Files.Disk
import BoardBlob.Files.FileFault
import BoardBlob.Files.FileTree
import BoardBlob.Files.Path
import BoardBlob.Files.StagedName
import BoardBlob.Journal
import BoardBlob.Json.Fault
import BoardBlob.Json.Nesting
import BoardBlob.Json.Number
import BoardBlob.Json.Reader
import BoardBlob.Json.Token
import BoardBlob.Main
import BoardBlob.Proofs.AcceptedView
import BoardBlob.Proofs.AssembledView
import BoardBlob.Proofs.CheckedLoader
import BoardBlob.Proofs.CompileOutcome
import BoardBlob.Proofs.CompileStages
import BoardBlob.Proofs.CompiledLookup
import BoardBlob.Proofs.CompiledView
import BoardBlob.Proofs.DecodedDevices
import BoardBlob.Proofs.FirstFault
import BoardBlob.Proofs.LoaderSafety
import BoardBlob.Proofs.RecordCodec
import BoardBlob.Proofs.ReferenceLayout
import BoardBlob.Proofs.StoredNames
import BoardBlob.Proofs.TextBytes
import BoardBlob.Record.Entry
import BoardBlob.Record.Field
import BoardBlob.Record.Header
import BoardBlob.Text.AsciiCase
import BoardBlob.Text.Blank
import BoardBlob.Text.Hexadecimal
import BoardBlob.Text.Numeral
import BoardBlob.Text.Quoted
import BoardBlob.Text.RealText
import BoardBlob.Text.Shortest
import BoardBlob.Text.Terminal
import BoardBlob.Text.Unprinted
import BoardBlob.Proofs.CutBlob
import BoardBlob.Proofs.Recompilation
import BoardBlob.Proofs.FilePaths
import BoardBlob.Proofs.AtomicOutput
import BoardBlob.Proofs.InternedNames
import BoardBlob.Proofs.DryRun
import BoardBlob.Proofs.ListedFaults
import BoardBlob.Proofs.WrittenJson
import BoardBlob.Proofs.ScannedJson
import BoardBlob.Proofs.ReadJson
import BoardBlob.Proofs.WrittenBoard
import BoardBlob.Proofs.OverwrittenBytes
import BoardBlob.Proofs.ChangedBytes
import BoardBlob.Proofs.RelatedBlobs
import BoardBlob.Proofs.FormatChecks
import BoardBlob.Proofs.ResolvedNames
import BoardBlob.Proofs.NameSearch
import BoardBlob.Proofs.Iteration
import BoardBlob.Proofs.DecompileOutcome
import BoardBlob.Proofs.NameTableRuns
import BoardBlob.Proofs.WrittenParts
import BoardBlob.Proofs.TextOrder
import BoardBlob.Proofs.AuxSources
import BoardBlob.Proofs.BoardConversion
import BoardBlob.Proofs.DeviceConditions
import BoardBlob.Proofs.NumberTexts
import BoardBlob.Proofs.ExpressedDevices
import BoardBlob.Proofs.NumberLiterals
import BoardBlob.Proofs.AcceptedTokens
import BoardBlob.Proofs.SteadyReaders
import BoardBlob.Proofs.BoardFamilies
import BoardBlob.Proofs.BoardNumbers
import BoardBlob.Proofs.WrittenRecords
import BoardBlob.Proofs.EntryRuns
import BoardBlob.Proofs.ShownValues
import BoardBlob.Proofs.ShownBlobs
import BoardBlob.Proofs.IndependentFields
