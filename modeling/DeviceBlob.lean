import DeviceBlob.Blob.Basic
import DeviceBlob.Blob.Cached
import DeviceBlob.Blob.Codec
import DeviceBlob.Blob.Difference
import DeviceBlob.Blob.Infer
import DeviceBlob.Blob.Slots
import DeviceBlob.Blob.Tree
import DeviceBlob.Blob.Write
import DeviceBlob.Bytes
import DeviceBlob.Code.ArrayAccess
import DeviceBlob.Code.CType
import DeviceBlob.Code.Declaration
import DeviceBlob.Code.Function
import DeviceBlob.Code.Generator
import DeviceBlob.Code.Names
import DeviceBlob.Code.PlainRecord
import DeviceBlob.Code.PointerRecord
import DeviceBlob.Code.Space
import DeviceBlob.Code.TypeCode
import DeviceBlob.Code.Unit
import DeviceBlob.CommandLine.Command
import DeviceBlob.CommandLine.Failure
import DeviceBlob.CommandLine.File
import DeviceBlob.CommandLine.Folder
import DeviceBlob.CommandLine.Help
import DeviceBlob.CommandLine.Run
import DeviceBlob.CommandLine.Switch
import DeviceBlob.DataType
import DeviceBlob.EnumType
import DeviceBlob.Error
import DeviceBlob.Fingerprint
import DeviceBlob.Json.Basic
import DeviceBlob.Json.Printer
import DeviceBlob.Json.Reader
import DeviceBlob.Layout.Basic
import DeviceBlob.Layout.Cache
import DeviceBlob.Layout.Compile
import DeviceBlob.Layout.Plan
import DeviceBlob.Layout.Text
import DeviceBlob.Layout.Words
import DeviceBlob.LinkedList
import DeviceBlob.Main
import DeviceBlob.Name
import DeviceBlob.Number.BinaryFormat
import DeviceBlob.Number.Double
import DeviceBlob.Number.Shortest
import DeviceBlob.Number.Style
import DeviceBlob.Params
import DeviceBlob.Proofs.Blob.Bounds
import DeviceBlob.Proofs.Blob.Cached
import DeviceBlob.Proofs.Blob.Codec
import DeviceBlob.Proofs.Blob.Correction
import DeviceBlob.Proofs.Blob.Difference
import DeviceBlob.Proofs.Blob.Edit
import DeviceBlob.Proofs.Blob.Infer
import DeviceBlob.Proofs.Blob.Open
import DeviceBlob.Proofs.Blob.Orderly
import DeviceBlob.Proofs.Blob.Record
import DeviceBlob.Proofs.Blob.Set
import DeviceBlob.Proofs.Blob.Shown
import DeviceBlob.Proofs.Blob.Silent
import DeviceBlob.Proofs.Blob.SlotNames
import DeviceBlob.Proofs.Blob.Slots
import DeviceBlob.Proofs.Blob.Stored
import DeviceBlob.Proofs.Blob.View
import DeviceBlob.Proofs.Blob.Words
import DeviceBlob.Proofs.Blob.Write
import DeviceBlob.Proofs.Buildable
import DeviceBlob.Proofs.Bytes
import DeviceBlob.Proofs.Code.Closure
import DeviceBlob.Proofs.Code.Identifiers
import DeviceBlob.Proofs.Code.Names
import DeviceBlob.Proofs.Code.PointerRecord
import DeviceBlob.Proofs.Code.Requests
import DeviceBlob.Proofs.Code.TypeCode
import DeviceBlob.Proofs.Code.Unit
import DeviceBlob.Proofs.Code.Visit
import DeviceBlob.Proofs.EnumType
import DeviceBlob.Proofs.Identity
import DeviceBlob.Proofs.Json.Atoms
import DeviceBlob.Proofs.Json.Pretty
import DeviceBlob.Proofs.Layout.Cache
import DeviceBlob.Proofs.Layout.Fields
import DeviceBlob.Proofs.Layout.Padding
import DeviceBlob.Proofs.Layout.Parameters
import DeviceBlob.Proofs.Layout.Path
import DeviceBlob.Proofs.Layout.Proper
import DeviceBlob.Proofs.Layout.Routing
import DeviceBlob.Proofs.Layout.SizePlan
import DeviceBlob.Proofs.Layout.Tiling
import DeviceBlob.Proofs.Layout.WellFormed
import DeviceBlob.Proofs.Layout.Words
import DeviceBlob.Proofs.LinkedList
import DeviceBlob.Proofs.LinkedList.Append
import DeviceBlob.Proofs.LinkedList.Frame
import DeviceBlob.Proofs.LinkedList.Strung
import DeviceBlob.Proofs.LinkedList.Walk
import DeviceBlob.Proofs.Name
import DeviceBlob.Proofs.Name.Lowering
import DeviceBlob.Proofs.Number.Exact
import DeviceBlob.Proofs.Number.Single
import DeviceBlob.Proofs.Outcome
import DeviceBlob.Proofs.PackedArray
import DeviceBlob.Proofs.Params
import DeviceBlob.Proofs.Params.Text
import DeviceBlob.Proofs.Registry
import DeviceBlob.Proofs.Schema.Document
import DeviceBlob.Proofs.Schema.Vectors
import DeviceBlob.Proofs.Signature
import DeviceBlob.Proofs.SlotArray
import DeviceBlob.Proofs.SlotArray.Cursor
import DeviceBlob.Proofs.SlotArray.FreeSlot
import DeviceBlob.Proofs.SortedMap
import DeviceBlob.Proofs.Text.Decimal
import DeviceBlob.Proofs.Text.Entries
import DeviceBlob.Proofs.Text.Letter
import DeviceBlob.Proofs.Text.Pieces
import DeviceBlob.Proofs.ToldApart
import DeviceBlob.Proofs.Tree.Bulk
import DeviceBlob.Proofs.Tree.Capacities
import DeviceBlob.Proofs.Tree.Entries
import DeviceBlob.Proofs.Tree.Exports
import DeviceBlob.Proofs.Tree.Flat
import DeviceBlob.Proofs.Tree.Kept
import DeviceBlob.Proofs.Tree.Leaves
import DeviceBlob.Proofs.Tree.Occupancy
import DeviceBlob.Proofs.Tree.OwnNames
import DeviceBlob.Proofs.Tree.Passes
import DeviceBlob.Proofs.Tree.RoundTrip
import DeviceBlob.Proofs.Tree.Shape
import DeviceBlob.Proofs.Tree.Slots
import DeviceBlob.Proofs.Tree.Update
import DeviceBlob.Proofs.Tree.WriteBack
import DeviceBlob.Proofs.VectorRun
import DeviceBlob.Registry
import DeviceBlob.Scalar
import DeviceBlob.Schema.Document
import DeviceBlob.Schema.Resolve
import DeviceBlob.SlotArray
import DeviceBlob.SortedMap
import DeviceBlob.Text.Affix
import DeviceBlob.Text.Blank
import DeviceBlob.Text.Decimal
import DeviceBlob.Text.Letter
import DeviceBlob.Text.Pieces
import DeviceBlob.Value
import DeviceBlob.VectorRun
