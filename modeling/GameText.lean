import GameText.Batch
import GameText.Bytes
import GameText.Catalog
import GameText.Command
import GameText.Document
import GameText.Entry
import GameText.Fault
import GameText.FileTree
import GameText.Log
import GameText.Main
import GameText.OrderedMap
import GameText.Path
import GameText.Proofs.Batch
import GameText.Proofs.Batch.Conversions
import GameText.Proofs.Batch.Fate
import GameText.Proofs.Batch.Policies
import GameText.Proofs.Batch.Storing
import GameText.Proofs.Bytes
import GameText.Proofs.Catalog.History
import GameText.Proofs.Catalog.Layout
import GameText.Proofs.Catalog.Run
import GameText.Proofs.Catalog.Whole
import GameText.Proofs.Document.Export
import GameText.Proofs.Document.File
import GameText.Proofs.Document.RoundTrip
import GameText.Proofs.Document.Tree
import GameText.Proofs.FileTree
import GameText.Proofs.Message.Build
import GameText.Proofs.Message.Normal
import GameText.Proofs.OrderedMap
import GameText.Proofs.Outcome
import GameText.Proofs.Script.Agreement
import GameText.Proofs.Script.Grammar
import GameText.Proofs.Script.RoundTrip
import GameText.Proofs.Script.Token
import GameText.Proofs.Tables.Character
import GameText.Proofs.Tables.Command
import GameText.Proofs.Tables.Loaded
import GameText.Proofs.Tables.Lookup
import GameText.Proofs.Tables.Packaged
import GameText.Proofs.Tables.Set
import GameText.Proofs.Text.Numeral
import GameText.Proofs.Tool.Arguments
import GameText.Proofs.Tool.Rebuild
import GameText.Proofs.Tool.Run
import GameText.Proofs.Wire.Encoding
import GameText.Proofs.Wire.Grammar
import GameText.Proofs.Wire.Message
import GameText.Proofs.Wire.Roles
import GameText.Proofs.Wire.RoundTrip
import GameText.Proofs.Wire.Scan
import GameText.Proofs.Wire.Walk
import GameText.Proofs.Xml.Build
import GameText.Proofs.Xml.Charset
import GameText.Proofs.Xml.Content
import GameText.Proofs.Xml.Events
import GameText.Proofs.Xml.File
import GameText.Proofs.Xml.Layout
import GameText.Proofs.Xml.Lexeme
import GameText.Proofs.Xml.Tag
import GameText.Script.Parse
import GameText.Script.Render
import GameText.Settings
import GameText.Tables.Assets
import GameText.Tables.Character
import GameText.Tables.Command
import GameText.Tables.Load
import GameText.Tables.Packaged
import GameText.Tables.Set
import GameText.Tables.Sheet
import GameText.Text.Blank
import GameText.Text.Decimal
import GameText.Text.Hex
import GameText.Text.Json
import GameText.Text.Printable
import GameText.Text.Quoted
import GameText.Text.Utf8
import GameText.Tool.Arguments
import GameText.Tool.Run
import GameText.Wire.Decode
import GameText.Wire.Encode
import GameText.Xml.Char
import GameText.Xml.Charset
import GameText.Xml.Doctype
import GameText.Xml.Element
import GameText.Xml.Event
import GameText.Xml.File
import GameText.Xml.Lexeme
import GameText.Xml.Read
import GameText.Xml.Write
import GameText.Proofs.Script.Fault
import GameText.Proofs.Document.Fault
import GameText.Proofs.Batch.Return
import GameText.Proofs.Tables.Fault
import GameText.Proofs.Batch.Fault
import GameText.Proofs.Tool.Ending
import GameText.Proofs.Script.Vocabulary
import GameText.Proofs.Document.Name
import GameText.Proofs.Script.Encoding
import GameText.Proofs.Batch.Direct
import GameText.Proofs.Batch.History
import GameText.Proofs.Batch.Summary
import GameText.Proofs.Script.Shift
import GameText.Proofs.Script.Place
import GameText.Proofs.Script.Append
import GameText.Proofs.Script.Spelling
import GameText.Proofs.Script.Scanner
import GameText.Proofs.Wire.Agreement
import GameText.Proofs.Wire.Reading
import GameText.Proofs.Catalog.Container
import GameText.Proofs.Catalog.Packing
import GameText.Proofs.Document.Catalog
import GameText.Proofs.Wire.Locality
import GameText.Proofs.Tables.Ranges
import GameText.Proofs.Tables.Views
import GameText.Proofs.Document.Content
import GameText.Proofs.Wire.Advancing
