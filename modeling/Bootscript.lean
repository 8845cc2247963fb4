import Bootscript.Script.Outline
import Bootscript.Script.Writer
import Bootscript.Archive.Zip
import Bootscript.FileTree.Edit
import Bootscript.Shell.Reader
import Bootscript.Shell.Printf
import Bootscript.Shell.Expansion
import Bootscript.Python.Literal
import Bootscript.Python.Quoted
import Bootscript.Disk
import Bootscript.Main
import Bootscript.Proofs.Utf8
import Bootscript.Proofs.Lines
import Bootscript.Proofs.Cursor
import Bootscript.Proofs.Cursor.Calls
import Bootscript.Proofs.Cursor.Scan
import Bootscript.Proofs.Reader
import Bootscript.Proofs.Marker
import Bootscript.Proofs.Marker.Grammar
import Bootscript.Proofs.Piece
import Bootscript.Proofs.Pattern
import Bootscript.Proofs.Shell.Word
import Bootscript.Proofs.Shell.Layers
import Bootscript.Proofs.Shell.Expansion
import Bootscript.Proofs.Shell.Quotation
import Bootscript.Proofs.Shell.Convergence
import Bootscript.Proofs.Shell.Printf
import Bootscript.Proofs.Shell.Around
import Bootscript.Proofs.Python.Quoted
import Bootscript.Proofs.Launcher.Settings
import Bootscript.Proofs.Launcher.Lines
import Bootscript.Proofs.Launcher.Polyglot
import Bootscript.Proofs.Launcher.Hint
import Bootscript.Proofs.Launcher.Evaluation
import Bootscript.Proofs.Launcher.ScriptPath
import Bootscript.Proofs.Json
import Bootscript.Proofs.Base64
import Bootscript.Proofs.Order
import Bootscript.Proofs.Archive.Directory
import Bootscript.Proofs.Payload
import Bootscript.Proofs.Script.Outline
import Bootscript.Proofs.Script.Reading
import Bootscript.Proofs.Script.Writing
import Bootscript.Proofs.Script.WellFormed
import Bootscript.Proofs.Script.Install
import Bootscript.Proofs.Script.Embedded
import Bootscript.Proofs.Script.Regenerate
import Bootscript.Proofs.Script.Spans
import Bootscript.Proofs.Script.History
import Bootscript.Proofs.Script.Reparse
import Bootscript.Proofs.Script.Survival
import Bootscript.Proofs.Script.LineBreaks
import Bootscript.Proofs.Script.Faults
import Bootscript.Proofs.Script.Notice
import Bootscript.Proofs.Script.Inert
import Bootscript.Proofs.Path
import Bootscript.Proofs.FileTree.Node
import Bootscript.Proofs.FileTree.Walk
import Bootscript.Proofs.FileTree.Entry
import Bootscript.Proofs.FileTree.Formed
import Bootscript.Proofs.FileTree.Frame
import Bootscript.Proofs.FileTree.Survey
import Bootscript.Proofs.RuntimeSource
import Bootscript.Proofs.RuntimeSource.Frame
import Bootscript.Proofs.RuntimeSource.Wanted
import Bootscript.Proofs.RuntimeSource.Members
import Bootscript.Proofs.Disk
import Bootscript.Proofs.Success
import Bootscript.Proofs.Report
import Bootscript.Proofs.Generator
import Bootscript.Proofs.Task
import Bootscript.Proofs.Command.Arguments
import Bootscript.Proofs.Command.Override
import Bootscript.Proofs.Regeneration
import Bootscript.Proofs.Session
import Bootscript.Proofs.RuntimeSource.Frame
