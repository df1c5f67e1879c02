import Flowchart.Chart.Attribute
import Flowchart.Chart.AttributeSet
import Flowchart.Chart.Drawing
import Flowchart.Chart.Graph
import Flowchart.Chart.Multigraph
import Flowchart.Chart.Search
import Flowchart.Chart.Session
import Flowchart.Chart.Summary
import Flowchart.Chart.Traversal
import Flowchart.CommandLine.Arguments
import Flowchart.CommandLine.Options
import Flowchart.CommandLine.Run
import Flowchart.Compile
import Flowchart.Dot.Escape
import Flowchart.Dot.Identifier
import Flowchart.Dot.Writer
import Flowchart.Files.FileSystem
import Flowchart.Files.Path
import Flowchart.FirstOccurrence
import Flowchart.Log
import Flowchart.Main
import Flowchart.Program.Execution
import Flowchart.Program.Filling
import Flowchart.Program.Outline
import Flowchart.Program.Parser
import Flowchart.Program.Preorder
import Flowchart.Program.Statement
import Flowchart.Program.SyntaxError
import Flowchart.Program.Token
import Flowchart.Program.Written
import Flowchart.Text.CharacterClass
import Flowchart.Text.Printable
import Flowchart.Text.Quoted
import Flowchart.Text.WordCharacter
import Flowchart.Text.Words
import Flowchart.Proofs.Drawn
import Flowchart.Proofs.Conservation
import Flowchart.Proofs.Runs
import Flowchart.Proofs.Meaning
import Flowchart.Proofs.Keywords
import Flowchart.Proofs.Reading
import Flowchart.Proofs.Writing
import Flowchart.Proofs.DepthFirst
import Flowchart.Proofs.Exported
import Flowchart.Proofs.Regions
import Flowchart.Proofs.Loops
import Flowchart.Proofs.Reachable
import Flowchart.Proofs.DeadCode
import Flowchart.Proofs.Layout
import Flowchart.Proofs.Reducible
import Flowchart.Proofs.Parallel
import Flowchart.Proofs.DotEntries
import Flowchart.Proofs.DotLines
import Flowchart.Proofs.Sessions
import Flowchart.Proofs.Lookahead
import Flowchart.Proofs.ErrorPlaces
import Flowchart.Proofs.FileChanges
import Flowchart.Proofs.Logging
import Flowchart.Proofs.Spacing
import Flowchart.Proofs.HoleFree
import Flowchart.Proofs.Delivery
import Flowchart.Proofs.Stopped
import Flowchart.Proofs.Locality
import Flowchart.Proofs.Traversals
import Flowchart.Proofs.Cycles
import Flowchart.Proofs.Terminals
import Flowchart.Proofs.Declared
import Flowchart.Proofs.Outlined
import Flowchart.Proofs.Concatenation
import Flowchart.Proofs.Blanks
import Flowchart.Proofs.FirstWords
import Flowchart.Proofs.ExportedEdges
import Flowchart.Proofs.Redeclared
import Flowchart.Proofs.Identifiers
import Flowchart.Proofs.EndOfText
import Flowchart.Proofs.Escaping
