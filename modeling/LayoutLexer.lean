import LayoutLexer.BrokenLiteral
import LayoutLexer.CharClass
import LayoutLexer.Command.Options
import LayoutLexer.Command.Run
import LayoutLexer.Config
import LayoutLexer.Decimal.Binary64
import LayoutLexer.Decimal.Shortest
import LayoutLexer.Diagnostic
import LayoutLexer.Failure
import LayoutLexer.FileSystem
import LayoutLexer.Indentation
import LayoutLexer.Json.Document
import LayoutLexer.Json.Number
import LayoutLexer.Json.Reader
import LayoutLexer.Json.Skip
import LayoutLexer.Json.String
import LayoutLexer.Keyword
import LayoutLexer.Lexeme
import LayoutLexer.Lexicon
import LayoutLexer.Listing
import LayoutLexer.Main
import LayoutLexer.Overflow
import LayoutLexer.Position
import LayoutLexer.Recognizer
import LayoutLexer.Rule
import LayoutLexer.Scanner
import LayoutLexer.Symbol
import LayoutLexer.Text
import LayoutLexer.Text.Quoted
import LayoutLexer.Token
import LayoutLexer.Unicode
import LayoutLexer.Proofs.Lossless
import LayoutLexer.Proofs.Nesting
import LayoutLexer.Proofs.Longest
import LayoutLexer.Proofs.Grammar
import LayoutLexer.Proofs.Grammar.Numeral
import LayoutLexer.Proofs.Classification
import LayoutLexer.Proofs.Match
import LayoutLexer.Proofs.LineWidth
import LayoutLexer.Proofs.Cursor
import LayoutLexer.Proofs.Cursor.Lexeme
import LayoutLexer.Proofs.Cursor.Scan
import LayoutLexer.Proofs.Lexeme.Cases
import LayoutLexer.Proofs.Lexeme.LineBreak
import LayoutLexer.Proofs.Lexeme.Flaw
import LayoutLexer.Proofs.Lexeme.Recovery
import LayoutLexer.Proofs.Lexeme.Skim
import LayoutLexer.Proofs.Lexeme.Word
import LayoutLexer.Proofs.CharClass
import LayoutLexer.Proofs.Grammar.Escape
import LayoutLexer.Proofs.Lexeme.Number
import LayoutLexer.Proofs.Position
import LayoutLexer.Proofs.Place
import LayoutLexer.Proofs.Report
import LayoutLexer.Proofs.Lexeme.Reach
import LayoutLexer.Proofs.Lexeme.Local
import LayoutLexer.Proofs.Reading
import LayoutLexer.Proofs.Change
import LayoutLexer.Proofs.Shift
import LayoutLexer.Proofs.Trivia
import LayoutLexer.Proofs.Boundary
import LayoutLexer.Proofs.Layout.Line
import LayoutLexer.Proofs.Layout
import LayoutLexer.Proofs.Content
import LayoutLexer.Proofs.Alone
import LayoutLexer.Proofs.Lexeme.Family
import LayoutLexer.Proofs.Breaks
import LayoutLexer.Proofs.Indentation.History
import LayoutLexer.Proofs.Indentation.Rescaling
import LayoutLexer.Proofs.Json.Value
import LayoutLexer.Proofs.Json.Grammar
import LayoutLexer.Proofs.Json.Written
import LayoutLexer.Proofs.Quoted
import LayoutLexer.Proofs.KindName
import LayoutLexer.Proofs.Dump
import LayoutLexer.Proofs.Command
import LayoutLexer.Proofs.Indentation.TabStops
import LayoutLexer.Proofs.Lexeme.Pieces
import LayoutLexer.Proofs.Config
