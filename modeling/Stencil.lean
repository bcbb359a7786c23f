import Stencil.Table
import Stencil.Text.Blank
import Stencil.Text.Markup
import Stencil.Text.Replace
import Stencil.Text.Case
import Stencil.Text.Quoted
import Stencil.Number.Layout
import Stencil.Number.Literal
import Stencil.Number.Power
import Stencil.Calendar.Pattern
import Stencil.Calendar.Reading
import Stencil.Value.Access
import Stencil.Value.Range
import Stencil.Datum
import Stencil.Filter
import Stencil.Function
import Stencil.Language
import Stencil.Extension
import Stencil.Path
import Stencil.Scope
import Stencil.Json.Reader
import Stencil.Token.Lexeme
import Stencil.Token.Scanner
import Stencil.Expr.Parser
import Stencil.Program.Accumulator
import Stencil.Program.Template
import Stencil.Tag.Parser
import Stencil.Cache
import Stencil.Source.Basic
import Stencil.Engine.Basic
import Stencil.Render.Run
import Stencil.Engine.Render
import Stencil.CommandLine
import Stencil.Main
import Stencil.Proofs.Render.Parts
import Stencil.Proofs.Render.Growing
import Stencil.Proofs.Render.Running
import Stencil.Proofs.Render.Pairing
import Stencil.Proofs.Render.Isolation
import Stencil.Proofs.Render.Bookkeeping
import Stencil.Proofs.Nesting.Tree
import Stencil.Proofs.Nesting.Steps
import Stencil.Proofs.Nesting.Arguments
import Stencil.Proofs.Nesting.Playing
import Stencil.Proofs.Nesting.Acceptance
import Stencil.Proofs.Engine.Fetching
import Stencil.Proofs.Engine.Reach
import Stencil.Proofs.Inheritance.Alike
import Stencil.Proofs.Inheritance.Simulation
import Stencil.Proofs.Inheritance.Merging
import Stencil.Proofs.Render.Correspondence
import Stencil.Proofs.Render.Lockstep
import Stencil.Proofs.Render.Unison
import Stencil.Proofs.Engine.Calls
import Stencil.Proofs.Engine.Limit
import Stencil.Proofs.Engine.Imports
import Stencil.Proofs.Engine.Slots
import Stencil.Proofs.Engine.Loading
import Stencil.Proofs.Engine.History
import Stencil.Proofs.Engine.Transparency
import Stencil.Proofs.Engine.Strictness
import Stencil.Proofs.Engine.Loaded
import Stencil.Proofs.Render.Setting
import Stencil.Proofs.Render.Keeping
import Stencil.Proofs.Nesting.Contents
import Stencil.Proofs.Nesting.Redirection
import Stencil.Proofs.Nesting.Sequences
import Stencil.Proofs.Render.Agreement
import Stencil.Proofs.Nesting.Agreement
import Stencil.Proofs.Inheritance.Handovers
import Stencil.Proofs.Engine.Sharing
import Stencil.Proofs.Engine.Ownership
import Stencil.Proofs.Inheritance.Parents
import Stencil.Proofs.Inheritance.Halting
import Stencil.Proofs.Token.Regions
import Stencil.Proofs.Token.Division
import Stencil.Proofs.Token.Quoting
import Stencil.Proofs.Expr.Levels
import Stencil.Proofs.Expr.Placement
import Stencil.Proofs.Expr.Grammar
import Stencil.Proofs.Value.Arithmetic
import Stencil.Proofs.Expr.Literals
import Stencil.Proofs.Expr.Writing
import Stencil.Proofs.Expr.Forms
import Stencil.Proofs.Expr.Boundary
import Stencil.Proofs.Expr.Shapes
import Stencil.Proofs.Nesting.Placement
import Stencil.Proofs.Token.Following
import Stencil.Proofs.Token.Standalone
import Stencil.Proofs.Token.Relexing
import Stencil.Proofs.Token.Separation
import Stencil.Proofs.Token.Placement
import Stencil.Proofs.Token.Defects
import Stencil.Proofs.Expr.Delimiting
import Stencil.Proofs.Expr.Printing
import Stencil.Proofs.Expr.Positions
import Stencil.Proofs.Nesting.Respelling
import Stencil.Proofs.Render.Likeness
import Stencil.Proofs.Render.Replacing
import Stencil.Proofs.Render.Composing
import Stencil.Proofs.Render.Framing
import Stencil.Proofs.Engine.Parting
import Stencil.Proofs.Engine.Inclusion
import Stencil.Proofs.Engine.Depth
import Stencil.Proofs.Engine.Carrying
import Stencil.Proofs.Engine.Defaults
import Stencil.Proofs.Engine.Respelling
import Stencil.Proofs.Value.Range
import Stencil.Proofs.Source.Containment
import Stencil.Proofs.Source.Inside
import Stencil.Proofs.Source.Registering
import Stencil.Proofs.Source.Honesty
import Stencil.Proofs.Value.Sorting
import Stencil.Proofs.Value.Access
import Stencil.Proofs.Text.Markup
import Stencil.Proofs.Datum.Returning
import Stencil.Proofs.Scope
import Stencil.Proofs.Expr.Numerals
