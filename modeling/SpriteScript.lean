import SpriteScript.About
import SpriteScript.Files.Tree
import SpriteScript.Main
import SpriteScript.Proofs.EState
import SpriteScript.Proofs.Parallel
import SpriteScript.Proofs.Text.Numeral
import SpriteScript.Proofs.Text.Spelling
import SpriteScript.Proofs.Text.StringLiteral
import SpriteScript.Proofs.Text.Utf8
import SpriteScript.Proofs.Lexeme.Recognize
import SpriteScript.Proofs.Lexeme.Scan
import SpriteScript.Proofs.Token.Nesting
import SpriteScript.Proofs.Token.Balance
import SpriteScript.Proofs.Token.Printing
import SpriteScript.Proofs.Value.RoundTrip
import SpriteScript.Proofs.Value.Canonical
import SpriteScript.Proofs.Value.Draft
import SpriteScript.Proofs.Source.Operand
import SpriteScript.Proofs.Source.Denotation
import SpriteScript.Proofs.Source.Commas
import SpriteScript.Proofs.Source.Command
import SpriteScript.Proofs.Source.Stopping
import SpriteScript.Proofs.Source.Code
import SpriteScript.Proofs.Source.Datum
import SpriteScript.Proofs.Source.Refusal
import SpriteScript.Proofs.Source.Integer
import SpriteScript.Proofs.Store.Grounded
import SpriteScript.Proofs.Store.Checks
import SpriteScript.Proofs.Store.Loops
import SpriteScript.Proofs.Store.Chain
import SpriteScript.Proofs.Store.Renaming
import SpriteScript.Proofs.Store.Inlining
import SpriteScript.Proofs.Store.Separate
import SpriteScript.Proofs.Run.Effect
import SpriteScript.Proofs.Run.Handler
import SpriteScript.Proofs.Run.Instruction
import SpriteScript.Proofs.Run.Steps
import SpriteScript.Proofs.Run.History
import SpriteScript.Proofs.Run.InStep
import SpriteScript.Proofs.Run.Commands
import SpriteScript.Proofs.Run.Binding
import SpriteScript.Proofs.Run.Definition
import SpriteScript.Proofs.Run.Dependencies
import SpriteScript.Proofs.Run.References
import SpriteScript.Proofs.Run.Assembly
import SpriteScript.Proofs.Source.Session
import SpriteScript.Proofs.Source.Scoping
import SpriteScript.Proofs.Run.Framing
import SpriteScript.Proofs.Run.Completion
import SpriteScript.Proofs.Run.Commuting
import SpriteScript.Proofs.Run.Cutoff
import SpriteScript.Proofs.Run.Verdict
import SpriteScript.Proofs.Run.Renderable
import SpriteScript.Proofs.Run.Renaming
import SpriteScript.Proofs.Run.Inlining
import SpriteScript.Proofs.Run.Pieces
import SpriteScript.Proofs.Run.Logging
import SpriteScript.Proofs.Run.Consumption
import SpriteScript.Proofs.Source.LineEnds
import SpriteScript.Proofs.Resource.Order
import SpriteScript.Proofs.Resource.Resolution
import SpriteScript.Proofs.Resource.Failure
import SpriteScript.Proofs.Resource.Progress
import SpriteScript.Proofs.Resource.Circle
import SpriteScript.Proofs.Resource.Calls
import SpriteScript.Proofs.Resource.Accounting
import SpriteScript.Proofs.Resource.Residency
import SpriteScript.Proofs.Resource.Coherence
import SpriteScript.Proofs.Resource.Renaming
import SpriteScript.Proofs.Game.Pixels
import SpriteScript.Proofs.Game.Rendering
import SpriteScript.Proofs.Game.Cycle
import SpriteScript.Proofs.Game.Refusal
import SpriteScript.Proofs.Game.Renaming
import SpriteScript.Proofs.Picture.Painting
import SpriteScript.Proofs.Picture.Raster
import SpriteScript.Proofs.Picture.Calls
