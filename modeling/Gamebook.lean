import Gamebook.Log
import Gamebook.Play
import Gamebook.Saved.Story
import Gamebook.Saved.Settings
import Gamebook.Proofs.Directory
import Gamebook.Proofs.Registry.Definitions
import Gamebook.Proofs.Source.Compile
import Gamebook.Proofs.CellId
import Gamebook.Proofs.Token
import Gamebook.Proofs.Holdings
import Gamebook.Proofs.Registry.Bits
import Gamebook.Proofs.Registry.Indexed
import Gamebook.Proofs.Page.Evaluation
import Gamebook.Proofs.Json.Fields
import Gamebook.Proofs.Page.Edit
import Gamebook.Proofs.Play
import Gamebook.Proofs.Saved.RoundTrip
import Gamebook.Proofs.Page.Acts
import Gamebook.Proofs.Page.Inert
import Gamebook.Proofs.Page.Delivery
import Gamebook.Proofs.Page.Escape
import Gamebook.Proofs.Page.Markup
import Gamebook.Proofs.Source.Lines
import Gamebook.Proofs.Source.Pass
import Gamebook.Proofs.Source.Fault
import Gamebook.Proofs.Registry.Joined
import Gamebook.Proofs.Source.Concatenation
import Gamebook.Proofs.Page.Conservation
import Gamebook.Proofs.Source.Trace
import Gamebook.Proofs.Page.Locality
import Gamebook.Proofs.Page.Account
import Gamebook.Proofs.Source.Words
import Gamebook.Proofs.Source.Shape
import Gamebook.Proofs.Source.Layout
import Gamebook.Proofs.CellId.Collision
import Gamebook.Proofs.Source.Placement
import Gamebook.Proofs.Saved.Addressing
import Gamebook.Proofs.Token.Reading
import Gamebook.Proofs.Page.Excerpt
import Gamebook.Proofs.Page.Suppression
import Gamebook.Proofs.Page.Spacing
import Gamebook.Proofs.Source.Writing
import Gamebook.Proofs.Registry.Layout
import Gamebook.Proofs.Registry.Masks
import Gamebook.Proofs.Registry.Exchange
import Gamebook.Proofs.CellId.Namesakes
import Gamebook.Proofs.CellId.Reading
import Gamebook.Proofs.Page.Entities
import Gamebook.Proofs.Source.Pieces
