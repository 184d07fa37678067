import ProgramInterface.Log.Template
import ProgramInterface.Main
import ProgramInterface.Proofs.Catalogue.Append
import ProgramInterface.Proofs.Catalogue.Attributes
import ProgramInterface.Proofs.Catalogue.Instructions
import ProgramInterface.Proofs.Catalogue.OwnFields
import ProgramInterface.Proofs.Catalogue.Types
import ProgramInterface.Proofs.Command.Generate
import ProgramInterface.Proofs.Description.Bodies
import ProgramInterface.Proofs.Description.Comments
import ProgramInterface.Proofs.Description.Lossless
import ProgramInterface.Proofs.Description.RoundTrip
import ProgramInterface.Proofs.Description.Settings
import ProgramInterface.Proofs.Number.Spelling
import ProgramInterface.Proofs.Publication
import ProgramInterface.Proofs.Schema.Preimage
import ProgramInterface.Proofs.Settings.Precedence
import ProgramInterface.Proofs.Settings.RoundTrip
import ProgramInterface.Proofs.Shape.Modes
import ProgramInterface.Proofs.Shape.Reading
import ProgramInterface.Proofs.Shape.Structural
import ProgramInterface.Tools
import ProgramInterface.Proofs.Json.Parts
import ProgramInterface.Proofs.Json.Strict
import ProgramInterface.Proofs.Schema.Normal
import ProgramInterface.Proofs.Description.Validation
import ProgramInterface.Proofs.Description.Names
import ProgramInterface.Proofs.Command.Files
import ProgramInterface.Proofs.Syntax.Order
import ProgramInterface.Proofs.Log.Router
import ProgramInterface.Proofs.Json.Surrogates
import ProgramInterface.Proofs.Log.Line
