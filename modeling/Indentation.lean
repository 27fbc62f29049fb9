import Indentation.Buffer
import Indentation.Main
import Indentation.Query
import Indentation.Proofs.Lexemes
import Indentation.Proofs.Spans
import Indentation.Proofs.Relaid
import Indentation.Proofs.Anchors
import Indentation.Proofs.Course
import Indentation.Proofs.Editing
import Indentation.Proofs.Reindent
import Indentation.Proofs.RunOns
import Indentation.Proofs.LineEdit
import Indentation.Proofs.Lossless
import Indentation.Proofs.Checked.Line
import Indentation.Proofs.Shapes.Forms
import Indentation.Proofs.Joined
import Indentation.Proofs.Blocks
import Indentation.Proofs.Streaks
import Indentation.Proofs.Meaning
import Indentation.Proofs.Checking
import Indentation.Proofs.Returns
import Indentation.Proofs.Neutral
import Indentation.Proofs.Identifiers
import Indentation.Proofs.Writing
import Indentation.Proofs.Reworded
import Indentation.Proofs.Statements
import Indentation.Proofs.BlockLines
import Indentation.Proofs.Cursor
import Indentation.Proofs.Matching
import Indentation.Proofs.Refusals
import Indentation.Proofs.Comments
import Indentation.Proofs.Elements
import Indentation.Proofs.Lookups
import Indentation.Proofs.Walks
