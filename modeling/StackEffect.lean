import StackEffect.Folder
import StackEffect.Main
import StackEffect.Proofs.Definition.WellTyped
import StackEffect.Proofs.Session.Typing
import StackEffect.Proofs.Machine.Soundness
import StackEffect.Proofs.Machine.Agreement
import StackEffect.Proofs.Session.Exact
import StackEffect.Proofs.Phrase
import StackEffect.Proofs.Session.History
import StackEffect.Proofs.Machine.Frame
import StackEffect.Proofs.Definition.Flow
import StackEffect.Proofs.Flow.Hiding
import StackEffect.Proofs.Session.Flow
import StackEffect.Proofs.Session.Running
import StackEffect.Proofs.Machine.Inlining
import StackEffect.Proofs.Machine.Marking
import StackEffect.Proofs.Session.Valued
import StackEffect.Proofs.Module.Symbols
import StackEffect.Proofs.Module.Mirroring
import StackEffect.Proofs.Module.WellFormed
import StackEffect.Proofs.Module.Lockstep
import StackEffect.Proofs.Session.Execution
import StackEffect.Proofs.Session.Abandoning
import StackEffect.Proofs.Session.Pieces
import StackEffect.Proofs.Session.Incomplete
import StackEffect.Proofs.Machine.Arity
import StackEffect.Proofs.Session.Recording
import StackEffect.Proofs.Session.Calling
import StackEffect.Proofs.Machine.Nesting
import StackEffect.Proofs.Module.Mangling
import StackEffect.Proofs.Module.Defining
import StackEffect.Proofs.Cursor.Lexing
import StackEffect.Proofs.Module.Globals
import StackEffect.Proofs.Module.Literals
import StackEffect.Proofs.Cursor.Rereading
import StackEffect.Proofs.Session.Printing
import StackEffect.Proofs.Cursor.Numeral
import StackEffect.Proofs.Module.Calling
import StackEffect.Proofs.Module.Configured
import StackEffect.Proofs.Session.Declaring
import StackEffect.Proofs.Session.Blaming
import StackEffect.Proofs.Module.Identifier
import StackEffect.Proofs.Machine.Driving
import StackEffect.Proofs.Session.Retyping
import StackEffect.Proofs.Machine.Operating
import StackEffect.Proofs.Graph.Reading
import StackEffect.Proofs.Draft.Refining
import StackEffect.Proofs.Emission.Requests
