import Chronicle.Binary64
import Chronicle.Decimal
import Chronicle.Text.Blank
import Chronicle.Text.Quoted
import Chronicle.Keyed
import Chronicle.Value.Basic
import Chronicle.Json.Node
import Chronicle.Json.Parser
import Chronicle.Json.Printer
import Chronicle.Json.ReadError
import Chronicle.Json.Codec
import Chronicle.Json.Record
import Chronicle.Uuid
import Chronicle.Snapshot.Id
import Chronicle.Text.Split
import Chronicle.Value.Numeric
import Chronicle.Value.Comparison
import Chronicle.Condition.Basic
import Chronicle.Condition.Grouping
import Chronicle.Condition.Compilation
import Chronicle.Condition.Arithmetic
import Chronicle.Condition.Evaluation
import Chronicle.State.Tally
import Chronicle.State.Combatant
import Chronicle.State.Inventory
import Chronicle.State.World
import Chronicle.Snapshot.Kind
import Chronicle.State.Basic
import Chronicle.Sorting
import Chronicle.Transition.Inventory
import Chronicle.Transition.Basic
import Chronicle.Transition.Builtin
import Chronicle.Transition.Diff
import Chronicle.Rules.Basic
import Chronicle.Rules.Document
import Chronicle.Rules.Inference
import Chronicle.Rules.Differ
import Chronicle.Storage.Folder
import Chronicle.Snapshot.Strategy
import Chronicle.Snapshot.Metadata
import Chronicle.Snapshot.Store
import Chronicle.Snapshot.Recorder
import Chronicle.Snapshot.Replayer
import Chronicle.Yaml.Cursor
import Chronicle.Yaml.Scalar
import Chronicle.Yaml.Token
import Chronicle.Yaml.Node
import Chronicle.Settings.Basic
import Chronicle.Settings.Document
import Chronicle.Session.Log
import Chronicle.Session.Replay
import Chronicle.Main
import Chronicle.Rules.Standard
import Chronicle.Proofs.Transition.Diff
import Chronicle.Proofs.Transition.Inventory
import Chronicle.Proofs.Transition.Unchanged
import Chronicle.Proofs.Transition.Reversal
import Chronicle.Proofs.Results
import Chronicle.Proofs.Text
import Chronicle.Proofs.Rules.Computed
import Chronicle.Proofs.Rules.Agreement
import Chronicle.Proofs.Rules.Events
import Chronicle.Proofs.Rules.Standard
import Chronicle.Proofs.Rules.Unchanged
import Chronicle.Proofs.Decimal
import Chronicle.Proofs.Json.Number
import Chronicle.Proofs.Json.Document
import Chronicle.Proofs.Json.Codec
import Chronicle.Proofs.Json.Attributes
import Chronicle.Proofs.Json.Found
import Chronicle.Proofs.Json.Record
import Chronicle.Proofs.Json.Rewriting
import Chronicle.Proofs.State.Parts
import Chronicle.Proofs.State.Items
import Chronicle.Proofs.State.Records
import Chronicle.Proofs.State.Rewriting
import Chronicle.Proofs.Snapshot.Files
import Chronicle.Proofs.Snapshot.Run
import Chronicle.Proofs.Snapshot.Durability
import Chronicle.Proofs.Snapshot.Recording
import Chronicle.Proofs.Snapshot.Chains
import Chronicle.Proofs.Condition.Grouping
import Chronicle.Proofs.Condition.Operands
import Chronicle.Proofs.Condition.Cuts
import Chronicle.Proofs.Condition.Compilation
import Chronicle.Proofs.Condition.Leaves
import Chronicle.Proofs.Condition.Operators
import Chronicle.Proofs.Condition.Printing
import Chronicle.Proofs.Condition.Connectives
import Chronicle.Proofs.Condition.Names
import Chronicle.Proofs.Condition.Arithmetic
import Chronicle.Proofs.Condition.Calculations
import Chronicle.Proofs.Condition.Closing
import Chronicle.Proofs.Condition.Integers
import Chronicle.Proofs.Rounding
import Chronicle.Proofs.Value.Order
import Chronicle.Proofs.Value.Sameness
import Chronicle.Proofs.Value.Numbers
import Chronicle.Proofs.Rules.Pass
import Chronicle.Proofs.Rules.Removal
import Chronicle.Proofs.Rules.Extraction
import Chronicle.Proofs.Rules.Stamp
import Chronicle.Proofs.Snapshot.Listing
import Chronicle.Proofs.Snapshot.Lookup
import Chronicle.Proofs.Snapshot.Replay
import Chronicle.Proofs.Snapshot.Conversation
import Chronicle.Proofs.Snapshot.Renaming
import Chronicle.Proofs.Snapshot.Reset
import Chronicle.Proofs.Snapshot.Spelling
import Chronicle.Proofs.Snapshot.Permanence
import Chronicle.Proofs.Snapshot.Range
import Chronicle.Proofs.Snapshot.Consistency
import Chronicle.Proofs.Rules.Fallback
import Chronicle.Proofs.Rules.Order
import Chronicle.Proofs.Rules.Choice
import Chronicle.Proofs.Condition.Reference
import Chronicle.Proofs.Condition.NormalForm
import Chronicle.Proofs.Rules.References
import Chronicle.Proofs.Json.Parts
import Chronicle.Proofs.Rules.Notes
import Chronicle.Proofs.Rules.Fidelity
