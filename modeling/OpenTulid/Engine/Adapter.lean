/-
The configuration of the tracker adapter, read from the storage of a
definition, and the states an acceptance has use for.

Where the compiler passes over a state mapping with a part that is no
string, the configuration takes the text of the part.
-/
import OpenTulid.Engine.Compiler
import OpenTulid.Vault

namespace OpenTulid

/-- The states an acceptance can move its task to. -/
def TransitionDefinition.targets (t : TransitionDefinition) : List String :=
  t.toState :: (t.derives.bind (·.parentToIfDerived)).toList

/-- The states an acceptance can create tasks in. -/
def TransitionDefinition.birthplaces (t : TransitionDefinition) : List String :=
  t.derives.toList.map (·.state)

namespace Engine

open Doc

/-- `ObsidianAdapterConfig`: the file of each board and the columns of the
states. -/
structure ObsidianAdapterConfig where
  boards : Store String String
  stateMappings : List StateMapping
  deriving DecidableEq

/-- The text of a value; that of one with parts is a parameter. -/
def valueText (partsText : Value → String) : Value → String
  | .scalar s => keyText s
  | value => partsText value

/-- One state mapping; an item without one of the keys raises. -/
def stateMappingOf (partsText : Value → String) : Value → Except String StateMapping
  | .map m =>
      match Entries.get? m "state", Entries.get? m "board", Entries.get? m "column" with
      | some state, some board, some column => .ok {
          state := valueText partsText state
          board := valueText partsText board
          column := valueText partsText column }
      | none, _, _ => .error "state"
      | _, none, _ => .error "board"
      | _, _, none => .error "column"
  | _ => .error "indices must be strings"

/-- `config_from_storage_definition`. -/
def configFromStorageDefinition (partsText : Value → String) :
    Option Entries → Except String ObsidianAdapterConfig
  | none => .error "workflow.storage is required for the configured storage adapter"
  | some config =>
      match config.get "boards", config.get "state_mappings" with
      | .map boards, .list mappings =>
          (mappings.mapM (stateMappingOf partsText)).map fun stateMappings => {
            boards := boards.foldl (fun done e =>
              done.put (keyText e.1) (valueText partsText e.2)) ∅
            stateMappings := stateMappings }
      | .map _, _ => .error "workflow.storage.config.state_mappings must be a tuple"
      | _, _ => .error "workflow.storage.config.boards must be a mapping"

/-- The board of a state. -/
def ObsidianAdapterConfig.boardOf (config : ObsidianAdapterConfig) (state : String) :
    Option String :=
  (config.stateMappings.find? fun m => m.state = state).map (·.board)

end Engine

end OpenTulid
