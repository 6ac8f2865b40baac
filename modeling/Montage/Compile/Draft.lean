import Montage.Filtergraph.Graph
import Montage.Log

/-!
# Drafts

A graph is built step by step. A draft holds the nodes added so far, the media files whose
existence was asked for, and what was reported; all of it stays when a step fails.
-/

namespace Montage

structure Draft where
  graph : Graph := {}
  checked : List (Path × Value) := []
  log : List LogRecord := []
deriving DecidableEq

/-- A step that builds on a draft and may fail. -/
abbrev Drafting := EStateM Failure Draft

namespace Drafting

/-- Adds a node; gives its position. -/
def addNode (node : Node) : Drafting Nat := fun draft =>
  .ok draft.graph.nodes.length { draft with graph := draft.graph.push node }

def report (level : LogLevel) (reporter text : String) : Drafting Unit := fun draft =>
  .ok () { draft with log := draft.log ++ [⟨level, reporter, text⟩] }

/-- Notes that the existence of a file was asked for. -/
def noteCheck (base : Path) (id : Value) : Drafting Unit := fun draft =>
  .ok () { draft with checked := draft.checked ++ [(base, id)] }

end Drafting

end Montage
