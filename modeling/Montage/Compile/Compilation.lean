import Montage.Compile.Composite
import Montage.Script
import Montage.Timeline

/-!
# Compiling a project

A project is checked, its media files are resolved, and its graph is built: the segments of all
cuts first, then the joins. A project with any fault gives no graph.
-/

namespace Montage

namespace Compilation

/-- Whether a value is a number; truth values are not. -/
def isLength : Value → Bool
  | .int _ => true
  | .real _ => true
  | _ => false

/-- Refuses a length that is no number, or a negative one. -/
def checkLength (field : FadeField) (value : Value) : Except Failure Unit := do
  if !isLength value then rejectNaming value (.fade (.notANumber field value))
  else if ← value.lt (.int 0) then rejectNaming value (.fade (.negative field value))

def checkFade (fade : FadeLengths) : Except Failure Unit := do
  checkLength .fadeIn fade.fadeIn
  checkLength .fadeOut fade.fadeOut
  checkLength .crossfade fade.crossfade

/-- The shortest of some lengths; the first of equal ones. -/
def shortest (first : Value) (rest : List Value) : Except Defect Value :=
  rest.foldlM (fun least value => do return if ← value.lt least then value else least) first

/-- The total length of the timeline, which the crossfades must not use up. -/
def checkTotal (durations : List Value) (crossfade : Value) : Except Failure Value := do
  let total ← Timeline.totalOf durations crossfade
  if ← total.le (.int 0) then
    let sum ← Value.sum durations
    throw (.naming crossfade (.naming sum (.edit (.fade (.nothingLeft crossfade sum)))))
  else return total

/-- Reports a crossfade that is longer than the shortest of several cuts. -/
def warnOfLongCrossfade (durations : List Value) (crossfade : Value) : Drafting Unit := do
  match durations with
  | first :: second :: rest =>
    let least ← shortest first (second :: rest)
    if ← least.lt crossfade then
      Drafting.report .warning "GraphBuilder"
        ("Crossfade de " ++ crossfade.bare ++ "s maior que o corte mais curto (" ++ least.bare ++
          "s)")
  | _ => return

/-- Adds the segments of cuts in their order. -/
def addSegments (style : SegmentStyle) (total : Int) : List CutInputs → Drafting (List Segment)
  | [] => return []
  | cut :: rest => do
    let segment ← Segment.ofCut style total cut
    let others ← addSegments style total rest
    return segment :: others

/-- Starts a graph that has windows but no nodes yet. -/
def beginGraph (windows : List Window) (durations : List Value) (crossfade : Value) :
    Drafting Unit := fun draft =>
  .ok () { draft with
    graph := { inputs := windows, durations := durations, crossfade := crossfade } }

/-- Names what leaves the graph, and gives the finished graph. -/
def finishGraph (final : Composite) (total : Value) : Drafting Graph := fun draft =>
  let graph := { draft.graph with
    videoOut := some final.video
    audioOut := some final.audio
    total := total }
  .ok graph { draft with graph := graph }

/-- Builds the graph of a project. -/
def build (existence : ExistenceCheck) (transition : Transition) (project : Project) :
    Drafting Graph := do
  if project.cuts.isEmpty then throw (.edit .noCuts)
  let fade := project.fade
  checkFade fade
  Drafting.report .info "GraphBuilder"
    ("Construindo filtergraph para " ++ decimalText project.cuts.length ++ " cortes (fade in=" ++
      fade.fadeIn.bare ++ " out=" ++ fade.fadeOut.bare ++ " crossfade=" ++ fade.crossfade.bare ++
      ")")
  let (windows, cuts) ← CutInputs.resolve existence project
  let durations := cuts.map (·.duration)
  let total ← checkTotal durations fade.crossfade
  warnOfLongCrossfade durations fade.crossfade
  beginGraph windows durations fade.crossfade
  let segments ← addSegments (SegmentStyle.ofProject project) cuts.length cuts
  let final ← Composite.compose fade.crossfade transition segments
  let graph ← finishGraph final total
  let (video, audio) ← graph.terminalLabels
  Drafting.report .info "GraphBuilder"
    ("Filtergraph com " ++ decimalText graph.nodes.length ++ " nós, saída " ++
      Graph.bracketed video ++ Graph.bracketed audio ++ ", duração total " ++ total.bare ++ "s")
  Drafting.report .debug "GraphBuilder" ("Filtergraph construído: " ++ (← graph.text))
  return graph

/-- Compiles a project, changed first if a transform is given. -/
def compile (existence : ExistenceCheck) (transition : Transition)
    (transform : Option ProjectTransform) (project : Project) : Drafting Graph := do
  match transform with
  | none => build existence transition project
  | some change =>
    let changed ← change project
    Drafting.report .info "GraphBuilder" "Transformação aplicada ao projeto antes da compilação"
    build existence transition changed

/-- The outcome of a step on an empty draft, and what it left behind. -/
def run {α : Type} (step : Drafting α) : Except Failure α × Draft :=
  match step.run {} with
  | .ok value draft => (.ok value, draft)
  | .error failure draft => (.error failure, draft)

end Compilation

end Montage
