import DeadReckoning.Gcode.Invariant
import DeadReckoning.Gcode.Simulate
import DeadReckoning.Recovery.Inputs

/-! The layer model: the moves of a print file in the order in which they are made, and what they
deposit, layer by layer. -/
namespace DeadReckoning.Analyzer
open Gcode (Axes Arithmetic ArcSegmentInfo ByteSpan CaseMapping Command GcodeState Line PlannedMove
  StateError)
open Recovery (FeatureClass MoveKind)
open Wal (Point)

section Types

/-- One simulated move. The chords of an arc share the line of the arc. -/
structure SimMove where
  start : Axes F64
  finish : Axes F64
  span : ByteSpan
  kind : MoveKind
  layer : Option ℕ
  object : Option Text
  arc : Option ArcSegmentInfo
  startKnown : Axes Bool
  finishKnown : Axes Bool
  deriving DecidableEq

/-- The position before the move was never lost, and is finite. -/
def SimMove.startPositionKnown (m : SimMove) : Bool :=
  m.startKnown.x && m.startKnown.y && m.startKnown.z && m.start.all F64.isFinite

structure XySegment where
  start : Point
  finish : Point
  z : F64
  eStart : F64
  eFinish : F64
  span : ByteSpan
  arc : Option ArcSegmentInfo
  deriving DecidableEq

/-- What is deposited one after the other under one name. -/
structure TypedPath where
  featureClass : FeatureClass
  typeName : Option Text
  segments : List XySegment
  deriving DecidableEq

structure Layer where
  index : ℕ
  z : F64
  zKnown : Bool
  span : ByteSpan
  annotationZ : Option F64
  paths : List TypedPath
  extrusionMoves : ℕ
  spiralMoves : ℕ
  deriving DecidableEq

/-- Why the model ends where it does. -/
inductive ModelStop where
  | endOfInput
  | lineError (offset : ℕ) (error : StateError ℚ)

structure ModelConfig where
  zEpsilon : F64

structure LayerModel where
  layers : List Layer
  moves : List SimMove
  annotated : Bool
  stop : ModelStop
  linesConsumed : ℕ

end Types

section Annotations

/-- What a slicer writes in a comment. -/
inductive Annotation where
  | featureType (name : Text)
  | layerChange
  | layer (value : Text)
  | z (height : F64)

/-- The annotation in a comment, which may begin with its semicolon. -/
def annotation (comment : Text) : Option Annotation :=
  let body := Text.trim ((Text.stripPrefix (lit ";") comment).getD comment)
  match Text.stripPrefix (lit "TYPE:") body with
  | some name => some (.featureType (Text.trim name))
  | none =>
      if body = lit "LAYER_CHANGE" then some .layerChange
      else
        match Text.stripPrefix (lit "LAYER:") body with
        | some value => some (.layer (Text.trim value))
        | none =>
            (Text.stripPrefix (lit "Z:") body).bind fun height =>
              (Decimal.parseF64 (Text.trim height)).map .z

/-- The class of a feature name, what can be seen or is at risk before the broader classes. -/
def classifyFeatureType (name : Text) : FeatureClass :=
  let n := (Text.trim name).map Char.toLower
  let has := Text.contains n
  if has (lit "bridge") || has (lit "overhang") then .bridge
  else if has (lit "top") || has (lit "bottom") || has (lit "ironing") || has (lit "skin") ||
      has (lit "surface") then .surface
  else if has (lit "gap") then .gapFill
  else if has (lit "support") then .support
  else if has (lit "skirt") || has (lit "brim") then .skirtBrim
  else if has (lit "wipe tower") || has (lit "prime tower") then .other
  else if has (lit "external perimeter") || has (lit "outer wall") || has (lit "wall-outer") then
    .outerWall
  else if has (lit "solid infill") then .solidInfill
  else if has (lit "infill") || has (lit "sparse") || n = lit "fill" then .internalInfill
  else if has (lit "perimeter") || has (lit "inner wall") || has (lit "wall-inner") then .innerWall
  else .other

/-- The object that is open after a line. A start without a name closes the one before it. -/
def applyObjectBracket (cases : CaseMapping) (line : Line) (current : Option Text) : Option Text :=
  match line.body.command? with
  | none => current
  | some command =>
      if command.name = lit "EXCLUDE_OBJECT_START" then
        (((command.get (lit "NAME")).map Text.trim).filter (· ≠ [])).map cases.upper
      else if command.name = lit "EXCLUDE_OBJECT_END" then none
      else current

/-- The comment of a line, on its own or behind a command. -/
def commentOf (line : Line) : Option Text :=
  match line.body with
  | .comment text => some text
  | .command _ comment => comment
  | .blank => none

end Annotations

section Recording

def u32Max : ℕ := 2 ^ 32 - 1

/-- The model that is being built, and what the lines read so far leave for the next moves. -/
structure Builder where
  model : LayerModel
  currentType : Option Text
  currentObject : Option Text
  pendingAnnotationZ : Option F64

/-- The coordinates of the interpreter, as the model keeps them. -/
def coordinates (a : Axes ℚ) : Axes F64 := ⟨.fin a.x, .fin a.y, .fin a.z, .fin a.e⟩

variable (arith : Arithmetic ℚ) (config : ModelConfig) (planned : PlannedMove ℚ)

def kindOfMove : MoveKind :=
  if planned.isExtrudeOnly arith then .extrudeOnly
  else if 0 < (planned.kinematicEnd arith).e - planned.start.e then .extrusion
  else .travel

/-- The height is away from that of the last layer. -/
def opensLayer (layers : List Layer) (z : F64) : Bool :=
  match layers.getLast? with
  | none => true
  | some layer => F64.lt config.zEpsilon (F64.abs (z - layer.z))

def segmentOf : XySegment :=
  let finish := planned.kinematicEnd arith
  { start := ⟨.fin planned.start.x, .fin planned.start.y⟩
    finish := ⟨.fin finish.x, .fin finish.y⟩
    z := .fin finish.z
    eStart := .fin planned.start.e
    eFinish := .fin finish.e
    span := planned.span
    arc := planned.arcSegment }

/-- Puts a segment on the last path, or on a new one under another name. -/
def addSegment (currentType : Option Text) (segment : XySegment) (paths : List TypedPath) :
    List TypedPath :=
  let opened : TypedPath :=
    { featureClass := (currentType.map classifyFeatureType).getD .other
      typeName := currentType
      segments := [segment] }
  match paths.getLast? with
  | none => [opened]
  | some path =>
      if path.typeName = currentType then
        paths.dropLast ++ [{ path with segments := path.segments ++ [segment] }]
      else paths ++ [opened]

/-- A layer with one more deposition. -/
def Layer.deposit (currentType : Option Text) (layer : Layer) : Layer :=
  let finish := planned.kinematicEnd arith
  { layer with
    extrusionMoves := min (layer.extrusionMoves + 1) u32Max
    spiralMoves :=
      if finish.z ≠ planned.start.z then min (layer.spiralMoves + 1) u32Max else layer.spiralMoves
    span := { layer.span with stop := max layer.span.stop planned.span.stop }
    paths := addSegment currentType (segmentOf arith planned) layer.paths }

/-- The layers after a deposition, and the annotation that is left for the next one. -/
def depositLayers (b : Builder) : List Layer × Option F64 :=
  let z : F64 := .fin (planned.kinematicEnd arith).z
  let layers := b.model.layers
  let onLast (layers : List Layer) : List Layer :=
    match layers.getLast? with
    | none => layers
    | some layer => layers.dropLast ++ [layer.deposit arith planned b.currentType]
  if opensLayer config layers z then
    (onLast (layers ++ [{
      index := min layers.length u32Max
      z
      zKnown := planned.stopKnown.z
      span := planned.span
      annotationZ := b.pendingAnnotationZ
      paths := []
      extrusionMoves := 0
      spiralMoves := 0 }]), none)
  else (onLast layers, b.pendingAnnotationZ)

/-- Records one planned move, which opens a layer when it deposits at another height. -/
def recordMove (b : Builder) : Builder :=
  let kind := kindOfMove arith planned
  let (layers, pending) :=
    if kind = .extrusion then depositLayers arith config planned b
    else (b.model.layers, b.pendingAnnotationZ)
  { b with
    pendingAnnotationZ := pending
    model := { b.model with
      layers
      moves := b.model.moves ++ [{
        start := coordinates planned.start
        finish := coordinates (planned.kinematicEnd arith)
        span := planned.span
        kind
        layer := layers.getLast?.map (·.index)
        object := b.currentObject
        arc := planned.arcSegment
        startKnown := planned.startKnown
        finishKnown := planned.stopKnown }] } }

end Recording

section Building

variable (cases : CaseMapping) (arith : Arithmetic ℚ) (config : ModelConfig)

/-- What the comment of a line and the bracket on it change. -/
def readMarks (line : Line) (b : Builder) : Builder :=
  let b := match (commentOf line).bind annotation with
    | some (.featureType name) =>
        { b with model := { b.model with annotated := true }, currentType := some name }
    | some (.z height) => { b with pendingAnnotationZ := some height }
    | _ => b
  { b with currentObject := applyObjectBracket cases line b.currentObject }

/-- The lines one after the other, until one of them cannot be applied. -/
def buildFrom : GcodeState ℚ → List Line → Builder → LayerModel
  | _, [], b => b.model
  | state, line :: lines, b =>
      let b := readMarks cases line b
      match state.apply arith line with
      | (.error error, _) => { b.model with stop := .lineError line.span.start error }
      | (.ok outcome, state) =>
          let b := { b with model := { b.model with linesConsumed := b.model.linesConsumed + 1 } }
          buildFrom state lines (outcome.moves.foldl (fun b planned =>
            recordMove arith config planned b) b)

/-- The model of a part of a print file, which begins at an offset and in a state. -/
def buildLayerModel (state : GcodeState ℚ) (data : Bytes) (baseOffset : ℕ) : LayerModel :=
  buildFrom cases arith config state (Gcode.lineIter cases data baseOffset)
    ⟨⟨[], [], false, .endOfInput, 0⟩, none, none, none⟩

end Building

section Recovery

/-- What the recovery reads of a move. -/
def SimMove.forRecovery (m : SimMove) : Recovery.SimMove :=
  ⟨m.start, m.finish, m.span.start, m.kind, m.layer, m.startKnown⟩

def TypedPath.forRecovery (p : TypedPath) : Recovery.TypedPath :=
  ⟨p.featureClass, p.segments.map fun s => ⟨s.start, s.finish, s.span.start⟩⟩

/-- What the recovery reads of the model. -/
def LayerModel.forRecovery (model : LayerModel) : Recovery.LayerModel where
  layers := model.layers.map fun layer => ⟨layer.paths.map TypedPath.forRecovery⟩
  moves := model.moves.map SimMove.forRecovery

end Recovery

section Order

/-- The moves are in the order of the file: those of one line have the same bytes, and a later line
begins where an earlier one has ended. -/
structure LayerModel.InFileOrder (model : LayerModel) : Prop where
  forward : ∀ m ∈ model.moves, m.span.start ≤ m.span.stop
  ordered : model.moves.Pairwise fun a b => a.span = b.span ∨ a.span.stop ≤ b.span.start

/-- The spans begin behind an offset and are in the order of the file. -/
structure Behind (offset : ℕ) (spans : List ByteSpan) : Prop where
  start : ∀ s ∈ spans, offset ≤ s.start
  forward : ∀ s ∈ spans, s.start ≤ s.stop
  ordered : spans.Pairwise fun a b => a = b ∨ a.stop ≤ b.start

theorem Behind.nil (offset : ℕ) : Behind offset [] := ⟨by simp, by simp, .nil⟩

/-- The moves of a line come before those of the lines behind it. -/
theorem Behind.line {span : ByteSpan} (hspan : span.start ≤ span.stop) {own later : List ByteSpan}
    (hown : ∀ s ∈ own, s = span) (h : Behind span.stop later) : Behind span.start (own ++ later) where
  start s hs := by
    rcases List.mem_append.mp hs with hs | hs
    · rw [hown s hs]
    · exact hspan.trans (h.start s hs)
  forward s hs := by
    rcases List.mem_append.mp hs with hs | hs
    · rw [hown s hs]
      exact hspan
    · exact h.forward s hs
  ordered := by
    refine List.pairwise_append.mpr ⟨?_, h.ordered, fun a ha b hb => .inr ?_⟩
    · exact List.pairwise_of_forall_mem_list fun a ha b hb => .inl ((hown a ha).trans (hown b hb).symm)
    · rw [hown a ha]
      exact h.start b hb

theorem LayerModel.inFileOrder_of_behind {model : LayerModel} {offset : ℕ}
    (h : Behind offset (model.moves.map (·.span))) : model.InFileOrder where
  forward m hm := h.forward m.span (List.mem_map_of_mem hm)
  ordered := List.pairwise_map.mp h.ordered

variable {cases : CaseMapping} {arith : Arithmetic ℚ} {config : ModelConfig}

/-- Each planned move becomes a move of the model, with its bytes. -/
theorem spans_foldl_recordMove (moves : List (PlannedMove ℚ)) (b : Builder) :
    (moves.foldl (fun b planned => recordMove arith config planned b) b).model.moves.map (·.span) =
      b.model.moves.map (·.span) ++ moves.map (·.span) := by
  induction moves generalizing b with
  | nil => simp
  | cons planned moves ih =>
    rw [List.foldl_cons, ih]
    simp [recordMove]

theorem readMarks_moves (line : Line) (b : Builder) :
    (readMarks cases line b).model.moves = b.model.moves := by
  unfold readMarks
  cases (commentOf line).bind annotation with
  | none => rfl
  | some mark => cases mark <;> rfl

theorem buildFrom_spans {base : ℕ} {lines : List Line} (hlines : Gcode.Contiguous base lines)
    (state : GcodeState ℚ) (b : Builder) :
    ∃ later, Behind base later ∧ (buildFrom cases arith config state lines b).moves.map (·.span) =
      b.model.moves.map (·.span) ++ later := by
  induction lines generalizing base state b with
  | nil => exact ⟨[], .nil base, by simp [buildFrom]⟩
  | cons line lines ih =>
    obtain ⟨rfl, hstop, hrest⟩ := hlines
    have hspans := @GcodeState.apply_ofLine ℚ _ _ _ arith state line
    rw [buildFrom]
    generalize state.apply arith line = applied at hspans
    obtain ⟨result, state⟩ := applied
    cases result with
    | error error => exact ⟨[], .nil _, by simp [readMarks_moves]⟩
    | ok outcome =>
      have hown : ∀ s ∈ outcome.moves.map (·.span), s = line.span := by
        intro s hs
        obtain ⟨m, hm, rfl⟩ := List.mem_map.mp hs
        exact hspans m hm
      dsimp only
      obtain ⟨later, hlater, heq⟩ := ih hrest state _
      exact ⟨_, .line hstop hown hlater,
        by rw [heq, spans_foldl_recordMove, readMarks_moves, List.append_assoc]⟩

/-- Whatever the file and the state it is read from, the moves are in the order of the file. -/
theorem buildLayerModel_inFileOrder (state : GcodeState ℚ) (data : Bytes) (baseOffset : ℕ) :
    (buildLayerModel cases arith config state data baseOffset).InFileOrder := by
  obtain ⟨later, hlater, heq⟩ := @buildFrom_spans cases arith config _ _
    (Gcode.linesFrom_contiguous cases baseOffset 0 [] data) state
    ⟨⟨[], [], false, .endOfInput, 0⟩, none, none, none⟩
  rw [List.map_nil, List.nil_append] at heq
  exact LayerModel.inFileOrder_of_behind (by rwa [buildLayerModel, Gcode.lineIter, heq])

end Order

end DeadReckoning.Analyzer
