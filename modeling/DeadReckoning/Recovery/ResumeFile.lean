import DeadReckoning.Recovery.Plan
import DeadReckoning.Gcode.Reading

/-! The file that the print resumes from: what plr writes in front of the rest of the original, and
what the printer reads there. -/
namespace DeadReckoning.Recovery
open Gcode

section Build

/-- Where the one travel behind `G28` goes, and at what height. -/
def RecoveryFileSpec.postHomeTarget (spec : RecoveryFileSpec) : Wal.Point × Option F64 :=
  match spec.purge with
  | some (.builtIn point z _ _ _ _) => (point, z)
  | some (.macroCall _) | none => (spec.park, none)

structure GeneratedRecoveryFile where
  content : Bytes
  tailStart : ℕ

def GeneratedRecoveryFile.preamble (file : GeneratedRecoveryFile) : Bytes :=
  file.content.take file.tailStart

def GeneratedRecoveryFile.tailBytes (file : GeneratedRecoveryFile) : Bytes :=
  file.content.drop file.tailStart

/-- The comments up to the first command, at most `cap` with those that are there already. -/
def leadingComments (cap : ℕ) : List Text → List LineBody → List Text
  | lines, [] => lines
  | lines, .comment text :: rest =>
      if cap ≤ lines.length then lines else leadingComments cap (lines ++ [text]) rest
  | lines, .blank :: rest => leadingComments cap lines rest
  | lines, .command _ _ :: _ => lines

def leadingCommentLines (cases : CaseMapping) (original : Bytes) (cap : ℕ) : List Text :=
  leadingComments cap [] (lineBodies cases original)

/-- The texts with a newline behind each. -/
def writeLines (lines : List Text) : Text := lines.flatMap fun line => line ++ ['\n']

variable (spec : RecoveryFileSpec)

/-- What the file says about itself, up to the header of the original. -/
def generatedHeader (timestamp : Text) : List Text :=
  [lit "; generated-by dead-reckoning power-loss recovery",
    lit "; generated-at " ++ timestamp,
    lit "; source-file " ++ spec.sourceName,
    lit "; matched-offset " ++ Nat.toDigits 10 spec.tailOffset,
    lit "; plan-id " ++ spec.planId,
    lit "; --- original file header (metadata) ---"]

/-- Both heaters are set, then both are waited for. -/
def heatingLines : List Text :=
  (spec.bed.map fun bed => lit "M140 S" ++ fmtNum bed).toList ++
    [lit "M104 S" ++ fmtNum spec.nozzle] ++
    (spec.bed.map fun bed => lit "M190 S" ++ fmtNum bed).toList ++
    [lit "M109 S" ++ fmtNum spec.nozzle]

/-- The homing of X and Y, the travel to where the purge happens, and the slow way down. -/
def reparkLines : List Text :=
  let (dest, destZ) := spec.postHomeTarget
  let travelFeed := match spec.purge with
    | some (.builtIn _ _ _ _ _ travelFeed) => travelFeed
    | some (.macroCall _) | none => spec.parkFeed
  [lit "G28 X Y", lit "G90",
      lit "G0 X" ++ fmtNum dest.1 ++ lit " Y" ++ fmtNum dest.2 ++ lit " F" ++ fmtNum travelFeed] ++
    (destZ.map fun z => lit "G1 Z" ++ fmtNum z ++ lit " F" ++ fmtNum spec.descendFeed).toList

def purgeLines : Option PurgePlan → List Text
  | some (.macroCall call) => [call]
  | some (.builtIn _ _ amount speed retract _) =>
      [lit "M83", lit "G92 E0", lit "G1 E" ++ fmtNum amount ++ lit " F" ++ fmtNum speed] ++
        (if F64.lt 0 retract then [lit "G1 E-" ++ fmtNum retract ++ lit " F" ++ fmtNum speed]
          else []) ++
        [lit "G92 E0"]
  | none => []

/-- The moves into the part, between the acceleration for them and the one for the print. -/
def entryLines : List Text :=
  (spec.entryAccel.map fun accel => lit "SET_VELOCITY_LIMIT ACCEL=" ++ fmtNum accel.1).toList ++
    spec.entryCommands ++
    (spec.entryAccel.map fun accel => lit "SET_VELOCITY_LIMIT ACCEL=" ++ fmtNum accel.2).toList

/-- What is written behind the header of the original. -/
def generatedCommands : List Text :=
  [lit "; --- end original file header ---"] ++ heatingLines spec ++ reparkLines spec ++
    purgeLines spec.purge ++ entryLines spec

def buildRecoveryFile (cases : CaseMapping) (original : Bytes) (timestamp : Text) :
    GeneratedRecoveryFile :=
  let pre := encode (writeLines (generatedHeader spec timestamp ++
    leadingCommentLines cases original spec.headerCap ++ generatedCommands spec))
  { content := pre ++ if spec.tailOffset < original.length then original.drop spec.tailOffset
      else []
    tailStart := pre.length }

end Build

section Lines

variable {cases : CaseMapping} {lines : List Text} {cap : ℕ} {original : Bytes}

theorem writeLines_append (lines more : List Text) :
    writeLines (lines ++ more) = writeLines lines ++ writeLines more := List.flatMap_append

theorem encode_writeLines_cons (line : Text) (lines : List Text) :
    encode (writeLines (line :: lines)) =
      encode line ++ [newline] ++ encode (writeLines lines) := by
  have hnewline : encode ['\n'] = [newline] := rfl
  have hcons : writeLines (line :: lines) = line ++ ['\n'] ++ writeLines lines := List.flatMap_cons
  rw [hcons, encode_append, encode_append, hnewline]

/-- Lines end with a newline, whatever their texts hold. -/
theorem endsLine_writeLines (lines : List Text) : EndsLine (encode (writeLines lines)) := by
  induction lines with
  | nil => exact .inl rfl
  | cons line lines ih =>
    rw [encode_writeLines_cons]
    exact EndsLine.append (.inr ⟨_, rfl⟩) ih

theorem lineBodies_writeLines_append (lines more : List Text) :
    lineBodies cases (encode (writeLines (lines ++ more))) =
      lineBodies cases (encode (writeLines lines)) ++
        lineBodies cases (encode (writeLines more)) := by
  rw [writeLines_append, encode_append, lineBodies_append (endsLine_writeLines lines)]

/-- A comment that is read as itself when it is written again. -/
def IsComment (text : Text) : Prop :=
  '\n' ∉ text ∧ text.head? = some ';' ∧ Text.trim text = text

theorem lineBodies_comments (h : ∀ text ∈ lines, IsComment text) :
    lineBodies cases (encode (writeLines lines)) = lines.map LineBody.comment := by
  induction lines with
  | nil => rfl
  | cons text lines ih =>
    obtain ⟨hfree, hhead, htrim⟩ := h text List.mem_cons_self
    have hends : EndsLine (encode text ++ [newline]) := .inr ⟨_, rfl⟩
    rw [encode_writeLines_cons, lineBodies_append hends, lineBodies_text hfree,
      parseLine_comment hhead htrim, ih fun t ht => h t (List.mem_cons_of_mem _ ht)]
    rfl

/-- Every comment of any data is one. -/
theorem isComment_of_mem_lineBodies {text : Text} (h : .comment text ∈ lineBodies cases original) :
    IsComment text := by
  obtain ⟨piece, hfree, hpiece⟩ := mem_linesFrom_bodies List.not_mem_nil h
  obtain ⟨htrim, hhead⟩ := comment_of_parseLine hpiece.symm
  refine ⟨fun hmem => ?_, hhead, by rw [htrim, Text.trim_trim]⟩
  obtain ⟨a, b, hsplit, -, -⟩ := Text.exists_trim (fromUtf8Lossy piece)
  apply newline_notMem_fromUtf8Lossy hfree
  rw [hsplit, ← htrim]
  exact List.mem_append_left _ (List.mem_append_right _ hmem)

/-- One more line of the original: a comment is kept while there is room. -/
theorem leadingComments_keeps {bodies : List LineBody} (hcap : lines.length ≤ cap) :
    (leadingComments cap lines bodies).length ≤ cap ∧
      ∃ more, leadingComments cap lines bodies = lines ++ more ∧
        (more.map LineBody.comment).Sublist bodies := by
  induction bodies generalizing lines with
  | nil => exact ⟨hcap, [], (List.append_nil _).symm, List.Sublist.refl _⟩
  | cons body bodies ih =>
    have hstop : lines.length ≤ cap ∧ ∃ more, lines = lines ++ more ∧
        (more.map LineBody.comment).Sublist (body :: bodies) :=
      ⟨hcap, [], (List.append_nil _).symm, List.nil_sublist _⟩
    cases body with
    | blank =>
      obtain ⟨hlength, more, hmore, hsub⟩ := ih hcap
      exact ⟨hlength, more, hmore, hsub.cons _⟩
    | comment text =>
      unfold leadingComments
      by_cases hfull : cap ≤ lines.length
      · rw [if_pos hfull]
        exact hstop
      · rw [if_neg hfull]
        have hroom : (lines ++ [text]).length ≤ cap := by
          rw [List.length_append, List.length_singleton]
          omega
        obtain ⟨hlength, more, hmore, hsub⟩ := ih hroom
        exact ⟨hlength, text :: more, by rw [hmore, List.append_assoc]; rfl, hsub.cons_cons _⟩
    | command c comment => exact hstop

theorem leadingCommentLines_length : (leadingCommentLines cases original cap).length ≤ cap :=
  (leadingComments_keeps (Nat.zero_le cap)).1

/-- The copied lines are comments of the original, in its order. -/
theorem leadingCommentLines_sublist :
    ((leadingCommentLines cases original cap).map LineBody.comment).Sublist
      (lineBodies cases original) := by
  obtain ⟨-, more, hmore, hsub⟩ :=
    @leadingComments_keeps [] cap (lineBodies cases original) (Nat.zero_le cap)
  rw [leadingCommentLines, hmore]
  exact hsub

theorem isComment_of_mem_leadingCommentLines {text : Text}
    (h : text ∈ leadingCommentLines cases original cap) : IsComment text :=
  isComment_of_mem_lineBodies (leadingCommentLines_sublist.subset (List.mem_map_of_mem h))

end Lines

section Laws

variable (cases : CaseMapping) (spec : RecoveryFileSpec) (timestamp : Text)

/-- The lines of some data that are commands. -/
def commandLines (data : Bytes) : List LineBody :=
  (lineBodies cases data).filter fun body => body.command?.isSome

/-- What is read in front of the copied header. -/
def headerBodies : List LineBody :=
  lineBodies cases (encode (writeLines (generatedHeader spec timestamp)))

/-- What is read behind it. -/
def commandBodies : List LineBody :=
  lineBodies cases (encode (writeLines (generatedCommands spec)))

theorem preamble_eq (original : Bytes) :
    (buildRecoveryFile spec cases original timestamp).preamble =
      encode (writeLines (generatedHeader spec timestamp ++
        leadingCommentLines cases original spec.headerCap ++ generatedCommands spec)) :=
  List.take_left

theorem tailBytes_eq (original : Bytes) :
    (buildRecoveryFile spec cases original timestamp).tailBytes =
      original.drop spec.tailOffset := by
  unfold GeneratedRecoveryFile.tailBytes buildRecoveryFile
  rw [List.drop_left]
  by_cases hinside : spec.tailOffset < original.length
  · rw [if_pos hinside]
  · rw [if_neg hinside, List.drop_eq_nil_of_le (by omega)]

theorem preamble_endsLine (original : Bytes) :
    (buildRecoveryFile spec cases original timestamp).preamble.getLast? = some newline := by
  have hfirst : ∃ line lines, generatedHeader spec timestamp ++
      leadingCommentLines cases original spec.headerCap ++ generatedCommands spec =
        line :: lines := ⟨_, _, rfl⟩
  obtain ⟨line, lines, hlines⟩ := hfirst
  rw [preamble_eq, hlines, encode_writeLines_cons]
  rcases endsLine_writeLines lines with hnil | ⟨before, hbefore⟩
  · rw [hnil, List.append_nil, List.getLast?_append]
    rfl
  · rw [hbefore, ← List.append_assoc, List.getLast?_append]
    rfl

/-- The copied header stands in the preamble as comments, and nothing else does that depends on the
original. -/
theorem lineBodies_preamble (original : Bytes) :
    lineBodies cases (buildRecoveryFile spec cases original timestamp).preamble =
      headerBodies cases spec timestamp ++
        (leadingCommentLines cases original spec.headerCap).map LineBody.comment ++
        commandBodies cases spec := by
  rw [preamble_eq, lineBodies_writeLines_append, lineBodies_writeLines_append,
    lineBodies_comments fun _ => isComment_of_mem_leadingCommentLines]
  rfl

theorem commandLines_preamble (original : Bytes) :
    commandLines cases (buildRecoveryFile spec cases original timestamp).preamble =
      (headerBodies cases spec timestamp ++ commandBodies cases spec).filter
        fun body => body.command?.isSome := by
  have hcomments : ((leadingCommentLines cases original spec.headerCap).map LineBody.comment).filter
      (fun body => body.command?.isSome) = [] := by
    rw [List.filter_eq_nil_iff]
    intro body hbody
    obtain ⟨text, -, rfl⟩ := List.mem_map.mp hbody
    exact Bool.false_ne_true
  rw [commandLines, lineBodies_preamble, List.filter_append, List.filter_append, hcomments,
    List.append_nil, List.filter_append]

/-- The tail is the original from the offset on, byte by byte. In front of it stand whole lines,
whose commands are the same for any two originals: what is copied from an original is comments. -/
theorem buildRecoveryFile_law (original other : Bytes) :
    (buildRecoveryFile spec cases original timestamp).tailBytes =
        original.drop spec.tailOffset ∧
      (buildRecoveryFile spec cases original timestamp).preamble.getLast? = some newline ∧
      commandLines cases (buildRecoveryFile spec cases original timestamp).preamble =
        commandLines cases (buildRecoveryFile spec cases other timestamp).preamble ∧
      ∃ copied : List Text, copied.length ≤ spec.headerCap ∧
        (copied.map LineBody.comment).Sublist (lineBodies cases original) ∧
        lineBodies cases (buildRecoveryFile spec cases original timestamp).preamble =
          headerBodies cases spec timestamp ++ copied.map LineBody.comment ++
            commandBodies cases spec := by
  refine ⟨tailBytes_eq cases spec timestamp original,
    preamble_endsLine cases spec timestamp original, ?_, ?_⟩
  · rw [commandLines_preamble, commandLines_preamble]
  · exact ⟨_, leadingCommentLines_length, leadingCommentLines_sublist,
      lineBodies_preamble cases spec timestamp original⟩

end Laws

end DeadReckoning.Recovery
