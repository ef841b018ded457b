import DeadReckoning.Gcode.Reparse
import DeadReckoning.Gcode.Written
import DeadReckoning.Recovery.HeatedFile
import DeadReckoning.Recovery.Number

/-! The file that is generated passes the gate in front of it, unless the purge or the entry touches
a bed that the file does not heat. -/
namespace DeadReckoning.Recovery

open Checks (bind_eq_ok ensure_eq_ok required_eq_ok)
open Gcode

section Numbers

variable {q : ℚ} {v : F64}

theorem isValueChar_of_isNumberChar {c : Char} (h : isNumberChar c = true) : IsValueChar c := by
  have hrange := isNumberChar_range h
  have hbetween : isBetween c = true := by
    by_contra hnot
    have hrun : isRun c = false := by
      by_contra hrun
      have hletter := toNat_of_isRun (Bool.not_eq_false _ ▸ hrun)
      omega
    have hstar : c = '*' := by simpa [isBetween, hrun] using hnot
    subst hstar
    exact absurd h (by decide)
  refine ⟨hbetween, isWhitespace_of_isNumberChar h, ?_, by omega, toUpper_of_isNumberChar h⟩
  rintro rfl
  exact absurd h (by decide)

theorem isValue_fmtNum (q : ℚ) : IsValue (fmtNum (.fin q)) :=
  fun _ hc => isValueChar_of_isNumberChar (isNumberChar_of_mem_fmtNum hc)

/-- The numbers of a spec that are written in front of the purge. -/
def specNumbers (spec : RecoveryFileSpec) : List F64 :=
  [spec.nozzle, spec.park.1, spec.park.2, spec.parkFeed, spec.descendFeed] ++ spec.bed.toList ++
    match spec.purge with
    | some (.builtIn point z _ _ _ travelFeed) => [point.1, point.2, travelFeed] ++ z.toList
    | some (.macroCall _) | none => []

end Numbers

section Lines

variable {cases : CaseMapping} {line : Text} {lines : List Text} {words : List (Char × Text)}
  {number : Text} {letter : Char}

theorem commandsIn_cons (hfree : '\n' ∉ line) :
    commandsIn cases (encode (writeLines (line :: lines))) =
      (parseLine cases line).command?.toList ++ commandsIn cases (encode (writeLines lines)) := by
  have hends : EndsLine (encode line ++ [newline]) := .inr ⟨_, rfl⟩
  unfold commandsIn
  rw [encode_writeLines_cons, lineBodies_append hends, lineBodies_text hfree, List.filterMap_append]
  cases parseLine cases line <;> rfl

theorem commandsIn_append (lines more : List Text) :
    commandsIn cases (encode (writeLines (lines ++ more))) =
      commandsIn cases (encode (writeLines lines)) ++
        commandsIn cases (encode (writeLines more)) := by
  unfold commandsIn
  rw [lineBodies_writeLines_append, List.filterMap_append]

/-- A line behind a semicolon is no command. -/
theorem command_of_semicolon (hhead : line.head? = some ';') :
    (parseLine cases line).command? = none := by
  obtain ⟨rest, rfl⟩ := List.head?_eq_some_iff.mp hhead
  have hhead' : (Text.trim (';' :: rest)).head? = some ';' := by
    have hdrop : (';' :: rest).dropWhile Text.isWhitespace = ';' :: rest :=
      List.dropWhile_cons_of_neg (by decide)
    have hprefix : Text.trim (';' :: rest) <+: ';' :: rest := by
      rw [Text.trim, hdrop]
      exact List.rdropWhile_prefix _ _
    cases htrim : Text.trim (';' :: rest) with
    | nil =>
      rw [Text.trim, hdrop, List.rdropWhile_eq_nil_iff] at htrim
      exact absurd (htrim ';' List.mem_cons_self) (by decide)
    | cons c text =>
      rw [htrim] at hprefix
      rw [List.head?_cons, (List.cons_prefix_cons.mp hprefix).1]
  rw [parseLine_congr (Text.trim_trim (';' :: rest)).symm,
    parseLine_comment hhead' (Text.trim_trim _)]
  rfl

/-- The command that is read of a letter, a number and words. -/
def writtenCommand (letter : Char) (number : Text) (words : List (Char × Text)) : Command :=
  ⟨letter :: number, .traditional (words.map fun word => ([word.1], word.2))⟩

theorem commandsIn_written (letter : Char) (hletter : letter.isUpper = true) (hN : letter ≠ 'N')
    (hnumber : IsValue number) (htraditional : isTraditionalCommand (letter :: number) = true)
    (hwords : AreWords words) (hline : line = written letter number words) :
    commandsIn cases (encode (writeLines (line :: lines))) =
      writtenCommand letter number words :: commandsIn cases (encode (writeLines lines)) := by
  have hfree : '\n' ∉ line := by
    rw [hline]
    intro hmem
    have hsolid : ∀ c ∈ written letter number words, c ≠ '\n' := by
      refine mem_written hletter hnumber hwords (by decide) ?_ ?_
      · rintro c hc rfl
        exact absurd hc (by decide)
      · rintro c hc rfl
        exact absurd hc.solid (by decide)
    exact hsolid _ hmem rfl
  rw [commandsIn_cons hfree, hline, parseLine_written hletter hN hnumber htraditional hwords]
  rfl

end Lines

section Verified

variable {cases : CaseMapping} {file : GeneratedRecoveryFile} {spec : RecoveryFileSpec}
  {m109 g28 motion : ℕ} {rePark : PreLine}

/-- The gate lets a file through that has what it looks for. -/
theorem verify_of_passed (h : Passed spec.postHomeTarget.1
    (classify true (commandsIn cases file.preamble)) m109 g28 motion rePark) :
    verifyHeatingGate cases file spec = .ok () := by
  have hbed : ensure (!((classify true (commandsIn cases file.preamble)).any
      (fun l => l.name = lit "M140") && ((classify true (commandsIn cases file.preamble)).findIdx?
        fun l => l.name = lit "M190").isNone)) HeatingGateViolation.missingBedWait = .ok () := by
    rw [ensure_eq_ok]
    cases hi : (classify true (commandsIn cases file.preamble)).findIdx?
        fun l => l.name = lit "M190" with
    | some i => simp
    | none => simpa using h.bed hi
  have htarget : ((classify true (commandsIn cases file.preamble)).drop (g28 + 1)).findIdx?
      (fun l => isMotionCommand l.name) >>= (fun i =>
        ((classify true (commandsIn cases file.preamble)).drop (g28 + 1))[i]?) = some rePark :=
    Option.bind_eq_some_iff.mpr ⟨motion, h.first, h.target⟩
  have hpurge := h.purge
  rw [← h.first] at hpurge
  unfold verifyHeatingGate
  refine bind_eq_ok.mpr ⟨m109, required_eq_ok.mpr h.nozzle, bind_eq_ok.mpr ⟨(), hbed, ?_⟩⟩
  refine bind_eq_ok.mpr ⟨(), forM_eq_ok.mpr h.cold, ?_⟩
  refine bind_eq_ok.mpr ⟨g28, required_eq_ok.mpr h.home, ?_⟩
  refine bind_eq_ok.mpr ⟨(), ensure_eq_ok.mpr (decide_eq_true h.after), ?_⟩
  refine bind_eq_ok.mpr ⟨(), forM_eq_ok.mpr h.dry, bind_eq_ok.mpr ⟨(), hpurge, ?_⟩⟩
  exact bind_eq_ok.mpr ⟨rePark, required_eq_ok.mpr htarget, h.park⟩

end Verified

section Generated

variable {cases : CaseMapping} {spec : RecoveryFileSpec} {timestamp : Text} {original : Bytes}

/-- Every number in front of the purge is finite. -/
def FiniteSpec (spec : RecoveryFileSpec) : Prop := ∀ v ∈ specNumbers spec, ∃ q : ℚ, v = .fin q

/-- Nothing ends the lines in which the file tells where it comes from. -/
def PlainHeader (spec : RecoveryFileSpec) (timestamp : Text) : Prop :=
  '\n' ∉ timestamp ∧ '\n' ∉ spec.sourceName ∧ '\n' ∉ spec.planId

/-- The commands of the purge and of the entry. -/
def laterCommands (cases : CaseMapping) (spec : RecoveryFileSpec) : List Command :=
  commandsIn cases (encode (writeLines (purgeLines spec.purge ++ entryLines spec)))

theorem commandsIn_header (hplain : PlainHeader spec timestamp) :
    commandsIn cases (encode (writeLines (generatedHeader spec timestamp))) = [] := by
  obtain ⟨htime, hsource, hplan⟩ := hplain
  have hdigits : '\n' ∉ Nat.toDigits 10 spec.tailOffset := by
    intro hmem
    exact absurd (Nat.isDigit_of_mem_toDigits (by decide) (by decide) hmem) (by decide)
  have hline : ∀ (head rest : Text) (lines : List Text), head.head? = some ';' → '\n' ∉ head →
      '\n' ∉ rest → commandsIn cases (encode (writeLines ((head ++ rest) :: lines))) =
        commandsIn cases (encode (writeLines lines)) := by
    intro head rest lines hsemicolon hhead hrest
    have hfree : '\n' ∉ head ++ rest := by simp [hhead, hrest]
    have hfirst : (head ++ rest).head? = some ';' := by simp [List.head?_append, hsemicolon]
    rw [commandsIn_cons hfree, command_of_semicolon hfirst]
    rfl
  have hconstant : ∀ (head : Text) (lines : List Text), head.head? = some ';' → '\n' ∉ head →
      commandsIn cases (encode (writeLines (head :: lines))) =
        commandsIn cases (encode (writeLines lines)) := by
    intro head lines hsemicolon hhead
    have hempty := hline head [] lines hsemicolon hhead List.not_mem_nil
    rwa [List.append_nil] at hempty
  unfold generatedHeader
  rw [hconstant _ _ (by decide) (by decide), hline _ _ _ (by decide) (by decide) htime,
    hline _ _ _ (by decide) (by decide) hsource, hline _ _ _ (by decide) (by decide) hdigits,
    hline _ _ _ (by decide) (by decide) hplan, hconstant _ _ (by decide) (by decide)]
  rfl

/-- The commands that heat. -/
def heatingCommands (bed : Option ℚ) (nozzle : ℚ) : List Command :=
  (bed.map fun bed => writtenCommand 'M' (lit "140") [('S', fmtNum (.fin bed))]).toList ++
    [writtenCommand 'M' (lit "104") [('S', fmtNum (.fin nozzle))]] ++
    (bed.map fun bed => writtenCommand 'M' (lit "190") [('S', fmtNum (.fin bed))]).toList ++
    [writtenCommand 'M' (lit "109") [('S', fmtNum (.fin nozzle))]]

/-- The commands that home and travel to the park point. -/
def homingCommands (x y feed : ℚ) : List Command :=
  [writtenCommand 'G' (lit "28") [('X', []), ('Y', [])], writtenCommand 'G' (lit "90") [],
    writtenCommand 'G' (lit "0")
      [('X', fmtNum (.fin x)), ('Y', fmtNum (.fin y)), ('F', fmtNum (.fin feed))]]

theorem areWords_number (letter : Char) (hletter : letter.isUpper = true) (q : ℚ) :
    AreWords [(letter, fmtNum (.fin q))] := by
  intro word hword
  rw [List.mem_singleton.mp hword]
  exact ⟨hletter, isValue_fmtNum q⟩

theorem commandsIn_heat (head : Text) {number : Text} {q : ℚ} {lines : List Text}
    (hhead : head = 'M' :: number ++ lit " S")
    (hnumber : IsValue number) (htraditional : isTraditionalCommand ('M' :: number) = true) :
    commandsIn cases (encode (writeLines ((head ++ fmtNum (.fin q)) :: lines))) =
      writtenCommand 'M' number [('S', fmtNum (.fin q))] ::
        commandsIn cases (encode (writeLines lines)) := by
  refine commandsIn_written 'M' rfl (by decide) hnumber htraditional (areWords_number 'S' rfl q) ?_
  rw [hhead]
  simp [written, wordsText, lit]

theorem isValue_digits {number : Text} (h : ∀ c ∈ number, c.isDigit = true) : IsValue number :=
  fun c hc => isValueChar_of_isNumberChar (by simp [isNumberChar, h c hc])

theorem commandsIn_heating {bed : Option ℚ} {nozzle : ℚ} (hbed : spec.bed = bed.map F64.fin)
    (hnozzle : spec.nozzle = .fin nozzle) (lines : List Text) :
    commandsIn cases (encode (writeLines (heatingLines spec ++ lines))) =
      heatingCommands bed nozzle ++ commandsIn cases (encode (writeLines lines)) := by
  have hline : ∀ (head number : Text) (q : ℚ) (more : List Text), head = 'M' :: number ++ lit " S" →
      (∀ c ∈ number, c.isDigit = true) → isTraditionalCommand ('M' :: number) = true →
        commandsIn cases (encode (writeLines ((head ++ fmtNum (.fin q)) :: more))) =
          writtenCommand 'M' number [('S', fmtNum (.fin q))] ::
            commandsIn cases (encode (writeLines more)) := by
    intro head number q more hhead hdigits htraditional
    exact commandsIn_heat head hhead (isValue_digits hdigits) htraditional
  have hsetBed := fun q more => hline (lit "M140 S") (lit "140") q more (by decide) (by decide)
    (by decide +kernel)
  have hsetNozzle := fun q more => hline (lit "M104 S") (lit "104") q more (by decide) (by decide)
    (by decide +kernel)
  have hwaitBed := fun q more => hline (lit "M190 S") (lit "190") q more (by decide) (by decide)
    (by decide +kernel)
  have hwaitNozzle := fun q more => hline (lit "M109 S") (lit "109") q more (by decide) (by decide)
    (by decide +kernel)
  unfold heatingLines heatingCommands
  rw [hbed, hnozzle]
  cases bed with
  | none =>
    simp only [Option.map_none, Option.toList_none, List.nil_append, List.append_nil,
      List.cons_append]
    rw [hsetNozzle, hwaitNozzle]
  | some bed =>
    simp only [Option.map_some, Option.toList_some, List.nil_append, List.cons_append]
    rw [hsetBed, hsetNozzle, hwaitBed, hwaitNozzle]

theorem areWords_cons {words : List (Char × Text)} (letter : Char)
    (hletter : letter.isUpper = true) {value : Text} (hvalue : IsValue value)
    (hwords : AreWords words) : AreWords ((letter, value) :: words) := by
  intro word hword
  rcases List.mem_cons.mp hword with rfl | hword
  · exact ⟨hletter, hvalue⟩
  · exact hwords word hword

theorem commandsIn_homing (x y feed : ℚ) (lines : List Text) :
    commandsIn cases (encode (writeLines ([lit "G28 X Y", lit "G90",
      lit "G0 X" ++ fmtNum (.fin x) ++ lit " Y" ++ fmtNum (.fin y) ++ lit " F" ++
        fmtNum (.fin feed)] ++ lines))) =
      homingCommands x y feed ++ commandsIn cases (encode (writeLines lines)) := by
  have hnone : AreWords [] := by simp [AreWords]
  have hempty : IsValue [] := by simp [IsValue]
  have hhome : AreWords [('X', []), ('Y', [])] :=
    areWords_cons 'X' rfl hempty (areWords_cons 'Y' rfl hempty hnone)
  have hpark : AreWords [('X', fmtNum (.fin x)), ('Y', fmtNum (.fin y)),
      ('F', fmtNum (.fin feed))] :=
    areWords_cons 'X' rfl (isValue_fmtNum x) (areWords_cons 'Y' rfl (isValue_fmtNum y)
      (areWords_number 'F' rfl feed))
  have hdigits : ∀ c ∈ lit "28" ++ lit "90" ++ lit "0", c.isDigit = true := by decide
  have hvalue : ∀ number : Text, number ⊆ lit "28" ++ lit "90" ++ lit "0" → IsValue number :=
    fun number hsub => isValue_digits fun c hc => hdigits c (hsub hc)
  have htravel : lit "G0 X" ++ fmtNum (.fin x) ++ lit " Y" ++ fmtNum (.fin y) ++ lit " F" ++
      fmtNum (.fin feed) = written 'G' (lit "0") [('X', fmtNum (.fin x)), ('Y', fmtNum (.fin y)),
        ('F', fmtNum (.fin feed))] := by
    simp [written, wordsText, lit]
  simp only [List.cons_append, List.nil_append]
  rw [commandsIn_written 'G' rfl (by decide) (hvalue (lit "28") (by decide)) (by decide +kernel)
      hhome (by decide),
    commandsIn_written 'G' rfl (by decide) (hvalue (lit "90") (by decide)) (by decide +kernel) hnone
      (by decide),
    commandsIn_written 'G' rfl (by decide) (hvalue (lit "0") (by decide)) (by decide +kernel) hpark
      htravel]
  simp only [homingCommands, List.cons_append, List.nil_append]

/-- What is written to go down to the purge. -/
theorem commandsIn_descent (z feed : ℚ) (lines : List Text) :
    ∃ cmd : Command, cmd.name = lit "G1" ∧
      commandsIn cases (encode (writeLines ((lit "G1 Z" ++ fmtNum (.fin z) ++ lit " F" ++
        fmtNum (.fin feed)) :: lines))) = cmd :: commandsIn cases (encode (writeLines lines)) := by
  have hwords : AreWords [('Z', fmtNum (.fin z)), ('F', fmtNum (.fin feed))] :=
    areWords_cons 'Z' rfl (isValue_fmtNum z) (areWords_number 'F' rfl feed)
  have hnumber : IsValue (lit "1") := isValue_digits (by decide)
  refine ⟨_, ?_, commandsIn_written 'G' rfl (by decide) hnumber (by decide +kernel)
    hwords (by simp [written, wordsText, lit])⟩
  rfl

/-- Where the travel behind the re-home goes. -/
theorem reparkLines_eq (hfinite : FiniteSpec spec) : ∃ x y feed : ℚ, ∃ zs : List Text,
    spec.postHomeTarget.1 = (.fin x, .fin y) ∧
      (zs = [] ∨ ∃ z f : ℚ, zs = [lit "G1 Z" ++ fmtNum (.fin z) ++ lit " F" ++
        fmtNum (.fin f)]) ∧
      reparkLines spec = [lit "G28 X Y", lit "G90",
        lit "G0 X" ++ fmtNum (.fin x) ++ lit " Y" ++ fmtNum (.fin y) ++ lit " F" ++
          fmtNum (.fin feed)] ++ zs := by
  obtain ⟨f, hf⟩ := hfinite spec.descendFeed (by simp [specNumbers])
  have hpark : ∀ purge, spec.purge = purge →
      (purge = none ∨ ∃ call, purge = some (.macroCall call)) →
      ∃ x y feed : ℚ, ∃ zs : List Text, spec.postHomeTarget.1 = (.fin x, .fin y) ∧
        (zs = [] ∨ ∃ z f : ℚ, zs = [lit "G1 Z" ++ fmtNum (.fin z) ++ lit " F" ++
          fmtNum (.fin f)]) ∧
        reparkLines spec = [lit "G28 X Y", lit "G90",
          lit "G0 X" ++ fmtNum (.fin x) ++ lit " Y" ++ fmtNum (.fin y) ++ lit " F" ++
            fmtNum (.fin feed)] ++ zs := by
    intro purge hpurge hnone
    obtain ⟨x, hx⟩ := hfinite spec.park.1 (by simp [specNumbers])
    obtain ⟨y, hy⟩ := hfinite spec.park.2 (by simp [specNumbers])
    obtain ⟨feed, hfeed⟩ := hfinite spec.parkFeed (by simp [specNumbers])
    have htarget : spec.postHomeTarget = ((.fin x, .fin y), none) := by
      unfold RecoveryFileSpec.postHomeTarget
      rw [hpurge, ← hx, ← hy]
      rcases hnone with rfl | ⟨call, rfl⟩ <;> rfl
    refine ⟨x, y, feed, [], by rw [htarget], .inl rfl, ?_⟩
    unfold reparkLines
    rw [htarget, hpurge, ← hfeed]
    rcases hnone with rfl | ⟨call, rfl⟩ <;> rfl
  cases hpurge : spec.purge with
  | none => exact hpark none hpurge (.inl rfl)
  | some purge =>
    cases purge with
    | macroCall call => exact hpark _ hpurge (.inr ⟨call, rfl⟩)
    | builtIn point z amount speed retract travelFeed =>
      have hnumbers : ∀ v ∈ [point.1, point.2, travelFeed] ++ z.toList, ∃ q : ℚ, v = .fin q := by
        intro v hv
        refine hfinite v ?_
        unfold specNumbers
        rw [hpurge]
        exact List.mem_append_right _ hv
      obtain ⟨x, hx⟩ := hnumbers point.1 (by simp)
      obtain ⟨y, hy⟩ := hnumbers point.2 (by simp)
      obtain ⟨feed, hfeed⟩ := hnumbers travelFeed (by simp)
      have htarget : spec.postHomeTarget = ((.fin x, .fin y), z) := by
        unfold RecoveryFileSpec.postHomeTarget
        rw [hpurge, ← hx, ← hy]
      refine ⟨x, y, feed, (z.map fun z => lit "G1 Z" ++ fmtNum z ++ lit " F" ++
        fmtNum spec.descendFeed).toList, by rw [htarget], ?_, ?_⟩
      · cases z with
        | none => exact .inl rfl
        | some z =>
          obtain ⟨q, rfl⟩ := hnumbers z (by simp)
          exact .inr ⟨q, f, by rw [hf]; rfl⟩
      · unfold reparkLines
        rw [htarget, hpurge, hfeed]

theorem commandsIn_generated (hfinite : FiniteSpec spec) :
    ∃ (bed : Option ℚ) (nozzle x y feed : ℚ) (zs : List Command), spec.bed = bed.map F64.fin ∧
      spec.postHomeTarget.1 = (.fin x, .fin y) ∧ (∀ cmd ∈ zs, cmd.name = lit "G1") ∧
      commandsIn cases (encode (writeLines (generatedCommands spec))) =
        heatingCommands bed nozzle ++
          (homingCommands x y feed ++ (zs ++ laterCommands cases spec)) := by
  obtain ⟨bed, hbed⟩ : ∃ bed : Option ℚ, spec.bed = bed.map F64.fin := by
    cases hbed : spec.bed with
    | none => exact ⟨none, rfl⟩
    | some v =>
      obtain ⟨q, rfl⟩ := hfinite v (by simp [specNumbers, hbed])
      exact ⟨some q, rfl⟩
  obtain ⟨nozzle, hnozzle⟩ := hfinite spec.nozzle (by simp [specNumbers])
  obtain ⟨x, y, feed, zs, htarget, hzs, hrepark⟩ := reparkLines_eq hfinite
  have hmarker : '\n' ∉ lit "; --- end original file header ---" := by decide
  have hafter : ∃ down : List Command, (∀ cmd ∈ down, cmd.name = lit "G1") ∧
      commandsIn cases (encode (writeLines (zs ++ (purgeLines spec.purge ++ entryLines spec)))) =
        down ++ laterCommands cases spec := by
    rcases hzs with rfl | ⟨z, f, rfl⟩
    · exact ⟨[], by simp, rfl⟩
    · obtain ⟨cmd, hname, hcmd⟩ := @commandsIn_descent cases z f
        (purgeLines spec.purge ++ entryLines spec)
      exact ⟨[cmd], by simpa using hname, hcmd⟩
  obtain ⟨down, hdown, hlater⟩ := hafter
  refine ⟨bed, nozzle, x, y, feed, down, hbed, htarget, hdown, ?_⟩
  have hlines : generatedCommands spec = lit "; --- end original file header ---" ::
      (heatingLines spec ++ (reparkLines spec ++ (purgeLines spec.purge ++ entryLines spec))) := by
    simp only [generatedCommands, List.append_assoc, List.cons_append, List.nil_append]
  rw [hlines, commandsIn_cons hmarker, command_of_semicolon (by decide), Option.toList_none,
    List.nil_append, commandsIn_heating hbed hnozzle, hrepark, List.append_assoc,
    commandsIn_homing, hlater]

theorem commandsIn_preamble (hplain : PlainHeader spec timestamp) :
    commandsIn cases (buildRecoveryFile spec cases original timestamp).preamble =
      commandsIn cases (encode (writeLines (generatedCommands spec))) := by
  have hheader := @commandsIn_header cases spec timestamp hplain
  have hcomments : ∀ texts : List Text,
      (texts.map LineBody.comment).filterMap LineBody.command? = [] := by
    intro texts
    induction texts with
    | nil => rfl
    | cons text texts ih => exact ih
  unfold commandsIn at hheader ⊢
  rw [lineBodies_preamble, List.filterMap_append, List.filterMap_append, hcomments, headerBodies,
    hheader, commandBodies, List.nil_append, List.nil_append]

end Generated

section Gates

variable {bed nozzle x y feed : ℚ} {later : List Command}

/-- What the gate sees behind the re-home. -/
theorem noPurge_travel (absolute : Bool) :
    checkNoPurge (classify absolute ((homingCommands x y feed).drop 1 ++ later)) (some 1) =
      .ok () := by
  unfold checkNoPurge
  cases hi : (classify absolute ((homingCommands x y feed).drop 1 ++ later)).findIdx?
      (·.touchesE) with
  | none => rfl
  | some i =>
    rw [classify_append] at hi
    have hle : 2 ≤ i := le_of_findIdx hi (by
      intro l hl
      rcases List.mem_cons.mp hl with rfl | hl
      · rfl
      · rw [List.mem_singleton.mp hl]
        rfl)
    have hnot : ¬ i < 1 := by omega
    simp only [Option.all_some, decide_eq_true_eq, if_neg hnot]

/-- What the gate sees of the travel behind the re-home. -/
def travelLine (x y feed : ℚ) : PreLine :=
  preLine true (writtenCommand 'G' (lit "0")
    [('X', fmtNum (.fin x)), ('Y', fmtNum (.fin y)), ('F', fmtNum (.fin feed))])

/-- Five decimal places are enough for the gate. -/
theorem checkRePark_travelLine :
    checkRePark (.fin x, .fin y) (travelLine x y feed) = .ok () := by
  have hclose : ∀ q : ℚ, parkMatches (Decimal.parseF64 (fmtNum (.fin q))) (.fin q) = true := by
    intro q
    have hle : |quantized q - q| ≤ 1 / 10000 :=
      (abs_quantized_sub_le q).trans (by norm_num)
    rw [parseF64_fmtNum]
    simpa [parkMatches, parkMatchEpsilon] using hle
  have hx : parkMatches (travelLine x y feed).x (.fin x) = true := hclose x
  have hy : parkMatches (travelLine x y feed).y (.fin y) = true := hclose y
  have hxy : (travelLine x y feed).hasXy = true := rfl
  have habsolute : (travelLine x y feed).absolute = true := rfl
  unfold checkRePark
  simp [hx, hy, hxy, habsolute]

/-- A bed that the file heats is waited for before it homes. -/
theorem passed_heated (bed nozzle x y feed : ℚ) (later : List Command) :
    Passed (.fin x, .fin y)
      (classify true (heatingCommands (some bed) nozzle ++ (homingCommands x y feed ++ later)))
        3 4 1 (travelLine x y feed) := by
  have hwait : (classify true (heatingCommands (some bed) nozzle ++
      (homingCommands x y feed ++ later))).findIdx? (fun l => l.name = lit "M190") = some 2 := rfl
  have hstill : ∀ l ∈ (classify true (heatingCommands (some bed) nozzle ++
      (homingCommands x y feed ++ later))).take 4,
        checkBeforeWaits l = .ok () ∧ checkBeforeReHome l = .ok () := by
    intro l hl
    have hfour : (classify true (heatingCommands (some bed) nozzle ++
      (homingCommands x y feed ++ later))).take 4 =
        classify true (heatingCommands (some bed) nozzle) := rfl
    rw [hfour] at hl
    simp only [heatingCommands, Option.map_some, Option.toList_some, List.cons_append,
      List.nil_append, classify, List.mem_cons, List.not_mem_nil, or_false] at hl
    rcases hl with rfl | rfl | rfl | rfl
    · exact ⟨rfl, rfl⟩
    · exact ⟨rfl, rfl⟩
    · exact ⟨rfl, rfl⟩
    · exact ⟨rfl, rfl⟩
  exact
    { nozzle := rfl
      bed := fun hnone => by cases hwait.symm.trans hnone
      cold := fun l hl => (hstill l (List.take_subset_take_left _ (by rw [hwait]; decide) hl)).1
      home := rfl
      after := by rw [hwait]; decide
      dry := fun l hl => (hstill l hl).2
      purge := noPurge_travel true
      first := rfl
      target := rfl
      park := checkRePark_travelLine }

/-- The command neither heats the bed nor waits for it. -/
def LeavesBed (cmd : Command) : Prop :=
  cmd.name.map Char.toUpper ≠ lit "M140" ∧ cmd.name.map Char.toUpper ≠ lit "M190"

theorem name_of_classify {absolute : Bool} {cmds : List Command} {l : PreLine}
    (h : l ∈ classify absolute cmds) : ∃ cmd ∈ cmds, l.name = cmd.name.map Char.toUpper := by
  have hname := List.mem_map_of_mem (f := PreLine.name) h
  rw [names_classify] at hname
  obtain ⟨cmd, hcmd, heq⟩ := List.mem_map.mp hname
  exact ⟨cmd, hcmd, heq.symm⟩

theorem leavesBed_unheated (nozzle x y feed : ℚ) :
    ∀ cmd ∈ heatingCommands none nozzle ++ homingCommands x y feed, LeavesBed cmd := by
  have hnames : (heatingCommands none nozzle ++ homingCommands x y feed).map (·.name) =
      [lit "M104", lit "M109", lit "G28", lit "G90", lit "G0"] := rfl
  have hleaves : ∀ name ∈ [lit "M104", lit "M109", lit "G28", lit "G90", lit "G0"],
      name.map Char.toUpper ≠ lit "M140" ∧ name.map Char.toUpper ≠ lit "M190" := by decide
  intro cmd hcmd
  exact hleaves cmd.name (hnames ▸ List.mem_map_of_mem hcmd)

theorem passed_unheated (nozzle x y feed : ℚ) (hlater : ∀ cmd ∈ later, LeavesBed cmd) :
    Passed (.fin x, .fin y)
      (classify true (heatingCommands none nozzle ++ (homingCommands x y feed ++ later)))
        1 2 1 (travelLine x y feed) := by
  have hleaves : ∀ cmd ∈ heatingCommands none nozzle ++ (homingCommands x y feed ++ later),
      LeavesBed cmd := by
    rw [← List.append_assoc]
    exact List.forall_mem_append.mpr ⟨leavesBed_unheated nozzle x y feed, hlater⟩
  have hwait : (classify true (heatingCommands none nozzle ++
      (homingCommands x y feed ++ later))).findIdx? (fun l => l.name = lit "M190") = none := by
    rw [List.findIdx?_eq_none_iff]
    intro l hl
    obtain ⟨cmd, hcmd, hname⟩ := name_of_classify hl
    exact decide_eq_false (hname ▸ (hleaves cmd hcmd).2)
  have hstill : ∀ l ∈ (classify true (heatingCommands none nozzle ++
      (homingCommands x y feed ++ later))).take 2,
        checkBeforeWaits l = .ok () ∧ checkBeforeReHome l = .ok () := by
    intro l hl
    have htwo : (classify true (heatingCommands none nozzle ++
      (homingCommands x y feed ++ later))).take 2 =
        classify true (heatingCommands none nozzle) := rfl
    rw [htwo] at hl
    simp only [heatingCommands, Option.map_none, Option.toList_none, List.append_nil,
      List.nil_append, List.cons_append, classify, List.mem_cons, List.not_mem_nil,
      or_false] at hl
    rcases hl with rfl | rfl
    · exact ⟨rfl, rfl⟩
    · exact ⟨rfl, rfl⟩
  have hbed : ∀ l ∈ classify true (heatingCommands none nozzle ++
      (homingCommands x y feed ++ later)), l.name ≠ lit "M140" := by
    intro l hl
    obtain ⟨cmd, hcmd, hname⟩ := name_of_classify hl
    exact hname ▸ (hleaves cmd hcmd).1
  exact
    { nozzle := rfl
      bed := fun _ => hbed
      cold := fun l hl => (hstill l (List.take_subset_take_left _ (by rw [hwait]; decide) hl)).1
      home := rfl
      after := by rw [hwait]; decide
      dry := fun l hl => (hstill l hl).2
      purge := noPurge_travel true
      first := rfl
      target := rfl
      park := checkRePark_travelLine }

/-- A bed that the file does not heat must not be heated or waited for later. -/
theorem leavesBed_of_passed {nozzle x y feed : ℚ} {park : Wal.Point} {m109 g28 motion : ℕ}
    {rePark : PreLine} (h : Passed park
      (classify true (heatingCommands none nozzle ++ (homingCommands x y feed ++ later)))
        m109 g28 motion rePark) : ∀ cmd ∈ later, LeavesBed cmd := by
  intro cmd hcmd
  have hseen : ∃ l ∈ classify true (heatingCommands none nozzle ++
      (homingCommands x y feed ++ later)), l.name = cmd.name.map Char.toUpper := by
    have hmem : cmd.name.map Char.toUpper ∈ (classify true (heatingCommands none nozzle ++
        (homingCommands x y feed ++ later))).map (·.name) := by
      rw [names_classify]
      exact List.mem_map_of_mem (List.mem_append_right _ (List.mem_append_right _ hcmd))
    exact List.mem_map.mp hmem
  obtain ⟨l, hl, hname⟩ := hseen
  have hnone : (classify true (heatingCommands none nozzle ++
      (homingCommands x y feed ++ later))).findIdx? (fun l => l.name = lit "M190") = none := by
    cases hi : (classify true (heatingCommands none nozzle ++
        (homingCommands x y feed ++ later))).findIdx? fun l => l.name = lit "M190" with
    | none => rfl
    | some i =>
      -- The wait would stand behind the re-home.
      have hhome : (2 : ℕ) = g28 := Option.some.inj (Eq.trans rfl h.home)
      have hafter := h.after
      rw [hi] at hafter
      have hle := (le_lastWait m109 (some i)).2 i rfl
      rw [← List.append_assoc, classify_append] at hi
      have hfive := le_of_findIdx hi fun l hl => by
        obtain ⟨cmd, hcmd, hname⟩ := name_of_classify hl
        exact decide_eq_false (hname ▸ (leavesBed_unheated nozzle x y feed cmd hcmd).2)
      rw [length_classify] at hfive
      have hlength : (heatingCommands none nozzle ++ homingCommands x y feed).length = 5 := rfl
      omega
  constructor
  · rw [← hname]
    exact h.bed hnone l hl
  · rw [← hname]
    exact of_decide_eq_false (List.findIdx?_eq_none_iff.mp hnone l hl)

end Gates

section Agreement

variable {cases : CaseMapping} {spec : RecoveryFileSpec} {timestamp : Text} {original : Bytes}

/-- The generated file passes the gate exactly when it heats the bed itself, or leaves it alone in
the purge and in the entry. -/
theorem verifyHeatingGate_build (hplain : PlainHeader spec timestamp)
    (hfinite : FiniteSpec spec) :
    verifyHeatingGate cases (buildRecoveryFile spec cases original timestamp) spec = .ok () ↔
      spec.bed.isSome ∨ ∀ cmd ∈ laterCommands cases spec, LeavesBed cmd := by
  obtain ⟨bed, nozzle, x, y, feed, zs, hbed, htarget, hzs, hcommands⟩ :=
    @commandsIn_generated cases spec hfinite
  have hpreamble := (@commandsIn_preamble cases spec timestamp original hplain).trans hcommands
  constructor
  · intro hgate
    obtain ⟨m109, g28, motion, rePark, hpassed⟩ := passed_of_verify hgate
    rw [hpreamble] at hpassed
    cases bed with
    | some bed => exact .inl (by rw [hbed]; rfl)
    | none =>
      exact .inr fun cmd hcmd => leavesBed_of_passed hpassed cmd (List.mem_append_right _ hcmd)
  · intro hwhen
    cases bed with
    | some bed =>
      have hpassed := passed_heated bed nozzle x y feed (zs ++ laterCommands cases spec)
      rw [← hpreamble, ← htarget] at hpassed
      exact verify_of_passed hpassed
    | none =>
      have hleaves : ∀ cmd ∈ zs ++ laterCommands cases spec, LeavesBed cmd := by
        rcases hwhen with hheated | hleaves
        · rw [hbed] at hheated
          cases hheated
        · refine List.forall_mem_append.mpr ⟨fun cmd hcmd => ?_, hleaves⟩
          rw [LeavesBed, hzs cmd hcmd]
          exact ⟨by decide, by decide⟩
      have hpassed := passed_unheated nozzle x y feed hleaves
      rw [← hpreamble, ← htarget] at hpassed
      exact verify_of_passed hpassed

theorem verifyHeatingGate_build_example :
    verifyHeatingGate asciiCase (buildRecoveryFile exampleHeatedSpec asciiCase [] [])
        exampleHeatedSpec = .ok () ↔
      exampleHeatedSpec.bed.isSome ∨
        ∀ cmd ∈ laterCommands asciiCase exampleHeatedSpec, LeavesBed cmd := by
  have hfinite : FiniteSpec exampleHeatedSpec := by
    intro v hv
    have hnumbers : v ∈ [(200 : F64), 10, 20, 6000, 300] := hv
    simp only [List.mem_cons, List.not_mem_nil, or_false] at hnumbers
    rcases hnumbers with rfl | rfl | rfl | rfl | rfl
    · exact ⟨200, rfl⟩
    · exact ⟨10, rfl⟩
    · exact ⟨20, rfl⟩
    · exact ⟨6000, rfl⟩
    · exact ⟨300, rfl⟩
  exact verifyHeatingGate_build ⟨by decide, by decide, by decide⟩ hfinite

end Agreement

end DeadReckoning.Recovery
