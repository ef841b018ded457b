import DeadReckoning.Gcode.Stillness
import DeadReckoning.Recovery.HeatingGate

/-! What the interpreter does with a file that the heating gate lets through: up to both waits
nothing goes aside or down, and the first motion behind the re-home leads to the park point. -/
namespace DeadReckoning.Recovery

open Checks (bind_eq_ok ensure_eq_ok required_eq_ok)
open Gcode
open Gcode.GcodeState (Harmless ends kindOf replay stateAfter)

section Names

variable {cases : CaseMapping}

/-- No upper case is an ASCII letter in lower case. -/
def UpperLaw (cases : CaseMapping) : Prop := ∀ c, ∀ d ∈ cases.upperOf c, d.toUpper = d

theorem upperLaw_ascii : UpperLaw asciiCase := by
  intro c d hd
  obtain rfl := List.mem_singleton.mp hd
  by_cases hsmall : 'a'.val ≤ c.val ∧ c.val ≤ 'z'.val
  · obtain ⟨-, hhigh, hupper⟩ := Text.toNat_toUpper hsmall
    refine Text.toUpper_other fun hlow => ?_
    have hge : 97 ≤ c.toUpper.toNat := hlow.1
    omega
  · rw [Text.toUpper_other hsmall, Text.toUpper_other hsmall]

theorem flatten_splitArgsFrom (text : Text) (word : Option Text) (s : Text) :
    (splitArgsFrom text word s).flatten = text ++ word.getD [] ++ s := by
  induction s generalizing text word with
  | nil => cases word <;> simp [splitArgsFrom]
  | cons c s ih =>
    cases word with
    | none =>
      simp only [splitArgsFrom]
      split_ifs with hrun hstar
      · simp [ih]
      · simp [ih, hstar]
      · simp [ih]
    | some word =>
      simp only [splitArgsFrom]
      split_ifs with hrun hstar
      · simp [ih]
      · simp [ih, hstar]
      · simp [ih]

/-- A command name is made of the characters of its line. -/
theorem mem_of_mem_commandName {s : Text} {c : Char}
    (h : c ∈ commandName (splitArgs s)) : c ∈ s := by
  have hparts : ∀ part ∈ splitArgs s, c ∈ part → c ∈ s := by
    intro part hpart hc
    have hflat := List.mem_flatten_of_mem hpart hc
    rw [splitArgs, flatten_splitArgsFrom] at hflat
    simpa using hflat
  have hgetD : ∀ i, c ∈ (splitArgs s).getD i [] → c ∈ s := by
    intro i hc
    rw [List.getD_eq_getElem?_getD] at hc
    cases hi : (splitArgs s)[i]? with
    | none => simp [hi] at hc
    | some part =>
      rw [hi] at hc
      exact hparts part (List.mem_of_getElem? hi) hc
  have htrim : c ∈ if isNumbered (splitArgs s) then
      (splitArgs s).getD 3 [] ++ (splitArgs s).getD 4 [] else ((splitArgs s).take 3).flatten := by
    obtain ⟨a, b, hsplit, -, -⟩ := Text.exists_trim (if isNumbered (splitArgs s) then
      (splitArgs s).getD 3 [] ++ (splitArgs s).getD 4 [] else ((splitArgs s).take 3).flatten)
    rw [hsplit]
    exact List.mem_append_left _ (List.mem_append_right _ h)
  split at htrim
  · rcases List.mem_append.mp htrim with hc | hc
    · exact hgetD _ hc
    · exact hgetD _ hc
  · obtain ⟨part, hpart, hc⟩ := List.mem_flatten.mp htrim
    exact hparts part (List.mem_of_mem_take hpart) hc

/-- Command names are their own upper case. -/
theorem upper_name (hcases : UpperLaw cases) {data : Bytes} {cmd : Command}
    (h : cmd ∈ commandsIn cases data) : cmd.name.map Char.toUpper = cmd.name := by
  obtain ⟨body, hbody, hcmd⟩ := List.mem_filterMap.mp h
  obtain ⟨piece, -, rfl⟩ := mem_linesFrom_bodies List.not_mem_nil hbody
  have hname : ∀ c ∈ cmd.name, c.toUpper = c := by
    cases hparse : parseLine cases (fromUtf8Lossy piece) with
    | blank =>
      rw [hparse] at hcmd
      cases hcmd
    | comment text =>
      rw [hparse] at hcmd
      cases hcmd
    | command command comment =>
      rw [hparse] at hcmd
      obtain rfl := Option.some.inj hcmd
      intro c hc
      rw [← commandName_of_parseLine hparse] at hc
      obtain ⟨d, -, hd⟩ := List.mem_flatMap.mp (mem_of_mem_commandName hc)
      exact hcases d c hd
  exact (List.map_congr_left hname).trans (List.map_id' _)

end Names

section Lines

/-- The commands of some lines. -/
def commandsOf (lines : List Line) : List Command := lines.filterMap (·.body.command?)

/-- One of the lines is the command. -/
def Has (lines : List Line) (name : Text) : Prop := ∃ cmd ∈ commandsOf lines, cmd.name = name

/-- Both waits are over, as far as the file has them: a wait for the bed belongs to a file that
heats the bed. -/
def Waited (lines past : List Line) : Prop :=
  Has past (lit "M109") ∧
    (Has lines (lit "M140") ∨ Has lines (lit "M190") → Has past (lit "M190"))

/-- The mode behind some commands. -/
def modeAfter : Bool → List Command → Bool :=
  List.foldl fun absolute cmd => modeBehind absolute (cmd.name.map Char.toUpper)

theorem else_of_ne {α : Type} {p : Prop} [Decidable p] {a b c : α} (hne : a ≠ c)
    (h : (if p then a else b) = c) : b = c := by
  split at h
  · exact absurd h hne
  · exact h

theorem name_of_coordMode {name : Text} {absolute : Bool} (h : kindOf name = .coordMode absolute) :
    name = if absolute then lit "G90" else lit "G91" := by
  by_contra hnot
  have hname : name ≠ lit "G90" ∧ name ≠ lit "G91" := by
    constructor
    · rintro rfl
      cases absolute with
      | false => cases h
      | true => exact hnot rfl
    · rintro rfl
      cases absolute with
      | false => exact hnot rfl
      | true => cases h
  unfold kindOf at h
  rw [if_neg hname.1, if_neg hname.2] at h
  iterate 18 replace h := else_of_ne (by simp) h
  cases h

theorem modeBehind_eq (absolute : Bool) (name : Text) :
    modeBehind absolute name = (kindOf name).mode absolute := by
  by_cases hmode : ∃ mode, kindOf name = .coordMode mode
  · obtain ⟨mode, hmode⟩ := hmode
    rw [hmode, name_of_coordMode hmode]
    cases mode <;> rfl
  · have habsolute : name ≠ lit "G90" := fun h => hmode ⟨true, h ▸ rfl⟩
    have hrelative : name ≠ lit "G91" := fun h => hmode ⟨false, h ▸ rfl⟩
    rw [modeBehind, if_neg habsolute, if_neg hrelative]
    cases hkind : kindOf name with
    | coordMode mode => exact absurd ⟨mode, hkind⟩ hmode
    | _ => rfl

theorem isMotionCommand_iff (name : Text) :
    isMotionCommand name = true ↔
      kindOf name = .linear ∨ ∃ clockwise, kindOf name = .arc clockwise := by
  constructor
  · intro h
    have hname : name = lit "G0" ∨ name = lit "G1" ∨ name = lit "G2" ∨ name = lit "G3" := by
      simpa [isMotionCommand, motionCommands] using h
    rcases hname with rfl | rfl | rfl | rfl
    · exact .inl rfl
    · exact .inl rfl
    · exact .inr ⟨true, rfl⟩
    · exact .inr ⟨false, rfl⟩
  · intro h
    by_contra hnot
    have hname : ¬ (name = lit "G0" ∨ name = lit "G1" ∨ name = lit "G2" ∨ name = lit "G3") := by
      simpa [isMotionCommand, motionCommands] using hnot
    simp only [not_or] at hname
    obtain ⟨h0, h1, h2, h3⟩ := hname
    unfold kindOf at h
    simp only [h0, h1, h2, h3, or_self, if_false] at h
    rcases h with h | ⟨clockwise, h⟩
    · iterate 17 replace h := else_of_ne (by simp) h
      cases h
    · iterate 17 replace h := else_of_ne (by simp) h
      cases h

theorem classify_append (absolute : Bool) (before after : List Command) :
    classify absolute (before ++ after) =
      classify absolute before ++ classify (modeAfter absolute before) after := by
  induction before generalizing absolute with
  | nil => rfl
  | cons cmd before ih => simp only [List.cons_append, classify, ih]; rfl

theorem length_classify (absolute : Bool) (cmds : List Command) :
    (classify absolute cmds).length = cmds.length := by
  induction cmds generalizing absolute with
  | nil => rfl
  | cons cmd cmds ih => simp only [classify, List.length_cons, ih]

theorem names_classify (absolute : Bool) (cmds : List Command) :
    (classify absolute cmds).map (·.name) = cmds.map fun cmd => cmd.name.map Char.toUpper := by
  induction cmds generalizing absolute with
  | nil => rfl
  | cons cmd cmds ih =>
    simp only [classify, List.map_cons, ih]
    rfl

theorem isG28_classify {absolute : Bool} {cmds : List Command} {l : PreLine}
    (h : l ∈ classify absolute cmds) : l.isG28 = decide (l.name = lit "G28") := by
  induction cmds generalizing absolute with
  | nil => cases h
  | cons cmd cmds ih =>
    rcases List.mem_cons.mp h with rfl | h
    · rfl
    · exact ih h

end Lines

section Gate

variable {cases : CaseMapping} {file : GeneratedRecoveryFile} {spec : RecoveryFileSpec}
  {park : Wal.Point} {lines : List PreLine} {m109 g28 motion : ℕ} {rePark : PreLine}

/-- The index of the last wait. -/
def lastWait (m109 : ℕ) (m190 : Option ℕ) : ℕ := (m190.map (max m109)).getD m109

/-- What the gate has established when it lets a file through. -/
structure Passed (park : Wal.Point) (lines : List PreLine) (m109 g28 motion : ℕ)
    (rePark : PreLine) : Prop where
  nozzle : lines.findIdx? (fun l => l.name = lit "M109") = some m109
  bed : lines.findIdx? (fun l => l.name = lit "M190") = none →
    ∀ l ∈ lines, l.name ≠ lit "M140"
  cold : ∀ l ∈ lines.take (lastWait m109 (lines.findIdx? fun l => l.name = lit "M190")),
    checkBeforeWaits l = .ok ()
  home : lines.findIdx? (·.isG28) = some g28
  after : lastWait m109 (lines.findIdx? fun l => l.name = lit "M190") < g28
  dry : ∀ l ∈ lines.take g28, checkBeforeReHome l = .ok ()
  purge : checkNoPurge (lines.drop (g28 + 1)) (some motion) = .ok ()
  first : (lines.drop (g28 + 1)).findIdx? (fun l => isMotionCommand l.name) = some motion
  target : (lines.drop (g28 + 1))[motion]? = some rePark
  park : checkRePark park rePark = .ok ()

theorem forM_eq_ok {ε α : Type} {f : α → Except ε Unit} {l : List α} :
    l.forM f = .ok () ↔ ∀ a ∈ l, f a = .ok () := by
  induction l with
  | nil => simp [List.forM, pure, Except.pure]
  | cons a l ih =>
    change (f a >>= fun _ => l.forM f) = .ok () ↔ _
    rw [bind_eq_ok, List.forall_mem_cons]
    constructor
    · rintro ⟨⟨⟩, ha, hl⟩
      exact ⟨ha, ih.mp hl⟩
    · rintro ⟨ha, hl⟩
      exact ⟨(), ha, ih.mpr hl⟩

theorem passed_of_verify (h : verifyHeatingGate cases file spec = .ok ()) :
    ∃ m109 g28 motion rePark, Passed spec.postHomeTarget.1
      (classify true (commandsIn cases file.preamble)) m109 g28 motion rePark := by
  unfold verifyHeatingGate at h
  dsimp only [classifyPreamble] at h
  obtain ⟨m109, hnozzle, h⟩ := bind_eq_ok.mp h
  obtain ⟨_, hbed, h⟩ := bind_eq_ok.mp h
  obtain ⟨_, hcold, h⟩ := bind_eq_ok.mp h
  obtain ⟨g28, hhome, h⟩ := bind_eq_ok.mp h
  obtain ⟨_, hafter, h⟩ := bind_eq_ok.mp h
  obtain ⟨_, hdry, h⟩ := bind_eq_ok.mp h
  obtain ⟨_, hpurge, h⟩ := bind_eq_ok.mp h
  obtain ⟨rePark, hrePark, hpark⟩ := bind_eq_ok.mp h
  obtain ⟨motion, hfirst, hat⟩ := Option.bind_eq_some_iff.mp (required_eq_ok.mp hrePark)
  rw [hfirst] at hpurge
  refine ⟨m109, g28, motion, rePark, required_eq_ok.mp hnozzle, ?_, forM_eq_ok.mp hcold,
    required_eq_ok.mp hhome, of_decide_eq_true (ensure_eq_ok.mp hafter), forM_eq_ok.mp hdry,
    hpurge, hfirst, hat, hpark⟩
  intro hnone l hl hname
  rw [ensure_eq_ok, hnone] at hbed
  simp only [Option.isNone_none, Bool.and_true, Bool.not_eq_true', List.any_eq_false,
    decide_eq_true_eq] at hbed
  exact hbed l hl hname

end Gate

section Places

variable {lines past rest before : List Line} {line : Line} {cmd : Command} {name : Text}
  {pres more : List PreLine} {p : PreLine → Bool} {i k : ℕ}

theorem commandsOf_append (first second : List Line) :
    commandsOf (first ++ second) = commandsOf first ++ commandsOf second :=
  List.filterMap_append

theorem commandsOf_cons (hcmd : line.body.command? = some cmd) :
    commandsOf (line :: rest) = cmd :: commandsOf rest :=
  List.filterMap_cons_some hcmd

/-- A command stands in a line. -/
theorem exists_line (h : (commandsOf lines)[k]? = some cmd) :
    ∃ past line rest, lines = past ++ line :: rest ∧ line.body.command? = some cmd ∧
      (commandsOf past).length = k := by
  induction lines generalizing k with
  | nil => cases h
  | cons line lines ih =>
    cases hline : line.body.command? with
    | none =>
      have hskip : ∀ more, commandsOf (line :: more) = commandsOf more := fun more =>
        List.filterMap_cons_none hline
      rw [hskip] at h
      obtain ⟨past, found, rest, rfl, hcmd, hlength⟩ := ih h
      exact ⟨line :: past, found, rest, rfl, hcmd, (congrArg _ (hskip past)).trans hlength⟩
    | some first =>
      rw [commandsOf_cons hline] at h
      cases k with
      | zero =>
        obtain rfl := Option.some.inj h
        exact ⟨[], line, lines, rfl, hline, rfl⟩
      | succ k =>
        obtain ⟨past, found, rest, rfl, hcmd, hlength⟩ := ih h
        exact ⟨line :: past, found, rest, rfl, hcmd,
          (congrArg _ (commandsOf_cons hline)).trans (congrArg (· + 1) hlength)⟩

theorem le_of_findIdx (h : (pres ++ more).findIdx? p = some i) (hnone : ∀ l ∈ pres, p l = false) :
    pres.length ≤ i := by
  obtain ⟨hi, hp, -⟩ := List.findIdx?_eq_some_iff_getElem.mp h
  by_contra hlt
  rw [List.getElem_append_left (not_le.mp hlt), hnone _ (List.getElem_mem _)] at hp
  cases hp

theorem mem_of_findIdx (h : (pres ++ more).findIdx? p = some i) (hlt : i < pres.length) :
    ∃ l ∈ pres, p l = true := by
  obtain ⟨hi, hp, -⟩ := List.findIdx?_eq_some_iff_getElem.mp h
  rw [List.getElem_append_left hlt] at hp
  exact ⟨_, List.getElem_mem hlt, hp⟩

theorem at_findIdx {l : PreLine} (h : pres.findIdx? p = some i) (hl : pres[i]? = some l) :
    p l = true := by
  obtain ⟨hi, hp, -⟩ := List.findIdx?_eq_some_iff_getElem.mp h
  rw [List.getElem?_eq_getElem hi] at hl
  rwa [← Option.some.inj hl]

theorem before_findIdx {l : PreLine} (h : pres.findIdx? p = some i) (hl : pres[k]? = some l)
    (hlt : k < i) : p l = false := by
  obtain ⟨hi, -, hnone⟩ := List.findIdx?_eq_some_iff_getElem.mp h
  rw [List.getElem?_eq_getElem (hlt.trans hi)] at hl
  rw [← Option.some.inj hl]
  exact Bool.eq_false_of_not_eq_true (hnone k hlt)

theorem mem_take_of_getElem {l : PreLine} (hl : pres[k]? = some l) (hlt : k < i) :
    l ∈ pres.take i :=
  List.mem_of_getElem? ((List.getElem?_take_of_lt hlt).trans hl)

/-- The commands of the lines are in upper case. -/
def Upper (lines : List Line) : Prop :=
  ∀ cmd ∈ commandsOf lines, cmd.name.map Char.toUpper = cmd.name

theorem has_iff (hupper : Upper past) :
    Has past name ↔ ∃ l ∈ classify true (commandsOf past), l.name = name := by
  have hnames : (classify true (commandsOf past)).map (·.name) = (commandsOf past).map (·.name) :=
    (names_classify _ _).trans (List.map_congr_left hupper)
  have hmem : name ∈ (classify true (commandsOf past)).map (·.name) ↔
      name ∈ (commandsOf past).map (·.name) := by rw [hnames]
  unfold Has
  simpa only [List.mem_map] using hmem.symm

theorem Upper.append (h : Upper (past ++ before)) : Upper past ∧ Upper before := by
  unfold Upper at h
  rw [commandsOf_append] at h
  exact ⟨fun cmd hcmd => h cmd (List.mem_append_left _ hcmd),
    fun cmd hcmd => h cmd (List.mem_append_right _ hcmd)⟩

end Places

section Seen

variable {lines past rest : List Line} {line : Line} {cmd : Command} {park : Wal.Point}
  {m109 g28 motion : ℕ} {rePark : PreLine}

/-- The command stands behind the lines of the past. -/
structure Stands (lines past : List Line) (line : Line) (cmd : Command) : Prop where
  split : ∃ rest, lines = past ++ line :: rest
  command : line.body.command? = some cmd

/-- What the gate sees of a command behind some lines. -/
def seen (past : List Line) (cmd : Command) : PreLine :=
  preLine (modeBehind (modeAfter true (commandsOf past)) (cmd.name.map Char.toUpper)) cmd

theorem Stands.sees (h : Stands lines past line cmd) :
    (classify true (commandsOf lines))[(commandsOf past).length]? = some (seen past cmd) := by
  obtain ⟨rest, rfl⟩ := h.split
  rw [commandsOf_append, commandsOf_cons h.command, classify_append,
    List.getElem?_append_right (length_classify _ _).le, length_classify, Nat.sub_self]
  rfl

theorem Stands.upper (h : Stands lines past line cmd) (hupper : Upper lines) :
    Upper past ∧ cmd.name.map Char.toUpper = cmd.name := by
  obtain ⟨rest, rfl⟩ := h.split
  obtain ⟨hpast, hrest⟩ := hupper.append
  exact ⟨hpast, hrest cmd (by rw [commandsOf_cons h.command]; exact List.mem_cons_self)⟩

theorem Stands.classified (h : Stands lines past line cmd) :
    ∃ more, classify true (commandsOf lines) = classify true (commandsOf past) ++ more := by
  obtain ⟨rest, rfl⟩ := h.split
  rw [commandsOf_append, classify_append]
  exact ⟨_, rfl⟩

/-- A bed that is heated is waited for. -/
theorem Passed.bedWait
    (hpassed : Passed park (classify true (commandsOf lines)) m109 g28 motion rePark)
    (hupper : Upper lines) (hbed : Has lines (lit "M140") ∨ Has lines (lit "M190")) :
    ∃ i, (classify true (commandsOf lines)).findIdx? (fun l => l.name = lit "M190") = some i := by
  cases hi : (classify true (commandsOf lines)).findIdx? fun l => l.name = lit "M190" with
  | some i => exact ⟨i, rfl⟩
  | none =>
    rcases hbed with hbed | hbed
    · obtain ⟨l, hl, hname⟩ := (has_iff hupper).mp hbed
      exact absurd hname (hpassed.bed hi l hl)
    · obtain ⟨l, hl, hname⟩ := (has_iff hupper).mp hbed
      exact absurd hname (by simpa using List.findIdx?_eq_none_iff.mp hi l hl)

theorem le_lastWait (m109 : ℕ) (m190 : Option ℕ) :
    m109 ≤ lastWait m109 m190 ∧ ∀ i, m190 = some i → i ≤ lastWait m109 m190 := by
  cases m190 with
  | none => exact ⟨le_rfl, fun i hi => by cases hi⟩
  | some j =>
    refine ⟨le_max_left _ _, fun i hi => ?_⟩
    obtain rfl := Option.some.inj hi
    exact le_max_right _ _

/-- Before a wait that is still to come stands the last one. -/
theorem Passed.cold_le
    (hpassed : Passed park (classify true (commandsOf lines)) m109 g28 motion rePark)
    (hupper : Upper lines) (h : Stands lines past line cmd) (hwait : ¬ Waited lines past) :
    (commandsOf past).length ≤ lastWait m109
      ((classify true (commandsOf lines)).findIdx? fun l => l.name = lit "M190") := by
  obtain ⟨more, hmore⟩ := h.classified
  have hearly : ∀ {name : Text} {i : ℕ}, ¬ Has past name →
      (classify true (commandsOf lines)).findIdx? (fun l => l.name = name) = some i →
        (commandsOf past).length ≤ i := by
    intro name i hnone hi
    rw [hmore] at hi
    rw [← length_classify true]
    refine le_of_findIdx hi fun l hl => decide_eq_false fun hname => hnone ?_
    exact (has_iff (h.upper hupper).1).mpr ⟨l, hl, hname⟩
  obtain ⟨hnozzleLe, hbedLe⟩ := le_lastWait m109
    ((classify true (commandsOf lines)).findIdx? fun l => l.name = lit "M190")
  by_cases hnozzle : Has past (lit "M109")
  · obtain ⟨hbed, hnone⟩ : (Has lines (lit "M140") ∨ Has lines (lit "M190")) ∧
        ¬ Has past (lit "M190") := by
      by_contra hnot
      exact hwait ⟨hnozzle, fun hbed => by_contra fun hnone => hnot ⟨hbed, hnone⟩⟩
    obtain ⟨i, hi⟩ := hpassed.bedWait hupper hbed
    exact (hearly hnone hi).trans (hbedLe i hi)
  · exact (hearly hnozzle hpassed.nozzle).trans hnozzleLe

/-- The gate looks at every motion before the last wait. -/
theorem Passed.cold_motion
    (hpassed : Passed park (classify true (commandsOf lines)) m109 g28 motion rePark)
    (hupper : Upper lines) (h : Stands lines past line cmd) (hwait : ¬ Waited lines past)
    (hmotion : isMotionCommand cmd.name = true) :
    (seen past cmd).hasXy = false ∧ (seen past cmd).zIntent ≠ .maybeDescent ∧
      (seen past cmd).touchesE = false := by
  have hname : (seen past cmd).name = cmd.name := (h.upper hupper).2
  have hle := hpassed.cold_le hupper h hwait
  have hafter := hpassed.after
  have hdry := hpassed.dry _ (mem_take_of_getElem h.sees (hle.trans_lt hafter))
  have hE : (seen past cmd).touchesE = false := by
    unfold checkBeforeReHome at hdry
    split_ifs at hdry with hentry hE
    exact Bool.eq_false_of_not_eq_true hE
  rcases hle.lt_or_eq with hlt | heq
  · have hcold := hpassed.cold _ (mem_take_of_getElem h.sees hlt)
    unfold checkBeforeWaits at hcold
    rw [hname, hmotion] at hcold
    split_ifs at hcold with hstill hxy hz
    · cases hstill
    · exact ⟨Bool.eq_false_of_not_eq_true hxy, hz, hE⟩
  · -- The last wait itself is not a motion.
    have hwaits : cmd.name = lit "M109" ∨ cmd.name = lit "M190" := by
      have hseen := h.sees
      rw [heq] at hseen
      unfold lastWait at hseen
      cases hi : (classify true (commandsOf lines)).findIdx? fun l => l.name = lit "M190" with
      | none =>
        rw [hi] at hseen
        exact .inl (hname ▸ of_decide_eq_true (at_findIdx hpassed.nozzle hseen))
      | some i =>
        rw [hi] at hseen
        rcases max_choice m109 i with hmax | hmax
        · rw [Option.map_some, Option.getD_some, hmax] at hseen
          exact .inl (hname ▸ of_decide_eq_true (at_findIdx hpassed.nozzle hseen))
        · rw [Option.map_some, Option.getD_some, hmax] at hseen
          exact .inr (hname ▸ of_decide_eq_true (at_findIdx hi hseen))
    rcases hwaits with hwaits | hwaits
    · rw [hwaits] at hmotion
      cases hmotion
    · rw [hwaits] at hmotion
      cases hmotion

/-- The waits are over when the printer homes. -/
theorem Passed.home_waited
    (hpassed : Passed park (classify true (commandsOf lines)) m109 g28 motion rePark)
    (hupper : Upper lines) (h : Stands lines past line cmd) (hname : cmd.name = lit "G28") :
    Waited lines past := by
  have hhome : (seen past cmd).isG28 = true := decide_eq_true ((h.upper hupper).2.trans hname)
  have hle : g28 ≤ (commandsOf past).length := by
    by_contra hlt
    rw [before_findIdx hpassed.home h.sees (not_le.mp hlt)] at hhome
    cases hhome
  have hlast := hpassed.after.trans_le hle
  obtain ⟨hnozzleLe, hbedLe⟩ := le_lastWait m109
    ((classify true (commandsOf lines)).findIdx? fun l => l.name = lit "M190")
  have hover : ∀ {name : Text} {i : ℕ}, i < (commandsOf past).length →
      (classify true (commandsOf lines)).findIdx? (fun l => l.name = name) = some i →
        Has past name := by
    intro name i hlt hi
    obtain ⟨more, hmore⟩ := h.classified
    rw [hmore] at hi
    rw [← length_classify true] at hlt
    obtain ⟨l, hl, hwait⟩ := mem_of_findIdx hi hlt
    exact (has_iff (h.upper hupper).1).mpr ⟨l, hl, of_decide_eq_true hwait⟩
  refine ⟨hover (hnozzleLe.trans_lt hlast) hpassed.nozzle, fun hbed => ?_⟩
  obtain ⟨i, hi⟩ := hpassed.bedWait hupper hbed
  exact hover ((hbedLe i hi).trans_lt hlast) hi

/-- The first re-home is not a motion. -/
theorem Passed.home_still
    (hpassed : Passed park (classify true (commandsOf lines)) m109 g28 motion rePark)
    (hupper : Upper lines) (h : Stands lines past line cmd)
    (heq : (commandsOf past).length = g28) : isMotionCommand cmd.name = false := by
  have hseen := h.sees
  rw [heq] at hseen
  have hname : cmd.name = lit "G28" :=
    (h.upper hupper).2.symm.trans (of_decide_eq_true (at_findIdx hpassed.home hseen))
  rw [hname]
  rfl

/-- Before the re-home no motion has a word for X, Y or the filament. -/
theorem Passed.before_home
    (hpassed : Passed park (classify true (commandsOf lines)) m109 g28 motion rePark)
    (hupper : Upper lines) (h : Stands lines past line cmd)
    (hmotion : isMotionCommand cmd.name = true) (hle : (commandsOf past).length ≤ g28) :
    (seen past cmd).hasXy = false ∧ (seen past cmd).touchesE = false := by
  rcases hle.lt_or_eq with hlt | heq
  · have hdry := hpassed.dry _ (mem_take_of_getElem h.sees hlt)
    have hname : (seen past cmd).name = cmd.name := (h.upper hupper).2
    unfold checkBeforeReHome at hdry
    rw [hname, hmotion, Bool.true_and] at hdry
    split_ifs at hdry with hxy hE
    exact ⟨Bool.eq_false_of_not_eq_true hxy, Bool.eq_false_of_not_eq_true hE⟩
  · rw [hpassed.home_still hupper h heq] at hmotion
    cases hmotion

theorem Passed.le_home
    (hpassed : Passed park (classify true (commandsOf lines)) m109 g28 motion rePark)
    (hupper : Upper lines) (h : Stands lines past line cmd) (hhome : ¬ Has past (lit "G28")) :
    (commandsOf past).length ≤ g28 := by
  obtain ⟨more, hmore⟩ := h.classified
  have hi := hpassed.home
  rw [hmore] at hi
  rw [← length_classify true]
  refine le_of_findIdx hi fun l hl => ?_
  rw [isG28_classify hl]
  exact decide_eq_false fun hname =>
    hhome ((has_iff (h.upper hupper).1).mpr ⟨l, hl, hname⟩)

/-- Between the re-home and the travel to the park point there is no motion. -/
theorem Passed.between
    (hpassed : Passed park (classify true (commandsOf lines)) m109 g28 motion rePark)
    (hupper : Upper lines) (h : Stands lines past line cmd) (hhome : g28 < (commandsOf past).length)
    (hlt : (commandsOf past).length < g28 + 1 + motion) : isMotionCommand cmd.name = false := by
  have hseen : ((classify true (commandsOf lines)).drop (g28 + 1))[(commandsOf past).length -
      (g28 + 1)]? = some (seen past cmd) := by
    rw [List.getElem?_drop, ← h.sees]
    congr 1
    omega
  have hstill := before_findIdx hpassed.first hseen (by omega)
  rwa [← (h.upper hupper).2]

/-- The travel to the park point stands in the file. -/
theorem Passed.stands
    (hpassed : Passed park (classify true (commandsOf lines)) m109 g28 motion rePark) :
    ∃ past line cmd, Stands lines past line cmd ∧ (commandsOf past).length = g28 + 1 + motion ∧
      seen past cmd = rePark := by
  have hat := hpassed.target
  rw [List.getElem?_drop] at hat
  obtain ⟨hlt, -⟩ := List.getElem?_eq_some_iff.mp hat
  rw [length_classify] at hlt
  obtain ⟨past, line, rest, hsplit, hcmd, hlength⟩ := exists_line (List.getElem?_eq_getElem hlt)
  have hstands : Stands lines past line _ := ⟨⟨rest, hsplit⟩, hcmd⟩
  have hseen := hstands.sees
  rw [hlength, hat] at hseen
  exact ⟨past, line, _, hstands, hlength, (Option.some.inj hseen).symm⟩

end Seen

section Runs

variable {lines past rest : List Line} {line : Line} {cmd : Command} {s : GcodeState ℝ}

theorem apply_command (hcmd : line.body.command? = some cmd) :
    s.apply reals line = s.applyCommand reals cmd line.span := by
  unfold GcodeState.apply
  cases hbody : line.body with
  | blank =>
    rw [hbody] at hcmd
    cases hcmd
  | comment text =>
    rw [hbody] at hcmd
    cases hcmd
  | command found comment =>
    rw [hbody] at hcmd
    obtain rfl := Option.some.inj hcmd
    rfl

theorem apply_none (hcmd : line.body.command? = none) :
    (s.apply reals line).moves = [] ∧ (s.apply reals line).2 = s := by
  unfold GcodeState.apply
  cases hbody : line.body with
  | blank => exact ⟨rfl, rfl⟩
  | comment text => exact ⟨rfl, rfl⟩
  | command found comment =>
    rw [hbody] at hcmd
    cases hcmd

/-- The gate follows the mode of the interpreter. -/
theorem mode_stateAfter (hupper : Upper past) (hplain : ∀ cmd ∈ commandsOf past, ¬ Wanders cmd) :
    (stateAfter reals s past).absoluteCoord = modeAfter s.absoluteCoord (commandsOf past) := by
  induction past generalizing s with
  | nil => rfl
  | cons line past ih =>
    change (stateAfter reals (s.apply reals line).2 past).absoluteCoord = _
    cases hcmd : line.body.command? with
    | none =>
      have hskip : commandsOf (line :: past) = commandsOf past := List.filterMap_cons_none hcmd
      unfold Upper at hupper
      rw [hskip] at hupper hplain ⊢
      rw [(apply_none hcmd).2]
      exact ih hupper hplain
    | some cmd =>
      unfold Upper at hupper
      rw [commandsOf_cons hcmd, List.forall_mem_cons] at hupper hplain
      rw [commandsOf_cons hcmd, ih hupper.2 hplain.2, apply_command hcmd,
        GcodeState.applyCommand_mode hplain.1, ← modeBehind_eq]
      change _ = modeAfter (modeBehind s.absoluteCoord (cmd.name.map Char.toUpper)) _
      rw [hupper.1]

theorem mode_motion {absolute : Bool} (h : isMotionCommand cmd.name = true) :
    modeBehind absolute cmd.name = absolute := by
  rw [modeBehind_eq]
  rcases (isMotionCommand_iff _).mp h with hlinear | ⟨clockwise, harc⟩
  · rw [hlinear]
    rfl
  · rw [harc]
    rfl

/-- Without a motion nothing moves. -/
theorem replay_still
    (h : ∀ cmd ∈ commandsOf lines, isMotionCommand cmd.name = false ∧ ¬ Wanders cmd) :
    replay reals s lines = [] := by
  induction lines generalizing s with
  | nil => rfl
  | cons line lines ih =>
    have hfirst : (s.apply reals line).moves = [] := by
      cases hcmd : line.body.command? with
      | none => exact (apply_none hcmd).1
      | some cmd =>
        rw [commandsOf_cons hcmd, List.forall_mem_cons] at h
        have hkinds := mt (isMotionCommand_iff cmd.name).mpr (by simp [h.1.1])
        rw [not_or, not_exists] at hkinds
        rw [apply_command hcmd]
        exact (GcodeState.still h.1.2 hkinds.1 hkinds.2).1
    have hrest : ∀ cmd ∈ commandsOf lines, isMotionCommand cmd.name = false ∧ ¬ Wanders cmd := by
      intro cmd hcmd
      exact h cmd (by
        rw [← List.singleton_append, commandsOf_append]
        exact List.mem_append_right _ hcmd)
    rw [replay, hfirst, ih hrest, List.append_nil]

theorem absent_of_isSome {o o' : Option Text} (h : (o.isSome || o'.isSome) = false) :
    o = none ∧ o' = none := by
  rw [Bool.or_eq_false_iff] at h
  exact ⟨Option.isSome_eq_false_iff.mp h.1 |> Option.isNone_iff_eq_none.mp,
    Option.isSome_eq_false_iff.mp h.2 |> Option.isNone_iff_eq_none.mp⟩

/-- A linear move without a word for X and Y goes straight up when its word for Z is a lift. -/
theorem linear_harmless {span : ByteSpan} (hkind : kindOf cmd.name = .linear)
    (hx : cmd.get (lit "X") = none) (hy : cmd.get (lit "Y") = none)
    (hz : zIntentOf (cmd.get (lit "Z")) s.absoluteCoord ≠ .maybeDescent) {m : PlannedMove ℝ}
    (hm : m ∈ (s.applyCommand reals cmd span).moves) : Harmless (ends m) := by
  obtain ⟨hstart, hstop⟩ := GcodeState.ends_of_mem GcodeState.sqrtLaws_reals (by simp [hkind]) hm
  obtain ⟨hlastX, hlastY⟩ := @GcodeState.linear_aside ℝ _ _ reals s cmd span hkind hx hy
  unfold Harmless ends
  rw [hstart, hstop]
  refine ⟨hlastX, hlastY, ?_⟩
  rcases @GcodeState.linear_last ℝ _ _ reals s cmd span hkind with
    ⟨words, hwords, hafter⟩ | ⟨-, hafter⟩
  · obtain ⟨-, -, hread, -⟩ := GcodeState.g1Words_reads hwords
    rw [hafter, (GcodeState.last_moveTo _ _).1]
    cases hget : cmd.get (lit "Z") with
    | none =>
      rw [GcodeState.getFloat_absent hget] at hread
      rw [← Except.ok.inj hread]
      exact le_rfl
    | some raw =>
      rw [hget, zIntentOf] at hz
      cases hparse : Decimal.parseF64 raw with
      | none =>
        rw [hparse] at hz
        exact absurd rfl hz
      | some v =>
        rw [hparse] at hz
        obtain ⟨q, rfl, hq⟩ := GcodeState.getFloat_parsed hget hparse hread
        have hlift : s.absoluteCoord = false ∧ 0 < q := by
          by_contra hnot
          refine hz (if_neg fun hcond => hnot ?_)
          simpa using hcond
        rw [hq, hlift.1]
        change s.lastPosition.z ≤ s.lastPosition.z + (q : ℝ)
        have hpos : (0 : ℝ) < q := by exact_mod_cast hlift.2
        linarith
  · rw [hafter]

end Runs

section Heated

variable {cases : CaseMapping} {file : GeneratedRecoveryFile} {spec : RecoveryFileSpec}
  {park : Wal.Point} {lines past : List Line} {line : Line} {cmd : Command} {s : GcodeState ℝ}
  {m109 g28 motion : ℕ} {rePark : PreLine}

/-- The coordinate is where the plan wants it. -/
def Near (park : F64) (v : ℝ) : Prop :=
  ∃ p : ℚ, park = .fin p ∧ |v - p| ≤ ((1 / 10000 : ℚ) : ℝ)

/-- What the interpreter does with lines that the gate has let through. Until both waits are over a
line stays in X and Y and does not go down, an arc only if it makes no move at all. The printer
homes after the waits, and nothing but an arc goes aside before it does. From there the first
motion leads to the park point, and nothing has been extruded until then. -/
structure Heated (park : Wal.Point) (s : GcodeState ℝ) (lines : List Line) : Prop where
  cold : ∀ past line rest, lines = past ++ line :: rest → ¬ Waited lines past →
    ((∀ m ∈ ((stateAfter reals s past).apply reals line).moves, Harmless (ends m)) ↔
      (IsArc line → ((stateAfter reals s past).apply reals line).moves = []))
  waited : ∀ past line rest, lines = past ++ line :: rest →
    line.body.command?.map (·.name) = some (lit "G28") → Waited lines past
  aside : ∀ past line rest, lines = past ++ line :: rest → ¬ Has past (lit "G28") →
    ¬ IsArc line → ∀ m ∈ ((stateAfter reals s past).apply reals line).moves,
      m.stop.x = m.start.x ∧ m.stop.y = m.start.y
  parked : ∃ past line rest, lines = past ++ line :: rest ∧ Has past (lit "G28") ∧
    (∀ m ∈ replay reals s past, m.stop.e = m.start.e) ∧
    (∀ before between, past = before ++ between → Has before (lit "G28") →
      replay reals (stateAfter reals s before) between = []) ∧
    ∀ outcome, ((stateAfter reals s past).apply reals line).1 = .ok outcome →
      Near park.1 ((stateAfter reals s past).apply reals line).2.gcodePosition.x ∧
        Near park.2 ((stateAfter reals s past).apply reals line).2.gcodePosition.y

/-- The interpreter is in the mode in which the gate sees a motion. -/
theorem Stands.mode (h : Stands lines past line cmd) (hupper : Upper lines)
    (hplain : ∀ cmd ∈ commandsOf lines, ¬ Wanders cmd) (hs : s.absoluteCoord = true)
    (hmotion : isMotionCommand cmd.name = true) :
    seen past cmd = preLine (stateAfter reals s past).absoluteCoord cmd := by
  obtain ⟨hpast, hname⟩ := h.upper hupper
  have hplainPast : ∀ cmd ∈ commandsOf past, ¬ Wanders cmd := by
    obtain ⟨rest, rfl⟩ := h.split
    intro cmd hcmd
    rw [commandsOf_append] at hplain
    exact hplain cmd (List.mem_append_left _ hcmd)
  rw [seen, hname, mode_motion hmotion, mode_stateAfter hpast hplainPast, hs]

theorem Stands.plain (h : Stands lines past line cmd)
    (hplain : ∀ cmd ∈ commandsOf lines, ¬ Wanders cmd) : ¬ Wanders cmd := by
  obtain ⟨rest, rfl⟩ := h.split
  rw [commandsOf_append, commandsOf_cons h.command] at hplain
  exact hplain cmd (List.mem_append_right _ List.mem_cons_self)

theorem near_of_parkMatches {found : Option F64} {p : F64} (h : parkMatches found p = true) :
    ∃ a : F64, found = some a ∧ ∀ q : ℚ, a = .fin q → Near p q := by
  cases found with
  | none => cases h
  | some a =>
    refine ⟨a, rfl, ?_⟩
    rintro q rfl
    cases p with
    | nan => cases h
    | inf negative => cases negative <;> cases h
    | fin p =>
      refine ⟨p, rfl, ?_⟩
      have hle : |q - p| ≤ 1 / 10000 := by
        simpa [parkMatches, parkMatchEpsilon] using h
      exact_mod_cast hle

theorem isArc_iff (hcmd : line.body.command? = some cmd) :
    IsArc line ↔ ∃ clockwise, kindOf cmd.name = .arc clockwise := by
  constructor
  · rintro ⟨found, hfound, harc⟩
    obtain rfl := Option.some.inj (hcmd.symm.trans hfound)
    exact harc
  · exact fun harc => ⟨cmd, hcmd, harc⟩

theorem still_of_not_motion {span : ByteSpan} (hcmd : ¬ Wanders cmd)
    (hmotion : isMotionCommand cmd.name = false) : (s.applyCommand reals cmd span).moves = [] := by
  have hkinds := mt (isMotionCommand_iff cmd.name).mpr (by simp [hmotion])
  rw [not_or, not_exists] at hkinds
  exact (GcodeState.still hcmd hkinds.1 hkinds.2).1

section Laws

variable (hpassed : Passed park (classify true (commandsOf lines)) m109 g28 motion rePark)
  (hupper : Upper lines) (hplain : ∀ cmd ∈ commandsOf lines, ¬ Wanders cmd)
  (hs : s.absoluteCoord = true)
include hpassed hupper hplain hs

theorem cold_law (hstands : Stands lines past line cmd) (hwait : ¬ Waited lines past) :
    (∀ m ∈ ((stateAfter reals s past).applyCommand reals cmd line.span).moves,
      Harmless (ends m)) ↔
      (IsArc line →
        ((stateAfter reals s past).applyCommand reals cmd line.span).moves = []) := by
  rw [isArc_iff hstands.command]
  cases hmotion : isMotionCommand cmd.name with
  | false =>
    rw [still_of_not_motion (hstands.plain hplain) hmotion]
    exact ⟨fun _ _ => rfl, fun _ m hm => by cases hm⟩
  | true =>
    obtain ⟨hxy, hz, hE⟩ := hpassed.cold_motion hupper hstands hwait hmotion
    rw [hstands.mode hupper hplain hs hmotion] at hxy hz hE
    obtain ⟨hx, hy⟩ := absent_of_isSome hxy
    have he : cmd.get (lit "E") = none := Option.not_isSome_iff_eq_none.mp (Bool.not_eq_true _ ▸ hE)
    rcases (isMotionCommand_iff _).mp hmotion with hlinear | ⟨clockwise, harc⟩
    · refine ⟨?_, fun _ m hm => linear_harmless hlinear hx hy hz hm⟩
      rintro - ⟨clockwise, harc⟩
      rw [hlinear] at harc
      cases harc
    · constructor
      · intro hharmless _
        refine GcodeState.arc_wordless harc hx hy (fun hcoord => ?_) he hharmless
        -- In absolute coordinates every word for Z may be a descent.
        by_contra hword
        obtain ⟨raw, hraw⟩ := Option.ne_none_iff_exists'.mp hword
        refine hz ?_
        change zIntentOf (cmd.get (lit "Z")) _ = _
        rw [hraw, hcoord, zIntentOf]
        cases Decimal.parseF64 raw <;> rfl
      · intro hnone m hm
        rw [hnone ⟨clockwise, harc⟩] at hm
        cases hm

theorem aside_law (hstands : Stands lines past line cmd) (hhome : ¬ Has past (lit "G28"))
    (harc : ¬ IsArc line) {m : PlannedMove ℝ}
    (hm : m ∈ ((stateAfter reals s past).applyCommand reals cmd line.span).moves) :
    m.stop.x = m.start.x ∧ m.stop.y = m.start.y := by
  rw [isArc_iff hstands.command] at harc
  cases hmotion : isMotionCommand cmd.name with
  | false =>
    rw [still_of_not_motion (hstands.plain hplain) hmotion] at hm
    cases hm
  | true =>
    obtain ⟨hxy, -⟩ :=
      hpassed.before_home hupper hstands hmotion (hpassed.le_home hupper hstands hhome)
    rw [hstands.mode hupper hplain hs hmotion] at hxy
    obtain ⟨hx, hy⟩ := absent_of_isSome hxy
    rcases (isMotionCommand_iff _).mp hmotion with hlinear | harc'
    · obtain ⟨hstart, hstop⟩ :=
        GcodeState.ends_of_mem GcodeState.sqrtLaws_reals (by simp [hlinear]) hm
      rw [hstart, hstop]
      exact GcodeState.linear_aside hlinear hx hy
    · exact absurd harc' harc

/-- Up to the travel to the park point a line moves no filament, and behind the re-home it does not
move at all. -/
theorem dry_law (hstands : Stands lines past line cmd)
    (hlt : (commandsOf past).length < g28 + 1 + motion) {m : PlannedMove ℝ}
    (hm : m ∈ ((stateAfter reals s past).applyCommand reals cmd line.span).moves) :
    m.stop.e = m.start.e := by
  cases hmotion : isMotionCommand cmd.name with
  | false =>
    rw [still_of_not_motion (hstands.plain hplain) hmotion] at hm
    cases hm
  | true =>
    have hle : (commandsOf past).length ≤ g28 := by
      by_contra hhome
      rw [hpassed.between hupper hstands (not_le.mp hhome) hlt] at hmotion
      cases hmotion
    obtain ⟨-, hE⟩ := hpassed.before_home hupper hstands hmotion hle
    rw [hstands.mode hupper hplain hs hmotion] at hE
    have he : cmd.get (lit "E") = none := Option.not_isSome_iff_eq_none.mp (Bool.not_eq_true _ ▸ hE)
    exact GcodeState.dry (hstands.plain hplain) he hm

theorem parked_law (hstands : Stands lines past line cmd) (hrePark : seen past cmd = rePark)
    {outcome : ApplyOutcome ℝ}
    (hok : ((stateAfter reals s past).applyCommand reals cmd line.span).1 = .ok outcome) :
    Near park.1
        ((stateAfter reals s past).applyCommand reals cmd line.span).2.gcodePosition.x ∧
      Near park.2
        ((stateAfter reals s past).applyCommand reals cmd line.span).2.gcodePosition.y := by
  have hmotion : isMotionCommand cmd.name = true := by
    have hname : (seen past cmd).name = cmd.name := (hstands.upper hupper).2
    rw [← hname, hrePark]
    exact at_findIdx hpassed.first hpassed.target
  have hpark := hpassed.park
  rw [← hrePark, hstands.mode hupper hplain hs hmotion] at hpark
  unfold checkRePark at hpark
  split_ifs at hpark with hxy hmode hmatch
  have hcoord : (stateAfter reals s past).absoluteCoord = true := by simpa [preLine] using hmode
  obtain ⟨hmatchX, hmatchY⟩ := Bool.and_eq_true_iff.mp hmatch
  obtain ⟨a, ha, hnearX⟩ := near_of_parkMatches hmatchX
  obtain ⟨b, hb, hnearY⟩ := near_of_parkMatches hmatchY
  obtain ⟨x, hx, hparseX⟩ := Option.bind_eq_some_iff.mp ha
  obtain ⟨y, hy, hparseY⟩ := Option.bind_eq_some_iff.mp hb
  obtain ⟨p, q, rfl, rfl, hatX, hatY⟩ := GcodeState.reached hx hy hparseX hparseY hcoord
    ((isMotionCommand_iff _).mp hmotion) hok
  rw [hatX, hatY]
  exact ⟨hnearX p rfl, hnearY q rfl⟩

omit hs in
/-- Everything between the re-home and the travel to the park point stands still. -/
theorem between_law {before between after : List Line}
    (hsplit : lines = (before ++ between) ++ after)
    (hlength : (commandsOf (before ++ between)).length = g28 + 1 + motion)
    (hhome : Has before (lit "G28")) (t : GcodeState ℝ) : replay reals t between = [] := by
  have hupperBefore : Upper before := by
    rw [hsplit, List.append_assoc] at hupper
    exact hupper.append.1
  have hlt : g28 < (commandsOf before).length := by
    obtain ⟨l, hl, hname⟩ := (has_iff hupperBefore).mp hhome
    have hisHome : l.isG28 = true := (isG28_classify hl).trans (decide_eq_true hname)
    obtain ⟨j, hj, hat⟩ := List.getElem_of_mem hl
    by_contra hle
    have hfirst : (classify true (commandsOf lines))[j]? = some l := by
      rw [hsplit, List.append_assoc, commandsOf_append, classify_append,
        List.getElem?_append_left hj, List.getElem?_eq_getElem hj, hat]
    rw [length_classify] at hj
    rw [before_findIdx hpassed.home hfirst (hj.trans_le (not_lt.mp hle))] at hisHome
    cases hisHome
  refine replay_still fun cmd hcmd => ?_
  obtain ⟨k, hk⟩ := List.mem_iff_getElem?.mp hcmd
  obtain ⟨past, line, rest, rfl, hline, hpast⟩ := exists_line hk
  have hstands : Stands lines (before ++ past) line cmd :=
    ⟨⟨rest ++ after, by simp [hsplit]⟩, hline⟩
  have hk : k < (commandsOf (past ++ line :: rest)).length := (List.getElem?_eq_some_iff.mp hk).1
  rw [commandsOf_append, List.length_append] at hlength
  refine ⟨hpassed.between hupper hstands ?_ ?_, hstands.plain hplain⟩
  · rw [commandsOf_append, List.length_append]
    omega
  · rw [commandsOf_append, List.length_append]
    omega

end Laws

theorem mem_replay {t : GcodeState ℝ} {m : PlannedMove ℝ} (h : m ∈ replay reals t lines) :
    ∃ past line rest cmd, lines = past ++ line :: rest ∧ line.body.command? = some cmd ∧
      m ∈ ((stateAfter reals t past).applyCommand reals cmd line.span).moves := by
  induction lines generalizing t with
  | nil => cases h
  | cons line lines ih =>
    rcases List.mem_append.mp h with hfirst | hrest
    · cases hcmd : line.body.command? with
      | none =>
        rw [(apply_none hcmd).1] at hfirst
        cases hfirst
      | some cmd =>
        rw [apply_command hcmd] at hfirst
        exact ⟨[], line, lines, cmd, rfl, hcmd, hfirst⟩
    · obtain ⟨past, found, rest, cmd, rfl, hcmd, hm⟩ := ih hrest
      exact ⟨line :: past, found, rest, cmd, rfl, hcmd, hm⟩

/-- A file that the gate lets through is safe to execute, when its names are in upper case and none
of its commands moves without a motion word. -/
theorem heated_of_verify (hcases : UpperLaw cases)
    (hgate : verifyHeatingGate cases file spec = .ok ())
    (hplain : ∀ cmd ∈ commandsIn cases file.preamble, ¬ Wanders cmd)
    (hs : s.absoluteCoord = true) :
    Heated spec.postHomeTarget.1 s (lineIter cases file.preamble 0) := by
  have hcommands : commandsIn cases file.preamble = commandsOf (lineIter cases file.preamble 0) :=
    List.filterMap_map
  have hupper : Upper (lineIter cases file.preamble 0) := by
    intro cmd hcmd
    rw [← hcommands] at hcmd
    exact upper_name hcases hcmd
  obtain ⟨m109, g28, motion, rePark, hpassed⟩ := passed_of_verify hgate
  rw [hcommands] at hplain hpassed
  refine ⟨?_, ?_, ?_, ?_⟩
  · intro past line rest hsplit hwait
    cases hcmd : line.body.command? with
    | none =>
      rw [(apply_none hcmd).1]
      exact ⟨fun _ _ => rfl, fun _ m hm => by cases hm⟩
    | some cmd =>
      rw [apply_command hcmd]
      exact cold_law hpassed hupper hplain hs ⟨⟨rest, hsplit⟩, hcmd⟩ hwait
  · intro past line rest hsplit hname
    obtain ⟨cmd, hcmd, hhome⟩ := Option.map_eq_some_iff.mp hname
    exact hpassed.home_waited hupper ⟨⟨rest, hsplit⟩, hcmd⟩ hhome
  · intro past line rest hsplit hhome harc m hm
    cases hcmd : line.body.command? with
    | none =>
      rw [(apply_none hcmd).1] at hm
      cases hm
    | some cmd =>
      rw [apply_command hcmd] at hm
      exact aside_law hpassed hupper hplain hs ⟨⟨rest, hsplit⟩, hcmd⟩ hhome harc hm
  · obtain ⟨past, line, cmd, hstands, hlength, hrePark⟩ := hpassed.stands
    obtain ⟨rest, hsplit⟩ := hstands.split
    refine ⟨past, line, rest, hsplit, ?_, ?_, ?_, ?_⟩
    · obtain ⟨more, hmore⟩ := hstands.classified
      have hi := hpassed.home
      rw [hmore] at hi
      obtain ⟨l, hl, hhome⟩ := mem_of_findIdx hi (by rw [length_classify]; omega)
      rw [isG28_classify hl] at hhome
      exact (has_iff (hstands.upper hupper).1).mpr ⟨l, hl, of_decide_eq_true hhome⟩
    · intro m hm
      obtain ⟨before, first, after, cmd', rfl, hcmd', hm⟩ := mem_replay hm
      have hbefore : Stands (lineIter cases file.preamble 0) before first cmd' :=
        ⟨⟨after ++ line :: rest, by simp [hsplit]⟩, hcmd'⟩
      refine dry_law hpassed hupper hplain hs hbefore ?_ hm
      rw [commandsOf_append, commandsOf_cons hcmd', List.length_append, List.length_cons] at hlength
      omega
    · rintro before between rfl hhome
      exact between_law hpassed hupper hplain hsplit hlength hhome _
    · intro outcome hok
      rw [apply_command hstands.command] at hok ⊢
      exact parked_law hpassed hupper hplain hs hstands hrePark hok

/-- A file that heats, homes and parks. -/
def exampleHeatedFile : GeneratedRecoveryFile :=
  let content := encode (writeLines
    [lit "M109 S200", lit "G28 X Y", lit "G90", lit "G0 X10 Y20.00004 F6000"])
  { content, tailStart := content.length }

def exampleHeatedSpec : RecoveryFileSpec where
  name := []
  sourceName := []
  planId := []
  tailOffset := 0
  bed := none
  nozzle := 200
  purge := none
  park := (10, 20)
  parkFeed := 6000
  descendFeed := 300
  entryCommands := []
  entryAccel := none
  headerCap := 0

theorem heated_of_verify_example :
    Heated (10, 20) (.new : GcodeState ℝ) (lineIter asciiCase exampleHeatedFile.preamble 0) := by
  have hgate : verifyHeatingGate asciiCase exampleHeatedFile exampleHeatedSpec = .ok () := by
    decide +kernel
  have hplain : ∀ cmd ∈ commandsIn asciiCase exampleHeatedFile.preamble, ¬ Wanders cmd := by
    unfold Wanders
    decide +kernel
  exact heated_of_verify upperLaw_ascii hgate hplain rfl

end Heated

end DeadReckoning.Recovery
