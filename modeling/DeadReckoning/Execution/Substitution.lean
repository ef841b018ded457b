import DeadReckoning.Execution.Executor

/-! The texts that commands are sent as: every placeholder takes a finite number, and none of
them is left. -/
namespace DeadReckoning.Execution

open Recovery

/-- The text a command is sent as, when each of its placeholders has a value. -/
def commandText (computed machineAccel : Option F64) (command : Text) : Option Text := do
  let resolved ← if carriesComputed command then computed.map (substituteComputed · command)
    else some command
  if Text.contains resolved machineAccelPlaceholder then
    machineAccel.map fun v => Text.replace resolved machineAccelPlaceholder (fmtNum v)
  else some resolved

/-- The command with one number for the computed placeholders and one for the machine's. -/
def substitute (v m : F64) (command : Text) : Text :=
  Text.replace (substituteComputed v command) machineAccelPlaceholder (fmtNum m)

def AllFinite (value : Option F64) : Prop := ∀ v, value = some v → v.isFinite = true

theorem allFinite_none : AllFinite none := nofun

theorem allFinite_some {v : F64} (h : v.isFinite = true) : AllFinite (some v) := by
  intro _ hsome
  exact Option.some.inj hsome ▸ h

/-- A sent text is its template with finite numbers, and carries no placeholder any more. -/
structure Substituted (template text : Text) : Prop where
  numbers : ∃ v m : F64, v.isFinite = true ∧ m.isFinite = true ∧ text = substitute v m template
  resolved : ∀ p ∈ placeholders, Text.contains text p = false

section Placeholders

/-- No placeholder shares a character with the text of a finite number. -/
theorem notMem_placeholder {p : Text} (hp : p ∈ placeholders) {v : F64} (hv : v.isFinite = true) :
    ∀ c ∈ fmtNum v, c ∉ p := by
  obtain ⟨q, rfl⟩ := F64.isFinite_iff.mp hv
  have hchars : ∀ p ∈ placeholders, ∀ c ∈ p, isNumberChar c = false := by decide
  intro c hc hmem
  have hno := hchars p hp c hmem
  rw [isNumberChar_of_mem_fmtNum hc] at hno
  exact absurd hno (by decide)

theorem placeholder_ne_nil {p : Text} (hp : p ∈ placeholders) : p ≠ [] := by
  revert p
  decide

/-- A placeholder is gone once it has been replaced. -/
theorem contains_replace_self {p : Text} (hp : p ∈ placeholders) {v : F64}
    (hv : v.isFinite = true) (s : Text) :
    Text.contains (Text.replace s p (fmtNum v)) p = false :=
  Text.contains_eq_false.mpr
    (Text.not_infix_replace (fmtNum_ne_nil v) (notMem_placeholder hp hv) (placeholder_ne_nil hp))

/-- Replacing another placeholder does not bring one back. -/
theorem contains_replace_other {p q : Text} (hq : q ∈ placeholders) {v : F64}
    (hv : v.isFinite = true) {s : Text} (hs : Text.contains s q = false) :
    Text.contains (Text.replace s p (fmtNum v)) q = false := by
  rw [Text.contains_eq_false] at hs ⊢
  intro hinfix
  exact hs (Text.infix_of_infix_replace (fmtNum_ne_nil v) (notMem_placeholder hq hv)
    (placeholder_ne_nil hq) hinfix)

theorem trueZ_mem : trueZPlaceholder ∈ placeholders := by simp [placeholders]
theorem restoreAccel_mem : restoreAccelPlaceholder ∈ placeholders := by simp [placeholders]
theorem parkZ_mem : parkZPlaceholder ∈ placeholders := by simp [placeholders]
theorem machineAccel_mem : machineAccelPlaceholder ∈ placeholders := by simp [placeholders]

theorem contains_substitute {v m : F64} (hv : v.isFinite = true) (hm : m.isFinite = true)
    (command : Text) : ∀ p ∈ placeholders, Text.contains (substitute v m command) p = false := by
  have htrueZ := contains_replace_self trueZ_mem hv command
  have hrestore := contains_replace_self restoreAccel_mem hv
    (Text.replace command trueZPlaceholder (fmtNum v))
  have hpark := contains_replace_self parkZ_mem hv (Text.replace
    (Text.replace command trueZPlaceholder (fmtNum v)) restoreAccelPlaceholder (fmtNum v))
  intro p hp
  simp only [placeholders, List.mem_cons, List.not_mem_nil, or_false] at hp
  rcases hp with rfl | rfl | rfl | rfl
  · exact contains_replace_other trueZ_mem hm (contains_replace_other trueZ_mem hv
      (contains_replace_other trueZ_mem hv htrueZ))
  · exact contains_replace_other restoreAccel_mem hm
      (contains_replace_other restoreAccel_mem hv hrestore)
  · exact contains_replace_other parkZ_mem hm hpark
  · exact contains_replace_self machineAccel_mem hm _

theorem substituted_substitute {v m : F64} (hv : v.isFinite = true) (hm : m.isFinite = true)
    (command : Text) : Substituted command (substitute v m command) :=
  ⟨⟨v, m, hv, hm, rfl⟩, contains_substitute hv hm command⟩

theorem substituteComputed_of_not {command : Text} (h : carriesComputed command = false) (v : F64) :
    substituteComputed v command = command := by
  simp only [carriesComputed, Bool.or_eq_false_iff] at h
  simp only [substituteComputed, Text.replace_of_not_contains h.1.1,
    Text.replace_of_not_contains h.1.2, Text.replace_of_not_contains h.2]

theorem substitute_of_not {command : Text} (hcomputed : carriesComputed command = false)
    (hmachine : Text.contains command machineAccelPlaceholder = false) (v m : F64) :
    substitute v m command = command := by
  rw [substitute, substituteComputed_of_not hcomputed, Text.replace_of_not_contains hmachine]

end Placeholders

section Texts

/-- A step's command is sent with numbers in the place of its placeholders, which are finite
when the values are. -/
theorem commandText_eq {computed machineAccel : Option F64} {command text : Text}
    (h : commandText computed machineAccel command = some text) :
    ∃ v m, text = substitute v m command ∧ (AllFinite computed → v.isFinite = true) ∧
      (AllFinite machineAccel → m.isFinite = true) := by
  have hresolved : ∃ v, (AllFinite computed → v.isFinite = true) ∧
      (if Text.contains (substituteComputed v command) machineAccelPlaceholder then
        machineAccel.map fun m => Text.replace (substituteComputed v command)
          machineAccelPlaceholder (fmtNum m)
      else some (substituteComputed v command)) = some text := by
    rw [commandText] at h
    by_cases hcarries : carriesComputed command = true
    · rw [if_pos hcarries] at h
      cases hvalue : computed with
      | none => simp [hvalue] at h
      | some v =>
        rw [hvalue] at h
        exact ⟨v, fun hfinite => hfinite v rfl, h⟩
    · rw [if_neg hcarries] at h
      refine ⟨0, fun _ => rfl, ?_⟩
      rw [substituteComputed_of_not (Bool.not_eq_true _ ▸ hcarries)]
      exact h
  obtain ⟨v, hv, htext⟩ := hresolved
  split at htext
  · cases hvalue : machineAccel with
    | none => simp [hvalue] at htext
    | some m =>
      rw [hvalue] at htext
      obtain rfl := Option.some.inj htext
      exact ⟨v, m, rfl, hv, fun hfinite => hfinite m rfl⟩
  · rename_i hnone
    obtain rfl := Option.some.inj htext
    have hsame : substituteComputed v command = substitute v 0 command := by
      rw [substitute, Text.replace_of_not_contains (Bool.not_eq_true _ ▸ hnone)]
    exact ⟨v, 0, hsame, hv, fun _ => rfl⟩

theorem commandText_substituted {computed machineAccel : Option F64} {command text : Text}
    (hcomputed : AllFinite computed) (hmachine : AllFinite machineAccel)
    (h : commandText computed machineAccel command = some text) : Substituted command text := by
  obtain ⟨v, m, rfl, hv, hm⟩ := commandText_eq h
  exact substituted_substitute (hv hcomputed) (hm hmachine) command

/-- What restores an acceleration is sent with the number of its slot. -/
theorem cleanupText_substituted {accel : AccelSlots} {command text : Text}
    (hphase : AllFinite accel.phase) (hmachine : AllFinite accel.machine)
    (hcommand : command = restoreAccel restoreAccelPlaceholder ∨
      command = restoreAccel machineAccelPlaceholder)
    (h : cleanupText accel command = some text) : Substituted command text := by
  have hzero : (0 : F64).isFinite = true := rfl
  rcases hcommand with rfl | rfl
  · rw [cleanupText, if_pos (by decide), Option.map_eq_some_iff] at h
    obtain ⟨v, hvalue, rfl⟩ := h
    have hv := hphase v hvalue
    have hothers : ∀ p ∈ placeholders, Text.contains (Text.replace
        (restoreAccel restoreAccelPlaceholder) restoreAccelPlaceholder (fmtNum v)) p = false := by
      intro p hp
      by_cases hself : p = restoreAccelPlaceholder
      · rw [hself]
        exact contains_replace_self restoreAccel_mem hv _
      · apply contains_replace_other hp hv
        revert p
        decide
    have htrueZ : Text.replace (restoreAccel restoreAccelPlaceholder) trueZPlaceholder (fmtNum v) =
        restoreAccel restoreAccelPlaceholder := Text.replace_of_not_contains (by decide)
    refine ⟨⟨v, 0, hv, hzero, ?_⟩, hothers⟩
    rw [substitute, substituteComputed, htrueZ, Text.replace_of_not_contains (hothers _ parkZ_mem),
      Text.replace_of_not_contains (hothers _ machineAccel_mem)]
  · rw [cleanupText, if_neg (by decide), if_pos (by decide), Option.map_eq_some_iff] at h
    obtain ⟨m, hvalue, rfl⟩ := h
    have hm := hmachine m hvalue
    have hplain : substituteComputed 0 (restoreAccel machineAccelPlaceholder) =
        restoreAccel machineAccelPlaceholder := substituteComputed_of_not (by decide) 0
    have hsame : Text.replace (restoreAccel machineAccelPlaceholder) machineAccelPlaceholder
        (fmtNum m) = substitute 0 m (restoreAccel machineAccelPlaceholder) := by
      rw [substitute, hplain]
    rw [hsame]
    exact substituted_substitute hzero hm _

end Texts

end DeadReckoning.Execution
