import DeadReckoning.Calibration.Canonical
import DeadReckoning.Lib.Lines

/-! When the two sides compute one fingerprint: the sections that both select, and the values that
both normalize alike. -/
namespace DeadReckoning.Calibration

open Notation

section Values

/-- A value with every run of blanks, as the daemon knows them, made one. -/
def collapsed (value : Text) : Text := List.intercalate [' '] (Text.words value)

/-- A value both sides normalize alike: without the blanks that only the plugin knows; where it is
a number, one that both print alike; and no number that only the plugin reads. -/
def ValueAgrees (nearest : ℚ → Double) (value : Text) : Bool :=
  value.all (fun c => !Plugin.isSeparator c) &&
    match Decimal.parseF64 (collapsed value), Plugin.float (collapsed value) with
    | some number, _ => (Double.ofParsed nearest number).isPlain
    | none, some number => !(Double.ofParsed nearest number).isFinite
    | none, none => true

theorem canonicalNumber_eq_iff (x : Double) :
    Plugin.canonicalNumber x = Plrd.canonicalNumber x ↔ x.isPlain = true := by
  cases x with
  | finite negative digits =>
    show _ ↔ digits.isPlain = true
    unfold Plugin.canonicalNumber Plrd.canonicalNumber Digits.isPlain
    by_cases hsmall : digits.isSmallInteger = true
    · simp [hsmall]
    · simp only [hsmall, Bool.false_eq_true, if_false, Option.some.injEq, signed_inj,
        Digits.repr_eq_positional_iff, Bool.false_or, Bool.and_eq_true, decide_eq_true_eq]
      rw [and_assoc]
  | infinite negative => simp [Plugin.canonicalNumber, Plrd.canonicalNumber, Double.isPlain]
  | nan => simp [Plugin.canonicalNumber, Plrd.canonicalNumber, Double.isPlain]

theorem canonicalNumber_isSome (x : Double) : (Plugin.canonicalNumber x).isSome = x.isFinite ∧
    (Plrd.canonicalNumber x).isSome = x.isFinite := by
  cases x with
  | finite negative digits =>
    unfold Plugin.canonicalNumber Plrd.canonicalNumber
    constructor <;> (dsimp only; split <;> rfl)
  | infinite negative => exact ⟨rfl, rfl⟩
  | nan => exact ⟨rfl, rfl⟩

theorem isNumeral_of_mem_signed {negative : Bool} {text : Text}
    (htext : ∀ c ∈ text, Decimal.isNumeral c = true) :
    ∀ c ∈ signed negative text, Decimal.isNumeral c = true := by
  intro c hc
  unfold signed at hc
  split at hc
  · rcases List.mem_cons.mp hc with rfl | hc
    · rfl
    · exact htext c hc
  · exact htext c hc

theorem isNumeral_of_mem_toDigits {n : ℕ} :
    ∀ c ∈ Nat.toDigits 10 n, Decimal.isNumeral c = true := fun _ hc =>
  Decimal.isNumeral_of_isDigit (Nat.isDigit_of_mem_toDigits (by omega) (by omega) hc)

theorem isNumeral_of_plugin {x : Double} {text : Text} (h : Plugin.canonicalNumber x = some text) :
    ∀ c ∈ text, Decimal.isNumeral c = true := by
  unfold Plugin.canonicalNumber at h
  split at h
  · split at h
    · obtain rfl := Option.some.inj h
      exact isNumeral_of_mem_signed isNumeral_of_mem_toDigits
    · obtain rfl := Option.some.inj h
      refine isNumeral_of_mem_signed fun c hc => ?_
      rcases Digits.mem_repr hc with hc | hc
      · exact Decimal.isNumeral_of_isDigit hc
      · have hmarks : ∀ d ∈ lit ".e-+", Decimal.isNumeral d = true := by decide
        exact hmarks c hc
  · cases h

theorem isNumeral_of_plrd {x : Double} {text : Text} (h : Plrd.canonicalNumber x = some text) :
    ∀ c ∈ text, Decimal.isNumeral c = true := by
  unfold Plrd.canonicalNumber at h
  split at h
  · split at h
    · obtain rfl := Option.some.inj h
      exact isNumeral_of_mem_signed isNumeral_of_mem_toDigits
    · obtain rfl := Option.some.inj h
      refine isNumeral_of_mem_signed fun c hc => ?_
      rcases Digits.mem_positional hc with hc | rfl
      · exact Decimal.isNumeral_of_isDigit hc
      · rfl
  · cases h

/-- A character of a number is no blank, no underscore and no digit of another script. -/
theorem toNat_of_isNumeral {c : Char} (hc : Decimal.isNumeral c = true) :
    0x20 < c.toNat ∧ c.toNat < 0x80 ∧ c ≠ '_' := by
  have hnat : ∀ {a b : UInt32}, a ≤ b → a.toNat ≤ b.toNat := fun h => UInt32.le_iff_toNat_le.mp h
  have hrange : ∀ {a b : UInt32}, 0x20 < a.toNat → b.toNat < 0x80 → (b < '_'.val ∨ '_'.val < a) →
      a ≤ c.val → c.val ≤ b → 0x20 < c.toNat ∧ c.toNat < 0x80 ∧ c ≠ '_' := by
    intro a b ha hb hgap hlow hhigh
    refine ⟨ha.trans_le (hnat hlow), (hnat hhigh).trans_lt hb, ?_⟩
    rintro rfl
    rcases hgap with hgap | hgap
    · exact UInt32.not_le.mpr hgap hhigh
    · exact UInt32.not_le.mpr hgap hlow
  simp only [Decimal.isNumeral, Char.isDigit, Text.isAlpha_eq, Text.isUpper_eq, Text.isLower_eq,
    Bool.or_eq_true, Bool.and_eq_true, decide_eq_true_eq, beq_iff_eq] at hc
  rcases hc with (((⟨hlow, hhigh⟩ | ⟨hlow, hhigh⟩ | ⟨hlow, hhigh⟩) | rfl) | rfl) | rfl
  · exact hrange (by decide) (by decide) (.inl (by decide)) hlow hhigh
  · exact hrange (by decide) (by decide) (.inl (by decide)) hlow hhigh
  · exact hrange (by decide) (by decide) (.inr (by decide)) hlow hhigh
  · decide
  · decide
  · decide

theorem not_isSpace_of_isNumeral {c : Char} (hc : Decimal.isNumeral c = true) :
    Text.isWhitespace c = false ∧ Plugin.isSeparator c = false := by
  have hrange := toNat_of_isNumeral hc
  constructor
  · simp only [Text.isWhitespace, Bool.or_eq_false_iff, Bool.and_eq_false_iff,
      decide_eq_false_iff_not, beq_eq_false_iff_ne]
    omega
  · simp only [Plugin.isSeparator, Bool.and_eq_false_iff, decide_eq_false_iff_not]
    omega

theorem asciiDigit_of_isNumeral {c : Char} (hc : Decimal.isNumeral c = true) :
    Plugin.asciiDigit c = c := by
  have hsmall := (toNat_of_isNumeral hc).2.1
  have hscripts : ∀ first ∈ Plugin.decimalZeros, 0x80 ≤ first := by decide
  have hnone : (Plugin.decimalZeros.find? fun first =>
      first ≤ c.toNat && c.toNat < first + 10) = none := by
    rw [List.find?_eq_none]
    intro first hfirst
    have := hscripts first hfirst
    simp only [Bool.and_eq_true, decide_eq_true_eq]
    omega
  unfold Plugin.asciiDigit
  rw [hnone]

theorem dropUnderscores_of_notMem {text : Text} {previous : Char} (hprevious : previous ≠ '_')
    (htext : '_' ∉ text) : Plugin.dropUnderscores previous text = some text := by
  induction text generalizing previous with
  | nil => simp [Plugin.dropUnderscores, hprevious]
  | cons c rest ih =>
    simp only [List.mem_cons, not_or] at htext
    have hc : c ≠ '_' := fun h => htext.1 h.symm
    simp [Plugin.dropUnderscores, hc, hprevious, ih hc htext.2]

/-- On the characters of numbers the two grammars are one. -/
theorem float_of_isNumeral {text : Text} (htext : ∀ c ∈ text, Decimal.isNumeral c = true) :
    Plugin.float text = Decimal.parseF64 text := by
  have hascii : text.map Plugin.asciiDigit = text := by
    have hid := List.map_congr_left fun c hc => asciiDigit_of_isNumeral (htext c hc)
    rw [hid, List.map_id']
  have hplain : '_' ∉ text := fun h => (toNat_of_isNumeral (htext _ h)).2.2 rfl
  rw [Plugin.float, hascii, dropUnderscores_of_notMem (by decide) hplain, Option.bind_some]

theorem float_of_parseF64 {text : Text} {number : F64} (h : Decimal.parseF64 text = some number) :
    Plugin.float text = some number := by
  rw [float_of_isNumeral (Decimal.isNumeral_of_parseF64 h), h]

/-- Without a separator among them, the plugin and the daemon make the same blanks one. -/
theorem collapse_eq_collapsed {value : Text} (h : ∀ c ∈ value, Plugin.isSeparator c = false) :
    List.intercalate [' '] (Plugin.split value) = collapsed value := by
  have hsplit : value.splitOnP Plugin.isSpace = value.splitOnP Text.isWhitespace :=
    Lines.splitOnP_congr fun c hc => by simp [Plugin.isSpace, h c hc]
  rw [Plugin.split, hsplit, collapsed, Text.words]

theorem mem_normalizeValue {nearest : ℚ → Double} {value : Text} {c : Char}
    (hc : c ∈ Plugin.normalizeValue nearest value) : c = ' ' ∨ Plugin.isSpace c = false := by
  have htext : c ∈ List.intercalate [' '] (Plugin.split value) →
      c = ' ' ∨ Plugin.isSpace c = false := fun h => (Lines.mem_collapse h).imp_right And.right
  unfold Plugin.normalizeValue at hc
  dsimp only at hc
  split at hc
  · exact htext hc
  · rename_i number hnumber
    cases hprint : Plugin.canonicalNumber (.ofParsed nearest number) with
    | none =>
      rw [hprint] at hc
      exact htext hc
    | some printed =>
      rw [hprint] at hc
      obtain ⟨hblank, hsep⟩ := not_isSpace_of_isNumeral (isNumeral_of_plugin hprint c hc)
      exact .inr (by rw [Plugin.isSpace, hblank, hsep, Bool.or_false])

theorem mem_normalizeStr {nearest : ℚ → Double} {value : Text} {c : Char}
    (hc : c ∈ Plrd.normalizeStr nearest value) : c = ' ' ∨ Text.isWhitespace c = false := by
  have htext : c ∈ List.intercalate [' '] (Text.words value) →
      c = ' ' ∨ Text.isWhitespace c = false := fun h => (Lines.mem_collapse h).imp_right And.right
  unfold Plrd.normalizeStr at hc
  dsimp only at hc
  split at hc
  · exact htext hc
  · rename_i number hnumber
    cases hprint : Plrd.canonicalNumber (.ofParsed nearest number) with
    | none =>
      rw [hprint] at hc
      exact htext hc
    | some printed =>
      rw [hprint] at hc
      exact .inr (not_isSpace_of_isNumeral (isNumeral_of_plrd hprint c hc)).1

theorem newline_notMem_normalizeValue (nearest : ℚ → Double) (value : Text) :
    '\n' ∉ Plugin.normalizeValue nearest value := by
  intro h
  have := mem_normalizeValue h
  revert this
  decide

theorem newline_notMem_normalizeStr (nearest : ℚ → Double) (value : Text) :
    '\n' ∉ Plrd.normalizeStr nearest value := by
  intro h
  have := mem_normalizeStr h
  revert this
  decide

theorem normalizeStr_eq (nearest : ℚ → Double) (value : Text) :
    Plrd.normalizeStr nearest value = match Decimal.parseF64 (collapsed value) with
      | none => collapsed value
      | some number => (Plrd.canonicalNumber (.ofParsed nearest number)).getD (collapsed value) :=
  rfl

/-- A separator stays in the daemon's value and leaves the plugin's. -/
theorem normalize_ne_of_separator (nearest : ℚ → Double) {value : Text} {c : Char}
    (hc : c ∈ value) (hsep : Plugin.isSeparator c = true) :
    Plugin.normalizeValue nearest value ≠ Plrd.normalizeStr nearest value := by
  have hspace : Text.isWhitespace c = false := by
    simp only [Plugin.isSeparator, Bool.and_eq_true, decide_eq_true_eq] at hsep
    simp only [Text.isWhitespace, Bool.or_eq_false_iff, Bool.and_eq_false_iff,
      decide_eq_false_iff_not, beq_eq_false_iff_ne]
    omega
  have hkept : c ∈ collapsed value := Lines.mem_collapse_of_mem hc hspace
  have hplrd : c ∈ Plrd.normalizeStr nearest value := by
    have hnone : Decimal.parseF64 (collapsed value) = none := by
      rw [Option.eq_none_iff_forall_ne_some]
      intro number hnumber
      have := (not_isSpace_of_isNumeral (Decimal.isNumeral_of_parseF64 hnumber c hkept)).2
      rw [hsep] at this
      cases this
    rw [normalizeStr_eq, hnone]
    exact hkept
  have hplugin : c ∉ Plugin.normalizeValue nearest value := by
    intro h
    rcases mem_normalizeValue h with rfl | h
    · exact absurd hsep (by decide)
    · simp [Plugin.isSpace, hsep] at h
  intro heq
  exact hplugin (heq ▸ hplrd)

/-- The values that both sides normalize alike are those that agree. -/
theorem normalize_eq_iff (nearest : ℚ → Double) (value : Text) :
    Plugin.normalizeValue nearest value = Plrd.normalizeStr nearest value ↔
      ValueAgrees nearest value = true := by
  by_cases hsep : ∀ c ∈ value, Plugin.isSeparator c = false
  · have hall : (value.all fun c => !Plugin.isSeparator c) = true := by
      simpa using hsep
    rw [normalizeStr_eq, Plugin.normalizeValue, ValueAgrees, hall, Bool.true_and,
      collapse_eq_collapsed hsep]
    cases hread : Decimal.parseF64 (collapsed value) with
    | some number =>
      rw [float_of_parseF64 hread]
      dsimp only
      rw [← canonicalNumber_eq_iff]
      obtain ⟨hplugin, hplrd⟩ := canonicalNumber_isSome (.ofParsed nearest number)
      cases hfinite : (Double.ofParsed nearest number).isFinite with
      | true =>
        rw [hfinite] at hplugin hplrd
        obtain ⟨a, ha⟩ := Option.isSome_iff_exists.mp hplugin
        obtain ⟨b, hb⟩ := Option.isSome_iff_exists.mp hplrd
        simp [ha, hb]
      | false =>
        rw [hfinite, Option.isSome_eq_false_iff, Option.isNone_iff_eq_none] at hplugin hplrd
        simp [hplugin, hplrd]
    | none =>
      cases hfloat : Plugin.float (collapsed value) with
      | none => simp
      | some number =>
        dsimp only
        have hplugin := (canonicalNumber_isSome (.ofParsed nearest number)).1
        cases hprint : Plugin.canonicalNumber (.ofParsed nearest number) with
        | none =>
          rw [hprint] at hplugin
          simp [← hplugin]
        | some printed =>
          rw [hprint] at hplugin
          -- what is printed has the characters of numbers only, so the daemon would read it
          have hne : printed ≠ collapsed value := by
            rintro rfl
            rw [float_of_isNumeral (isNumeral_of_plugin hprint), hread] at hfloat
            cases hfloat
          simp [← hplugin, hne]
  · simp only [not_forall, Bool.not_eq_false] at hsep
    obtain ⟨c, hc, hsep⟩ := hsep
    have hall : (value.all fun c => !Plugin.isSeparator c) = false := by
      rw [List.all_eq_false]
      exact ⟨c, hc, by simp [hsep]⟩
    simp [ValueAgrees, hall, normalize_ne_of_separator nearest hc hsep]

end Values

section Selection

/-- The selected sections that the config has, in the order they are written in. -/
def selected (config : Config) (names : List Text) : List Text :=
  (sorted names).filter fun name => (config.get name).isSome

/-- The sections that matter to a group. -/
def Feeds (config : Config) (group : CalGroup) (name : Text) : Prop :=
  Plrd.isZStepper name = true ∨ match group with
    | .probeResolution =>
        probeSectionFor ((config.plr (lit "probe_method")).getD (lit "tap")) = some name
    | .noiseFloor => config.plr (lit "accel_chip") = some name ∧ name ≠ []

theorem le_linear : (∀ a b c : Text, decide (a ≤ b) → decide (b ≤ c) → decide (a ≤ c)) ∧
    (∀ a b : Text, decide (a ≤ b) || decide (b ≤ a)) ∧
    (∀ a b : Text, decide (a ≤ b) → decide (b ≤ a) → a = b) := by
  simp only [decide_eq_true_eq, Bool.or_eq_true]
  exact ⟨fun _ _ _ => le_trans, le_total, fun _ _ => le_antisymm⟩

theorem sorted_eq_iff {a b : List Text} : sorted a = sorted b ↔ a.Perm b :=
  Lines.mergeSort_eq_iff le_linear.1 le_linear.2.1 le_linear.2.2

theorem filter_sorted (p : Text → Bool) (texts : List Text) :
    (sorted texts).filter p = sorted (texts.filter p) :=
  Lines.filter_mergeSort le_linear.1 le_linear.2.1 le_linear.2.2 p texts

theorem sorted_perm (texts : List Text) : (sorted texts).Perm texts := List.mergeSort_perm _ _

theorem selected_eq_iff {config : Config} {a b : List Text} :
    selected config a = selected config b ↔
      (a.filter fun name => (config.get name).isSome).Perm
        (b.filter fun name => (config.get name).isSome) := by
  rw [selected, selected, filter_sorted, filter_sorted, sorted_eq_iff]

theorem mem_selected {config : Config} {names : List Text} {name : Text} :
    name ∈ selected config names ↔ name ∈ names ∧ (config.get name).isSome = true := by
  rw [selected, List.mem_filter, (sorted_perm names).mem_iff]

theorem isStepperZ_eq_isZStepper {name : Text} (hname : '\n' ∉ name) :
    Plugin.isStepperZ name = Plrd.isZStepper name := by
  unfold Plugin.isStepperZ Plrd.isZStepper
  cases hrest : Text.stripPrefix (lit "stepper_z") name with
  | none => rfl
  | some rest =>
    have hline : '\n' ∉ rest := by
      rw [Text.stripPrefix_eq_some.mp hrest] at hname
      exact fun h => hname (List.mem_append_right _ h)
    have hlast : rest.getLast? ≠ some '\n' := fun h => hline (List.mem_of_getLast? h)
    simp only [hlast, if_false]
    cases rest with
    | nil => rfl
    | cons c rest => rfl

/-- The settings klippy reports are those of the section, or the defaults. -/
theorem settings_of_parse {config : Config} {plr : Plrd.PlrSettings}
    (hplr : Plrd.PlrSettings.parse config = some plr) :
    plr.probeMethod = (config.plr (lit "probe_method")).getD (lit "tap") ∧
      Plugin.strip plr.probeMethod = plr.probeMethod ∧
      plr.accelChip = (config.plr (lit "accel_chip")).getD [] := by
  unfold Plrd.PlrSettings.parse at hplr
  cases hbody : config.get (lit "plr") with
  | none =>
    rw [hbody] at hplr
    cases hplr
  | some body =>
    have hkey : ∀ key, config.plr key = body.lookup key := by
      intro key
      rw [Config.plr, hbody, Option.bind_some]
    rw [hbody] at hplr
    dsimp only [Option.bind_eq_bind, Option.bind_some] at hplr
    split at hplr
    · rename_i hmethod
      obtain rfl := Option.some.inj hplr
      have hstrip : ∀ method ∈ [lit "tap", lit "load_cell", lit "adxl_drag"],
          Plugin.strip method = method := by decide
      rw [hkey, hkey]
      exact ⟨rfl, hstrip _ hmethod, rfl⟩
    · cases hplr

theorem mem_relevantSectionNames {config : Config} {plr : Plrd.PlrSettings} {group : CalGroup}
    (hplr : Plrd.PlrSettings.parse config = some plr) {name : Text} :
    name ∈ selected config (Plrd.relevantSectionNames config plr group) ↔
      (config.get name).isSome = true ∧ Feeds config group name := by
  obtain ⟨hmethod, -, hchip⟩ := settings_of_parse hplr
  have hname : (config.get name).isSome = true → name ∈ sorted config.names := fun h =>
    (sorted_perm _).mem_iff.mpr (Lines.lookup_isSome_iff_mem.mp h)
  rw [mem_selected, and_comm]
  refine and_congr_right fun hpresent => ?_
  unfold Plrd.relevantSectionNames Feeds
  rw [List.mem_append, List.mem_filter]
  refine or_congr ⟨And.right, fun h => ⟨hname hpresent, h⟩⟩ ?_
  cases group with
  | probeResolution =>
    dsimp only
    rw [hmethod, Option.mem_toList]
  | noiseFloor =>
    dsimp only
    rw [hchip]
    cases config.plr (lit "accel_chip") with
    | none => simp
    | some chip =>
      by_cases hempty : chip = []
      · simp only [Option.getD_some, hempty, if_true, List.not_mem_nil, Option.some.injEq, false_iff,
          not_and, not_not]
        exact Eq.symm
      · simp only [Option.getD_some, hempty, if_false, List.mem_singleton, Option.some.injEq]
        constructor
        · rintro rfl
          exact ⟨rfl, hempty⟩
        · rintro ⟨rfl, -⟩
          rfl

/-- The chip's section is the same on both sides: the plugin takes the blanks off its name. -/
def ChipAgrees (config : Config) : Prop :=
  ∀ chip, config.plr (lit "accel_chip") = some chip → chip ≠ [] → Plugin.strip chip = chip ∨
    (config.get (Plugin.strip chip) = none ∧ config.get chip = none)

theorem selected_relevant_eq_iff {config : Config} {plr : Plrd.PlrSettings} {group : CalGroup}
    (hplr : Plrd.PlrSettings.parse config = some plr) :
    selected config (Plugin.relevantSectionNames config group) =
        selected config (Plrd.relevantSectionNames config plr group) ↔
      (group = .noiseFloor → ChipAgrees config) := by
  obtain ⟨hmethod, hstrip, hchip⟩ := settings_of_parse hplr
  have hsteppers : (config.names.filter Plugin.isStepperZ).Perm
      ((sorted config.names).filter Plrd.isZStepper) := by
    have hsame : config.names.filter Plugin.isStepperZ = config.names.filter Plrd.isZStepper := by
      refine List.filter_congr fun name hname => isStepperZ_eq_isZStepper ?_
      obtain ⟨s, hs, rfl⟩ := List.mem_map.mp hname
      exact config.oneLine s hs
    rw [hsame]
    exact (sorted_perm _).symm.filter _
  have hreduce : ∀ a b : List Text, selected config (config.names.filter Plugin.isStepperZ ++ a) =
      selected config ((sorted config.names).filter Plrd.isZStepper ++ b) ↔
        (a.filter fun name => (config.get name).isSome).Perm
          (b.filter fun name => (config.get name).isSome) := by
    intro a b
    rw [selected_eq_iff, List.filter_append, List.filter_append]
    constructor
    · intro h
      exact (List.perm_append_left_iff _).mp (h.trans ((hsteppers.filter _).symm.append_right _))
    · intro h
      exact (h.append_left _).trans ((hsteppers.filter _).append_right _)
  cases group with
  | probeResolution =>
    have hsame : ((config.plr (lit "probe_method")).map Plugin.strip).getD (lit "tap") =
        plr.probeMethod := by
      rw [hmethod] at hstrip ⊢
      cases hkey : config.plr (lit "probe_method") with
      | none => rfl
      | some method =>
        rw [hkey] at hstrip
        exact hstrip
    simp [Plugin.relevantSectionNames, Plrd.relevantSectionNames, hsame, hreduce]
  | noiseFloor =>
    simp only [Plugin.relevantSectionNames, Plrd.relevantSectionNames, hreduce, hchip, ChipAgrees,
      forall_const]
    cases hkey : config.plr (lit "accel_chip") with
    | none => simp
    | some chip =>
      by_cases hempty : chip = []
      · simp [hempty]
      · simp only [Option.getD_some, hempty, if_false, Option.some.injEq, forall_eq', ne_eq,
          not_false_eq_true, forall_const]
        rw [Lines.filter_singleton_perm_iff, Option.isSome_eq_false_iff, Option.isSome_eq_false_iff,
          Option.isNone_iff_eq_none, Option.isNone_iff_eq_none]

end Selection

section Texts

variable {nearest : ℚ → Double} {config : Config}

theorem flatMap_sections (l : List Text) :
    (l.flatMap fun name => match config.get name with
      | none => []
      | some body => sectionLines name body) =
        (l.filter fun name => (config.get name).isSome).flatMap fun name =>
          sectionLines name ((config.get name).getD []) := by
  induction l with
  | nil => rfl
  | cons name l ih =>
    rw [List.flatMap_cons, ih]
    cases hget : config.get name with
    | none => simp [hget]
    | some body => simp [hget]

theorem canonicalLines_eq (names keys : List Text) :
    canonicalLines config names keys =
      ((selected config names).flatMap fun name =>
          sectionLines name ((config.get name).getD [])) ++
        (lit "[plr]", none) :: (sorted keys).filterMap fun key =>
          (config.plr key).map fun value => (key ++ lit "=", some value) :=
  congrArg (· ++ _) (flatMap_sections (sorted names))

/-- The values of a section are those of its options. -/
theorem exists_mem_sectionLines {name : Text} {body : Options}
    (hkeys : (body.map Prod.fst).Nodup) {value : Text} :
    (∃ head, (head, some value) ∈ sectionLines name body) ↔ ∃ option ∈ body, option.2 = value := by
  have hlookup : ∀ option ∈ body, (body.lookup option.1).getD [] = option.2 := by
    intro option hoption
    rw [(Lines.lookup_eq_some_iff_mem hkeys).mpr hoption, Option.getD_some]
  unfold sectionLines
  constructor
  · rintro ⟨head, hline⟩
    rcases List.mem_cons.mp hline with hline | hline
    · cases hline
    · obtain ⟨key, hkey, hline⟩ := List.mem_map.mp hline
      obtain ⟨option, hoption, rfl⟩ := List.mem_map.mp ((sorted_perm _).mem_iff.mp hkey)
      rw [hlookup option hoption] at hline
      exact ⟨option, hoption, Option.some.inj (Prod.mk.inj hline).2⟩
  · rintro ⟨option, hoption, rfl⟩
    refine ⟨option.1 ++ lit "=", List.mem_cons_of_mem _ (List.mem_map.mpr ⟨option.1, ?_, ?_⟩)⟩
    · exact (sorted_perm _).mem_iff.mpr (List.mem_map_of_mem hoption)
    · rw [hlookup option hoption]

/-- The values of the text: those of the selected sections, and the settings of the group. -/
theorem exists_mem_canonicalLines {names keys : List Text} {value : Text} :
    (∃ head, (head, some value) ∈ canonicalLines config names keys) ↔
      (∃ name ∈ selected config names, ∃ body, config.get name = some body ∧
        ∃ option ∈ body, option.2 = value) ∨ ∃ key ∈ keys, config.plr key = some value := by
  have hkeys : ∀ name body, config.get name = some body → (body.map Prod.fst).Nodup := by
    intro name body hget
    exact config.nodupOptions _ ((Lines.lookup_eq_some_iff_mem config.nodup).mp hget)
  rw [canonicalLines_eq]
  constructor
  · rintro ⟨head, hline⟩
    rcases List.mem_append.mp hline with hline | hline
    · left
      obtain ⟨name, hname, hline⟩ := List.mem_flatMap.mp hline
      obtain ⟨body, hget⟩ := Option.isSome_iff_exists.mp (mem_selected.mp hname).2
      rw [hget, Option.getD_some] at hline
      exact ⟨name, hname, body, hget,
        (exists_mem_sectionLines (hkeys name body hget)).mp ⟨head, hline⟩⟩
    · right
      rcases List.mem_cons.mp hline with hline | hline
      · cases hline
      · obtain ⟨key, hkey, hline⟩ := List.mem_filterMap.mp hline
        obtain ⟨setting, hsetting, hline⟩ := Option.map_eq_some_iff.mp hline
        obtain rfl := Option.some.inj (Prod.mk.inj hline).2
        exact ⟨key, (sorted_perm _).mem_iff.mp hkey, hsetting⟩
  · rintro (⟨name, hname, body, hget, hoption⟩ | ⟨key, hkey, hsetting⟩)
    · obtain ⟨head, hline⟩ := (exists_mem_sectionLines (hkeys name body hget)).mpr hoption
      refine ⟨head, List.mem_append_left _ (List.mem_flatMap.mpr ⟨name, hname, ?_⟩)⟩
      rw [hget, Option.getD_some]
      exact hline
    · refine ⟨key ++ lit "=", List.mem_append_right _ (List.mem_cons_of_mem _ ?_)⟩
      exact List.mem_filterMap.mpr
        ⟨key, (sorted_perm _).mem_iff.mpr hkey, by rw [hsetting, Option.map_some]⟩

/-- Over one selection of sections, the two texts are one when all their values agree. -/
theorem canonicalString_eq_iff {names names' keys : List Text}
    (hnames : selected config names = selected config names') :
    canonicalString (Plugin.normalizeValue nearest) config names keys =
        canonicalString (Plrd.normalizeStr nearest) config names' keys ↔
      ∀ value, (∃ head, (head, some value) ∈ canonicalLines config names' keys) →
        ValueAgrees nearest value = true := by
  have hlines : canonicalLines config names keys = canonicalLines config names' keys := by
    rw [canonicalLines_eq, canonicalLines_eq, hnames]
  unfold canonicalString
  rw [hlines, Lines.intercalate_eq_iff]
  · constructor
    · rintro h value ⟨head, hline⟩
      have := h _ hline
      rwa [Option.map_some, Option.map_some, Option.getD_some, Option.getD_some,
        normalize_eq_iff] at this
    · rintro h ⟨head, value⟩ hline
      cases value with
      | none => rfl
      | some value =>
        rw [Option.map_some, Option.map_some, Option.getD_some, Option.getD_some, normalize_eq_iff]
        exact h value ⟨head, hline⟩
  · rintro ⟨head, value⟩ hline
    cases value with
    | none => simp
    | some value => exact newline_notMem_normalizeValue nearest value
  · rintro ⟨head, value⟩ hline
    cases value with
    | none => simp
    | some value => exact newline_notMem_normalizeStr nearest value

end Texts

section Fingerprint

/-- One fingerprint in both languages: the same sections in the same order, the same text, and so
the same verdict on every stamp. -/
structure SameFingerprint (nearest : ℚ → Double) (config : Config) (plr : Plrd.PlrSettings)
    (group : CalGroup) : Prop where
  sections : selected config (Plugin.relevantSectionNames config group) =
    selected config (Plrd.relevantSectionNames config plr group)
  text : Plugin.fingerprintText nearest config group =
    Plrd.fingerprintText nearest config plr group
  verdict : ∀ stamp, Plrd.validateGroup nearest config plr group (some stamp) = .valid ↔
    stamp = Plugin.computeFingerprint nearest config group

/-- A config whose fingerprint of a group does not depend on the language. -/
structure Portable (nearest : ℚ → Double) (config : Config) (group : CalGroup) : Prop where
  chip : group = .noiseFloor → ChipAgrees config
  options : ∀ name body, config.get name = some body → Feeds config group name →
    ∀ option ∈ body, ValueAgrees nearest option.2 = true
  settings : ∀ key ∈ plrKeys group, ∀ value, config.plr key = some value →
    ValueAgrees nearest value = true

theorem values_agree_iff {nearest : ℚ → Double} {config : Config} {plr : Plrd.PlrSettings}
    {group : CalGroup} (hplr : Plrd.PlrSettings.parse config = some plr) :
    (∀ value, (∃ head, (head, some value) ∈
        canonicalLines config (Plrd.relevantSectionNames config plr group) (plrKeys group)) →
      ValueAgrees nearest value = true) ↔
    (∀ name body, config.get name = some body → Feeds config group name →
      ∀ option ∈ body, ValueAgrees nearest option.2 = true) ∧
    ∀ key ∈ plrKeys group, ∀ value, config.plr key = some value →
      ValueAgrees nearest value = true := by
  simp only [exists_mem_canonicalLines, mem_relevantSectionNames hplr]
  constructor
  · intro h
    constructor
    · intro name body hget hfeeds option hoption
      have hpresent : (config.get name).isSome = true := by rw [hget]; rfl
      exact h _ (.inl ⟨name, ⟨hpresent, hfeeds⟩, body, hget, option, hoption, rfl⟩)
    · intro key hkey value hsetting
      exact h value (.inr ⟨key, hkey, hsetting⟩)
  · rintro ⟨hoptions, hsettings⟩ value
      (⟨name, ⟨-, hfeeds⟩, body, hget, option, hoption, rfl⟩ | ⟨key, hkey, hsetting⟩)
    · exact hoptions name body hget hfeeds option hoption
    · exact hsettings key hkey value hsetting

/-- The daemon accepts a stamp when it is the hash of the daemon's own text. -/
theorem validateGroup_eq_valid_iff {nearest : ℚ → Double} {config : Config}
    {plr : Plrd.PlrSettings} {group : CalGroup} {stamp : Text} :
    Plrd.validateGroup nearest config plr group (some stamp) = .valid ↔
      stamp = Plrd.computeFingerprint nearest config plr group := by
  unfold Plrd.validateGroup
  dsimp only
  split <;> simp_all

/-- Both languages compute one fingerprint of exactly the portable configs. -/
theorem sameFingerprint_iff_portable {nearest : ℚ → Double} {config : Config}
    {plr : Plrd.PlrSettings} (group : CalGroup)
    (hplr : Plrd.PlrSettings.parse config = some plr) :
    SameFingerprint nearest config plr group ↔ Portable nearest config group := by
  constructor
  · intro h
    have hvalues := (canonicalString_eq_iff h.sections).mp h.text
    obtain ⟨hoptions, hsettings⟩ := (values_agree_iff hplr).mp hvalues
    exact ⟨(selected_relevant_eq_iff hplr).mp h.sections, hoptions, hsettings⟩
  · intro h
    have hsections := (selected_relevant_eq_iff hplr).mpr h.chip
    have htext : Plugin.fingerprintText nearest config group =
        Plrd.fingerprintText nearest config plr group :=
      (canonicalString_eq_iff hsections).mpr ((values_agree_iff hplr).mpr ⟨h.options, h.settings⟩)
    refine ⟨hsections, htext, fun stamp => ?_⟩
    rw [validateGroup_eq_valid_iff, Plrd.computeFingerprint, Plugin.computeFingerprint, htext]

theorem stepper_plr_nodup : [lit "stepper_z", lit "plr"].Nodup := by decide

/-- A config of one Z stepper with one option. -/
def stepperConfig (key value : Text) : Config where
  sections := [(lit "stepper_z", [(key, value)]), (lit "plr", [(lit "probe_method", lit "tap")])]
  nodup := stepper_plr_nodup
  nodupOptions := by simp
  oneLine := by simp; decide

theorem stepperConfig_parse (key value : Text) :
    Plrd.PlrSettings.parse (stepperConfig key value) = some ⟨lit "tap", []⟩ := rfl

theorem stepper_position_same :
    (SameFingerprint .ofDecimal (stepperConfig (lit "position_min") (lit " -2.50")) ⟨lit "tap", []⟩
        .probeResolution ↔
      Portable .ofDecimal (stepperConfig (lit "position_min") (lit " -2.50")) .probeResolution) ∧
    SameFingerprint .ofDecimal (stepperConfig (lit "position_min") (lit " -2.50")) ⟨lit "tap", []⟩
        .probeResolution := by
  have hiff := @sameFingerprint_iff_portable .ofDecimal
    (stepperConfig (lit "position_min") (lit " -2.50")) ⟨lit "tap", []⟩ .probeResolution
    (stepperConfig_parse _ _)
  refine ⟨hiff, hiff.mpr ⟨nofun, ?_, ?_⟩⟩
  · have hall : ∀ s ∈ (stepperConfig (lit "position_min") (lit " -2.50")).sections,
        ∀ option ∈ s.2, ValueAgrees .ofDecimal option.2 = true := by decide +kernel
    intro name body hget _
    exact hall _ ((Lines.lookup_eq_some_iff_mem (stepperConfig _ _).nodup).mp hget)
  · have hvalue : ValueAgrees .ofDecimal (lit "tap") = true := by decide +kernel
    intro key hkey value hsetting
    obtain rfl := List.mem_singleton.mp hkey
    obtain rfl : lit "tap" = value := Option.some.inj hsetting
    exact hvalue

/-- A pulse of two microseconds: the plugin prints an exponent, the daemon prints the zeros. -/
theorem step_pulse_differs :
    Plugin.normalizeValue .ofDecimal (lit "0.000002") = lit "2e-06" ∧
      Plrd.normalizeStr .ofDecimal (lit "0.000002") = lit "0.000002" ∧
      ¬ SameFingerprint .ofDecimal (stepperConfig (lit "step_pulse_duration") (lit "0.000002"))
        ⟨lit "tap", []⟩ .probeResolution := by
  refine ⟨by decide +kernel, by decide +kernel, fun h => ?_⟩
  have hvalues := (canonicalString_eq_iff h.sections).mp h.text
  have hoptions := ((values_agree_iff (stepperConfig_parse _ _)).mp hvalues).1
  have hvalue := hoptions (lit "stepper_z") _ rfl (.inl rfl) (lit "step_pulse_duration",
    lit "0.000002") List.mem_cons_self
  revert hvalue
  decide +kernel

end Fingerprint

end DeadReckoning.Calibration
