import DeadReckoning.Lib.Notation
import Mathlib.Data.Char
import Mathlib.Data.List.Lex
import Mathlib.Data.List.Sort

/-! The calibration fingerprint, computed twice: by the plugin when it stamps a calibration and by
the daemon when it judges the stamp. -/
namespace DeadReckoning.Calibration

open Notation

section Config

/-- The options of a section. -/
abbrev Options := List (Text × Text)

/-- A config file as sections of string-valued options; a section's name is one line of it. -/
structure Config where
  sections : List (Text × Options)
  nodup : (sections.map Prod.fst).Nodup
  nodupOptions : ∀ s ∈ sections, (s.2.map Prod.fst).Nodup
  oneLine : ∀ s ∈ sections, '\n' ∉ s.1

namespace Config

def names (config : Config) : List Text := config.sections.map Prod.fst

def get (config : Config) (name : Text) : Option Options := config.sections.lookup name

/-- An option of the `[plr]` section. -/
def plr (config : Config) (key : Text) : Option Text :=
  (config.get (lit "plr")).bind fun body => body.lookup key

end Config

/-- By code points, which is also the order of the bytes of the texts. -/
def sorted (texts : List Text) : List Text := texts.mergeSort fun a b => decide (a ≤ b)

inductive CalGroup where
  | noiseFloor
  | probeResolution
  deriving DecidableEq

def plrKeys : CalGroup → List Text
  | .probeResolution => [lit "probe_method"]
  | .noiseFloor => [lit "accel_chip", lit "probe_method"]

/-- The touch-probe section of a descending probe method. -/
def probeSectionFor (method : Text) : Option Text :=
  if method = lit "tap" then some (lit "probe")
  else if method = lit "load_cell" then some (lit "load_cell_probe")
  else none

/-- One line of the serialization: what stands before the value, and the value. -/
abbrev Line := Text × Option Text

def sectionLines (name : Text) (body : Options) : List Line :=
  ('[' :: name ++ lit "]", none) ::
    (sorted (body.map Prod.fst)).map fun key => (key ++ lit "=", some ((body.lookup key).getD []))

def canonicalLines (config : Config) (sectionNames keys : List Text) : List Line :=
  ((sorted sectionNames).flatMap fun name => match config.get name with
      | none => []
      | some body => sectionLines name body) ++
    (lit "[plr]", none) :: (sorted keys).filterMap fun key =>
      (config.plr key).map fun value => (key ++ lit "=", some value)

/-- The relevant slice of the config as text, with each value normalized. -/
def canonicalString (normalize : Text → Text) (config : Config) (sectionNames keys : List Text) :
    Text :=
  List.intercalate ['\n'] <| (canonicalLines config sectionNames keys).map fun line =>
    line.1 ++ (line.2.map normalize).getD []

def crc32Bit (crc : UInt32) : UInt32 :=
  if crc &&& 1 = 1 then (crc >>> 1) ^^^ 0xEDB88320 else crc >>> 1

def crc32Byte (crc : UInt32) (byte : UInt8) : UInt32 :=
  crc32Bit <| crc32Bit <| crc32Bit <| crc32Bit <| crc32Bit <| crc32Bit <| crc32Bit <| crc32Bit <|
    crc ^^^ byte.toUInt32

def hex8 (n : ℕ) : Text :=
  let digits := Nat.toDigits 16 n
  List.replicate (8 - digits.length) '0' ++ digits

def crc32Hex (text : Text) : Text :=
  hex8 (((text.flatMap String.utf8EncodeChar).foldl crc32Byte 0xFFFFFFFF) ^^^ 0xFFFFFFFF).toNat

end Config

section Plugin

/-! The plugin's side. -/
namespace Plugin

/-- The four separators that only the plugin's language counts as blanks. -/
def isSeparator (c : Char) : Bool := 0x1C ≤ c.toNat && c.toNat ≤ 0x1F

def isSpace (c : Char) : Bool := Text.isWhitespace c || isSeparator c

def split (text : Text) : List Text := (text.splitOnP isSpace).filter fun word => !word.isEmpty

def strip (text : Text) : Text := (text.dropWhile isSpace).rdropWhile isSpace

/-- The zeros of the scripts with decimal digits. -/
def decimalZeros : List ℕ :=
  [0x0660, 0x06F0, 0x07C0, 0x0966, 0x09E6, 0x0A66, 0x0AE6, 0x0B66, 0x0BE6, 0x0C66, 0x0CE6, 0x0D66,
    0x0DE6, 0x0E50, 0x0ED0, 0x0F20, 0x1040, 0x1090, 0x17E0, 0x1810, 0x1946, 0x19D0, 0x1A80, 0x1A90,
    0x1B50, 0x1BB0, 0x1C40, 0x1C50, 0xA620, 0xA8D0, 0xA900, 0xA9D0, 0xA9F0, 0xAA50, 0xABF0, 0xFF10,
    0x104A0, 0x10D30, 0x11066, 0x110F0, 0x11136, 0x111D0, 0x112F0, 0x11450, 0x114D0, 0x11650,
    0x116C0, 0x11730, 0x118E0, 0x11950, 0x11C50, 0x11D50, 0x11DA0, 0x11F50, 0x16A60, 0x16AC0,
    0x16B50, 0x1D7CE, 0x1D7D8, 0x1D7E2, 0x1D7EC, 0x1D7F6, 0x1E140, 0x1E2F0, 0x1E4F0, 0x1E950,
    0x1FBF0]

/-- A decimal digit of any script as the usual one. -/
def asciiDigit (c : Char) : Char :=
  match decimalZeros.find? fun first => first ≤ c.toNat && c.toNat < first + 10 with
  | some first => Char.ofNat (48 + (c.toNat - first))
  | none => c

/-- Underscores may stand between two digits, and are dropped. -/
def dropUnderscores : Char → Text → Option Text
  | previous, [] => if previous = '_' then none else some []
  | previous, c :: rest =>
      if c = '_' then if previous.isDigit then dropUnderscores c rest else none
      else if previous = '_' && !c.isDigit then none
      else (dropUnderscores c rest).map (c :: ·)

/-- `float`, on a text without blanks at its ends. -/
def float (text : Text) : Option F64 :=
  (dropUnderscores ' ' (text.map asciiDigit)).bind Decimal.parseF64

def canonicalNumber : Double → Option Text
  | .finite negative digits =>
      if digits.isSmallInteger then
        let whole := digits.mantissa * 10 ^ digits.exponent.toNat
        some (signed (negative && whole ≠ 0) (Nat.toDigits 10 whole))
      else some (signed negative digits.repr)
  | _ => none

def normalizeValue (nearest : ℚ → Double) (value : Text) : Text :=
  let text := List.intercalate [' '] (split value)
  match float text with
  | none => text
  | some number => (canonicalNumber (.ofParsed nearest number)).getD text

/-- The name of a Z stepper; the pattern's end also stands before a last line break. -/
def isStepperZ (name : Text) : Bool :=
  match Text.stripPrefix (lit "stepper_z") name with
  | none => false
  | some rest => (if rest.getLast? = some '\n' then rest.dropLast else rest).all Char.isDigit

def relevantSectionNames (config : Config) (group : CalGroup) : List Text :=
  config.names.filter isStepperZ ++ match group with
    | .probeResolution =>
        (probeSectionFor (((config.plr (lit "probe_method")).map strip).getD (lit "tap"))).toList
    | .noiseFloor => match config.plr (lit "accel_chip") with
        | none => []
        | some accel => if accel = [] then [] else [strip accel]

def fingerprintText (nearest : ℚ → Double) (config : Config) (group : CalGroup) : Text :=
  canonicalString (normalizeValue nearest) config (relevantSectionNames config group)
    (plrKeys group)

def computeFingerprint (nearest : ℚ → Double) (config : Config) (group : CalGroup) : Text :=
  crc32Hex (fingerprintText nearest config group)

end Plugin

end Plugin

section Plrd

/-! The daemon's side. -/
namespace Plrd

/-- The hardware selection of `[plr]` as klippy reports it, the plugin's default included. -/
structure PlrSettings where
  probeMethod : Text
  accelChip : Text
  deriving DecidableEq

def PlrSettings.parse (config : Config) : Option PlrSettings := do
  let plr ← config.get (lit "plr")
  let method := (plr.lookup (lit "probe_method")).getD (lit "tap")
  if method ∈ [lit "tap", lit "load_cell", lit "adxl_drag"] then
    some ⟨method, (plr.lookup (lit "accel_chip")).getD []⟩
  else none

def canonicalNumber : Double → Option Text
  | .finite negative digits =>
      if digits.isSmallInteger then
        let whole := digits.mantissa * 10 ^ digits.exponent.toNat
        some (signed (negative && whole ≠ 0) (Nat.toDigits 10 whole))
      else some (signed negative digits.positional)
  | _ => none

def normalizeStr (nearest : ℚ → Double) (text : Text) : Text :=
  let collapsed := List.intercalate [' '] (Text.words text)
  match Decimal.parseF64 collapsed with
  | none => collapsed
  | some number => (canonicalNumber (.ofParsed nearest number)).getD collapsed

def isZStepper (name : Text) : Bool :=
  match Text.stripPrefix (lit "stepper_z") name with
  | none => false
  | some suffix => suffix.isEmpty || suffix.all Char.isDigit

/-- The keys of the map come in order. -/
def relevantSectionNames (config : Config) (plr : PlrSettings) (group : CalGroup) : List Text :=
  (sorted config.names).filter isZStepper ++ match group with
    | .probeResolution => (probeSectionFor plr.probeMethod).toList
    | .noiseFloor => if plr.accelChip = [] then [] else [plr.accelChip]

def fingerprintText (nearest : ℚ → Double) (config : Config) (plr : PlrSettings)
    (group : CalGroup) : Text :=
  canonicalString (normalizeStr nearest) config (relevantSectionNames config plr group)
    (plrKeys group)

def computeFingerprint (nearest : ℚ → Double) (config : Config) (plr : PlrSettings)
    (group : CalGroup) : Text :=
  crc32Hex (fingerprintText nearest config plr group)

inductive CalTier where
  | valid
  | legacy
  | invalid
  deriving DecidableEq

def validateGroup (nearest : ℚ → Double) (config : Config) (plr : PlrSettings) (group : CalGroup)
    (stored : Option Text) : CalTier :=
  match stored with
  | none => .legacy
  | some stamp => if stamp = computeFingerprint nearest config plr group then .valid else .invalid

end Plrd

end Plrd

end DeadReckoning.Calibration
