import DeadReckoning.Gcode.State
import DeadReckoning.Lib.Bytes

/-! The lines of a file, with the bytes that each of them occupies. -/
namespace DeadReckoning.Gcode

section Decoding

/-- A character of several bytes that is being read: how many are missing, its number so far, and
the range of the next byte. -/
structure Utf8Pending where
  need : ℕ
  value : ℕ
  lo : ℕ
  hi : ℕ

def replacement : Char := '\uFFFD'

/-- What a byte begins: a character of its own, a longer one, or nothing. -/
def utf8First (b : ℕ) : Text × Option Utf8Pending :=
  if b < 0x80 then ([Char.ofNat b], none)
  else if 0xC2 ≤ b ∧ b ≤ 0xDF then ([], some ⟨1, b - 0xC0, 0x80, 0xBF⟩)
  else if b = 0xE0 then ([], some ⟨2, 0, 0xA0, 0xBF⟩)
  else if b = 0xED then ([], some ⟨2, 0xD, 0x80, 0x9F⟩)
  else if 0xE1 ≤ b ∧ b ≤ 0xEF then ([], some ⟨2, b - 0xE0, 0x80, 0xBF⟩)
  else if b = 0xF0 then ([], some ⟨3, 0, 0x90, 0xBF⟩)
  else if 0xF1 ≤ b ∧ b ≤ 0xF3 then ([], some ⟨3, b - 0xF0, 0x80, 0xBF⟩)
  else if b = 0xF4 then ([], some ⟨3, 4, 0x80, 0x8F⟩)
  else ([replacement], none)

/-- One more byte. One that does not continue the character ends it as a replacement and begins
anew. -/
def utf8Next (pending : Option Utf8Pending) (b : ℕ) : Text × Option Utf8Pending :=
  match pending with
  | none => utf8First b
  | some p =>
      if p.lo ≤ b ∧ b ≤ p.hi then
        let value := p.value * 64 + (b - 0x80)
        if p.need = 1 then ([Char.ofNat value], none)
        else ([], some ⟨p.need - 1, value, 0x80, 0xBF⟩)
      else (replacement :: (utf8First b).1, (utf8First b).2)

def utf8From : Option Utf8Pending → Bytes → Text
  | none, [] => []
  | some _, [] => [replacement]
  | pending, b :: bs =>
      let (text, pending) := utf8Next pending b.toNat
      text ++ utf8From pending bs

/-- The text of some bytes; what is not UTF-8 becomes the replacement character. -/
def fromUtf8Lossy (bytes : Bytes) : Text := utf8From none bytes

end Decoding

section Lines

/-- An offset in a stream has 64 bits, and sums stay at the largest one. -/
def offsetMax : ℕ := 2 ^ 64 - 1

def saturatingAdd (a b : ℕ) : ℕ := min (a + b) offsetMax

def newline : UInt8 := 10

/-- Parses the bytes of a line without its terminator. -/
def parseLineBytes (cases : CaseMapping) (bytes : Bytes) (span : ByteSpan) : Line :=
  ⟨span, parseLine cases (fromUtf8Lossy bytes)⟩

/-- The line at a position of the data, which is `length` bytes long with its terminator. -/
def lineAt (cases : CaseMapping) (base pos : ℕ) (content : Bytes) (length : ℕ) : Line :=
  parseLineBytes cases content
    ⟨saturatingAdd base pos, saturatingAdd (saturatingAdd base pos) length⟩

/-- The lines behind a position; `content` is what was read of the current one. -/
def linesFrom (cases : CaseMapping) (base : ℕ) : ℕ → Bytes → Bytes → List Line
  | pos, content, [] =>
      if content = [] then [] else [lineAt cases base pos content content.length]
  | pos, content, b :: rest =>
      if b = newline then
        lineAt cases base pos content (content.length + 1) ::
          linesFrom cases base (pos + content.length + 1) [] rest
      else linesFrom cases base pos (content ++ [b]) rest

/-- The lines of the data, which begins at `base` in its stream. -/
def lineIter (cases : CaseMapping) (data : Bytes) (base : ℕ) : List Line :=
  linesFrom cases base 0 [] data

theorem saturatingAdd_le_saturatingAdd {a b c d : ℕ} (h : a ≤ c) (h' : b ≤ d) :
    saturatingAdd a b ≤ saturatingAdd c d := by
  unfold saturatingAdd
  omega

/-- The lines follow one another from an offset on: each begins where the one before it ends. -/
def Contiguous : ℕ → List Line → Prop
  | _, [] => True
  | offset, line :: lines =>
      line.span.start = offset ∧ offset ≤ line.span.stop ∧ Contiguous line.span.stop lines

/-- Going on behind a number of bytes is the same from either offset. -/
theorem saturatingAdd_assoc (a b c : ℕ) :
    saturatingAdd (saturatingAdd a b) c = saturatingAdd a (b + c) := by
  unfold saturatingAdd
  omega

theorem lineAt_stop (cases : CaseMapping) (base pos : ℕ) (content : Bytes) (length : ℕ) :
    saturatingAdd base pos ≤ (lineAt cases base pos content length).span.stop := by
  simp only [lineAt, parseLineBytes, saturatingAdd]
  omega

theorem linesFrom_contiguous (cases : CaseMapping) (base pos : ℕ) (content rest : Bytes) :
    Contiguous (saturatingAdd base pos) (linesFrom cases base pos content rest) := by
  induction rest generalizing pos content with
  | nil =>
    rw [linesFrom]
    split
    · trivial
    · exact ⟨rfl, lineAt_stop cases base pos content _, trivial⟩
  | cons b rest ih =>
    rw [linesFrom]
    split
    · refine ⟨rfl, lineAt_stop cases base pos content _, ?_⟩
      have hstop : (lineAt cases base pos content (content.length + 1)).span.stop =
          saturatingAdd base (pos + content.length + 1) := saturatingAdd_assoc _ _ _
      rw [hstop]
      exact ih _ _
    · exact ih _ _

/-- The first lines follow one another too. -/
theorem Contiguous.take {offset : ℕ} {lines : List Line} (h : Contiguous offset lines) (n : ℕ) :
    Contiguous offset (lines.take n) := by
  induction lines generalizing offset n with
  | nil =>
    rw [List.take_nil]
    trivial
  | cons line lines ih =>
    cases n with
    | zero => trivial
    | succ n => exact ⟨h.1, h.2.1, ih h.2.2 n⟩

/-- The offset where the last of some lines ends, or where they begin. -/
def stopOf (offset : ℕ) (lines : List Line) : ℕ := (lines.getLast?.map (·.span.stop)).getD offset

theorem stopOf_cons (offset : ℕ) (line : Line) (lines : List Line) :
    stopOf offset (line :: lines) = stopOf line.span.stop lines := by
  unfold stopOf
  cases lines with
  | nil => rfl
  | cons next lines => rw [List.getLast?_cons_cons, List.getLast?_cons]; rfl

/-- More lines end later. -/
theorem Contiguous.stopOf_mono {offset : ℕ} {lines : List Line} (h : Contiguous offset lines)
    {n m : ℕ} (hle : n ≤ m) : stopOf offset (lines.take n) ≤ stopOf offset (lines.take m) := by
  induction lines generalizing offset n m with
  | nil => rw [List.take_nil, List.take_nil]
  | cons line lines ih =>
    cases m with
    | zero =>
      obtain rfl : n = 0 := Nat.le_zero.mp hle
      exact le_rfl
    | succ m =>
      rw [List.take_succ_cons, stopOf_cons]
      cases n with
      | zero => exact h.2.1.trans (ih h.2.2 (Nat.zero_le m))
      | succ n =>
        rw [List.take_succ_cons, stopOf_cons]
        exact ih h.2.2 (Nat.le_of_succ_le_succ hle)

end Lines

end DeadReckoning.Gcode
