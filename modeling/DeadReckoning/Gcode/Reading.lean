import DeadReckoning.Gcode.Boundaries

/-! What is read back from bytes that were written as text: the same text, line by line, and a
comment as the comment it was. -/
namespace DeadReckoning.Gcode

section Utf8

/-- The bytes of a text. -/
def encode (s : Text) : Bytes := s.flatMap String.utf8EncodeChar

theorem encode_append (s t : Text) : encode (s ++ t) = encode s ++ encode t :=
  List.flatMap_append

theorem encode_cons (c : Char) (s : Text) : encode (c :: s) = String.utf8EncodeChar c ++ encode s :=
  List.flatMap_cons

/-- The byte begins a longer character. -/
theorem utf8From_first {b : UInt8} {p : Utf8Pending} (hfirst : utf8First b.toNat = ([], some p))
    (rest : Bytes) : utf8From none (b :: rest) = utf8From (some p) rest := by
  rw [utf8From, utf8Next, hfirst]
  rfl

/-- The byte continues the character. -/
theorem utf8From_next {b : UInt8} {need value lo hi : ℕ} (hlo : lo ≤ b.toNat) (hhi : b.toNat ≤ hi)
    (hneed : need ≠ 1) (rest : Bytes) :
    utf8From (some ⟨need, value, lo, hi⟩) (b :: rest) =
      utf8From (some ⟨need - 1, value * 64 + (b.toNat - 0x80), 0x80, 0xBF⟩) rest := by
  rw [utf8From, utf8Next]
  dsimp only
  rw [if_pos ⟨hlo, hhi⟩, if_neg hneed]
  rfl

/-- The byte is the last of the character. -/
theorem utf8From_last {b : UInt8} {value lo hi : ℕ} (hlo : lo ≤ b.toNat) (hhi : b.toNat ≤ hi)
    (rest : Bytes) : utf8From (some ⟨1, value, lo, hi⟩) (b :: rest) =
      Char.ofNat (value * 64 + (b.toNat - 0x80)) :: utf8From none rest := by
  rw [utf8From, utf8Next]
  dsimp only
  rw [if_pos ⟨hlo, hhi⟩, if_pos rfl]
  rfl

theorem toNat_ofNat_add {n m : ℕ} (h : n + m < 256) : (UInt8.ofNat (n + m)).toNat = n + m := by
  rw [UInt8.toNat_ofNat']
  omega

theorem utf8First_two {n : ℕ} (hlow : 2 ≤ n) (hhigh : n < 32) :
    utf8First (n + 192) = ([], some ⟨1, n, 0x80, 0xBF⟩) := by
  rw [utf8First, if_neg (by omega), if_pos (by omega), Nat.add_sub_cancel]

/-- The first of three bytes leaves room for what follows it, but not for a surrogate or for what
two bytes can hold. -/
theorem utf8First_three {n m : ℕ} (hn : n < 16) (hm : m < 64) (hlong : n = 0 → 32 ≤ m)
    (hsurrogate : n = 13 → m < 32) : ∃ lo hi, utf8First (n + 224) = ([], some ⟨2, n, lo, hi⟩) ∧
      lo ≤ m + 128 ∧ m + 128 ≤ hi := by
  rw [utf8First, if_neg (by omega), if_neg (by omega)]
  by_cases hzero : n = 0
  · have hlow := hlong hzero
    subst hzero
    exact ⟨0xA0, 0xBF, rfl, by omega, by omega⟩
  · rw [if_neg (by omega)]
    by_cases hd : n = 13
    · have hhigh := hsurrogate hd
      subst hd
      exact ⟨0x80, 0x9F, rfl, by omega, by omega⟩
    · rw [if_neg (by omega), if_pos (by omega), Nat.add_sub_cancel]
      exact ⟨0x80, 0xBF, rfl, by omega, by omega⟩

theorem utf8First_four {n m : ℕ} (hn : n < 5) (hm : m < 64) (hlong : n = 0 → 16 ≤ m)
    (hlast : n = 4 → m < 16) : ∃ lo hi, utf8First (n + 240) = ([], some ⟨3, n, lo, hi⟩) ∧
      lo ≤ m + 128 ∧ m + 128 ≤ hi := by
  rw [utf8First, if_neg (by omega), if_neg (by omega), if_neg (by omega), if_neg (by omega),
    if_neg (by omega)]
  by_cases hzero : n = 0
  · have hlow := hlong hzero
    subst hzero
    exact ⟨0x90, 0xBF, rfl, by omega, by omega⟩
  · rw [if_neg (by omega)]
    by_cases hfour : n = 4
    · have hhigh := hlast hfour
      subst hfour
      exact ⟨0x80, 0x8F, rfl, by omega, by omega⟩
    · rw [if_pos (by omega), Nat.add_sub_cancel]
      exact ⟨0x80, 0xBF, rfl, by omega, by omega⟩

/-- The bytes of a character, by how many there are. -/
theorem utf8EncodeChar_cases (c : Char) : ∃ v, Char.ofNat v = c ∧
    (v ≤ 0x7f ∧ String.utf8EncodeChar c = [UInt8.ofNat v] ∨
      0x80 ≤ v ∧ v ≤ 0x7ff ∧
        String.utf8EncodeChar c = [UInt8.ofNat (v / 64 % 32 + 192), UInt8.ofNat (v % 64 + 128)] ∨
      0x800 ≤ v ∧ v ≤ 0xffff ∧ (v < 0xD800 ∨ 0xDFFF < v) ∧
        String.utf8EncodeChar c = [UInt8.ofNat (v / 4096 % 16 + 224),
          UInt8.ofNat (v / 64 % 64 + 128), UInt8.ofNat (v % 64 + 128)] ∨
      0x10000 ≤ v ∧ v < 0x110000 ∧
        String.utf8EncodeChar c = [UInt8.ofNat (v / 262144 % 8 + 240),
          UInt8.ofNat (v / 4096 % 64 + 128), UInt8.ofNat (v / 64 % 64 + 128),
          UInt8.ofNat (v % 64 + 128)]) := by
  have hvalid : c.val.toNat < 0xD800 ∨ 0xDFFF < c.val.toNat ∧ c.val.toNat < 0x110000 := c.valid
  refine ⟨c.val.toNat, Char.ofNat_toNat c, ?_⟩
  unfold String.utf8EncodeChar
  extract_lets v
  by_cases hone : v ≤ 0x7f
  · exact .inl ⟨hone, if_pos hone⟩
  · rw [if_neg hone]
    by_cases htwo : v ≤ 0x7ff
    · exact .inr (.inl ⟨by omega, htwo, if_pos htwo⟩)
    · rw [if_neg htwo]
      by_cases hthree : v ≤ 0xffff
      · exact .inr (.inr (.inl ⟨by omega, hthree, by omega, if_pos hthree⟩))
      · exact .inr (.inr (.inr ⟨by omega, by omega, if_neg hthree⟩))

/-- The bytes of a character are read as it. -/
theorem utf8From_encodeChar (c : Char) (rest : Bytes) :
    utf8From none (String.utf8EncodeChar c ++ rest) = c :: utf8From none rest := by
  obtain ⟨v, hself, ⟨hv, hbytes⟩ | ⟨hlow, hhigh, hbytes⟩ | ⟨hlow, hhigh, hvalid, hbytes⟩ |
    ⟨hlow, hhigh, hbytes⟩⟩ := utf8EncodeChar_cases c
  · have hbyte : (UInt8.ofNat v).toNat = v := by
      rw [UInt8.toNat_ofNat']
      omega
    rw [hbytes, List.cons_append, utf8From, hbyte, utf8Next, utf8First, if_pos (by omega), hself]
    rfl
  · have hfirst := utf8First_two (n := v / 64 % 32) (by omega) (by omega)
    have hbyte : (UInt8.ofNat (v % 64 + 128)).toNat = v % 64 + 128 := toNat_ofNat_add (by omega)
    rw [← toNat_ofNat_add (by omega)] at hfirst
    have hvalue : v / 64 % 32 * 64 + (v % 64 + 128 - 128) = v := by omega
    rw [hbytes, List.cons_append, utf8From_first hfirst, List.cons_append,
      utf8From_last (by omega) (by omega), hbyte, hvalue, hself]
    rfl
  · obtain ⟨lo, hi, hfirst, hlo, hhi⟩ := utf8First_three (n := v / 4096 % 16)
      (m := v / 64 % 64) (by omega) (by omega) (by omega) (by omega)
    have hmid : (UInt8.ofNat (v / 64 % 64 + 128)).toNat = v / 64 % 64 + 128 :=
      toNat_ofNat_add (by omega)
    have hbyte : (UInt8.ofNat (v % 64 + 128)).toNat = v % 64 + 128 := toNat_ofNat_add (by omega)
    rw [← toNat_ofNat_add (by omega)] at hfirst
    have hvalue : (v / 4096 % 16 * 64 + (v / 64 % 64 + 128 - 128)) * 64 +
        (v % 64 + 128 - 128) = v := by omega
    rw [hbytes, List.cons_append, utf8From_first hfirst, List.cons_append,
      utf8From_next (by omega) (by omega) (by omega), List.cons_append,
      utf8From_last (by omega) (by omega), hmid, hbyte, hvalue, hself]
    rfl
  · obtain ⟨lo, hi, hfirst, hlo, hhi⟩ := utf8First_four (n := v / 262144 % 8)
      (m := v / 4096 % 64) (by omega) (by omega) (by omega) (by omega)
    have hsecond : (UInt8.ofNat (v / 4096 % 64 + 128)).toNat = v / 4096 % 64 + 128 :=
      toNat_ofNat_add (by omega)
    have hmid : (UInt8.ofNat (v / 64 % 64 + 128)).toNat = v / 64 % 64 + 128 :=
      toNat_ofNat_add (by omega)
    have hbyte : (UInt8.ofNat (v % 64 + 128)).toNat = v % 64 + 128 := toNat_ofNat_add (by omega)
    rw [← toNat_ofNat_add (by omega)] at hfirst
    have hvalue : ((v / 262144 % 8 * 64 + (v / 4096 % 64 + 128 - 128)) * 64 +
        (v / 64 % 64 + 128 - 128)) * 64 + (v % 64 + 128 - 128) = v := by omega
    rw [hbytes, List.cons_append, utf8From_first hfirst, List.cons_append,
      utf8From_next (by omega) (by omega) (by omega), List.cons_append,
      utf8From_next (by omega) (by omega) (by omega), List.cons_append,
      utf8From_last (by omega) (by omega), hsecond, hmid, hbyte, hvalue, hself]
    rfl

theorem fromUtf8Lossy_encode (s : Text) : fromUtf8Lossy (encode s) = s := by
  unfold fromUtf8Lossy
  induction s with
  | nil => rfl
  | cons c s ih => rw [encode_cons, utf8From_encodeChar, ih]

theorem newline_notMem_encode {s : Text} (h : '\n' ∉ s) : newline ∉ encode s := by
  intro hmem
  obtain ⟨c, hc, hbyte⟩ := List.mem_flatMap.mp hmem
  have hten : newline.toNat = 10 := rfl
  have hlarge : ∀ n, 128 ≤ n → n < 256 → newline ≠ UInt8.ofNat n := by
    intro n hlow hhigh heq
    have hnat := congrArg UInt8.toNat heq
    rw [hten, UInt8.toNat_ofNat'] at hnat
    omega
  obtain ⟨v, hself, ⟨hv, hbytes⟩ | ⟨hlow, hhigh, hbytes⟩ | ⟨hlow, hhigh, hvalid, hbytes⟩ |
    ⟨hlow, hhigh, hbytes⟩⟩ := utf8EncodeChar_cases c
  · rw [hbytes] at hbyte
    have hnat := congrArg UInt8.toNat (List.mem_singleton.mp hbyte)
    rw [hten, UInt8.toNat_ofNat'] at hnat
    have hv' : v = 10 := by omega
    rw [hv'] at hself
    exact h (hself ▸ hc)
  · have hall : ∀ b ∈ String.utf8EncodeChar c, newline ≠ b := by
      rw [hbytes, List.forall_mem_cons, List.forall_mem_singleton]
      exact ⟨hlarge _ (by omega) (by omega), hlarge _ (by omega) (by omega)⟩
    exact hall _ hbyte rfl
  · have hall : ∀ b ∈ String.utf8EncodeChar c, newline ≠ b := by
      rw [hbytes, List.forall_mem_cons, List.forall_mem_cons, List.forall_mem_singleton]
      exact ⟨hlarge _ (by omega) (by omega), hlarge _ (by omega) (by omega),
        hlarge _ (by omega) (by omega)⟩
    exact hall _ hbyte rfl
  · have hall : ∀ b ∈ String.utf8EncodeChar c, newline ≠ b := by
      rw [hbytes, List.forall_mem_cons, List.forall_mem_cons, List.forall_mem_cons, List.forall_mem_singleton]
      exact ⟨hlarge _ (by omega) (by omega), hlarge _ (by omega) (by omega),
        hlarge _ (by omega) (by omega), hlarge _ (by omega) (by omega)⟩
    exact hall _ hbyte rfl

/-- A character that is being read is not going to be one of the first, which one byte holds. -/
structure Utf8Pending.Long (p : Utf8Pending) : Prop where
  last : p.need = 1 → 2 ≤ p.value
  inner : ∀ b, p.lo ≤ b → 2 ≤ p.value * 64 + (b - 0x80)

theorem long_next {need value hi : ℕ} (h : 2 ≤ value) : Utf8Pending.Long ⟨need, value, 0x80, hi⟩ :=
  ⟨fun _ => h, fun b _ => by dsimp only; omega⟩

theorem long_first {need value lo hi : ℕ} (hneed : need ≠ 1)
    (h : ∀ b, lo ≤ b → 2 ≤ value * 64 + (b - 0x80)) : Utf8Pending.Long ⟨need, value, lo, hi⟩ :=
  ⟨fun hone => absurd hone hneed, h⟩

theorem ofNat_ne_newline {n : ℕ} (h : n ≠ 10) : '\n' ≠ Char.ofNat n := by
  intro heq
  have hnat := congrArg Char.toNat heq
  have hten : '\n'.toNat = 10 := rfl
  rw [hten] at hnat
  by_cases hvalid : n.isValidChar
  · have hread : (Char.ofNat n).toNat = n := by
      rw [Char.ofNat, dif_pos hvalid]
      rfl
    exact h (hread.symm.trans hnat.symm)
  · rw [Char.ofNat, dif_neg hvalid] at hnat
    cases hnat

theorem utf8First_newline {b : ℕ} (hb : b ≠ 10) :
    '\n' ∉ (utf8First b).1 ∧ ∀ p ∈ (utf8First b).2, p.Long := by
  have hreplacement : '\n' ≠ replacement := by decide
  have hpending : ∀ p : Utf8Pending, p.Long → '\n' ∉ ([] : Text) ∧ ∀ q ∈ some p, q.Long := by
    intro p hp
    refine ⟨List.not_mem_nil, fun q hq => ?_⟩
    obtain rfl := Option.some.inj hq
    exact hp
  unfold utf8First
  by_cases hone : b < 0x80
  · rw [if_pos hone]
    exact ⟨fun h => ofNat_ne_newline hb (List.mem_singleton.mp h), fun p hp => by cases hp⟩
  rw [if_neg hone]
  by_cases htwo : 0xC2 ≤ b ∧ b ≤ 0xDF
  · rw [if_pos htwo]
    exact hpending _ (long_next (by omega))
  rw [if_neg htwo]
  by_cases hE0 : b = 0xE0
  · rw [if_pos hE0]
    exact hpending _ (long_first (by omega) fun b' hb' => by omega)
  rw [if_neg hE0]
  by_cases hED : b = 0xED
  · rw [if_pos hED]
    exact hpending _ (long_next (by omega))
  rw [if_neg hED]
  by_cases hthree : 0xE1 ≤ b ∧ b ≤ 0xEF
  · rw [if_pos hthree]
    exact hpending _ (long_first (by omega) fun b' hb' => by omega)
  rw [if_neg hthree]
  by_cases hF0 : b = 0xF0
  · rw [if_pos hF0]
    exact hpending _ (long_first (by omega) fun b' hb' => by omega)
  rw [if_neg hF0]
  by_cases hfour : 0xF1 ≤ b ∧ b ≤ 0xF3
  · rw [if_pos hfour]
    exact hpending _ (long_first (by omega) fun b' hb' => by omega)
  rw [if_neg hfour]
  by_cases hF4 : b = 0xF4
  · rw [if_pos hF4]
    exact hpending _ (long_next (by omega))
  rw [if_neg hF4]
  exact ⟨fun h => hreplacement (List.mem_singleton.mp h), fun p hp => by cases hp⟩

/-- So is every further byte, and none of them gives a newline. -/
theorem utf8Next_newline {p : Utf8Pending} (hp : p.Long) {b : ℕ} (hb : b ≠ 10) :
    '\n' ∉ (utf8Next (some p) b).1 ∧ ∀ q ∈ (utf8Next (some p) b).2, q.Long := by
  have hreplacement : '\n' ≠ replacement := by decide
  unfold utf8Next
  dsimp only
  by_cases hinside : p.lo ≤ b ∧ b ≤ p.hi
  · rw [if_pos hinside]
    by_cases hlast : p.need = 1
    · have hvalue := hp.last hlast
      rw [if_pos hlast]
      refine ⟨fun h => ?_, fun q hq => by cases hq⟩
      exact ofNat_ne_newline (by omega) (List.mem_singleton.mp h)
    · have hvalue := hp.inner b hinside.1
      rw [if_neg hlast]
      refine ⟨List.not_mem_nil, fun q hq => ?_⟩
      obtain rfl := Option.some.inj hq
      exact long_next hvalue
  · obtain ⟨hfree, hlong⟩ := utf8First_newline hb
    rw [if_neg hinside]
    refine ⟨fun h => ?_, hlong⟩
    rcases List.mem_cons.mp h with h | h
    · exact hreplacement h
    · exact hfree h

theorem newline_notMem_utf8From {bytes : Bytes} (hfree : newline ∉ bytes)
    {pending : Option Utf8Pending} (hlong : ∀ p ∈ pending, p.Long) :
    '\n' ∉ utf8From pending bytes := by
  induction bytes generalizing pending with
  | nil =>
    cases pending with
    | none => exact List.not_mem_nil
    | some p =>
      intro h
      exact absurd (List.mem_singleton.mp h) (by decide)
  | cons b bytes ih =>
    have hb : b.toNat ≠ 10 := by
      intro hten
      apply hfree
      rw [show b = newline from UInt8.toNat_inj.mp hten]
      exact List.mem_cons_self
    have hnext : '\n' ∉ (utf8Next pending b.toNat).1 ∧
        ∀ q ∈ (utf8Next pending b.toNat).2, q.Long := by
      cases pending with
      | none => exact utf8First_newline hb
      | some p => exact utf8Next_newline (hlong p rfl) hb
    rw [utf8From, List.mem_append]
    rintro (h | h)
    · exact hnext.1 h
    · exact ih (fun hmem => hfree (List.mem_cons_of_mem _ hmem)) hnext.2 h

theorem newline_notMem_fromUtf8Lossy {bytes : Bytes} (hfree : newline ∉ bytes) :
    '\n' ∉ fromUtf8Lossy bytes := newline_notMem_utf8From hfree fun p hp => by cases hp

end Utf8

section Bodies

variable {cases : CaseMapping} {base pos : ℕ} {content data rest : Bytes} {body : LineBody}

/-- What the lines of some data say, wherever they stand. -/
def lineBodies (cases : CaseMapping) (data : Bytes) : List LineBody :=
  (lineIter cases data 0).map (·.body)

theorem linesFrom_bodies (base' pos' : ℕ) :
    (linesFrom cases base pos content rest).map (·.body) =
      (linesFrom cases base' pos' content rest).map (·.body) := by
  induction rest generalizing pos pos' content with
  | nil =>
    unfold linesFrom
    split
    · rfl
    · rfl
  | cons b rest ih =>
    unfold linesFrom
    split
    · rw [List.map_cons, List.map_cons, ih (pos' + content.length + 1)]
      rfl
    · exact ih _

/-- A newline ends what it ends, whatever follows. -/
theorem linesFrom_newline :
    (linesFrom cases base pos content (data ++ newline :: rest)).map (·.body) =
      (linesFrom cases base pos content (data ++ [newline])).map (·.body) ++
        lineBodies cases rest := by
  induction data generalizing pos content with
  | nil =>
    rw [List.nil_append, List.nil_append, linesFrom, if_pos rfl, linesFrom, if_pos rfl,
      List.map_cons, List.map_cons, linesFrom_bodies 0 0]
    rfl
  | cons b data ih =>
    rw [List.cons_append, List.cons_append, linesFrom, linesFrom]
    split
    · rw [List.map_cons, List.map_cons, ih, List.cons_append]
    · exact ih

/-- The data is over, or a line of it just ended. -/
def EndsLine (data : Bytes) : Prop := data = [] ∨ ∃ before, data = before ++ [newline]

theorem EndsLine.append (h : EndsLine data) (h' : EndsLine rest) : EndsLine (data ++ rest) := by
  rcases h' with rfl | ⟨before, rfl⟩
  · rwa [List.append_nil]
  · exact .inr ⟨data ++ before, (List.append_assoc _ _ _).symm⟩

theorem lineBodies_append (h : EndsLine data) :
    lineBodies cases (data ++ rest) = lineBodies cases data ++ lineBodies cases rest := by
  rcases h with rfl | ⟨before, rfl⟩
  · rfl
  · rw [List.append_assoc, List.singleton_append]
    exact linesFrom_newline

/-- A text that was written with a newline behind it is read as one line. -/
theorem lineBodies_text {s : Text} (hfree : '\n' ∉ s) :
    lineBodies cases (encode s ++ [newline]) = [parseLine cases s] := by
  have hone : linesFrom cases 0 0 [] (encode s ++ [newline]) =
      linesFrom cases 0 0 ([] ++ encode s) [newline] :=
    linesFrom_append (newline_notMem_encode hfree)
  unfold lineBodies lineIter
  rw [hone, List.nil_append, linesFrom, if_pos rfl, linesFrom, if_pos rfl, List.map_singleton,
    lineAt, parseLineBytes, fromUtf8Lossy_encode]

/-- The bodies are what the pieces of the data say. -/
theorem mem_linesFrom_bodies (hfree : newline ∉ content)
    (h : body ∈ (linesFrom cases base pos content data).map (·.body)) :
    ∃ piece, newline ∉ piece ∧ body = parseLine cases (fromUtf8Lossy piece) := by
  induction data generalizing pos content with
  | nil =>
    rw [linesFrom] at h
    split at h
    · cases h
    · exact ⟨content, hfree, List.mem_singleton.mp h⟩
  | cons b data ih =>
    rw [linesFrom] at h
    split at h
    · rcases List.mem_cons.mp h with hbody | h
      · exact ⟨content, hfree, hbody⟩
      · exact ih List.not_mem_nil h
    · rename_i hb
      apply ih _ h
      rw [List.mem_append, List.mem_singleton]
      rintro (hcontent | hself)
      · exact hfree hcontent
      · exact hb hself.symm

end Bodies

section Comments

variable {cases : CaseMapping} {text comment : Text}

/-- A comment is its line without the blanks around it. -/
theorem comment_of_parseLine (h : parseLine cases text = .comment comment) :
    comment = Text.trim text ∧ comment.head? = some ';' := by
  unfold parseLine at h
  dsimp only at h
  split_ifs at h with hblank hcode
  split at h
  · rename_i rest hrest
    obtain rfl := LineBody.comment.inj h
    have hsplit : Text.trim text = (Text.trim text).takeWhile (· ≠ ';') ++
        (Text.trim text).dropWhile (· ≠ ';') := List.takeWhile_append_dropWhile.symm
    -- Text in front of the semicolon would begin with the solid first character.
    have hcut : (Text.trim text).takeWhile (· ≠ ';') = [] := by
      by_contra hne
      obtain ⟨c, more, hcons⟩ := List.exists_cons_of_ne_nil hne
      have hsolid : Text.isWhitespace c = false := by
        apply Text.trim_head_solid text
        rw [hsplit, hcons]
        rfl
      obtain ⟨a, b, hblanks, ha, hb⟩ := Text.exists_trim ((Text.trim text).takeWhile (· ≠ ';'))
      rw [hcode.2, List.append_nil, hcons] at hblanks
      have hmem : c ∈ a ++ b := hblanks ▸ List.mem_cons_self
      have hempty : Text.isWhitespace c = true := by
        rcases List.mem_append.mp hmem with hmem | hmem
        · exact ha c hmem
        · exact hb c hmem
      rw [hsolid] at hempty
      cases hempty
    cases hdrop : (Text.trim text).dropWhile (· ≠ ';') with
    | nil =>
      rw [hdrop] at hrest
      cases hrest
    | cons c more =>
      rw [hdrop] at hrest hsplit
      obtain rfl := Option.some.inj hrest
      have hsemicolon := List.head?_dropWhile_not (· ≠ ';') (Text.trim text)
      rw [hdrop] at hsemicolon
      rw [hcut, List.nil_append] at hsplit
      exact ⟨hsplit.symm, by simpa using hsemicolon⟩
  · cases h

theorem parseLine_comment (hhead : comment.head? = some ';') (htrim : Text.trim comment = comment) :
    parseLine cases comment = .comment comment := by
  obtain ⟨rest, rfl⟩ := List.head?_eq_some_iff.mp hhead
  unfold parseLine
  rw [htrim]
  have htake : (';' :: rest).takeWhile (· ≠ ';') = [] := List.takeWhile_cons_of_neg (by simp)
  have hdrop : (';' :: rest).dropWhile (· ≠ ';') = ';' :: rest := List.dropWhile_cons_of_neg (by simp)
  dsimp only
  have hname : commandName (splitArgs (cases.upper [])) = [] := rfl
  rw [htake, hdrop, if_neg (List.cons_ne_nil _ _), if_pos ⟨hname, rfl⟩]

end Comments

end DeadReckoning.Gcode
