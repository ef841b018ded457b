import Mathlib.Data.List.Basic

/-! Streams of frames that carry their own length: scanning one until the first frame that
does not parse, cutting it anywhere, and going on where a scan stopped. -/

/-- A parser of the frame at the front of a stream. The frame is not empty, lies inside the
stream, and what stands behind it does not matter. -/
structure FrameParser (β α ε : Type*) where
  parse : List β → Except ε (α × ℕ)
  positive : ∀ {bs a n}, parse bs = .ok (a, n) → 0 < n
  inside : ∀ {bs a n}, parse bs = .ok (a, n) → n ≤ bs.length
  front : ∀ {bs a n}, parse bs = .ok (a, n) → ∀ rest, parse (bs.take n ++ rest) = .ok (a, n)

/-- Intervals that follow one another from the first position to the last, none of them empty. -/
def Tiles : ℕ → List (ℕ × ℕ) → ℕ → Prop
  | lo, [], hi => lo = hi
  | lo, (a, b) :: rest, hi => a = lo ∧ a < b ∧ Tiles b rest hi

namespace FrameParser

variable {β α ε : Type*} (P : FrameParser β α ε)

/-- A scan that starts at a position with the elements left: the frames with the position of
each, the position where it stops, and the reason when elements are left there. -/
inductive Scans : ℕ → List β → List (ℕ × α) → ℕ → Option ε → Prop
  | finished (pos : ℕ) : Scans pos [] [] pos none
  | stopped {pos : ℕ} {bs : List β} {e : ε} (hne : bs ≠ []) (h : P.parse bs = .error e) :
      Scans pos bs [] pos (some e)
  | frame {pos : ℕ} {bs : List β} {a : α} {n : ℕ} {frames : List (ℕ × α)} {stop : ℕ}
      {e : Option ε} (h : P.parse bs = .ok (a, n))
      (hrest : Scans (pos + n) (bs.drop n) frames stop e) :
      Scans pos bs ((pos, a) :: frames) stop e

variable {P} {pos stop : ℕ} {bs : List β} {frames : List (ℕ × α)} {e : Option ε}

/-- Every stream has a scan. -/
theorem exists_scans (P : FrameParser β α ε) (pos : ℕ) (bs : List β) :
    ∃ frames stop e, P.Scans pos bs frames stop e := by
  induction hlength : bs.length using Nat.strongRecOn generalizing pos bs with
  | _ length ih =>
    by_cases hne : bs = []
    · subst hne
      exact ⟨[], pos, none, .finished pos⟩
    · cases hparse : P.parse bs with
      | error e => exact ⟨[], pos, some e, .stopped hne hparse⟩
      | ok frame =>
        obtain ⟨a, n⟩ := frame
        have hpositive := P.positive hparse
        have hinside := P.inside hparse
        have hless : (bs.drop n).length < length := by
          rw [List.length_drop]
          omega
        obtain ⟨frames, stop, e, hrest⟩ := ih _ hless (pos + n) (bs.drop n) rfl
        exact ⟨_, stop, e, .frame hparse hrest⟩

/-- A scan stops inside the stream. -/
theorem Scans.le (h : P.Scans pos bs frames stop e) : pos ≤ stop ∧ stop ≤ pos + bs.length := by
  induction h with
  | finished pos => simp
  | stopped hne h => omega
  | frame h hrest ih =>
    have hinside := P.inside h
    rw [List.length_drop] at ih
    omega

/-- Two scans of one stream are the same. -/
theorem Scans.unique {frames' : List (ℕ × α)} {stop' : ℕ} {e' : Option ε}
    (h : P.Scans pos bs frames stop e) (h' : P.Scans pos bs frames' stop' e') :
    frames = frames' ∧ stop = stop' ∧ e = e' := by
  induction h generalizing frames' stop' e' with
  | finished pos => cases h' with
    | finished => exact ⟨rfl, rfl, rfl⟩
    | stopped hne h => exact (hne rfl).elim
    | frame h hrest =>
      have hpositive := P.positive h
      have hinside := P.inside h
      simp only [List.length_nil] at hinside
      omega
  | stopped hne h => cases h' with
    | finished => exact (hne rfl).elim
    | stopped hne' h' =>
      rw [h, Except.error.injEq] at h'
      exact ⟨rfl, rfl, congrArg some h'⟩
    | frame h' hrest =>
      rw [h] at h'
      cases h'
  | frame h hrest ih => cases h' with
    | finished =>
      have hpositive := P.positive h
      have hinside := P.inside h
      simp only [List.length_nil] at hinside
      omega
    | stopped hne h' =>
      rw [h] at h'
      cases h'
    | frame h' hrest' =>
      rw [h, Except.ok.injEq, Prod.mk.injEq] at h'
      obtain ⟨rfl, rfl⟩ := h'
      obtain ⟨rfl, rfl, rfl⟩ := ih hrest'
      exact ⟨rfl, rfl, rfl⟩

/-- The frames of a scan follow one another without a gap and without overlap. -/
theorem Scans.tiles (h : P.Scans pos bs frames stop e) :
    ∃ lengths : List ℕ, lengths.length = frames.length ∧
      Tiles pos ((frames.zip lengths).map fun p => (p.1.1, p.1.1 + p.2)) stop ∧
      ∀ p ∈ frames.zip lengths, pos ≤ p.1.1 ∧
        P.parse (bs.drop (p.1.1 - pos)) = .ok (p.1.2, p.2) := by
  induction h with
  | finished pos => exact ⟨[], rfl, rfl, by simp⟩
  | stopped hne h => exact ⟨[], rfl, rfl, by simp⟩
  | @frame pos bs a n frames stop e h hrest ih =>
    obtain ⟨lengths, hlength, htiles, hread⟩ := ih
    have hpositive := P.positive h
    refine ⟨n :: lengths, by simp [hlength], ?_, ?_⟩
    · exact ⟨rfl, by omega, htiles⟩
    · intro p hp
      rw [List.zip_cons_cons] at hp
      rcases List.mem_cons.mp hp with rfl | hp
      · simp [h]
      · obtain ⟨hle, hparse⟩ := hread p hp
        rw [List.drop_drop] at hparse
        have hsum : n + (p.1.1 - (pos + n)) = p.1.1 - pos := by omega
        rw [hsum] at hparse
        exact ⟨by omega, hparse⟩

/-- Cut where the scan stopped, the stream has the same frames and nothing behind them; and a
scan goes on where another stopped. -/
theorem Scans.resume {more : List β} {frames' : List (ℕ × α)} {stop' : ℕ} {e' : Option ε}
    (h : P.Scans pos bs frames stop e) (hmore : P.Scans stop more frames' stop' e') :
    P.Scans pos (bs.take (stop - pos) ++ more) (frames ++ frames') stop' e' := by
  induction h with
  | finished pos => simpa using hmore
  | stopped hne h => simpa using hmore
  | @frame pos bs a n frames stop e h hrest ih =>
    have hle := hrest.le
    have hinside := P.inside h
    have hsplit : bs.take (stop - pos) = bs.take n ++ (bs.drop n).take (stop - (pos + n)) := by
      have hsum : stop - pos = n + (stop - (pos + n)) := by omega
      rw [hsum, List.take_add]
    have hlength : (bs.take n).length = n := by
      rw [List.length_take]
      omega
    rw [hsplit, List.append_assoc, List.cons_append]
    apply Scans.frame (P.front h _)
    have hdrop : (bs.take n ++ ((bs.drop n).take (stop - (pos + n)) ++ more)).drop n =
        (bs.drop n).take (stop - (pos + n)) ++ more := by
      rw [List.drop_append_of_le_length (Nat.le_of_eq hlength.symm), List.drop_take_self,
        List.nil_append]
    rw [hdrop]
    exact ih hmore

theorem Scans.rescan (h : P.Scans pos bs frames stop e) :
    P.Scans pos (bs.take (stop - pos)) frames stop none := by
  have hcut := h.resume (.finished stop)
  rwa [List.append_nil, List.append_nil] at hcut

end FrameParser

section Written

variable {β α ε : Type*}

/-- How the values of a kind are written as frames: whole, a frame parses as its value; cut, it
parses as torn. -/
structure FrameWriter (P : FrameParser β α ε) (Accepted : α → Prop) (frame : α → List β)
    (torn : ℕ → ε) : Prop where
  nonempty : ∀ a, frame a ≠ []
  whole : ∀ a, Accepted a → ∀ rest, P.parse (frame a ++ rest) = .ok (a, (frame a).length)
  cut : ∀ a, Accepted a → ∀ k, 0 < k → k < (frame a).length →
    P.parse ((frame a).take k) = .error (torn k)

/-- The values with the positions of their frames. -/
def placed (frame : α → List β) : ℕ → List α → List (ℕ × α)
  | _, [] => []
  | pos, a :: as => (pos, a) :: placed frame (pos + (frame a).length) as

/-- The values whose whole frame stands before the cut. -/
def wholeBefore (frame : α → List β) (cut : ℕ) (values : List (ℕ × α)) : List (ℕ × α) :=
  values.filter fun p => p.1 + (frame p.2).length ≤ cut

/-- The end of the last of the frames, or where they start when there is none. -/
def lastEnd (frame : α → List β) (start : ℕ) (values : List (ℕ × α)) : ℕ :=
  (values.getLast?.map fun p => p.1 + (frame p.2).length).getD start

/-- Why a scan stops at a cut that many elements behind a frame's end. -/
def tornBy (torn : ℕ → ε) (k : ℕ) : Option ε := if k = 0 then none else some (torn k)

variable {P : FrameParser β α ε} {Accepted : α → Prop} {frame : α → List β} {torn : ℕ → ε}

theorem le_of_mem_placed {pos : ℕ} {values : List α} {p : ℕ × α}
    (h : p ∈ placed frame pos values) : pos ≤ p.1 := by
  induction values generalizing pos with
  | nil => cases h
  | cons a values ih =>
    rcases List.mem_cons.mp h with rfl | h
    · exact Nat.le_refl _
    · have := ih h
      omega

theorem lastEnd_cons {start : ℕ} {p : ℕ × α} {values : List (ℕ × α)} :
    lastEnd frame start (p :: values) = lastEnd frame (p.1 + (frame p.2).length) values := by
  cases values with
  | nil => rfl
  | cons q values => rw [lastEnd, lastEnd, List.getLast?_cons_cons]; simp [List.getLast?_cons]

theorem wholeBefore_cons_whole {pos cut : ℕ} {a : α} {values : List α}
    (h : pos + (frame a).length ≤ cut) :
    wholeBefore frame cut (placed frame pos (a :: values)) =
      (pos, a) :: wholeBefore frame cut (placed frame (pos + (frame a).length) values) := by
  rw [placed, wholeBefore, List.filter_cons_of_pos (by simpa using h)]
  rfl

/-- A cut inside the first frame leaves nothing whole. -/
theorem wholeBefore_cons_cut {pos cut : ℕ} {a : α} {values : List α}
    (h : cut < pos + (frame a).length) :
    wholeBefore frame cut (placed frame pos (a :: values)) = [] := by
  rw [placed, wholeBefore, List.filter_eq_nil_iff]
  intro p hp
  rcases List.mem_cons.mp hp with rfl | hp
  · simpa using h
  · have hle := le_of_mem_placed hp
    simp only [decide_eq_true_eq, Nat.not_le]
    omega

theorem placed_map_snd (pos : ℕ) (values : List α) :
    (placed frame pos values).map Prod.snd = values := by
  induction values generalizing pos with
  | nil => rfl
  | cons a values ih => rw [placed, List.map_cons, ih]

/-- The values before a cut are a front of all, with every front whose frames end before it. -/
theorem wholeBefore_placed (pos cut : ℕ) (values : List α) :
    ∃ n, (wholeBefore frame cut (placed frame pos values)).map Prod.snd = values.take n ∧
      ∀ m ≤ values.length, 0 < m → pos + ((values.take m).flatMap frame).length ≤ cut → m ≤ n := by
  induction values generalizing pos with
  | nil => exact ⟨0, rfl, fun m hm _ _ => hm⟩
  | cons a values ih =>
    by_cases hwhole : pos + (frame a).length ≤ cut
    · obtain ⟨n, htake, hmost⟩ := ih (pos + (frame a).length)
      refine ⟨n + 1, ?_, ?_⟩
      · rw [wholeBefore_cons_whole hwhole, List.map_cons, htake, List.take_succ_cons]
      · intro m hm hpos hcut
        cases m with
        | zero => cases hpos
        | succ k =>
          rw [List.take_succ_cons, List.flatMap_cons, List.length_append, ← Nat.add_assoc] at hcut
          rcases Nat.eq_zero_or_pos k with rfl | hk
          · exact Nat.le_add_left 1 n
          · exact Nat.succ_le_succ (hmost k (Nat.le_of_succ_le_succ hm) hk hcut)
    · refine ⟨0, ?_, ?_⟩
      · rw [wholeBefore_cons_cut (Nat.lt_of_not_le hwhole)]
        rfl
      · intro m hm hpos hcut
        cases m with
        | zero => cases hpos
        | succ k =>
          rw [List.take_succ_cons, List.flatMap_cons, List.length_append] at hcut
          omega

theorem placed_append (pos : ℕ) (values more : List α) :
    placed frame pos (values ++ more) =
      placed frame pos values ++ placed frame (pos + (values.flatMap frame).length) more := by
  induction values generalizing pos with
  | nil => rfl
  | cons a values ih =>
    rw [List.cons_append, placed, ih, placed, List.cons_append, List.flatMap_cons,
      List.length_append, Nat.add_assoc]

/-- Whole frames in front of something that is none scan as their values. -/
theorem FrameWriter.scans_stopped (W : FrameWriter P Accepted frame torn) {values : List α}
    (haccepted : ∀ a ∈ values, Accepted a) (pos : ℕ) {tail : List β} {e : ε} (hne : tail ≠ [])
    (hstop : P.parse tail = .error e) :
    P.Scans pos (values.flatMap frame ++ tail) (placed frame pos values)
      (pos + (values.flatMap frame).length) (some e) := by
  induction values generalizing pos with
  | nil => exact .stopped hne hstop
  | cons a values ih =>
    have hrest := ih (fun b hb => haccepted b (List.mem_cons_of_mem _ hb)) (pos + (frame a).length)
    rw [List.flatMap_cons, List.append_assoc, List.length_append, ← Nat.add_assoc]
    refine .frame (W.whole a (haccepted a List.mem_cons_self) _) ?_
    rwa [List.drop_left]

/-- A written stream scans as its values. -/
theorem FrameWriter.scans (W : FrameWriter P Accepted frame torn) {values : List α}
    (haccepted : ∀ a ∈ values, Accepted a) (pos : ℕ) :
    ∃ stop, P.Scans pos (values.flatMap frame) (placed frame pos values) stop none := by
  induction values generalizing pos with
  | nil => exact ⟨pos, .finished pos⟩
  | cons a values ih =>
    obtain ⟨stop, hrest⟩ := ih (fun b hb => haccepted b (List.mem_cons_of_mem _ hb))
      (pos + (frame a).length)
    refine ⟨stop, .frame (W.whole a (haccepted a List.mem_cons_self) _) ?_⟩
    rwa [List.flatMap_cons, List.drop_left]

/-- A written stream cut anywhere scans as the values whose frames are whole before the cut. -/
theorem FrameWriter.scans_take (W : FrameWriter P Accepted frame torn) {values : List α}
    (haccepted : ∀ a ∈ values, Accepted a) (pos k : ℕ) (hk : k ≤ (values.flatMap frame).length) :
    P.Scans pos ((values.flatMap frame).take k)
      (wholeBefore frame (pos + k) (placed frame pos values))
      (lastEnd frame pos (wholeBefore frame (pos + k) (placed frame pos values)))
      (tornBy torn (pos + k -
        lastEnd frame pos (wholeBefore frame (pos + k) (placed frame pos values)))) := by
  induction values generalizing pos k with
  | nil =>
    obtain rfl : k = 0 := by simpa using hk
    have hscan := FrameParser.Scans.finished (P := P) pos
    simpa [placed, wholeBefore, lastEnd, tornBy] using hscan
  | cons a values ih =>
    have hpositive : 0 < (frame a).length := List.length_pos_iff.mpr (W.nonempty a)
    have ha : Accepted a := haccepted a List.mem_cons_self
    rw [List.flatMap_cons, List.length_append] at hk
    rw [List.flatMap_cons]
    by_cases hwhole : (frame a).length ≤ k
    · -- The first frame stands before the cut: the rest is cut that much later.
      obtain ⟨j, rfl⟩ : ∃ j, k = (frame a).length + j := ⟨k - (frame a).length, by omega⟩
      have hrest := ih (fun b hb => haccepted b (List.mem_cons_of_mem _ hb))
        (pos + (frame a).length) j (by omega)
      rw [wholeBefore_cons_whole (by omega), lastEnd_cons, List.take_length_add_append,
        ← Nat.add_assoc]
      apply FrameParser.Scans.frame (W.whole a ha _)
      rw [List.drop_left]
      exact hrest
    · -- The cut falls into the first frame, and nothing is left of it or it is torn.
      have htake : (frame a ++ values.flatMap frame).take k = (frame a).take k :=
        List.take_append_of_le_length (by omega)
      have hlast : lastEnd frame pos ([] : List (ℕ × α)) = pos := rfl
      rw [wholeBefore_cons_cut (by omega), htake, hlast, Nat.add_sub_cancel_left]
      by_cases hzero : k = 0
      · subst hzero
        exact .finished pos
      · rw [tornBy, if_neg hzero]
        have hleft : 0 < ((frame a).take k).length := by
          rw [List.length_take]
          omega
        exact .stopped (List.length_pos_iff.mp hleft) (W.cut a ha k (by omega) (by omega))

/-- The whole frames reach the cut exactly when it is where they start or where one ends. -/
theorem FrameWriter.lastEnd_eq_cut_iff (W : FrameWriter P Accepted frame torn) {values : List α}
    (pos k : ℕ) :
    lastEnd frame pos (wholeBefore frame (pos + k) (placed frame pos values)) = pos + k ↔
      k = 0 ∨ ∃ p ∈ placed frame pos values, p.1 + (frame p.2).length = pos + k := by
  induction values generalizing pos k with
  | nil => simp [placed, wholeBefore, lastEnd, eq_comm]
  | cons a values ih =>
    have hpositive : 0 < (frame a).length := List.length_pos_iff.mpr (W.nonempty a)
    by_cases hwhole : (frame a).length ≤ k
    · obtain ⟨j, rfl⟩ : ∃ j, k = (frame a).length + j := ⟨k - (frame a).length, by omega⟩
      have hrest := ih (pos + (frame a).length) j
      rw [wholeBefore_cons_whole (by omega), lastEnd_cons, ← Nat.add_assoc, hrest, placed]
      have hfirst : pos + (frame a).length = pos + (frame a).length + j ↔ j = 0 := by omega
      have hzero : ¬ (frame a).length + j = 0 := by omega
      simp only [List.exists_mem_cons_iff, hfirst, hzero, false_or]
    · rw [wholeBefore_cons_cut (by omega)]
      constructor
      · intro hlast
        have hpos : pos = pos + k := hlast
        omega
      · rintro (rfl | ⟨p, hp, hend⟩)
        · rfl
        · rcases List.mem_cons.mp hp with rfl | hp
          · simp only at hend
            omega
          · have hle := le_of_mem_placed hp
            omega

theorem lastEnd_wholeBefore_le {pos cut : ℕ} {values : List (ℕ × α)} (h : pos ≤ cut) :
    lastEnd frame pos (wholeBefore frame cut values) ≤ cut := by
  rw [lastEnd]
  cases hlast : (wholeBefore frame cut values).getLast? with
  | none => exact h
  | some p =>
    have hmem : p ∈ wholeBefore frame cut values := List.mem_of_getLast? hlast
    simpa using (List.mem_filter.mp hmem).2

end Written
