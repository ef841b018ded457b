import DeadReckoning.Gcode.Lines

/-! The messages of the API socket, taken from a stream of bytes that arrives in chunks. -/
namespace DeadReckoning.Klipper

open Gcode (offsetMax saturatingAdd)

section Splitter

/-- The byte that ends a frame. -/
def etx : UInt8 := 0x03

inductive FrameEvent where
  | frame (body : Bytes)
  | oversized (discardedLen : ℕ)
  deriving DecidableEq

/-- A frame that is being received: its bytes, or their number once there are too many. -/
structure FrameSplitter where
  buf : Bytes
  maxFrameLen : ℕ
  discarding : Bool
  discardedLen : ℕ

/-- The sum is above the cap. -/
def exceeds (a b cap : ℕ) : Bool := cap < saturatingAdd a b

namespace FrameSplitter

def withMaxFrameLen (maxFrameLen : ℕ) : FrameSplitter := ⟨[], maxFrameLen, false, 0⟩

def pendingLen (s : FrameSplitter) : ℕ := s.buf.length

/-- The bytes `head` complete a frame at a terminator. -/
def completeFrame (s : FrameSplitter) (head : Bytes) : FrameSplitter × List FrameEvent :=
  if s.discarding then
    ({ s with discarding := false, discardedLen := 0 },
      [.oversized (saturatingAdd s.discardedLen head.length)])
  else if exceeds s.buf.length head.length s.maxFrameLen then
    ({ s with buf := [] }, [.oversized (saturatingAdd s.buf.length head.length)])
  else if s.buf = [] ∧ head = [] then (s, [])
  else ({ s with buf := [] }, [.frame (s.buf ++ head)])

/-- The bytes behind the last terminator are kept, or only counted. -/
def keepRest (s : FrameSplitter) (rest : Bytes) : FrameSplitter :=
  if s.discarding then { s with discardedLen := saturatingAdd s.discardedLen rest.length }
  else if exceeds s.buf.length rest.length s.maxFrameLen then
    { s with
      buf := []
      discarding := true
      discardedLen := saturatingAdd s.buf.length rest.length }
  else { s with buf := s.buf ++ rest }

/-- The loop over a chunk: `head` was read since the last terminator in it. -/
def feedFrom : FrameSplitter → Bytes → List FrameEvent → Bytes → FrameSplitter × List FrameEvent
  | s, head, events, [] => (s.keepRest head, events)
  | s, head, events, b :: rest =>
      if b = etx then
        feedFrom (s.completeFrame head).1 [] (events ++ (s.completeFrame head).2) rest
      else feedFrom s (head ++ [b]) events rest

def feed (s : FrameSplitter) (chunk : Bytes) : FrameSplitter × List FrameEvent :=
  feedFrom s [] [] chunk

/-- The chunks one after another; the events of all of them. -/
def feedAll : FrameSplitter → List Bytes → FrameSplitter × List FrameEvent
  | s, [] => (s, [])
  | s, chunk :: chunks =>
      ((feedAll (s.feed chunk).1 chunks).1, (s.feed chunk).2 ++ (feedAll (s.feed chunk).1 chunks).2)

end FrameSplitter

end Splitter

section Reference

/-- What becomes of a body, when its length is counted in this way. -/
def bodyEvent (count : ℕ → ℕ) (cap : ℕ) (body : Bytes) : FrameEvent :=
  if count body.length ≤ cap then .frame body else .oversized (count body.length)

/-- The frames of a whole stream: the non-empty bodies in front of its terminators. -/
def splitFrames (count : ℕ → ℕ) (cap : ℕ) (stream : Bytes) : List FrameEvent :=
  ((stream.splitOn etx).dropLast.filter fun body => body ≠ []).map (bodyEvent count cap)

/-- A length as the splitter counts it, in 64 bits. -/
def saturated (n : ℕ) : ℕ := min n offsetMax

variable {count : ℕ → ℕ} {cap : ℕ} {body tail : Bytes}

theorem splitFrames_tail (hfree : etx ∉ tail) : splitFrames count cap tail = [] := by
  unfold splitFrames
  rw [List.splitOn_eq_singleton hfree]
  rfl

theorem splitFrames_frame (hfree : etx ∉ body) (rest : Bytes) :
    splitFrames count cap (body ++ etx :: rest) =
      (if body = [] then [] else [bodyEvent count cap body]) ++ splitFrames count cap rest := by
  unfold splitFrames
  rw [List.splitOn_append_cons_self_of_not_mem hfree,
    List.dropLast_cons_of_ne_nil (List.splitOn_ne_nil _ _), List.filter_cons]
  by_cases hempty : body = []
  · simp [hempty]
  · simp [hempty]

end Reference

section Holding

variable (cap : ℕ)

/-- The splitter that has received these bytes of a frame. -/
def holding (tail : Bytes) : FrameSplitter :=
  if saturated tail.length ≤ cap then ⟨tail, cap, false, 0⟩
  else ⟨[], cap, true, saturated tail.length⟩

theorem holding_nil : holding cap [] = .withMaxFrameLen cap := by
  unfold holding saturated
  simp [FrameSplitter.withMaxFrameLen]

theorem saturatingAdd_eq (a b : ℕ) : saturatingAdd a b = saturated (a + b) := rfl

/-- A saturated count goes on as the exact one. -/
theorem saturatingAdd_saturated (a b : ℕ) : saturatingAdd (saturated a) b = saturated (a + b) := by
  unfold saturatingAdd saturated
  omega

theorem saturated_le (a b : ℕ) : saturated a ≤ saturated (a + b) := by
  unfold saturated
  omega

theorem saturated_of_le {n : ℕ} (h : n ≤ offsetMax) : saturated n = n := min_eq_left h

/-- More bytes of the frame. -/
theorem keepRest_holding (tail rest : Bytes) :
    (holding cap tail).keepRest rest = holding cap (tail ++ rest) := by
  have hgrow := saturated_le tail.length rest.length
  unfold holding
  rw [List.length_append]
  by_cases hfits : saturated tail.length ≤ cap
  · rw [if_pos hfits]
    unfold FrameSplitter.keepRest exceeds
    dsimp only
    rw [if_neg Bool.false_ne_true, saturatingAdd_eq]
    by_cases hmore : saturated (tail.length + rest.length) ≤ cap
    · rw [if_pos hmore, if_neg (by simpa using hmore)]
    · rw [if_neg hmore, if_pos (by simpa using hmore)]
  · have hmore : ¬ saturated (tail.length + rest.length) ≤ cap := fun h => hfits (hgrow.trans h)
    rw [if_neg hfits, if_neg hmore]
    unfold FrameSplitter.keepRest
    dsimp only
    rw [if_pos rfl, saturatingAdd_saturated]

/-- The terminator of the frame. -/
theorem completeFrame_holding (tail head : Bytes) :
    (holding cap tail).completeFrame head = (holding cap [],
      if tail ++ head = [] then [] else [bodyEvent saturated cap (tail ++ head)]) := by
  have hgrow := saturated_le tail.length head.length
  rw [holding_nil]
  unfold holding bodyEvent
  rw [List.length_append]
  by_cases hfits : saturated tail.length ≤ cap
  · rw [if_pos hfits]
    unfold FrameSplitter.completeFrame exceeds
    dsimp only
    rw [if_neg Bool.false_ne_true, saturatingAdd_eq]
    by_cases hmore : saturated (tail.length + head.length) ≤ cap
    · rw [if_pos hmore, if_neg (by simpa using hmore)]
      by_cases hempty : tail ++ head = []
      · obtain ⟨rfl, rfl⟩ := List.append_eq_nil_iff.mp hempty
        rfl
      · rw [if_neg hempty, if_neg fun h => hempty (List.append_eq_nil_iff.mpr h)]
        rfl
    · have hne : tail ++ head ≠ [] := by
        intro hempty
        obtain ⟨rfl, rfl⟩ := List.append_eq_nil_iff.mp hempty
        exact hmore (Nat.zero_le _)
      rw [if_neg hmore, if_pos (by simpa using hmore), if_neg hne]
      rfl
  · have hmore : ¬ saturated (tail.length + head.length) ≤ cap := fun h => hfits (hgrow.trans h)
    have hne : tail ++ head ≠ [] := by
      intro hempty
      obtain ⟨rfl, rfl⟩ := List.append_eq_nil_iff.mp hempty
      exact hfits (Nat.zero_le _)
    rw [if_neg hfits, if_neg hmore, if_neg hne]
    unfold FrameSplitter.completeFrame
    dsimp only
    rw [if_pos rfl, saturatingAdd_saturated]
    rfl

/-- A chunk takes the splitter from the unfinished frame in front of it to the one at its end. -/
theorem feedFrom_holding (tail head : Bytes) (events : List FrameEvent) (chunk : Bytes)
    (hfree : etx ∉ tail ++ head) :
    ∃ tail' new, etx ∉ tail' ∧ tail'.length ≤ (tail ++ head ++ chunk).length ∧
      FrameSplitter.feedFrom (holding cap tail) head events chunk =
        (holding cap tail', events ++ new) ∧
      ∀ more, splitFrames saturated cap (tail ++ head ++ chunk ++ more) =
        new ++ splitFrames saturated cap (tail' ++ more) := by
  induction chunk generalizing tail head events with
  | nil =>
    refine ⟨tail ++ head, [], hfree, by simp, ?_, fun more => by simp⟩
    rw [FrameSplitter.feedFrom, keepRest_holding, List.append_nil]
  | cons b rest ih =>
    rw [FrameSplitter.feedFrom]
    by_cases hb : b = etx
    · have hcomplete := completeFrame_holding cap tail head
      have hframe (rest : Bytes) : splitFrames saturated cap (tail ++ head ++ etx :: rest) = _ :=
        splitFrames_frame hfree rest
      set event := if tail ++ head = [] then [] else [bodyEvent saturated cap (tail ++ head)]
      rw [if_pos hb, hcomplete]
      obtain ⟨tail', new, hfree', hlength, hfeed, hsplit⟩ := ih [] [] (events ++ event) (by simp)
      refine ⟨tail', event ++ new, hfree', ?_, ?_, ?_⟩
      · simp only [List.nil_append] at hlength
        simp only [List.length_append, List.length_cons]
        omega
      · rw [hfeed, List.append_assoc]
      · intro more
        have hrest := hsplit more
        rw [List.nil_append, List.nil_append] at hrest
        rw [hb, List.append_assoc _ _ more, List.cons_append, hframe, hrest, List.append_assoc]
    · have hmore : etx ∉ tail ++ (head ++ [b]) := by
        rw [← List.append_assoc, List.mem_append, List.mem_singleton]
        rintro (hmem | rfl)
        · exact hfree hmem
        · exact hb rfl
      obtain ⟨tail', new, hfree', hlength, hfeed, hsplit⟩ := ih tail (head ++ [b]) events hmore
      rw [if_neg hb]
      refine ⟨tail', new, hfree', by simpa using hlength, hfeed, fun more => ?_⟩
      rw [← hsplit more]
      simp

/-- So do the chunks of a stream. -/
theorem feedAll_holding (tail : Bytes) (hfree : etx ∉ tail) (chunks : List Bytes) :
    ∃ tail', tail'.length ≤ (tail ++ chunks.flatten).length ∧
      ((holding cap tail).feedAll chunks).1 = holding cap tail' ∧
      ((holding cap tail).feedAll chunks).2 =
        splitFrames saturated cap (tail ++ chunks.flatten) := by
  induction chunks generalizing tail with
  | nil =>
    refine ⟨tail, by simp, rfl, ?_⟩
    rw [List.flatten_nil, List.append_nil, splitFrames_tail hfree]
    rfl
  | cons chunk chunks ih =>
    obtain ⟨between, new, hbetween, hshort, hfeed, hsplit⟩ :=
      feedFrom_holding cap tail [] [] chunk (by simpa using hfree)
    have hfed : (holding cap tail).feed chunk = (holding cap between, new) := hfeed
    obtain ⟨tail', hlength, hstate, hevents⟩ := ih between hbetween
    have hwhole := hsplit chunks.flatten
    refine ⟨tail', ?_, ?_, ?_⟩
    · simp only [List.length_append, List.length_nil, List.flatten_cons] at hlength hshort ⊢
      omega
    · rw [FrameSplitter.feedAll, hfed]
      exact hstate
    · rw [FrameSplitter.feedAll, hfed, hevents, ← hwhole]
      simp

end Holding

section Stream

variable {cap : ℕ}

/-- The buffer of the splitter is what fits of the unfinished frame. -/
theorem pendingLen_holding (cap : ℕ) (tail : Bytes) :
    saturated (holding cap tail).pendingLen ≤ cap ∧ (holding cap tail).pendingLen ≤ tail.length := by
  unfold holding FrameSplitter.pendingLen
  split
  · rename_i hfits
    exact ⟨hfits, le_rfl⟩
  · exact ⟨Nat.zero_le _, Nat.zero_le _⟩

/-- A body is not longer than its stream. -/
theorem length_le_of_mem_splitOn {stream body : Bytes} (h : body ∈ stream.splitOn etx) :
    body.length ≤ stream.length := by
  induction stream generalizing body with
  | nil => simp_all
  | cons b stream ih =>
    rw [List.splitOn_cons_eq_if_modifyHead] at h
    obtain ⟨first, rest, hsplit⟩ := List.exists_cons_of_ne_nil (List.splitOn_ne_nil etx stream)
    rw [hsplit] at h ih
    split at h
    · rcases List.mem_cons.mp h with rfl | h
      · exact Nat.zero_le _
      · exact (ih h).trans (Nat.le_succ _)
    · rcases List.mem_cons.mp h with rfl | h
      · exact Nat.succ_le_succ (ih List.mem_cons_self)
      · exact (ih (List.mem_cons_of_mem _ h)).trans (Nat.le_succ _)

/-- A stream that 64 bits can count is counted exactly. -/
theorem splitFrames_exact {stream : Bytes} (hlength : stream.length ≤ offsetMax) :
    splitFrames saturated cap stream = splitFrames id cap stream := by
  unfold splitFrames
  apply List.map_congr_left
  intro body hbody
  have hmem := List.mem_of_mem_dropLast (List.mem_of_mem_filter hbody)
  unfold bodyEvent
  rw [saturated_of_le ((length_le_of_mem_splitOn hmem).trans hlength)]
  rfl

theorem feedAll_events (cap : ℕ) (chunks : List Bytes) :
    ((FrameSplitter.withMaxFrameLen cap).feedAll chunks).2 =
        splitFrames saturated cap chunks.flatten ∧
      saturated ((FrameSplitter.withMaxFrameLen cap).feedAll chunks).1.pendingLen ≤ cap ∧
      ((FrameSplitter.withMaxFrameLen cap).feedAll chunks).1.pendingLen ≤
        chunks.flatten.length := by
  obtain ⟨tail, hlength, hstate, hevents⟩ := feedAll_holding cap [] (by simp) chunks
  rw [holding_nil] at hstate hevents
  rw [hstate]
  obtain ⟨hcap, htail⟩ := pendingLen_holding cap tail
  exact ⟨hevents, hcap, htail.trans hlength⟩

/-- However the stream is cut into chunks, the splitter gives the frames of the whole, with lengths
that are counted in 64 bits, and keeps no more than the cap. -/
theorem feedAll_eq_splitFrames (cap : ℕ) (chunks : List Bytes) :
    ((FrameSplitter.withMaxFrameLen cap).feedAll chunks).2 =
        splitFrames saturated cap chunks.flatten ∧
      saturated ((FrameSplitter.withMaxFrameLen cap).feedAll chunks).1.pendingLen ≤ cap ∧
      (chunks.flatten.length ≤ offsetMax →
        ((FrameSplitter.withMaxFrameLen cap).feedAll chunks).2 =
            splitFrames id cap chunks.flatten ∧
          ((FrameSplitter.withMaxFrameLen cap).feedAll chunks).1.pendingLen ≤ cap) := by
  obtain ⟨hevents, hpending, hstream⟩ := feedAll_events cap chunks
  refine ⟨hevents, hpending, fun hlength => ⟨hevents.trans (splitFrames_exact hlength), ?_⟩⟩
  rwa [saturated_of_le (hstream.trans hlength)] at hpending

/-- A body that 64 bits cannot count. -/
theorem oversized_is_saturated : ¬ ∀ (cap : ℕ) (chunks : List Bytes),
    ((FrameSplitter.withMaxFrameLen cap).feedAll chunks).2 =
      splitFrames id cap chunks.flatten := by
  intro h
  -- The length stays a variable, so that the body is never built.
  have hlengths : ∀ n, 0 < n → saturated n = n := by
    intro n hn
    have hfree : etx ∉ List.replicate n (0 : UInt8) := by simp [List.mem_replicate, etx]
    have hne : List.replicate n (0 : UInt8) ≠ [] := by simpa using hn.ne'
    have hrun := (feedAll_events 0 [List.replicate n 0 ++ [etx]]).1
    have hexact := h 0 [List.replicate n 0 ++ [etx]]
    rw [hrun, List.flatten_singleton, splitFrames_frame hfree, splitFrames_frame hfree, if_neg hne,
      if_neg hne] at hexact
    have hevent := (List.cons.inj (List.append_inj_left' hexact rfl)).1
    unfold bodyEvent at hevent
    rw [List.length_replicate] at hevent
    have hsaturated : ¬ saturated n ≤ 0 := by
      unfold saturated offsetMax
      omega
    rw [if_neg hsaturated, if_neg (show ¬ id n ≤ 0 from not_le.mpr hn)] at hevent
    exact FrameEvent.oversized.inj hevent
  have hlarge := hlengths (2 ^ 64) (by decide)
  exact absurd hlarge (by decide)

end Stream

end DeadReckoning.Klipper
