import DeadReckoning.Recording.Service

/-! What the service of the journal has made durable, at every point of its run. -/
namespace DeadReckoning.Recording

open Wal

namespace Disk

variable {d : Disk} {index other : ℕ}

theorem after_append (calls : List Syscall) (c : Syscall) :
    d.after (calls ++ [c]) = (d.after calls).call c := by
  unfold Disk.after
  rw [List.foldl_append]
  rfl

theorem modify_self (d : Disk) (index : ℕ) (f : SegmentFile → SegmentFile) :
    d.modify index f index = (d index).map f := Function.update_self _ _ _

theorem modify_of_ne (f : SegmentFile → SegmentFile) (h : other ≠ index) :
    d.modify index f other = d other := Function.update_of_ne h _ _

/-- A durable segment stays durable when another one changes. -/
theorem Durable.of_eq {d' : Disk} (h : d.Durable index) (heq : d' index = d index) :
    d'.Durable index := by
  obtain ⟨file, hfile, hdurable⟩ := h
  exact ⟨file, heq.trans hfile, hdurable⟩

theorem Durable.fsyncDir (h : d.Durable index) : (d.call .fsyncDir).Durable index := by
  obtain ⟨file, hfile, -, hsynced⟩ := h
  exact ⟨{ file with named := true }, congrArg (Option.map _) hfile, rfl, hsynced⟩

end Disk

section Invariant

variable {codec : Codec} {earlier : Disk} {first : ℕ} {s : Service} {clocks : Clocks}

/-- A record may be appended to the segment: its header and its name are durable, and so is
everything in the segments before it. -/
def Ready (first : ℕ) (d : Disk) (index : ℕ) : Prop :=
  (∃ file, d index = some file ∧ file.named = true ∧ segmentHeaderLen ≤ file.synced) ∧
    ∀ j, first ≤ j → j < index → d.Durable j

/-- Whenever a record was appended, its segment was ready for it. -/
def Ordered (earlier : Disk) (first : ℕ) (calls : List Syscall) : Prop :=
  ∀ before index frame after, calls = before ++ .append index frame :: after →
    Ready first (earlier.after before) index

theorem ordered_snoc {calls : List Syscall} {c : Syscall} (h : Ordered earlier first calls)
    (hc : ∀ index frame, c = .append index frame → Ready first (earlier.after calls) index) :
    Ordered earlier first (calls ++ [c]) := by
  intro before index frame after hsplit
  rcases List.eq_nil_or_concat after with rfl | ⟨after', last, rfl⟩
  · obtain ⟨rfl, heq⟩ := List.append_inj' hsplit rfl
    exact hc index frame (List.singleton_inj.mp heq)
  · have hsplit' : calls ++ [c] = (before ++ .append index frame :: after') ++ [last] := by
      simpa using hsplit
    obtain ⟨rfl, -⟩ := List.append_inj' hsplit' rfl
    exact h before index frame after' rfl

/-- What the segments hold, from the first one to the current one. -/
structure Holds (codec : Codec) (first : ℕ) (d : Disk) (current : ℕ) (appended : List WalRecord)
    (segments : ℕ → List WalRecord) : Prop where
  content : ∀ j, first ≤ j → j ≤ current → ∃ file wallNs monoNs, d j = some file ∧
    file.written = (SegmentHeader.new wallNs monoNs).encode ++ (segments j).flatMap (frame codec) ∧
    ∀ record ∈ segments j, Accepted codec record
  appended : appended = (List.range' first (current + 1 - first)).flatMap segments

/-- Everything but the deadline. -/
structure Consistent (codec : Codec) (earlier : Disk) (first : ℕ) (s : Service) : Prop where
  first_le : first ≤ s.segIndex
  current : ∃ file, s.disk earlier s.segIndex = some file ∧ file.named = true ∧
    segmentHeaderLen ≤ file.synced ∧ file.written = s.writer.inner ∧
    (s.dirty = false → file.synced = file.written.length)
  older : ∀ j, first ≤ j → j < s.segIndex → (s.disk earlier).Durable j
  ordered : Ordered earlier first s.calls
  holds : ∃ segments, Holds codec first (s.disk earlier) s.segIndex s.appended segments

/-- The invariant of the service. -/
structure Kept (codec : Codec) (earlier : Disk) (first : ℕ) (s : Service) : Prop
    extends Consistent codec earlier first s where
  deadline : s.dirty = true → s.batchDeadline.isSome = true

namespace Service

@[simp] theorem disk_call (s : Service) (c : Syscall) :
    (s.call c).disk earlier = (s.disk earlier).call c := Disk.after_append _ _

end Service

/-- The state counts only through what the disk and the writer hold. -/
theorem Consistent.congr {t : Service} (h : Consistent codec earlier first s)
    (hcalls : t.calls = s.calls) (hwriter : t.writer = s.writer) (hindex : t.segIndex = s.segIndex)
    (hdirty : t.dirty = s.dirty) (happended : t.appended = s.appended) :
    Consistent codec earlier first t := by
  have hdisk : t.disk earlier = s.disk earlier := by
    unfold Service.disk
    rw [hcalls]
  exact
    { first_le := hindex ▸ h.first_le
      current := by
        rw [hdisk, hindex, hwriter, hdirty]
        exact h.current
      older := by
        rw [hdisk, hindex]
        exact h.older
      ordered := hcalls ▸ h.ordered
      holds := by
        rw [hdisk, hindex, happended]
        exact h.holds }

/-- After a sync the current segment is durable. -/
theorem Consistent.sync (h : Consistent codec earlier first s) :
    Consistent codec earlier first s.syncSegment ∧ s.syncSegment.dirty = false ∧
      s.syncSegment.segIndex = s.segIndex ∧ s.syncSegment.appended = s.appended ∧
      (s.syncSegment.disk earlier).Durable s.segIndex := by
  obtain ⟨file, hfile, hnamed, hheader, hwritten, hclean⟩ := h.current
  cases hdirty : s.dirty with
  | false =>
    have heq : s.syncSegment = { s with batchDeadline := none } := by
      simp [Service.syncSegment, hdirty]
    rw [heq]
    exact ⟨h.congr rfl rfl rfl rfl rfl, hdirty, rfl, rfl, file, hfile, hnamed, hclean hdirty⟩
  | true =>
    have heq : s.syncSegment =
        { s.call (.fdatasync s.segIndex) with dirty := false, batchDeadline := none } := by
      unfold Service.syncSegment
      rw [hdirty]
      rfl
    have hdisk : s.syncSegment.disk earlier = (s.disk earlier).call (.fdatasync s.segIndex) := by
      rw [heq]
      exact Disk.after_append _ _
    have hself : s.syncSegment.disk earlier s.segIndex =
        some { file with synced := file.written.length } := by
      rw [hdisk]
      exact (Disk.modify_self _ _ _).trans (congrArg (Option.map _) hfile)
    have hothers : ∀ j, j ≠ s.segIndex → s.syncSegment.disk earlier j = s.disk earlier j := by
      intro j hj
      rw [hdisk]
      exact Disk.modify_of_ne _ hj
    have hlength : segmentHeaderLen ≤ file.written.length := by
      obtain ⟨segments, hholds⟩ := h.holds
      obtain ⟨file', wallNs, monoNs, hfile', hcontent, -⟩ :=
        hholds.content s.segIndex h.first_le le_rfl
      obtain rfl : file = file' := Option.some.inj (hfile.symm.trans hfile')
      rw [hcontent, List.length_append, SegmentHeader.length_encode]
      exact Nat.le_add_right _ _
    refine ⟨?_, by rw [heq], by rw [heq]; rfl, by rw [heq]; rfl,
      { file with synced := file.written.length }, hself, hnamed, rfl⟩
    have hindex : s.syncSegment.segIndex = s.segIndex := by rw [heq]; rfl
    exact
      { first_le := hindex ▸ h.first_le
        current := by
          rw [hindex]
          refine ⟨_, hself, hnamed, hlength, ?_, fun _ => rfl⟩
          rw [heq]
          exact hwritten
        older := by
          intro j hfirst hj
          rw [hindex] at hj
          exact (h.older j hfirst hj).of_eq (hothers j hj.ne)
        ordered := by
          rw [heq]
          exact ordered_snoc h.ordered fun _ _ hc => by cases hc
        holds := by
          obtain ⟨segments, hholds⟩ := h.holds
          refine ⟨segments, ?_, ?_⟩
          · intro j hfirst hj
            rw [hindex] at hj
            obtain ⟨file', wallNs, monoNs, hfile', hcontent, haccepted⟩ :=
              hholds.content j hfirst hj
            by_cases hj' : j = s.segIndex
            · subst hj'
              obtain rfl : file = file' := Option.some.inj (hfile.symm.trans hfile')
              exact ⟨_, wallNs, monoNs, hself, hcontent, haccepted⟩
            · exact ⟨file', wallNs, monoNs, (hothers j hj').trans hfile', hcontent, haccepted⟩
          · rw [hindex, heq]
            exact hholds.appended }

/-- The segments up to the current one are durable. -/
def AllDurable (earlier : Disk) (first : ℕ) (s : Service) : Prop :=
  ∀ j, first ≤ j → j ≤ s.segIndex → (s.disk earlier).Durable j

theorem Consistent.allDurable (h : Consistent codec earlier first s)
    (hcurrent : (s.disk earlier).Durable s.segIndex) : AllDurable earlier first s := by
  intro j hfirst hj
  rcases hj.lt_or_eq with hlt | rfl
  · exact h.older j hfirst hlt
  · exact hcurrent

variable (earlier) in
/-- The new segment and its name are durable, and the others only gain their names. -/
theorem disk_start (s : Service) (index : ℕ) (header : SegmentHeader) :
    ((s.createSegment index header).call .fsyncDir).disk earlier index =
        some ⟨header.encode, header.encode.length, true⟩ ∧
      ∀ j, j ≠ index → ((s.createSegment index header).call .fsyncDir).disk earlier j =
        (s.disk earlier j).map fun file => { file with named := true } := by
  unfold Service.createSegment
  simp only [Service.disk_call]
  constructor
  · simp [Disk.call, Disk.modify]
  · intro j hj
    simp [Disk.call, Disk.modify, Function.update_of_ne hj]

/-- No record is appended while a segment is created. -/
theorem ordered_start {index : ℕ} {header : SegmentHeader} (h : Ordered earlier first s.calls) :
    Ordered earlier first ((s.createSegment index header).call .fsyncDir).calls := by
  refine ordered_snoc (ordered_snoc (ordered_snoc (ordered_snoc h ?_) ?_) ?_) ?_
  all_goals
    intro index frame hc
    cases hc

/-- A new segment holds no record. -/
theorem holds_start {segments : ℕ → List WalRecord} {d d' : Disk} {current : ℕ}
    {appended : List WalRecord} {wallNs monoNs : UInt64} (hfirst : first ≤ current)
    (h : Holds codec first d current appended segments)
    (hnext : d' (current + 1) = some ⟨(SegmentHeader.new wallNs monoNs).encode,
      (SegmentHeader.new wallNs monoNs).encode.length, true⟩)
    (hothers : ∀ j, j ≠ current + 1 → d' j = (d j).map fun file => { file with named := true }) :
    Holds codec first d' (current + 1) appended (Function.update segments (current + 1) []) where
  content := by
    intro j hj hle
    by_cases heq : j = current + 1
    · subst heq
      refine ⟨_, wallNs, monoNs, hnext, ?_, ?_⟩
      · rw [Function.update_self, List.flatMap_nil, List.append_nil]
      · rw [Function.update_self]
        simp
    · obtain ⟨file, wallNs, monoNs, hfile, hcontent, haccepted⟩ := h.content j hj (by omega)
      rw [Function.update_of_ne heq]
      exact ⟨_, wallNs, monoNs, (hothers j heq).trans (congrArg (Option.map _) hfile), hcontent,
        haccepted⟩
  appended := by
    have hlength : current + 1 + 1 - first = current + 1 - first + 1 := by omega
    have hlast : first + (current + 1 - first) = current + 1 := by omega
    rw [hlength, List.range'_1_concat, List.flatMap_append, hlast, List.flatMap_singleton,
      Function.update_self, List.append_nil, h.appended]
    apply List.flatMap_congr
    intro j hj
    have hrange := List.mem_range'_1.mp hj
    exact (Function.update_of_ne (by omega) _ _).symm

/-- The service after a rotation, once the old segment is synced. -/
def Service.rotated (s : Service) (header : SegmentHeader) : Service :=
  { (s.createSegment (s.segIndex + 1) header).call .fsyncDir with
    writer := .create header
    segIndex := s.segIndex + 1 }

theorem rotate_eq (s : Service) (clocks : Clocks) : s.rotate clocks =
    s.syncSegment.rotated (.new clocks.headerWallNs clocks.headerMonoNs) := rfl

theorem Service.rotated_dirty (s : Service) (header : SegmentHeader) :
    (s.rotated header).dirty = s.dirty := rfl

theorem Service.rotated_appended (s : Service) (header : SegmentHeader) :
    (s.rotated header).appended = s.appended := rfl

theorem disk_rotated (s : Service) (header : SegmentHeader) : (s.rotated header).disk earlier =
    ((s.createSegment (s.segIndex + 1) header).call .fsyncDir).disk earlier := rfl

theorem Consistent.rotated {wallNs monoNs : UInt64} (h : Consistent codec earlier first s)
    (hcurrent : (s.disk earlier).Durable s.segIndex) :
    Consistent codec earlier first (s.rotated (.new wallNs monoNs)) ∧
      AllDurable earlier first (s.rotated (.new wallNs monoNs)) := by
  obtain ⟨hnext, hothers⟩ :=
    disk_start earlier s (s.segIndex + 1) (.new wallNs monoNs)
  have holder : ∀ j, first ≤ j → j < s.segIndex + 1 →
      ((s.rotated (.new wallNs monoNs)).disk earlier).Durable j := by
    intro j hfirst hj
    obtain ⟨file, hfile, -, hsynced⟩ := h.allDurable hcurrent j hfirst (Nat.lt_succ_iff.mp hj)
    refine ⟨{ file with named := true }, ?_, rfl, hsynced⟩
    rw [disk_rotated, hothers j hj.ne, hfile]
    rfl
  have hconsistent : Consistent codec earlier first (s.rotated (.new wallNs monoNs)) :=
    { first_le := Nat.le_succ_of_le h.first_le
      current := by
        refine ⟨_, hnext, rfl, ?_, rfl, fun _ => rfl⟩
        rw [SegmentHeader.length_encode]
        exact le_rfl
      older := holder
      ordered := ordered_start h.ordered
      holds := by
        obtain ⟨segments, hholds⟩ := h.holds
        exact ⟨_, holds_start h.first_le hholds hnext hothers⟩ }
  exact ⟨hconsistent, hconsistent.allDurable ⟨_, hnext, rfl, rfl⟩⟩

/-- A rotation makes everything durable. -/
theorem Consistent.rotate (h : Consistent codec earlier first s) :
    Consistent codec earlier first (s.rotate clocks) ∧ (s.rotate clocks).dirty = false ∧
      (s.rotate clocks).appended = s.appended ∧ AllDurable earlier first (s.rotate clocks) := by
  obtain ⟨hsync, hclean, hindex, happended, hcurrent⟩ := h.sync
  rw [rotate_eq]
  obtain ⟨hconsistent, hdurable⟩ := hsync.rotated (hindex ▸ hcurrent)
  rw [Service.rotated_dirty, Service.rotated_appended]
  exact ⟨hconsistent, hclean, happended, hdurable⟩

/-- The record is behind the others of the current segment. -/
theorem holds_append {segments : ℕ → List WalRecord} {d : Disk} {current : ℕ}
    {appended : List WalRecord} {record : WalRecord} (hfirst : first ≤ current)
    (h : Holds codec first d current appended segments) (hrecord : Accepted codec record) :
    Holds codec first (d.call (.append current (frame codec record))) current
      (appended ++ [record]) (Function.update segments current (segments current ++ [record])) where
  content := by
    intro j hj hle
    obtain ⟨file, wallNs, monoNs, hfile, hcontent, haccepted⟩ := h.content j hj hle
    by_cases heq : j = current
    · subst heq
      refine ⟨{ file with written := file.written ++ frame codec record }, wallNs, monoNs,
        (Disk.modify_self _ _ _).trans (congrArg (Option.map _) hfile), ?_, ?_⟩
      · rw [Function.update_self, List.flatMap_append, List.flatMap_singleton, hcontent,
          List.append_assoc]
      · rw [Function.update_self]
        intro other hother
        rcases List.mem_append.mp hother with hold | hnew
        · exact haccepted other hold
        · rwa [List.mem_singleton.mp hnew]
    · rw [Function.update_of_ne heq]
      exact ⟨file, wallNs, monoNs, (Disk.modify_of_ne _ heq).trans hfile, hcontent, haccepted⟩
  appended := by
    have hlength : current + 1 - first = current - first + 1 := by omega
    have hlast : first + (current - first) = current := by omega
    have hbefore : (List.range' first (current - first)).flatMap
        (Function.update segments current (segments current ++ [record])) =
        (List.range' first (current - first)).flatMap segments := by
      apply List.flatMap_congr
      intro j hj
      have hrange := List.mem_range'_1.mp hj
      exact Function.update_of_ne (by omega) _ _
    rw [h.appended, hlength, List.range'_1_concat, List.flatMap_append, List.flatMap_append, hlast,
      List.flatMap_singleton, List.flatMap_singleton, Function.update_self, hbefore,
      List.append_assoc]

theorem Consistent.wrote {record : WalRecord} {offset : ℕ} (h : Consistent codec earlier first s)
    (hrecord : Accepted codec record) :
    Consistent codec earlier first
      (s.wrote record (frame codec record) ⟨s.writer.inner ++ frame codec record, offset⟩) := by
  obtain ⟨file, hfile, hnamed, hheader, hwritten, -⟩ := h.current
  have hready : Ready first (s.disk earlier) s.segIndex :=
    ⟨⟨file, hfile, hnamed, hheader⟩, h.older⟩
  have hdisk : (s.wrote record (frame codec record)
      ⟨s.writer.inner ++ frame codec record, offset⟩).disk earlier =
      (s.disk earlier).call (.append s.segIndex (frame codec record)) := Disk.after_append _ _
  exact
    { first_le := h.first_le
      current := by
        refine ⟨{ file with written := file.written ++ frame codec record }, ?_, hnamed, hheader,
          congrArg (· ++ frame codec record) hwritten, fun hclean => by cases hclean⟩
        rw [hdisk]
        exact (Disk.modify_self _ _ _).trans (congrArg (Option.map _) hfile)
      older := by
        intro j hfirst hj
        rw [hdisk]
        exact (h.older j hfirst hj).of_eq (Disk.modify_of_ne _ hj.ne)
      ordered := ordered_snoc h.ordered fun index bytes hc => by
        cases hc
        exact hready
      holds := by
        obtain ⟨segments, hholds⟩ := h.holds
        rw [hdisk]
        exact ⟨_, holds_append h.first_le hholds hrecord⟩ }

/-- What is true once the policy was followed: an immediate record is durable, and a batched one
waits for a deadline. -/
structure Settled (codec : Codec) (earlier : Disk) (first : ℕ) (sync : SyncPolicy)
    (appended : List WalRecord) (s : Service) : Prop extends Kept codec earlier first s where
  appended_eq : s.appended = appended
  immediate : sync = .immediate → AllDurable earlier first s

theorem Consistent.settle {now : ℕ} {sync : SyncPolicy} (h : Consistent codec earlier first s) :
    Settled codec earlier first sync s.appended (s.settle now sync) := by
  cases sync with
  | immediate =>
    obtain ⟨hsync, hclean, hindex, happended, hcurrent⟩ := h.sync
    have hdeadline : s.syncSegment.dirty = true → s.syncSegment.batchDeadline.isSome = true := by
      rw [hclean]
      intro hdirty
      cases hdirty
    exact ⟨⟨hsync, hdeadline⟩, happended, fun _ => hsync.allDurable (hindex ▸ hcurrent)⟩
  | batched =>
    unfold Service.settle
    dsimp only
    split
    · exact ⟨⟨h.congr rfl rfl rfl rfl rfl, fun _ => rfl⟩, rfl, fun hsync => by cases hsync⟩
    · rename_i hsome
      refine ⟨⟨h, fun _ => ?_⟩, rfl, fun hsync => by cases hsync⟩
      cases hnone : s.batchDeadline with
      | none => exact (hsome (congrArg Option.isNone hnone)).elim
      | some deadline => rfl

/-- A record that the writer refuses changes nothing. -/
theorem append_refused {now : ℕ} {record : WalRecord} {sync : SyncPolicy}
    (h : ¬ Accepted codec record) : s.append codec clocks now record sync = s := by
  unfold Service.append
  split
  · rfl
  · rename_i start writer happend
    exact (h (append_eq_ok.mp happend).1).elim

theorem append_accepted {now : ℕ} {record : WalRecord} {sync : SyncPolicy}
    (h : Consistent codec earlier first s) (hrecord : Accepted codec record) :
    Settled codec earlier first sync (s.appended ++ [record])
      (s.append codec clocks now record sync) := by
  set writer : WalWriter := ⟨s.writer.inner ++ frame codec record,
    s.writer.offset + (frame codec record).length⟩ with hwriter
  have happend : s.writer.append codec record = .ok (s.writer.offset, writer) :=
    append_eq_ok.mpr ⟨hrecord, rfl, rfl⟩
  have hdrop : writer.inner.drop s.writer.inner.length = frame codec record := List.drop_left
  have hsettled : Settled codec earlier first sync (s.appended ++ [record])
      ((s.wrote record (frame codec record) writer).settle now sync) :=
    (h.wrote hrecord).settle
  unfold Service.append
  rw [happend]
  dsimp only
  rw [hdrop]
  split
  · obtain ⟨hrotated, hclean, happended, hdurable⟩ := hsettled.toConsistent.rotate
    refine ⟨⟨hrotated, fun hdirty => ?_⟩, happended.trans hsettled.appended_eq, fun _ => hdurable⟩
    rw [hclean] at hdirty
    cases hdirty
  · exact hsettled

theorem Kept.append {now : ℕ} {record : WalRecord} {sync : SyncPolicy}
    (h : Kept codec earlier first s) :
    Kept codec earlier first (s.append codec clocks now record sync) := by
  by_cases hrecord : Accepted codec record
  · exact (append_accepted h.toConsistent hrecord).toKept
  · rwa [append_refused hrecord]

end Invariant

section Run

variable {codec : Codec} {earlier : Disk} {first : ℕ} {s : Service} {clocks : Clocks}

theorem Kept.congr {t : Service} (h : Kept codec earlier first s) (hcalls : t.calls = s.calls)
    (hwriter : t.writer = s.writer) (hindex : t.segIndex = s.segIndex) (hdirty : t.dirty = s.dirty)
    (happended : t.appended = s.appended) (hdeadline : t.batchDeadline = s.batchDeadline) :
    Kept codec earlier first t where
  toConsistent := h.toConsistent.congr hcalls hwriter hindex hdirty happended
  deadline := by
    rw [hdirty, hdeadline]
    exact h.deadline

variable (clocks) in
/-- The slot of a beat is in a file of its own. -/
theorem Kept.writeHeartbeatSlot (h : Kept codec earlier first s) :
    Kept codec earlier first (s.writeHeartbeatSlot clocks).2 := by
  unfold Service.writeHeartbeatSlot
  split
  · exact h
  · exact h.congr rfl rfl rfl rfl rfl rfl

theorem Kept.heartbeatTick (h : Kept codec earlier first s) :
    Kept codec earlier first (s.heartbeatTick codec clocks) := by
  have hslot := h.writeHeartbeatSlot clocks
  unfold Service.heartbeatTick
  split
  · exact h
  · split
    · rename_i heq
      rwa [heq] at hslot
    · rename_i heq
      rw [heq] at hslot
      split
      · exact hslot.append.congr rfl rfl rfl rfl rfl rfl
      · exact hslot

theorem Kept.handle {cmd : WalCmd} (h : Kept codec earlier first s) :
    Kept codec earlier first (s.handle codec clocks cmd) := by
  cases cmd with
  | append record sync =>
    have happend : Kept codec earlier first (s.append codec clocks clocks.appendAt record sync) :=
      h.append
    unfold Service.handle
    dsimp only
    split
    · exact (happend.writeHeartbeatSlot clocks).congr rfl rfl rfl rfl rfl rfl
    · exact happend
  | heartbeat data => exact h.congr rfl rfl rfl rfl rfl rfl
  | receiveSeq monoNs widened => exact h
  | shutdown => exact h

theorem Kept.sync (h : Kept codec earlier first s) : Kept codec earlier first s.syncSegment := by
  obtain ⟨hsync, hclean, -⟩ := h.toConsistent.sync
  refine ⟨hsync, fun hdirty => ?_⟩
  rw [hclean] at hdirty
  cases hdirty

theorem Kept.batch {now : ℕ} (h : Kept codec earlier first s) : Kept codec earlier first
    (if s.batchDeadline.any fun deadline => deadline ≤ now then s.syncSegment else s) := by
  split
  · exact h.sync
  · exact h

theorem Kept.tick {now next : ℕ} (h : Kept codec earlier first s) : Kept codec earlier first
    (if s.nextHeartbeat ≤ now then { s.heartbeatTick codec clocks with nextHeartbeat := next }
      else s) := by
  split
  · exact h.heartbeatTick.congr rfl rfl rfl rfl rfl rfl
  · exact h

theorem Kept.turn {received : Option WalCmd} (h : Kept codec earlier first s) :
    Kept codec earlier first (s.turn codec received clocks) := by
  cases received with
  | some cmd => exact h.handle.batch.tick
  | none => exact h.batch.tick

theorem Kept.run {turns : List (Option WalCmd × Clocks)} (h : Kept codec earlier first s) :
    Kept codec earlier first (s.run codec turns) := by
  induction turns generalizing s with
  | nil => exact h
  | cons t turns ih =>
    obtain ⟨received, clocks⟩ := t
    unfold Service.run
    split
    · exact h.sync
    · exact ih h.turn

theorem kept_init {cfg : WalSvcCfg} {heartbeatFile : HeartbeatFile} {now : ℕ} :
    Kept codec earlier first (Service.init cfg first heartbeatFile now clocks) := by
  set header := SegmentHeader.new clocks.headerWallNs clocks.headerMonoNs with hheader
  set s : Service :=
    { cfg := cfg
      writer := .create header
      segIndex := first
      hbSeq := resumeSequence heartbeatFile.bytes
      hbData := none
      lastWalHbSeq := none
      dirty := false
      batchDeadline := none
      nextHeartbeat := now + cfg.heartbeatPeriod
      powerFailingSeen := false
      heartbeatFile := heartbeatFile
      calls := []
      appended := [] } with hs
  have hinit : Service.init cfg first heartbeatFile now clocks =
      (s.createSegment first header).call .fsyncDir := rfl
  obtain ⟨hfirst, -⟩ := disk_start earlier s first header
  rw [hinit]
  exact
    { first_le := le_rfl
      current := ⟨_, hfirst, rfl, (SegmentHeader.length_encode header).ge, rfl, fun _ => rfl⟩
      older := fun j hle hlt => (Nat.not_lt_of_le hle hlt).elim
      ordered := by
        refine ordered_start ?_
        intro before index frame after hsplit
        cases before <;> cases hsplit
      holds := by
        refine ⟨fun _ => [], ?_, ?_⟩
        · intro j hj hle
          obtain rfl : first = j := Nat.le_antisymm hj hle
          exact ⟨_, _, _, hfirst, (List.append_nil _).symm, by simp⟩
        · exact (List.flatMap_eq_nil_iff.mpr fun _ _ => rfl).symm
      deadline := fun hdirty => by cases hdirty }

/-- The records of a segment, as a scan of what was written to it gives them. -/
def recordsIn (codec : Codec) (d : Disk) (index : ℕ) : List WalRecord :=
  ((d index).map fun file => (scan codec file.written).records.map Prod.snd).getD []

/-- What is promised of the journal at every point of a run. -/
structure Durability (codec : Codec) (earlier : Disk) (first : ℕ) (s : Service) : Prop where
  clean : s.dirty = false → (s.disk earlier).Durable s.segIndex
  deadline : s.dirty = true → s.batchDeadline.isSome = true
  older : ∀ j, first ≤ j → j < s.segIndex → (s.disk earlier).Durable j
  ordered : Ordered earlier first s.calls
  immediate : ∀ clocks record, Accepted codec record →
    (s.handle codec clocks (.append record .immediate)).appended = s.appended ++ [record] ∧
      AllDurable earlier first (s.handle codec clocks (.append record .immediate))
  records : (List.range' first (s.segIndex + 1 - first)).flatMap
    (recordsIn codec (s.disk earlier)) = s.appended

/-- A segment with whole frames scans as its records. -/
theorem recordsIn_eq (hcodec : codec.RoundTrips) {d : Disk} {index : ℕ} {file : SegmentFile}
    {wallNs monoNs : UInt64} {records : List WalRecord} (hfile : d index = some file)
    (hcontent : file.written = (SegmentHeader.new wallNs monoNs).encode ++
      records.flatMap (frame codec))
    (haccepted : ∀ record ∈ records, Accepted codec record) :
    recordsIn codec d index = records := by
  have hdecode := SegmentHeader.decode_encode (.new wallNs monoNs) rfl
    (records.flatMap (frame codec))
  have hdrop : file.written.drop segmentHeaderLen = records.flatMap (frame codec) := by
    rw [hcontent]
    exact List.drop_left' (SegmentHeader.length_encode _)
  obtain ⟨stop, hscans⟩ := (frameWriter hcodec).scans haccepted segmentHeaderLen
  rw [← hcontent] at hdecode
  rw [← hdrop] at hscans
  unfold recordsIn
  rw [hfile, Option.map_some, Option.getD_some, scan_of_scans hdecode hscans]
  exact placed_map_snd segmentHeaderLen records

theorem Kept.durability (hcodec : codec.RoundTrips) (h : Kept codec earlier first s) :
    Durability codec earlier first s where
  clean := by
    intro hclean
    obtain ⟨file, hfile, hnamed, -, -, hsynced⟩ := h.current
    exact ⟨file, hfile, hnamed, hsynced hclean⟩
  deadline := h.deadline
  older := h.older
  ordered := h.ordered
  immediate := by
    intro clocks record hrecord
    have hsettled : Settled codec earlier first .immediate (s.appended ++ [record])
        (s.append codec clocks clocks.appendAt record .immediate) :=
      append_accepted h.toConsistent hrecord
    unfold Service.handle
    dsimp only
    -- The beat at the edge goes to its own file.
    have hslot : ∀ t : Service, (t.writeHeartbeatSlot clocks).2.appended = t.appended ∧
        (t.writeHeartbeatSlot clocks).2.segIndex = t.segIndex ∧
        (t.writeHeartbeatSlot clocks).2.disk earlier = t.disk earlier := by
      intro t
      unfold Service.writeHeartbeatSlot
      split <;> exact ⟨rfl, rfl, rfl⟩
    split
    · obtain ⟨happended, hindex, hdisk⟩ := hslot (s.append codec clocks clocks.appendAt record .immediate)
      refine ⟨happended.trans hsettled.appended_eq, ?_⟩
      intro j hfirst hj
      have hdurable := hsettled.immediate rfl j hfirst (hj.trans_eq hindex)
      rwa [← hdisk] at hdurable
    · exact ⟨hsettled.appended_eq, hsettled.immediate rfl⟩
  records := by
    obtain ⟨segments, hholds⟩ := h.holds
    rw [hholds.appended]
    apply List.flatMap_congr
    intro j hj
    have hrange := List.mem_range'_1.mp hj
    have hfirst := h.first_le
    obtain ⟨file, wallNs, monoNs, hfile, hcontent, haccepted⟩ :=
      hholds.content j hrange.1 (by omega)
    exact recordsIn_eq hcodec hfile hcontent haccepted

def exampleCfg : WalSvcCfg := ⟨10, 100, 4096, 300⟩

def exampleClocks : Clocks := ⟨1, 2, 3, 4, 5, 6, 7, fun _ => 0⟩

end Run

end DeadReckoning.Recording
