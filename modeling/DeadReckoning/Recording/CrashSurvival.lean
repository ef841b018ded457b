import DeadReckoning.Recording.LogLayout

/-! What the log directory gives back when the power fails between any two calls of the service, in
each of any number of boots: from every boot a front of what it appended, with everything in it that
was synced. -/
namespace DeadReckoning.Recording

open Wal

section Tracked

variable {codec : Codec} {dir : Directory} {first : ℕ} {s : Service} {clocks : Clocks}
  {segments : ℕ → List WalRecord} {records : List WalRecord} {done : ℕ} {file : SegmentFile}

/-- Where the log stands between two steps of the service. -/
structure Now (codec : Codec) (dir : Directory) (first : ℕ) (s : Service)
    (segments : ℕ → List WalRecord) (records : List WalRecord) (done : ℕ) (file : SegmentFile) :
    Prop extends Base codec (diskOf dir) first s.segIndex segments (s.disk (diskOf dir)) where
  file_eq : s.disk (diskOf dir) s.segIndex = some file
  holding : Holding codec records file
  named : file.named = true
  written : file.written = s.writer.inner
  offset : s.writer.offset = s.writer.inner.length
  done_le : done ≤ records.length
  safe : Safe codec records done file
  whole : finished first s.segIndex segments ++ records = s.appended
  count : (tally s.calls).1 = s.appended.length
  synced : (tally s.calls).2 ≤ (finished first s.segIndex segments).length + done
  clean : s.dirty = false →
    (tally s.calls).2 = s.appended.length ∧ file.synced = file.written.length

/-- The log after every call that was made, and where it stands now. -/
structure Tracked (codec : Codec) (dir : Directory) (first : ℕ) (s : Service) : Prop where
  past : ∀ calls, calls <+: s.calls →
    Charted codec (diskOf dir) first s.segIndex s.appended calls
  now : ∃ segments records done file, Now codec dir first s segments records done file

theorem Now.charted (h : Now codec dir first s segments records done file) :
    Charted codec (diskOf dir) first s.segIndex s.appended s.calls :=
  ⟨s.segIndex, le_rfl, segments, records, done,
    { h.toBase with
      newest := by
        have hnewest := Newest.holding h.holding h.done_le h.safe
        rwa [← h.file_eq] at hnewest
      front := by rw [h.whole]
      count := by rw [h.whole, h.count]
      synced := h.synced }⟩

theorem Tracked.congr {t : Service} (h : Tracked codec dir first s) (hcalls : t.calls = s.calls)
    (hwriter : t.writer = s.writer) (hindex : t.segIndex = s.segIndex) (hdirty : t.dirty = s.dirty)
    (happended : t.appended = s.appended) : Tracked codec dir first t := by
  obtain ⟨cfg, writer, segIndex, hbSeq, hbData, lastWalHbSeq, dirty, batchDeadline, nextHeartbeat,
    powerFailingSeen, heartbeatFile, calls, appended⟩ := t
  dsimp only at hcalls hwriter hindex hdirty happended
  subst hcalls hwriter hindex hdirty happended
  obtain ⟨hpast, segments, records, done, file, hnow⟩ := h
  exact ⟨hpast, segments, records, done, file, { hnow with }⟩

/-- The service after the newest segment is synced: all its records are safe. -/
theorem Now.fdatasync (h : Now codec dir first s segments records done file) :
    Now codec dir first { s.call (.fdatasync s.segIndex) with dirty := false } segments records
      records.length { file with synced := file.written.length } where
  toBase := by
    have hbase := h.toBase.call (c := .fdatasync s.segIndex) rfl
    rwa [← Service.disk_call] at hbase
  file_eq := by
    have hdisk : (s.disk (diskOf dir)).call (.fdatasync s.segIndex) s.segIndex =
        some { file with synced := file.written.length } :=
      (Disk.modify_self _ _ _).trans (congrArg (Option.map _) h.file_eq)
    rwa [← Service.disk_call] at hdisk
  holding := ⟨h.holding.written, h.holding.accepted, h.holding.short⟩
  named := h.named
  written := h.written
  offset := h.offset
  done_le := le_rfl
  safe := by
    obtain ⟨wallNs, monoNs, hwritten⟩ := h.holding.written
    refine .inr ⟨h.named, ?_⟩
    rw [List.take_length, hwritten, List.length_append, SegmentHeader.length_encode]
    exact le_rfl
  whole := h.whole
  count := by
    change (tally (s.calls ++ [.fdatasync s.segIndex])).1 = _
    rw [tally_snoc]
    exact h.count
  synced := by
    change (tally (s.calls ++ [.fdatasync s.segIndex])).2 ≤
      (finished first s.segIndex segments).length + records.length
    rw [tally_snoc, ← List.length_append, h.whole]
    exact h.count.le
  clean := by
    intro _
    refine ⟨?_, rfl⟩
    change (tally (s.calls ++ [.fdatasync s.segIndex])).2 = _
    rw [tally_snoc]
    exact h.count

/-- One more call after which the log is charted again. -/
theorem Tracked.snoc {t : Service} {c : Syscall} (h : Tracked codec dir first s)
    (hcalls : t.calls = s.calls ++ [c]) (hlast : s.segIndex ≤ t.segIndex)
    (happended : s.appended <+: t.appended)
    (hnow : Now codec dir first t segments records done file) : Tracked codec dir first t where
  past := by
    intro calls hfront
    rw [hcalls, List.prefix_concat_iff] at hfront
    rcases hfront with rfl | hfront
    · rw [← hcalls]
      exact hnow.charted
    · exact (h.past calls hfront).mono hlast happended
  now := ⟨segments, records, done, file, hnow⟩

theorem Tracked.sync (h : Tracked codec dir first s) :
    Tracked codec dir first s.syncSegment ∧ s.syncSegment.dirty = false := by
  cases hdirty : s.dirty with
  | false =>
    have heq : s.syncSegment = { s with batchDeadline := none } := by
      simp [Service.syncSegment, hdirty]
    rw [heq]
    exact ⟨h.congr rfl rfl rfl rfl rfl, hdirty⟩
  | true =>
    have heq : s.syncSegment =
        { s.call (.fdatasync s.segIndex) with dirty := false, batchDeadline := none } := by
      unfold Service.syncSegment
      rw [hdirty]
      rfl
    obtain ⟨segments, records, done, file, hnow⟩ := h.now
    have hsynced : Tracked codec dir first
        { s.call (.fdatasync s.segIndex) with dirty := false } :=
      h.snoc rfl le_rfl (List.prefix_refl _) hnow.fdatasync
    rw [heq]
    exact ⟨hsynced.congr rfl rfl rfl rfl rfl, rfl⟩

theorem Now.wrote {record : WalRecord} (h : Now codec dir first s segments records done file)
    (hrecord : Accepted codec record)
    (hroom : s.writer.inner.length + (frame codec record).length ≤ maxSegmentRead) :
    Now codec dir first (s.wrote record (frame codec record)
      ⟨s.writer.inner ++ frame codec record, s.writer.offset + (frame codec record).length⟩)
      segments (records ++ [record]) done { file with written := file.written ++ frame codec record } where
  toBase := by
    have hbase := h.toBase.call (c := .append s.segIndex (frame codec record)) rfl
    rwa [← Service.disk_call] at hbase
  file_eq := by
    have hdisk : (s.disk (diskOf dir)).call (.append s.segIndex (frame codec record)) s.segIndex =
        some { file with written := file.written ++ frame codec record } :=
      (Disk.modify_self _ _ _).trans (congrArg (Option.map _) h.file_eq)
    rwa [← Service.disk_call] at hdisk
  holding := by
    obtain ⟨wallNs, monoNs, hwritten⟩ := h.holding.written
    refine ⟨⟨wallNs, monoNs, ?_⟩, ?_, ?_⟩
    · change file.written ++ frame codec record = _
      rw [hwritten, List.flatMap_append, List.flatMap_singleton, List.append_assoc]
    · intro other hother
      rcases List.mem_append.mp hother with hold | hnew
      · exact h.holding.accepted other hold
      · rwa [List.mem_singleton.mp hnew]
    · change (file.written ++ frame codec record).length ≤ maxSegmentRead
      rwa [List.length_append, h.written]
  named := h.named
  written := congrArg (· ++ frame codec record) h.written
  offset := by
    change s.writer.offset + _ = (s.writer.inner ++ frame codec record).length
    rw [h.offset, List.length_append]
  done_le := by
    rw [List.length_append]
    exact Nat.le_add_right_of_le h.done_le
  safe := by
    rcases h.safe with hzero | ⟨hnamed, hsafe⟩
    · exact .inl hzero
    · have htake : (records ++ [record]).take done = records.take done :=
        List.take_append_of_le_length h.done_le
      exact .inr ⟨hnamed, htake.symm ▸ hsafe⟩
  whole := by
    change _ = s.appended ++ [record]
    rw [← List.append_assoc, ← h.whole]
    rfl
  count := by
    change (tally (s.calls ++ [.append s.segIndex (frame codec record)])).1 =
      (s.appended ++ [record]).length
    rw [tally_snoc, List.length_append]
    exact congrArg (· + 1) h.count
  synced := by
    change (tally (s.calls ++ [.append s.segIndex (frame codec record)])).2 ≤ _
    rw [tally_snoc]
    exact h.synced
  clean := fun hclean => by cases hclean

/-- A service that has started a segment, all records before it being done with. -/
theorem Tracked.started {cur : ℕ} {calls : List Syscall} {wallNs monoNs : UInt64}
    (hbase : Base codec (diskOf dir) first cur segments ((diskOf dir).after calls))
    (hall : finished first cur segments = s.appended) (hcount : (tally calls).1 = s.appended.length)
    (hpast : ∀ before, before <+: calls → Charted codec (diskOf dir) first cur s.appended before)
    (hcalls : s.calls = calls ++ opening cur (.new wallNs monoNs)) (hindex : s.segIndex = cur)
    (hwriter : s.writer = .create (.new wallNs monoNs)) : Tracked codec dir first s := by
  subst hindex
  have hchart : ∀ more, more <+: opening s.segIndex (.new wallNs monoNs) → more ≠ [] →
      Chart codec (diskOf dir) first s.appended (calls ++ more) s.segIndex segments [] 0 :=
    fun more hmore hne => hbase.opening hall hcount wallNs monoNs hmore hne
  have hwhole := hchart _ (List.prefix_refl _) (List.cons_ne_nil _ _)
  rw [← hcalls] at hwhole
  constructor
  · intro before hbefore
    rw [hcalls] at hbefore
    rcases List.prefix_or_prefix_of_prefix hbefore (List.prefix_append calls _) with h | ⟨more, rfl⟩
    · exact hpast before h
    · rcases List.eq_nil_or_concat more with rfl | ⟨front, last, hmore⟩
      · exact hpast _ (by rw [List.append_nil])
      · refine ⟨s.segIndex, le_rfl, segments, [], 0, hchart more ?_ ?_⟩
        · exact (List.prefix_append_right_inj calls).mp hbefore
        · rw [hmore, List.concat_eq_append]
          exact List.concat_ne_nil _ _
  · refine ⟨segments, [], 0, ⟨(SegmentHeader.new wallNs monoNs).encode,
      (SegmentHeader.new wallNs monoNs).encode.length, true⟩, ?_⟩
    exact
      { hwhole.toBase with
        file_eq := by
          rw [Service.disk, hcalls, Disk.after, List.foldl_append]
          simp only [opening, List.foldl_cons, List.foldl_nil, Disk.call, Disk.modify,
            Function.update_self, Option.map_some, List.nil_append]
        holding := by
          refine ⟨⟨wallNs, monoNs, ?_⟩, by simp, ?_⟩
          · rw [List.flatMap_nil, List.append_nil]
          · rw [SegmentHeader.length_encode, maxSegmentRead]
            omega
        named := rfl
        written := by rw [hwriter]; rfl
        offset := by
          rw [hwriter]
          exact (SegmentHeader.length_encode _).symm
        done_le := le_rfl
        safe := .inl rfl
        whole := by rw [List.append_nil, hall]
        count := by
          rw [← hwhole.count, List.append_nil, hall]
        synced := hwhole.synced
        clean := by
          intro _
          refine ⟨?_, rfl⟩
          rw [hcalls, tally, List.foldl_append]
          exact hcount }

theorem Tracked.rotate (h : Tracked codec dir first s) :
    Tracked codec dir first (s.rotate clocks) := by
  obtain ⟨hsync, hclean⟩ := h.sync
  rw [rotate_eq]
  generalize s.syncSegment = t at hsync hclean
  obtain ⟨segments, records, done, file, hnow⟩ := hsync.now
  have hfinished : finished first (t.segIndex + 1) (Function.update segments t.segIndex records) =
      t.appended := by rw [finished_succ hnow.first_le, hnow.whole]
  exact .started
    (hnow.toBase.next hnow.file_eq hnow.holding hnow.named (hnow.clean hclean).2) hfinished
    hnow.count (fun before hbefore => (hsync.past before hbefore).mono (Nat.le_succ _)
      (List.prefix_refl _))
    (by simp [Service.rotated, Service.createSegment, Service.call, opening]) rfl rfl

/-- The largest frame. -/
def maxFrameLen : ℕ := frameHeaderLen + maxPayloadLen + frameTrailerLen

theorem length_frame_le {record : WalRecord} (h : Accepted codec record) :
    (frame codec record).length ≤ maxFrameLen := by
  obtain ⟨payload, -, hlength, heq⟩ := h.frame_eq
  rw [heq, length_frameBytes, maxFrameLen]
  omega

/-- A segment is never longer than what is read of one. -/
def Fits (cfg : WalSvcCfg) : Prop :=
  cfg.rotateBytes + segmentHeaderLen + maxFrameLen ≤ maxSegmentRead

/-- The invariant of the service. -/
structure Surviving (codec : Codec) (dir : Directory) (first : ℕ) (s : Service) : Prop
    extends Tracked codec dir first s where
  fits : Fits s.cfg
  room : s.writer.inner.length ≤ s.cfg.rotateBytes + segmentHeaderLen

theorem Tracked.settle {now : ℕ} {sync : SyncPolicy} (h : Tracked codec dir first s) :
    Tracked codec dir first (s.settle now sync) := by
  cases sync with
  | immediate => exact h.sync.1
  | batched =>
    unfold Service.settle
    dsimp only
    split
    · exact h.congr rfl rfl rfl rfl rfl
    · exact h

end Tracked

section Later

variable {codec : Codec} {s t u : Service} {clocks : Clocks} {now : ℕ} {record : WalRecord}
  {sync : SyncPolicy}

/-- A service at a later point of the same boot. -/
structure Later (s t : Service) : Prop where
  cfg : t.cfg = s.cfg
  calls : s.calls <+: t.calls
  appended : s.appended <+: t.appended

theorem Later.refl (s : Service) : Later s s :=
  ⟨rfl, List.prefix_refl _, List.prefix_refl _⟩

theorem Later.trans (h : Later s t) (h' : Later t u) : Later s u :=
  ⟨h'.cfg.trans h.cfg, h.calls.trans h'.calls, h.appended.trans h'.appended⟩

theorem later_sync (s : Service) : Later s s.syncSegment ∧ s.syncSegment.writer = s.writer ∧
    s.syncSegment.dirty = false := by
  unfold Service.syncSegment
  cases hdirty : s.dirty with
  | false => exact ⟨⟨rfl, List.prefix_refl _, List.prefix_refl _⟩, rfl, hdirty⟩
  | true => exact ⟨⟨rfl, List.prefix_append _ _, List.prefix_refl _⟩, rfl, rfl⟩

theorem later_settle (s : Service) (now : ℕ) (sync : SyncPolicy) :
    Later s (s.settle now sync) ∧ (s.settle now sync).writer = s.writer ∧
      (sync = .immediate → (s.settle now sync).dirty = false) := by
  cases sync with
  | immediate =>
    obtain ⟨hlater, hwriter, hclean⟩ := later_sync s
    exact ⟨hlater, hwriter, fun _ => hclean⟩
  | batched =>
    unfold Service.settle
    dsimp only
    split
    · exact ⟨⟨rfl, List.prefix_refl _, List.prefix_refl _⟩, rfl, fun h => by cases h⟩
    · exact ⟨.refl s, rfl, fun h => by cases h⟩

theorem later_rotate (s : Service) (clocks : Clocks) : Later s (s.rotate clocks) ∧
    (s.rotate clocks).writer = .create (.new clocks.headerWallNs clocks.headerMonoNs) ∧
      (s.rotate clocks).dirty = false := by
  obtain ⟨hlater, -, hclean⟩ := later_sync s
  rw [rotate_eq]
  generalize s.syncSegment = t at hlater hclean
  have hcalls : t.calls <+: (t.rotated (.new clocks.headerWallNs clocks.headerMonoNs)).calls := by
    simp [Service.rotated, Service.createSegment, Service.call]
  exact ⟨hlater.trans ⟨rfl, hcalls, List.prefix_refl _⟩, rfl, hclean⟩

/-- The service once it has written a record. -/
def Service.written (codec : Codec) (s : Service) (record : WalRecord) : Service :=
  s.wrote record (frame codec record)
    ⟨s.writer.inner ++ frame codec record, s.writer.offset + (frame codec record).length⟩

theorem append_eq (h : Accepted codec record) : s.append codec clocks now record sync =
    if s.cfg.rotateBytes ≤ s.writer.offset + (frame codec record).length then
      ((s.written codec record).settle now sync).rotate clocks
    else (s.written codec record).settle now sync := by
  have happend : s.writer.append codec record = .ok (s.writer.offset,
      ⟨s.writer.inner ++ frame codec record, s.writer.offset + (frame codec record).length⟩) :=
    append_eq_ok.mpr ⟨h, rfl, rfl⟩
  obtain ⟨hlater, hwriter, -⟩ := later_settle (s.written codec record) now sync
  unfold Service.append
  rw [happend]
  dsimp only
  rw [List.drop_left, ← Service.written, hwriter, hlater.cfg]
  rfl

theorem later_append (codec : Codec) (s : Service) (clocks : Clocks) (now : ℕ)
    (record : WalRecord) (sync : SyncPolicy) : Later s (s.append codec clocks now record sync) ∧
    (Accepted codec record → s.appended ++ [record] <+:
        (s.append codec clocks now record sync).appended ∧
      (sync = .immediate → (s.append codec clocks now record sync).dirty = false)) := by
  by_cases hrecord : Accepted codec record
  · have hwritten : Later s (s.written codec record) :=
      ⟨rfl, List.prefix_append _ _, List.prefix_append _ _⟩
    obtain ⟨hsettle, -, hclean⟩ := later_settle (s.written codec record) now sync
    rw [append_eq hrecord]
    split
    · obtain ⟨hrotate, -, hclean'⟩ := later_rotate
        ((s.written codec record).settle now sync) clocks
      exact ⟨hwritten.trans (hsettle.trans hrotate), fun _ =>
        ⟨(hsettle.trans hrotate).appended, fun _ => hclean'⟩⟩
    · exact ⟨hwritten.trans hsettle, fun _ => ⟨hsettle.appended, hclean⟩⟩
  · rw [append_refused hrecord]
    exact ⟨.refl s, fun h => (hrecord h).elim⟩

theorem Surviving.append {dir : Directory} {first : ℕ} (h : Surviving codec dir first s) :
    Surviving codec dir first (s.append codec clocks now record sync) := by
  by_cases hrecord : Accepted codec record
  · obtain ⟨segments, records, done, file, hnow⟩ := h.now
    have hroom : s.writer.inner.length + (frame codec record).length ≤ maxSegmentRead :=
      (Nat.add_le_add h.room (length_frame_le hrecord)).trans h.fits
    have hwritten : Tracked codec dir first (s.written codec record) :=
      h.toTracked.snoc rfl le_rfl (List.prefix_append _ _) (hnow.wrote hrecord hroom)
    obtain ⟨hlater, hwriter, -⟩ := later_settle (s.written codec record) now sync
    rw [append_eq hrecord]
    split
    · obtain ⟨hlater', hwriter', -⟩ := later_rotate
        ((s.written codec record).settle now sync) clocks
      have hcfg := (hlater.trans hlater').cfg
      refine ⟨hwritten.settle.rotate, hcfg ▸ h.fits, ?_⟩
      rw [hwriter', WalWriter.create, SegmentHeader.length_encode]
      exact Nat.le_add_left _ _
    · rename_i hsmall
      refine ⟨hwritten.settle, hlater.cfg ▸ h.fits, ?_⟩
      rw [hwriter, hlater.cfg]
      change (s.writer.inner ++ frame codec record).length ≤ s.cfg.rotateBytes + _
      rw [List.length_append, ← hnow.offset]
      omega
  · rwa [append_refused hrecord]

end Later

section Preserved

variable {codec : Codec} {P : Service → Prop} {s t : Service} {clocks : Clocks}
  {turns : List (Option WalCmd × Clocks)}

/-- A property of the log that syncs and appends keep. -/
structure Preserved (codec : Codec) (P : Service → Prop) : Prop where
  congr : ∀ {s t : Service}, P s → t.cfg = s.cfg → t.calls = s.calls → t.writer = s.writer →
    t.segIndex = s.segIndex → t.dirty = s.dirty → t.appended = s.appended → P t
  sync : ∀ {s : Service}, P s → P s.syncSegment
  append : ∀ {s : Service} {clocks : Clocks} {now : ℕ} {record : WalRecord} {sync : SyncPolicy},
    P s → P (s.append codec clocks now record sync)

namespace Preserved

theorem writeHeartbeatSlot (hP : Preserved codec P) (h : P s) :
    P (s.writeHeartbeatSlot clocks).2 := by
  unfold Service.writeHeartbeatSlot
  split
  · exact h
  · exact hP.congr h rfl rfl rfl rfl rfl rfl

theorem heartbeatTick (hP : Preserved codec P) (h : P s) : P (s.heartbeatTick codec clocks) := by
  have hslot : P (s.writeHeartbeatSlot clocks).2 := hP.writeHeartbeatSlot h
  unfold Service.heartbeatTick
  split
  · exact h
  · split
    · rename_i heq
      rwa [heq] at hslot
    · rename_i heq
      rw [heq] at hslot
      split
      · exact hP.congr (hP.append hslot) rfl rfl rfl rfl rfl rfl
      · exact hslot

theorem handle {cmd : WalCmd} (hP : Preserved codec P) (h : P s) :
    P (s.handle codec clocks cmd) := by
  cases cmd with
  | append record sync =>
    have happend : P (s.append codec clocks clocks.appendAt record sync) := hP.append h
    unfold Service.handle
    dsimp only
    split
    · exact hP.congr (hP.writeHeartbeatSlot happend) rfl rfl rfl rfl rfl rfl
    · exact happend
  | heartbeat data => exact hP.congr h rfl rfl rfl rfl rfl rfl
  | receiveSeq monoNs widened => exact h
  | shutdown => exact h

/-- What has become due after a command. -/
theorem due (hP : Preserved codec P) (h : P s) : P (s.turn codec none clocks) := by
  unfold Service.turn
  dsimp only
  split
  · split
    · exact hP.congr (hP.heartbeatTick (hP.sync h)) rfl rfl rfl rfl rfl rfl
    · exact hP.sync h
  · split
    · exact hP.congr (hP.heartbeatTick h) rfl rfl rfl rfl rfl rfl
    · exact h

theorem turn {received : Option WalCmd} (hP : Preserved codec P) (h : P s) :
    P (s.turn codec received clocks) := by
  cases received with
  | none => exact hP.due h
  | some cmd =>
    have hhandle : P (s.handle codec clocks cmd) := hP.handle h
    exact hP.due hhandle

theorem run (hP : Preserved codec P) (h : P s) : P (s.run codec turns) := by
  induction turns generalizing s with
  | nil => exact h
  | cons t turns ih =>
    obtain ⟨received, clocks⟩ := t
    unfold Service.run
    split
    · exact hP.sync h
    · exact ih (hP.turn h)

end Preserved

theorem preserved_surviving (codec : Codec) (dir : Directory) (first : ℕ) :
    Preserved codec (Surviving codec dir first) where
  congr h hcfg hcalls hwriter hindex hdirty happended :=
    ⟨h.toTracked.congr hcalls hwriter hindex hdirty happended, hcfg ▸ h.fits, by
      rw [hcfg, hwriter]
      exact h.room⟩
  sync := by
    intro s h
    obtain ⟨hlater, hwriter, -⟩ := later_sync s
    refine ⟨h.toTracked.sync.1, hlater.cfg ▸ h.fits, ?_⟩
    rw [hwriter, hlater.cfg]
    exact h.room
  append h := h.append

theorem preserved_later (codec : Codec) (s : Service) : Preserved codec (Later s) where
  congr h hcfg hcalls _ _ _ happended :=
    ⟨hcfg.trans h.cfg, hcalls ▸ h.calls, happended ▸ h.appended⟩
  sync h := h.trans (later_sync _).1
  append h := h.trans (later_append ..).1

end Preserved

section Passes

variable {codec : Codec} {s t : Service} {turns rest : List (Option WalCmd × Clocks)}
  {clocks : Clocks} {record : WalRecord}

/-- A run comes to a state of the service, with these turns left. -/
inductive Passes (codec : Codec) : Service → List (Option WalCmd × Clocks) → Service →
    List (Option WalCmd × Clocks) → Prop
  | here (s : Service) (turns : List (Option WalCmd × Clocks)) : Passes codec s turns s turns
  | turn {s t : Service} {received : Option WalCmd} {clocks : Clocks}
      {turns rest : List (Option WalCmd × Clocks)} (h : received ≠ some .shutdown)
      (hrest : Passes codec (s.turn codec received clocks) turns t rest) :
      Passes codec s ((received, clocks) :: turns) t rest
  | ended (s : Service) (clocks : Clocks) (turns : List (Option WalCmd × Clocks)) :
      Passes codec s ((some .shutdown, clocks) :: turns) s.syncSegment []

theorem Passes.run_eq (h : Passes codec s turns t rest) : s.run codec turns = t.run codec rest := by
  induction h with
  | here s turns => rfl
  | turn hreceived hrest ih =>
    rw [Service.run, if_neg hreceived]
    exact ih
  | ended s clocks turns =>
    unfold Service.run
    exact if_pos rfl

theorem Passes.preserved {P : Service → Prop} (hP : Preserved codec P)
    (h : Passes codec s turns t rest) (hs : P s) : P t := by
  induction h with
  | here s turns => exact hs
  | turn hreceived hrest ih => exact ih (hP.turn hs)
  | ended s clocks turns => exact hP.sync hs

theorem Passes.later (h : Passes codec s turns t rest) : Later t (s.run codec turns) := by
  rw [h.run_eq]
  exact (preserved_later codec t).run (.refl t)

/-- The record is safe before the turn goes on. -/
theorem handle_immediate (t : Service) (clocks : Clocks) (hrecord : Accepted codec record) :
    t.appended ++ [record] <+: (t.handle codec clocks (.append record .immediate)).appended ∧
      (t.handle codec clocks (.append record .immediate)).dirty = false := by
  obtain ⟨-, happend⟩ := later_append codec t clocks clocks.appendAt record .immediate
  obtain ⟨happended, hclean⟩ := happend hrecord
  have hslot : ∀ u : Service, (u.writeHeartbeatSlot clocks).2.appended = u.appended ∧
      (u.writeHeartbeatSlot clocks).2.dirty = u.dirty := by
    intro u
    unfold Service.writeHeartbeatSlot
    split <;> exact ⟨rfl, rfl⟩
  unfold Service.handle
  dsimp only
  split
  · obtain ⟨happended', hdirty'⟩ := hslot (t.append codec clocks clocks.appendAt record .immediate)
    rw [happended', hdirty']
    exact ⟨happended, hclean rfl⟩
  · exact ⟨happended, hclean rfl⟩

theorem Passes.later_handle {cmd : WalCmd} (hcmd : cmd ≠ .shutdown)
    (h : Passes codec s turns t ((some cmd, clocks) :: rest)) :
    Later (t.handle codec clocks cmd) (s.run codec turns) := by
  have hlater := preserved_later codec (t.handle codec clocks cmd)
  rw [h.run_eq, Service.run, if_neg fun hsome => hcmd (Option.some.inj hsome)]
  exact hlater.run (hlater.due (.refl _))

end Passes

section Boots

/-- A boot of the recorder: what its service is given, and after how many calls the power fails. -/
structure BootRun where
  cfg : WalSvcCfg
  heartbeatFile : HeartbeatFile
  startedAt : ℕ
  clocks : Clocks
  turns : List (Option WalCmd × Clocks)
  cut : ℕ

namespace BootRun

def start (boot : BootRun) (dir : Directory) : Service :=
  .init boot.cfg (nextSegmentIndex dir) boot.heartbeatFile boot.startedAt boot.clocks

/-- The service at its end, had the power not failed. -/
def service (codec : Codec) (boot : BootRun) (dir : Directory) : Service :=
  (boot.start dir).run codec boot.turns

/-- The calls before the power fails. -/
def calls (codec : Codec) (boot : BootRun) (dir : Directory) : List Syscall :=
  (boot.service codec dir).calls.take boot.cut

end BootRun

variable {codec : Codec} {dir left start : Directory} {boot : BootRun}

/-- What is left of a boot's records: a front of what it had appended, with everything that was
synced. -/
structure Survives (codec : Codec) (dir : Directory) (boot : BootRun) (part : List WalRecord) :
    Prop where
  front : part <+: (boot.service codec dir).appended
  written : part.length ≤ (tally (boot.calls codec dir)).1
  clean : ∀ t rest, Passes codec (boot.start dir) boot.turns t rest →
    t.calls.length ≤ boot.cut → t.dirty = false → t.appended <+: part
  immediate : ∀ t record clocks rest, Accepted codec record →
    Passes codec (boot.start dir) boot.turns t
      ((some (.append record .immediate), clocks) :: rest) →
    (t.handle codec clocks (.append record .immediate)).calls.length ≤ boot.cut →
    t.appended ++ [record] <+: part

theorem BootRun.surviving_start (hdir : Named dir) (hfits : Fits boot.cfg)
    (hindex : nextSegmentIndex dir < 2 ^ 64) :
    Surviving codec dir (nextSegmentIndex dir) (boot.start dir) := by
  have hbase : Base codec (diskOf dir) (nextSegmentIndex dir) (nextSegmentIndex dir) (fun _ => [])
      ((diskOf dir).after []) :=
    { first_le := le_rfl
      below := fun _ _ => rfl
      above := by
        intro j hj hlt
        change (segment dir j).map _ = none
        rw [segment_none_of_next hdir hlt hj.le, Option.map_none]
      older := fun j hle hlt => (Nat.not_lt_of_le hle hlt).elim }
  have hfinished : finished (nextSegmentIndex dir) (nextSegmentIndex dir)
      (fun _ => ([] : List WalRecord)) = [] := by
    rw [finished, Nat.sub_self]
    rfl
  have hnone : Newest codec ((diskOf dir).after [] (nextSegmentIndex dir)) [] 0 := by
    change Newest codec ((segment dir (nextSegmentIndex dir)).map _) [] 0
    rw [segment_none_of_next hdir hindex le_rfl]
    exact .absent
  have hcalls : (boot.start dir).calls = [] ++ opening (nextSegmentIndex dir)
      (.new boot.clocks.headerWallNs boot.clocks.headerMonoNs) := rfl
  refine ⟨.started hbase hfinished rfl ?_ hcalls rfl rfl, hfits, ?_⟩
  · intro before hbefore
    obtain rfl := List.prefix_nil.mp hbefore
    exact ⟨_, le_rfl, fun _ => [], [], 0,
      { hbase with
        newest := hnone
        front := by
          rw [hfinished]
          exact List.nil_prefix
        count := by
          rw [hfinished]
          rfl
        synced := Nat.zero_le _ }⟩
  · change (SegmentHeader.new boot.clocks.headerWallNs boot.clocks.headerMonoNs).encode.length ≤ _
    rw [SegmentHeader.length_encode]
    exact Nat.le_add_left _ _

/-- A power cut leaves what was there before the boot, and what is promised of the boot's
records. -/
theorem BootRun.survives (hcodec : codec.RoundTrips) (hdir : Named dir) (hfits : Fits boot.cfg)
    (hindex : (boot.service codec dir).segIndex < 2 ^ 64)
    (himage : CrashImage ((diskOf dir).after (boot.calls codec dir)) left) :
    ∃ part, Survives codec dir boot part ∧ journal codec left = journal codec dir ++ part := by
  have hkept : Kept codec (diskOf dir) (nextSegmentIndex dir) (boot.start dir) := kept_init
  have hfirst : nextSegmentIndex dir ≤ (boot.service codec dir).segIndex :=
    hkept.run.first_le
  have hstart : Surviving codec dir (nextSegmentIndex dir) (boot.start dir) :=
    boot.surviving_start hdir hfits (hfirst.trans_lt hindex)
  have hpreserved := preserved_surviving codec dir (nextSegmentIndex dir)
  have hservice : Surviving codec dir (nextSegmentIndex dir) (boot.service codec dir) :=
    hpreserved.run hstart
  obtain ⟨cur, hcur, segments, records, done, hchart⟩ :=
    hservice.past (boot.calls codec dir) (List.take_prefix _ _)
  obtain ⟨n, hdone, hjournal⟩ := hchart.toBase.recovered hcodec hchart.newest hdir le_rfl
    (hcur.trans_lt hindex) himage
  have hpart : finished (nextSegmentIndex dir) cur segments ++ records.take n <+:
      finished (nextSegmentIndex dir) cur segments ++ records :=
    (List.prefix_append_right_inj _).mpr (List.take_prefix n records)
  have hsafe : ∀ u, Surviving codec dir (nextSegmentIndex dir) u →
      Later u (boot.service codec dir) → u.calls.length ≤ boot.cut → u.dirty = false →
        u.appended <+: finished (nextSegmentIndex dir) cur segments ++ records.take n := by
    intro u hu hlater hcut hclean
    obtain ⟨_, _, _, _, hnow⟩ := hu.now
    have hcalls : u.calls <+: boot.calls codec dir := List.prefix_take_iff.mpr ⟨hlater.calls, hcut⟩
    refine List.prefix_of_prefix_length_le hlater.appended (hpart.trans hchart.front) ?_
    have hcount := hchart.count
    have hsynced := hchart.synced
    have hmono := tally_mono hcalls
    have hle := tally_le (boot.calls codec dir)
    rw [(hnow.clean hclean).1] at hmono
    rw [List.length_append] at hcount
    rw [List.length_append, List.length_take]
    omega
  refine ⟨_, ⟨hpart.trans hchart.front, hchart.count ▸ hpart.length_le, ?_, ?_⟩, hjournal⟩
  · intro t rest hpasses
    exact hsafe t (hpasses.preserved hpreserved hstart) hpasses.later
  · intro t record clocks rest hrecord hpasses hcut
    obtain ⟨happended, hclean⟩ := handle_immediate t clocks hrecord
    have ht := hpasses.preserved hpreserved hstart
    exact happended.trans
      (hsafe _ (hpreserved.handle ht) (hpasses.later_handle (by simp)) hcut hclean)

/-- Boots of one log directory, each of them ended by a power cut. -/
inductive Lived (codec : Codec) (start : Directory) : List (Directory × BootRun) → Directory → Prop
  | fresh : Lived codec start [] start
  | boot {boots : List (Directory × BootRun)} {dir left : Directory} {boot : BootRun}
      (h : Lived codec start boots dir)
      (himage : CrashImage ((diskOf dir).after (boot.calls codec dir)) left) :
      Lived codec start (boots ++ [(dir, boot)]) left

/-- One record, and the power fails before the service ends. -/
def exampleBoot : BootRun :=
  ⟨exampleCfg, ⟨.zero, .zero⟩, 0, exampleClocks,
    [(some (.append exampleMarker .immediate), exampleClocks)], 6⟩

def exampleLeft : Directory :=
  [(segmentFileName 1, (SegmentHeader.new 7 6).encode ++ frame exampleCodec exampleMarker)]

theorem exampleBoot_service : (exampleBoot.service exampleCodec []).calls =
      opening 1 (.new 7 6) ++ [.append 1 (frame exampleCodec exampleMarker), .fdatasync 1] ∧
    (exampleBoot.service exampleCodec []).segIndex = 1 := by
  have hpayload : exampleCodec.toVec exampleMarker = some examplePayload := by simp [exampleCodec]
  have hlength : examplePayload.length ≤ 100 := by decide
  have hsmall : ¬ exampleCfg.rotateBytes ≤
      segmentHeaderLen + (frame exampleCodec exampleMarker).length := by
    rw [frame, hpayload, Option.getD_some, length_frameBytes]
    simp only [exampleCfg, segmentHeaderLen, frameHeaderLen, frameTrailerLen]
    omega
  have happend :
      (exampleBoot.start []).append exampleCodec exampleClocks 1 exampleMarker .immediate =
        ((exampleBoot.start []).written exampleCodec exampleMarker).settle 1 .immediate :=
    (append_eq exampleMarker_accepted).trans (if_neg hsmall)
  have hturn : exampleBoot.service exampleCodec [] =
      (exampleBoot.start []).turn exampleCodec (some (.append exampleMarker .immediate))
        exampleClocks :=
    (Passes.turn (by simp) (.here _ [])).run_eq
  have hhandle : (exampleBoot.start []).handle exampleCodec exampleClocks
      (.append exampleMarker .immediate) =
        ((exampleBoot.start []).written exampleCodec exampleMarker).settle 1 .immediate := happend
  rw [hturn, Service.turn, hhandle]
  exact ⟨rfl, rfl⟩

end Boots

end DeadReckoning.Recording
