import DeadReckoning.Recording.Durability
import DeadReckoning.Recording.Segments

/-! What a power cut leaves of the segments, and where the log stands after each call: which
segments are done with, and how much of the newest one is safe. -/
namespace DeadReckoning.Recording

open Wal

section Image

/-- What a power cut leaves of a file: a front of what was written, with everything that was synced
in it. A name that is not durable may be gone. -/
inductive Leaves : Option SegmentFile → Option Bytes → Prop
  | absent : Leaves none none
  | unnamed {file : SegmentFile} (h : file.named = false) : Leaves (some file) none
  | cut {file : SegmentFile} {k : ℕ} (h : file.synced ≤ k) :
      Leaves (some file) (some (file.written.take k))

structure CrashImage (d : Disk) (dir : Directory) : Prop extends Named dir where
  leaves : ∀ i, Leaves (d i) (segment dir i)

/-- The disk at the start of a boot: what is there is durable. -/
def diskOf (dir : Directory) : Disk := fun i =>
  (segment dir i).map fun bytes => ⟨bytes, bytes.length, true⟩

variable {codec : Codec} {records : List WalRecord} {done : ℕ} {file : SegmentFile}

/-- A segment with these records, short enough to be read as a whole. -/
structure Holding (codec : Codec) (records : List WalRecord) (file : SegmentFile) : Prop where
  written : ∃ wallNs monoNs, file.written =
    (SegmentHeader.new wallNs monoNs).encode ++ records.flatMap (frame codec)
  accepted : ∀ record ∈ records, Accepted codec record
  short : file.written.length ≤ maxSegmentRead

/-- So many of the records are there whatever the power does. -/
def Safe (codec : Codec) (records : List WalRecord) (done : ℕ) (file : SegmentFile) : Prop :=
  done = 0 ∨ file.named = true ∧
    segmentHeaderLen + ((records.take done).flatMap (frame codec)).length ≤ file.synced

/-- The newest segment: not there, without a header, or with records. -/
inductive Newest (codec : Codec) : Option SegmentFile → List WalRecord → ℕ → Prop
  | absent : Newest codec none [] 0
  | bare {file : SegmentFile} (h : file.written = []) : Newest codec (some file) [] 0
  | holding {file : SegmentFile} {records : List WalRecord} {done : ℕ}
      (h : Holding codec records file) (hdone : done ≤ records.length)
      (hsafe : Safe codec records done file) : Newest codec (some file) records done

/-- The records of a segment that was cut. -/
theorem Holding.scan_front (hcodec : codec.RoundTrips) (h : Holding codec records file) (k : ℕ) :
    ∃ n, (scanSegment codec (file.written.take k)).records.map Prod.snd = records.take n ∧
      ∀ m ≤ records.length, 0 < m →
        segmentHeaderLen + ((records.take m).flatMap (frame codec)).length ≤ k → m ≤ n := by
  obtain ⟨wallNs, monoNs, hwritten⟩ := h.written
  have hheader : (SegmentHeader.new wallNs monoNs).encode.length = segmentHeaderLen :=
    SegmentHeader.length_encode _
  have hread : (file.written.take k).take maxSegmentRead = file.written.take k := by
    rw [List.take_take]
    have hshort := h.short
    rcases Nat.le_total k maxSegmentRead with hk | hk
    · rw [Nat.min_eq_right hk]
    · rw [Nat.min_eq_left hk, List.take_of_length_le hshort,
        List.take_of_length_le (hshort.trans hk)]
  rw [scanSegment, hread]
  by_cases hcut : k < segmentHeaderLen
  · have hlength : (file.written.take k).length < segmentHeaderLen :=
      (List.length_take_le k _).trans_lt hcut
    have hdecode : SegmentHeader.decode (file.written.take k) =
        .error (.truncatedSegmentHeader (file.written.take k).length) := by
      rw [SegmentHeader.decode, if_pos hlength]
    refine ⟨0, by rw [scan_of_decode_error hdecode]; rfl, fun m _ _ hm => ?_⟩
    omega
  · obtain ⟨j, rfl⟩ : ∃ j, k = segmentHeaderLen + j := ⟨k - segmentHeaderLen, by omega⟩
    have hsplit : file.written.take (segmentHeaderLen + j) =
        (SegmentHeader.new wallNs monoNs).encode ++ (records.flatMap (frame codec)).take j := by
      rw [hwritten, List.take_append, hheader, Nat.add_sub_cancel_left,
        List.take_of_length_le (by rw [hheader]; exact Nat.le_add_right _ _)]
    have hscans := (frameWriter hcodec).scans_take h.accepted segmentHeaderLen
      (min j (records.flatMap (frame codec)).length) (Nat.min_le_right _ _)
    rw [← List.take_eq_take_min] at hscans
    obtain ⟨n, htake, hmost⟩ := @wholeBefore_placed _ _ (frame codec) segmentHeaderLen
      (segmentHeaderLen + min j (records.flatMap (frame codec)).length) records
    refine ⟨n, ?_, fun m hm hpos hle => hmost m hm hpos ?_⟩
    · rw [hsplit, scan_of_scans (SegmentHeader.decode_encode _ rfl _) (by
        rw [List.drop_left' hheader]
        exact hscans)]
      exact htake
    · have hfront : ((records.take m).flatMap (frame codec)).length ≤
          (records.flatMap (frame codec)).length := by
        have hall := congrArg List.length (congrArg (List.flatMap (frame codec))
          (List.take_append_drop m records))
        rw [List.flatMap_append, List.length_append] at hall
        omega
      omega

/-- What is read of the newest segment after a cut. -/
theorem Newest.recovered (hcodec : codec.RoundTrips) {newest : Option SegmentFile}
    (h : Newest codec newest records done) {left : Option Bytes} (hleft : Leaves newest left) :
    ∃ n, ((left.map fun bytes => (scanSegment codec bytes).records.map Prod.snd).getD []) =
      records.take n ∧ done ≤ n := by
  cases h with
  | absent =>
    cases hleft
    exact ⟨0, rfl, le_rfl⟩
  | bare h =>
    cases hleft with
    | unnamed _ => exact ⟨0, rfl, le_rfl⟩
    | cut _ =>
      rw [h, List.take_nil]
      exact ⟨0, rfl, le_rfl⟩
  | holding h hdone hsafe =>
    cases hleft with
    | unnamed hnamed =>
      rcases hsafe with rfl | ⟨hname, -⟩
      · exact ⟨0, rfl, le_rfl⟩
      · rw [hname] at hnamed
        cases hnamed
    | cut hsynced =>
      obtain ⟨n, htake, hmost⟩ := h.scan_front hcodec _
      refine ⟨n, htake, ?_⟩
      rcases hsafe with rfl | ⟨-, hsafe⟩
      · exact Nat.zero_le n
      · rcases Nat.eq_zero_or_pos done with rfl | hpos
        · exact Nat.zero_le n
        · exact hmost done hdone hpos (hsafe.trans hsynced)

end Image

section Layout

/-- How many records were appended, and how many of them before the last sync. -/
def count (t : ℕ × ℕ) : Syscall → ℕ × ℕ
  | .append _ _ => (t.1 + 1, t.2)
  | .fdatasync _ => (t.1, t.1)
  | _ => t

def tally (calls : List Syscall) : ℕ × ℕ := calls.foldl count (0, 0)

theorem tally_snoc (calls : List Syscall) (c : Syscall) :
    tally (calls ++ [c]) = count (tally calls) c := List.foldl_concat _ _ _ _

theorem tally_le (calls : List Syscall) : (tally calls).2 ≤ (tally calls).1 := by
  induction calls using List.reverseRecOn with
  | nil => exact le_rfl
  | append_singleton calls c ih =>
    rw [tally_snoc]
    cases c with
    | append index frame => exact ih.trans (Nat.le_succ _)
    | fdatasync index => exact le_rfl
    | create index => exact ih
    | header index bytes => exact ih
    | fsyncDir => exact ih

/-- What was synced stays synced. -/
theorem tally_mono {calls more : List Syscall} (h : calls <+: more) :
    (tally calls).2 ≤ (tally more).2 := by
  obtain ⟨rest, rfl⟩ := h
  induction rest using List.reverseRecOn with
  | nil => rw [List.append_nil]
  | append_singleton rest c ih =>
    rw [← List.append_assoc, tally_snoc]
    cases c with
    | append index frame => exact ih
    | fdatasync index => exact ih.trans (tally_le _)
    | create index => exact ih
    | header index bytes => exact ih
    | fsyncDir => exact ih

/-- The records of the segments that are done with. -/
def finished (first cur : ℕ) (segments : ℕ → List WalRecord) : List WalRecord :=
  (List.range' first (cur - first)).flatMap segments

/-- The disk while the boot that starts with a segment has come to another one: all but that one. -/
structure Base (codec : Codec) (earlier : Disk) (first cur : ℕ) (segments : ℕ → List WalRecord)
    (d : Disk) : Prop where
  first_le : first ≤ cur
  below : ∀ j < first, d j = earlier j
  above : ∀ j, cur < j → j < 2 ^ 64 → d j = none
  older : ∀ j, first ≤ j → j < cur → ∃ file, d j = some file ∧ Holding codec (segments j) file ∧
    file.named = true ∧ file.synced = file.written.length

variable {codec : Codec} {earlier d : Disk} {first cur done : ℕ} {segments : ℕ → List WalRecord}
  {records : List WalRecord} {dir left : Directory}

/-- A durable file is there as it was. -/
theorem Leaves.eq_of_durable {file : SegmentFile} {bytes : Option Bytes}
    (h : Leaves (some file) bytes) (hnamed : file.named = true)
    (hsynced : file.synced = file.written.length) : bytes = some file.written := by
  cases h with
  | unnamed hno =>
    rw [hnamed] at hno
    cases hno
  | cut hk => rw [List.take_of_length_le (hsynced ▸ hk)]

/-- The journal after a cut: what was there before the boot, the segments that are done with, and a
front of the newest one. -/
theorem Base.recovered (hcodec : codec.RoundTrips)
    (h : Base codec (diskOf dir) first cur segments d) (hnewest : Newest codec (d cur) records done)
    (hdir : Named dir) (hfirst : nextSegmentIndex dir ≤ first) (hcur : cur < 2 ^ 64)
    (himage : CrashImage d left) :
    ∃ n, done ≤ n ∧ journal codec left =
      journal codec dir ++ (finished first cur segments ++ records.take n) := by
  obtain ⟨n, hn, hdone⟩ := hnewest.recovered hcodec (himage.leaves cur)
  refine ⟨n, hdone, ?_⟩
  have hbelow : ∀ j ∈ List.range first, recordsAt codec left j = recordsAt codec dir j := by
    intro j hj
    have hleft := himage.leaves j
    rw [h.below j (List.mem_range.mp hj), diskOf] at hleft
    unfold recordsAt
    cases hsegment : segment dir j with
    | none =>
      rw [hsegment] at hleft
      cases hleft' : segment left j with
      | none => rfl
      | some bytes =>
        rw [hleft'] at hleft
        cases hleft
    | some bytes =>
      rw [hsegment] at hleft
      rw [hleft.eq_of_durable rfl rfl]
  have hmiddle : ∀ j ∈ List.range' first (cur - first), recordsAt codec left j = segments j := by
    intro j hj
    have hrange := List.mem_range'_1.mp hj
    obtain ⟨file, hfile, hholding, hnamed, hsynced⟩ := h.older j hrange.1 (by omega)
    have hleft := himage.leaves j
    rw [hfile] at hleft
    have hread := hleft.eq_of_durable hnamed hsynced
    obtain ⟨m, hm, hall⟩ := hholding.scan_front hcodec file.written.length
    rw [List.take_length] at hm
    rw [recordsAt, hread, Option.map_some, Option.getD_some, hm]
    apply List.take_of_length_le
    rcases Nat.eq_zero_or_pos (segments j).length with hzero | hpos
    · rw [hzero]
      exact Nat.zero_le m
    · refine hall _ le_rfl hpos ?_
      obtain ⟨wallNs, monoNs, hwritten⟩ := hholding.written
      rw [List.take_length, hwritten, List.length_append, SegmentHeader.length_encode]
      exact le_rfl
  have hlast : ∀ j, cur + 1 ≤ j → j < 2 ^ 64 → segment left j = none := by
    intro j hj hlt
    have hleft := himage.leaves j
    rw [h.above j hj hlt] at hleft
    cases hleft' : segment left j with
    | none => rfl
    | some bytes =>
      rw [hleft'] at hleft
      cases hleft
  have hbefore : journal codec dir = (List.range first).flatMap (recordsAt codec dir) :=
    journal_eq hdir (by have := h.first_le; omega)
      fun i hi hlt => segment_none_of_next hdir hlt (hfirst.trans hi)
  rw [journal_eq himage.toNamed hcur hlast, hbefore]
  have hrange : List.range (cur + 1) =
      List.range first ++ (List.range' first (cur - first) ++ [cur]) := by
    have hfront : List.range' 0 first ++ List.range' (0 + first) (cur - first) =
        List.range' 0 (first + (cur - first)) := List.range'_append_1
    rw [Nat.zero_add, Nat.add_sub_of_le h.first_le] at hfront
    rw [List.range_succ, ← List.append_assoc, List.range_eq_range', List.range_eq_range', hfront]
  rw [hrange, List.flatMap_append, List.flatMap_append, List.flatMap_singleton,
    List.flatMap_congr hbelow, List.flatMap_congr hmiddle, finished]
  exact congrArg (fun part => _ ++ (_ ++ part)) hn

/-- The call is about this segment, or about the directory. -/
def Concerns (index : ℕ) : Syscall → Prop
  | .create i | .header i _ | .append i _ | .fdatasync i => i = index
  | .fsyncDir => True

/-- What is durable does not change while the newest segment is written. -/
theorem Base.call {c : Syscall} (h : Base codec (diskOf dir) first cur segments d)
    (hc : Concerns cur c) : Base codec (diskOf dir) first cur segments (d.call c) := by
  have hsame : ∀ j, j ≠ cur → (∀ file, d j = some file → file.named = true) →
      d.call c j = d j := by
    intro j hj hnamed
    cases c with
    | create i => exact Function.update_of_ne (hc ▸ hj) _ _
    | header i bytes => exact Disk.modify_of_ne _ (hc ▸ hj)
    | append i bytes => exact Disk.modify_of_ne _ (hc ▸ hj)
    | fdatasync i => exact Disk.modify_of_ne _ (hc ▸ hj)
    | fsyncDir =>
      change (d j).map _ = d j
      cases hfile : d j with
      | none => rfl
      | some file => rw [Option.map_some, ← hnamed file hfile]
  exact
    { first_le := h.first_le
      below := by
        intro j hj
        rw [hsame j (hj.trans_le h.first_le).ne, h.below j hj]
        intro file hfile
        rw [h.below j hj, diskOf] at hfile
        obtain ⟨bytes, -, rfl⟩ := Option.map_eq_some_iff.mp hfile
        rfl
      above := by
        intro j hj hlt
        have hnone := h.above j hj hlt
        rw [hsame j hj.ne', hnone]
        intro file hfile
        rw [hnone] at hfile
        cases hfile
      older := by
        intro j hfirst hj
        obtain ⟨file, hfile, hholding, hnamed, hsynced⟩ := h.older j hfirst hj
        refine ⟨file, ?_, hholding, hnamed, hsynced⟩
        rw [hsame j hj.ne, hfile]
        intro file' hfile'
        rw [hfile, Option.some.injEq] at hfile'
        exact hfile' ▸ hnamed }

theorem Base.calls {calls : List Syscall} (h : Base codec (diskOf dir) first cur segments d)
    (hcalls : ∀ c ∈ calls, Concerns cur c) :
    Base codec (diskOf dir) first cur segments (d.after calls) := by
  induction calls generalizing d with
  | nil => exact h
  | cons c calls ih =>
    exact ih (h.call (hcalls c List.mem_cons_self)) fun c' hc' =>
      hcalls c' (List.mem_cons_of_mem c hc')

theorem finished_succ (hfirst : first ≤ cur) :
    finished first (cur + 1) (Function.update segments cur records) =
      finished first cur segments ++ records := by
  have hlength : cur + 1 - first = cur - first + 1 := by omega
  have hlast : first + (cur - first) = cur := by omega
  rw [finished, hlength, List.range'_1_concat, List.flatMap_append, hlast, List.flatMap_singleton,
    Function.update_self, finished]
  congr 1
  apply List.flatMap_congr
  intro j hj
  have hrange := List.mem_range'_1.mp hj
  exact Function.update_of_ne (by omega) _ _

/-- A newest segment that is durable is done with. -/
theorem Base.next {file : SegmentFile} (h : Base codec earlier first cur segments d)
    (hfile : d cur = some file) (hholding : Holding codec records file)
    (hnamed : file.named = true) (hsynced : file.synced = file.written.length) :
    Base codec earlier first (cur + 1) (Function.update segments cur records) d where
  first_le := Nat.le_succ_of_le h.first_le
  below := h.below
  above := fun j hj hlt => h.above j (Nat.lt_of_succ_lt hj) hlt
  older := by
    intro j hfirst hj
    rcases (Nat.lt_succ_iff.mp hj).lt_or_eq with hlt | rfl
    · rw [Function.update_of_ne hlt.ne]
      exact h.older j hfirst hlt
    · rw [Function.update_self]
      exact ⟨file, hfile, hholding, hnamed, hsynced⟩

end Layout

section Chart

/-- Where the log stands after some calls: the newest segment, what it holds and how much of that
is safe. -/
structure Chart (codec : Codec) (earlier : Disk) (first : ℕ) (appended : List WalRecord)
    (calls : List Syscall) (cur : ℕ) (segments : ℕ → List WalRecord) (records : List WalRecord)
    (done : ℕ) : Prop extends Base codec earlier first cur segments (earlier.after calls) where
  newest : Newest codec (earlier.after calls cur) records done
  front : finished first cur segments ++ records <+: appended
  count : (finished first cur segments ++ records).length = (tally calls).1
  synced : (tally calls).2 ≤ (finished first cur segments).length + done

def Charted (codec : Codec) (earlier : Disk) (first last : ℕ) (appended : List WalRecord)
    (calls : List Syscall) : Prop :=
  ∃ cur ≤ last, ∃ segments records done,
    Chart codec earlier first appended calls cur segments records done

variable {codec : Codec} {earlier : Disk} {first last cur : ℕ} {segments : ℕ → List WalRecord}
  {appended : List WalRecord} {calls : List Syscall} {dir : Directory}

theorem Charted.mono {last' : ℕ} {appended' : List WalRecord}
    (h : Charted codec earlier first last appended calls) (hlast : last ≤ last')
    (happended : appended <+: appended') : Charted codec earlier first last' appended' calls := by
  obtain ⟨cur, hcur, segments, records, done, hchart⟩ := h
  exact ⟨cur, hcur.trans hlast, segments, records, done,
    { hchart with front := hchart.front.trans happended }⟩

/-- The calls that start a segment. -/
def opening (index : ℕ) (header : SegmentHeader) : List Syscall :=
  [.create index, .header index header.encode, .fdatasync index, .fsyncDir]

/-- What the disk holds of the segment while it is started. -/
theorem newest_opening (d : Disk) (wallNs monoNs : UInt64) {more : List Syscall}
    (hmore : more <+: opening cur (.new wallNs monoNs)) (hne : more ≠ []) :
    Newest codec (d.after more cur) [] 0 := by
  have hholding : ∀ file : SegmentFile, file.written = (SegmentHeader.new wallNs monoNs).encode →
      Newest codec (some file) [] 0 := by
    intro file hwritten
    refine .holding ⟨⟨wallNs, monoNs, ?_⟩, ?_, ?_⟩ le_rfl (.inl rfl)
    · rw [hwritten, List.flatMap_nil, List.append_nil]
    · simp
    · rw [hwritten, SegmentHeader.length_encode, maxSegmentRead]
      omega
  have hcases : more = [.create cur] ∨
      more = [.create cur, .header cur (SegmentHeader.new wallNs monoNs).encode] ∨
      more = [.create cur, .header cur (SegmentHeader.new wallNs monoNs).encode,
        .fdatasync cur] ∨ more = opening cur (.new wallNs monoNs) := by
    simp only [opening, List.prefix_cons_iff, List.prefix_nil] at hmore ⊢
    grind
  rcases hcases with rfl | rfl | rfl | rfl
  · simp only [Disk.after, List.foldl_cons, List.foldl_nil, Disk.call, Function.update_self]
    exact .bare rfl
  · simp only [Disk.after, List.foldl_cons, List.foldl_nil, Disk.call, Disk.modify,
      Function.update_self, Option.map_some]
    exact hholding _ rfl
  · simp only [Disk.after, List.foldl_cons, List.foldl_nil, Disk.call, Disk.modify,
      Function.update_self, Option.map_some]
    exact hholding _ rfl
  · simp only [opening, Disk.after, List.foldl_cons, List.foldl_nil, Disk.call, Disk.modify,
      Function.update_self, Option.map_some]
    exact hholding _ rfl

theorem tally_opening (calls : List Syscall) (header : SegmentHeader) {more : List Syscall}
    (hmore : more <+: opening cur header) : (tally (calls ++ more)).1 = (tally calls).1 := by
  have hnone : ∀ c ∈ more, ∀ t, (count t c).1 = t.1 := by
    intro c hc t
    have hc' := hmore.subset hc
    simp only [opening, List.mem_cons, List.not_mem_nil, or_false] at hc'
    rcases hc' with rfl | rfl | rfl | rfl <;> rfl
  clear hmore
  induction more using List.reverseRecOn with
  | nil => rw [List.append_nil]
  | append_singleton more c ih =>
    rw [← List.append_assoc, tally_snoc, hnone c (by simp)]
    exact ih fun c' hc' => hnone c' (List.mem_append_left _ hc')

/-- A segment is started when all records before it are done with. -/
theorem Base.opening (h : Base codec (diskOf dir) first cur segments ((diskOf dir).after calls))
    (hall : finished first cur segments = appended) (hcount : (tally calls).1 = appended.length)
    (wallNs monoNs : UInt64) {more : List Syscall}
    (hmore : more <+: opening cur (.new wallNs monoNs)) (hne : more ≠ []) :
    Chart codec (diskOf dir) first appended (calls ++ more) cur segments [] 0 := by
  have hafter : (diskOf dir).after (calls ++ more) = ((diskOf dir).after calls).after more :=
    List.foldl_append
  have htally := tally_opening calls _ hmore
  have hbase : Base codec (diskOf dir) first cur segments ((diskOf dir).after (calls ++ more)) := by
    rw [hafter]
    refine h.calls fun c hc => ?_
    have hc' := hmore.subset hc
    simp only [Recording.opening, List.mem_cons, List.not_mem_nil, or_false] at hc'
    rcases hc' with rfl | rfl | rfl | rfl
    · exact rfl
    · exact rfl
    · exact rfl
    · trivial
  exact
    { hbase with
      newest := by
        rw [hafter]
        exact newest_opening _ wallNs monoNs hmore hne
      front := by rw [List.append_nil, hall]
      count := by rw [List.append_nil, hall, htally, hcount]
      synced := by
        rw [hall, Nat.add_zero, ← hcount, ← htally]
        exact tally_le _ }

end Chart

end DeadReckoning.Recording
