import DeadReckoning.Reconstruct.Exclude
import DeadReckoning.Reconstruct.FileWindow
import DeadReckoning.Recording.Handover

/-! From a cancelled object that a producer offers to the report that recovery reads. -/
namespace DeadReckoning.Reconstruct

open Gcode (Arithmetic CaseMapping)
open Recording (Clocks Disk Journal SenderCall SenderEvent SenderLog Service WalCmd WalSvcCfg
  excludeFingerprint lastExclusion lastOffered lossMarker receivedBy sinceExclusion told toldBy)
open Wal (Codec Context ExcludeState HeartbeatFile HeartbeatRecovery Marker ScanEnd WalRecord)

section Ingested

variable {K : Type}

def contextOf? : WalRecord → Option Context
  | .context context => some context
  | .trapqSegment _ | .stepperRange _ | .marker _ | .heartbeat _ => none

def markerOf? : WalRecord → Option Marker
  | .marker marker => some marker
  | .trapqSegment _ | .stepperRange _ | .context _ | .heartbeat _ => none

/-- The finite ones of some records. -/
def finiteRecords (records : List ScannedRecord) : List WalRecord :=
  (records.map Prod.snd).filter WalRecord.valuesAreFinite

theorem marker_kept (s : Ingest K) (idx : ℕ) (m : Marker) :
    (s.marker idx m).contexts = s.contexts ∧ (s.marker idx m).markers = s.markers := by
  obtain ⟨monoNs, kind⟩ := m
  cases kind <;> exact ⟨rfl, rfl⟩

variable [Field K]

theorem segment_kept (s : Ingest K) (seg : Wal.TrapqSegment) :
    (s.segment seg).contexts = s.contexts ∧ (s.segment seg).markers = s.markers := by
  unfold Ingest.segment
  split_ifs
  · exact ⟨rfl, rfl⟩
  · exact ⟨rfl, rfl⟩
  · exact ⟨rfl, rfl⟩

theorem record_told (s : Ingest K) (idx : ℕ) (scanned : ScannedRecord) :
    (s.record idx scanned).contexts =
        s.contexts ++ (finiteRecords [scanned]).filterMap contextOf? ∧
      (s.record idx scanned).markers =
        s.markers ++ (finiteRecords [scanned]).filterMap markerOf? := by
  obtain ⟨offset, record⟩ := scanned
  unfold Ingest.record
  cases hfinite : record.valuesAreFinite with
  | false => simp [finiteRecords, hfinite, Ingest.note]
  | true =>
    have hone : finiteRecords [(offset, record)] = [record] := by simp [finiteRecords, hfinite]
    rw [hone]
    simp only [Bool.not_true, Bool.false_eq_true, if_false]
    cases record with
    | trapqSegment seg =>
      obtain ⟨hcontexts, hmarkers⟩ := segment_kept (s.moved idx seg.monoNs) seg
      exact ⟨hcontexts.trans (List.append_nil _).symm, hmarkers.trans (List.append_nil _).symm⟩
    | stepperRange range => exact ⟨(List.append_nil _).symm, (List.append_nil _).symm⟩
    | context context => exact ⟨rfl, (List.append_nil _).symm⟩
    | heartbeat heartbeat => exact ⟨(List.append_nil _).symm, (List.append_nil _).symm⟩
    | marker marker =>
      obtain ⟨hcontexts, hmarkers⟩ := marker_kept s idx marker
      exact ⟨hcontexts.trans (List.append_nil _).symm, congrArg (· ++ [marker]) hmarkers⟩

theorem records_told (idx : ℕ) (s : Ingest K) (records : List ScannedRecord) :
    (Ingest.records idx s records).contexts =
        s.contexts ++ (finiteRecords records).filterMap contextOf? ∧
      (Ingest.records idx s records).markers =
        s.markers ++ (finiteRecords records).filterMap markerOf? := by
  induction records generalizing idx s with
  | nil => simp [Ingest.records, finiteRecords]
  | cons scanned records ih =>
    obtain ⟨hcontexts, hmarkers⟩ := record_told s idx scanned
    obtain ⟨hrest, hrest'⟩ := ih (idx + 1) (s.record idx scanned)
    have hsplit : finiteRecords (scanned :: records) =
        finiteRecords [scanned] ++ finiteRecords records := by
      unfold finiteRecords
      rw [← List.singleton_append, List.map_append, List.filter_append]
    rw [Ingest.records, hrest, hrest', hcontexts, hmarkers, hsplit, List.filterMap_append,
      List.filterMap_append, List.append_assoc, List.append_assoc]
    exact ⟨rfl, rfl⟩

variable [LinearOrder K]

/-- A timeline has the contexts and the markers of the records, in order. -/
theorem ingest_told (records : List ScannedRecord) (scanEnd : ScanEnd)
    (heartbeat : Option HeartbeatRecovery) :
    (ingest records scanEnd heartbeat : WalTimeline K).contexts =
        (finiteRecords records).filterMap contextOf? ∧
      (ingest records scanEnd heartbeat : WalTimeline K).markers =
        (finiteRecords records).filterMap markerOf? :=
  records_told 0 .empty records

end Ingested

section Journaled

variable {K : Type}

/-- The objects of a context, and when they were observed. -/
def objectsOf? (context : Context) : Option (ℕ × ExcludeState) :=
  context.exclude.map fun exclude => (context.monoNs, exclude)

/-- Some observations of the objects, taken together. -/
def mergeAll (observations : List (ℕ × ExcludeState)) : Option JournaledState :=
  observations.foldl (fun state observation =>
    some ((state.getD ⟨[], false, [], none, 0⟩).merge observation.1 observation.2)) none

theorem journaledState_eq (t : WalTimeline K) :
    journaledState t = mergeAll (t.contexts.filterMap objectsOf?) := by
  unfold journaledState mergeAll
  generalize (none : Option JournaledState) = state
  induction t.contexts generalizing state with
  | nil => rfl
  | cons context contexts ih =>
    rw [List.foldl_cons, ih]
    cases hexclude : context.exclude with
    | none => simp [objectsOf?, hexclude]
    | some exclude => simp [objectsOf?, hexclude]

theorem mergeAll_snoc (observations : List (ℕ × ExcludeState)) (last : ℕ × ExcludeState) :
    mergeAll (observations ++ [last]) =
      some (((mergeAll observations).getD ⟨[], false, [], none, 0⟩).merge last.1 last.2) := by
  unfold mergeAll
  rw [List.foldl_append]
  rfl

/-- The excluded names are those of the last observation. -/
theorem mergeAll_excluded {observations : List (ℕ × ExcludeState)} {state : JournaledState}
    (h : mergeAll observations = some state) :
    (observations.map (·.2.excluded)).getLast? = some state.excluded := by
  rcases List.eq_nil_or_concat observations with rfl | ⟨front, last, rfl⟩
  · cases h
  · rw [List.concat_eq_append, mergeAll_snoc] at h
    obtain rfl := Option.some.inj h
    simp [JournaledState.merge]

/-- The time of the observations is that of one of them. -/
theorem mergeAll_observed {observations : List (ℕ × ExcludeState)} {state : JournaledState}
    {bound : ℕ} (h : mergeAll observations = some state) (hbound : ∀ o ∈ observations, o.1 < bound) :
    state.observedMonoNs < bound := by
  induction observations using List.reverseRecOn generalizing state with
  | nil => cases h
  | append_singleton front last ih =>
    rw [mergeAll_snoc] at h
    obtain rfl := Option.some.inj h
    have hlast := hbound last (by simp)
    show max _ last.1 < bound
    rw [max_lt_iff]
    refine ⟨?_, hlast⟩
    cases hfront : mergeAll front with
    | none => exact lt_of_le_of_lt (Nat.zero_le _) hlast
    | some earlier => exact ih hfront fun o ho => hbound o (by simp [ho])

theorem mergeAll_isSome {observations : List (ℕ × ExcludeState)} (h : observations ≠ []) :
    ∃ state, mergeAll observations = some state := by
  rcases List.eq_nil_or_concat observations with rfl | ⟨front, last, rfl⟩
  · exact absurd rfl h
  · rw [List.concat_eq_append, mergeAll_snoc]
    exact ⟨_, rfl⟩

variable [Field K] [LinearOrder K]

/-- A report without a cause for doubt, over a state that the log gave. -/
theorem conclusive_report {arith : Arithmetic K} {cases : CaseMapping} {json : JsonNumbers}
    {t : WalTimeline K} {inputs : ExclusionInputs K} {config : ReconstructConfig K}
    {state : JournaledState} (hstate : journaledState t = some state)
    (h : (resolveExclusions arith cases json t inputs config).uncertaintyCauses = []) :
    (resolveExclusions arith cases json t inputs config).excluded = state.excluded ∧
      ((state.excluded = [] ∧ ∃ tail, inputs.file = some tail ∧ tail.baseOffset = 0 ∧
          (parseObjectDefinitions cases json tail.bytes).definitions = []) ∨
        ∀ marker ∈ t.markers,
          (markerCause state.observedMonoNs marker : Option (UncertaintyCause K)) = none) := by
  unfold resolveExclusions at h ⊢
  rw [hstate] at h ⊢
  dsimp only at h ⊢
  refine ⟨rfl, ?_⟩
  generalize hscan : ((inputs.file.filter fun tail => tail.baseOffset = 0).map fun tail =>
    parseObjectDefinitions cases json tail.bytes) = fileScan at h
  generalize hreport : journaledReport arith state fileScan t inputs config = report at h
  have hprovenance : report.provenance = .journaled := by rw [← hreport]; rfl
  have hexcluded : report.excluded = state.excluded := by rw [← hreport]; rfl
  have hobserved : report.observedMonoNs = some state.observedMonoNs := by rw [← hreport]; rfl
  have hdefines : report.fileDefinesObjects = fileScan.map fun scan => !scan.isEmpty := by
    rw [← hreport]; rfl
  have hcauses : uncertaintyCauses report t inputs config = [] := by
    unfold ExclusionReport.uncertaintyCauses at h
    dsimp only at h
    rw [List.filterMap_append, List.append_eq_nil_iff, List.filterMap_map] at h
    exact (List.filterMap_some (l := uncertaintyCauses report t inputs config)).symm.trans h.1
  unfold uncertaintyCauses at hcauses
  rw [hprovenance] at hcauses
  dsimp only at hcauses
  by_cases hnothing : nothingToCancel report = true
  · left
    unfold nothingToCancel at hnothing
    simp only [Bool.and_eq_true, List.isEmpty_iff, decide_eq_true_eq] at hnothing
    obtain ⟨⟨⟨-, hempty⟩, -⟩, hnone⟩ := hnothing
    refine ⟨hexcluded ▸ hempty, ?_⟩
    rw [hdefines] at hnone
    obtain ⟨scan, hscan', hisEmpty⟩ := Option.map_eq_some_iff.mp hnone
    rw [hscan'] at hscan
    obtain ⟨tail, htail, rfl⟩ := Option.map_eq_some_iff.mp hscan
    obtain ⟨hfile, hbase⟩ := Option.filter_eq_some_iff.mp htail
    refine ⟨tail, hfile, of_decide_eq_true hbase, ?_⟩
    rw [Bool.not_eq_false'] at hisEmpty
    unfold FileObjectScan.isEmpty at hisEmpty
    rw [Bool.and_eq_true] at hisEmpty
    exact List.isEmpty_iff.mp hisEmpty.1
  · right
    rw [if_neg hnothing, hobserved, List.append_assoc] at hcauses
    obtain ⟨hmarkers, -⟩ := List.append_eq_nil_iff.mp hcauses
    exact List.filterMap_eq_nil_iff.mp hmarkers

end Journaled

section Delivery

/-- A producer's calls, and everything that carries them to the disk: the turns of the consumer
between the attempts to send, and those of the service. -/
structure Delivery where
  calls : List SenderCall
  capacity : ℕ
  drains : List Turn
  codec : Codec
  earlier : Disk
  cfg : WalSvcCfg
  first : ℕ
  heartbeatFile : HeartbeatFile
  now : ℕ
  clocks : Clocks
  turns : List (Option WalCmd × Clocks)

namespace Delivery

def journal (d : Delivery) : Journal := .after d.capacity d.drains d.calls

def service (d : Delivery) : Service :=
  (Service.init d.cfg d.first d.heartbeatFile d.now d.clocks).run d.codec d.turns

def segment (d : Delivery) (index : ℕ) : Option Wal.RecoveryScan :=
  (d.service.disk d.earlier index).map fun file => Wal.scan d.codec file.written

/-- The scans of all segments, one behind the other. -/
def records (d : Delivery) : List ScannedRecord :=
  (List.range' d.first (d.service.segIndex + 1 - d.first)).flatMap fun index =>
    ((d.segment index).map (·.records)).getD []

/-- Why the scan of the newest segment ends. -/
def scanEnd (d : Delivery) : ScanEnd := ((d.segment d.service.segIndex).map (·.stop)).getD .cleanEof

/-- The contexts that the producer offers. -/
def contexts (d : Delivery) : List Context :=
  (d.calls.filterMap SenderCall.offers?).filterMap contextOf?

/-- The names of the last context that bears them. -/
def lastOffered (d : Delivery) : Option (List String) :=
  Recording.lastOffered (d.calls.filterMap SenderCall.offers?)

/-- The contexts are offered at their own times, which increase; the service receives what the
channel accepted, and nothing waits for room; some context that bears objects was accepted. -/
structure Complete (d : Delivery) : Prop where
  codec : d.codec.RoundTrips
  stamped : ∀ context sync monoNs, .record (.context context) sync monoNs ∈ d.calls →
    monoNs = context.monoNs
  increasing : d.contexts.Pairwise fun a b => a.monoNs < b.monoNs
  outbox : d.journal.sender.outbox = []
  received : receivedBy d.turns = d.journal.channel.accepted
  accepted : ∃ record sync, .accepted record sync ∈ d.journal.log ∧
    (excludeFingerprint record).isSome = true

/-- The writer takes every context that bears objects, and every marker, that it is handed. -/
def NothingRefused (d : Delivery) : Prop :=
  ∀ record sync, .append record sync ∈ d.journal.channel.accepted → told record = true →
    Wal.Accepted d.codec record

/-- The file defines every object that a context names as cancelled. -/
def FileDefines (d : Delivery) (cases : CaseMapping) (json : JsonNumbers)
    (file : Option FileTail) : Prop :=
  ∀ tail, file = some tail → tail.baseOffset = 0 → ∀ context ∈ d.contexts, ∀ exclude,
    context.exclude = some exclude → ∀ name ∈ exclude.excluded,
      (parseObjectDefinitions cases json tail.bytes).definitions.any fun definition =>
        eqIgnoreAsciiCase definition.name name

theorem kept (d : Delivery) : Recording.Kept d.codec d.earlier d.first d.service :=
  Recording.kept_init.run

theorem records_map_snd (d : Delivery) (hcodec : d.codec.RoundTrips) :
    d.records.map Prod.snd = d.service.appended := by
  refine Eq.trans ?_ (d.kept.durability hcodec).records
  unfold records
  rw [List.map_flatMap]
  apply List.flatMap_congr
  intro index _
  unfold segment Recording.recordsIn
  cases d.service.disk d.earlier index with
  | none => rfl
  | some file => rfl

/-- Nothing of the log is skipped when it is read. -/
theorem finiteRecords_eq (d : Delivery) (hcodec : d.codec.RoundTrips) :
    finiteRecords d.records = d.service.appended := by
  unfold finiteRecords
  rw [d.records_map_snd hcodec, List.filter_eq_self]
  exact fun record hmem => (Recording.appended_accepted d.kept record hmem).1

/-- The log has what the report rests on, as the sender's books have it. -/
theorem told_appended {d : Delivery} (hcomplete : d.Complete) (hkept : d.NothingRefused) :
    d.service.appended.filter told =
      ((d.journal.log.filterMap SenderEvent.append?).map Prod.fst).filter told := by
  have hstream : d.journal.stream = d.journal.log.filterMap SenderEvent.append? :=
    (Recording.streamInv_after d.capacity d.drains d.calls).stream
  have hqueued : d.journal.stream = d.journal.channel.accepted.filterMap WalCmd.append? := by
    unfold Journal.stream
    rw [hcomplete.outbox]
    exact List.append_nil _
  have hinit : Recording.Kept d.codec d.earlier d.first
      (Service.init d.cfg d.first d.heartbeatFile d.now d.clocks) := Recording.kept_init
  have hrun : d.service.appended.filter told = [] ++ toldBy (receivedBy d.turns) := by
    refine Recording.run_told hinit ?_
    rw [hcomplete.received]
    exact hkept
  rw [hrun, hcomplete.received, ← hstream, hqueued]
  rfl

/-- The objects of a record, and when they were observed. -/
def objectsIn (record : WalRecord) : Option (ℕ × ExcludeState) :=
  (contextOf? record).bind objectsOf?

theorem filterMap_told {β : Type} {f : WalRecord → Option β} (hf : ∀ r, told r = false → f r = none)
    (records : List WalRecord) : (records.filter told).filterMap f = records.filterMap f := by
  induction records with
  | nil => rfl
  | cons r records ih =>
    cases htold : told r with
    | true => simp [htold, List.filterMap_cons, ih]
    | false => simp [htold, hf r htold, ih]

theorem objectsIn_untold (record : WalRecord) (h : told record = false) :
    objectsIn record = none := by
  cases record with
  | context context =>
    have hnone : context.exclude = none := by
      cases hexclude : context.exclude with
      | none => rfl
      | some exclude =>
        have hsome : context.exclude.isSome = false := h
        rw [hexclude] at hsome
        cases hsome
    simp [objectsIn, contextOf?, objectsOf?, hnone]
  | marker marker => cases h
  | trapqSegment _ | stepperRange _ | heartbeat _ => rfl

theorem markerOf?_untold (record : WalRecord) (h : told record = false) :
    markerOf? record = none := by
  cases record with
  | marker marker => cases h
  | context _ | trapqSegment _ | stepperRange _ | heartbeat _ => rfl

/-- The observations that the sender got rid of, as its books have them. -/
def observations (log : SenderLog) : List (ℕ × ExcludeState) :=
  log.filterMap fun e => (e.append?.map Prod.fst).bind objectsIn

theorem mem_observations {log : SenderLog} {o : ℕ × ExcludeState} (h : o ∈ observations log) :
    ∃ record sync, .accepted record sync ∈ log ∧ objectsIn record = some o := by
  obtain ⟨e, he, ho⟩ := List.mem_filterMap.mp h
  cases e with
  | accepted record sync => exact ⟨record, sync, he, ho⟩
  | placed marker => cases ho
  | gap start stop => cases ho
  | dropped record monoNs evidence =>
    cases evidence with
    | none => cases ho
    | some marker => cases ho

/-- The names that were observed are those of the accepted contexts. -/
theorem observations_excluded (log : SenderLog) :
    ((observations log).map (·.2.excluded)).getLast? = lastExclusion log := by
  unfold observations lastExclusion
  rw [List.map_filterMap]
  congr 1
  apply List.filterMap_congr
  intro e _
  cases e with
  | accepted record sync =>
    cases record with
    | context context =>
      cases hexclude : context.exclude <;>
        simp [SenderEvent.append?, SenderEvent.exclusion?, excludeFingerprint, objectsIn,
          contextOf?, objectsOf?, hexclude]
    | trapqSegment _ | stepperRange _ | marker _ | heartbeat _ => rfl
  | placed marker => rfl
  | gap start stop => rfl
  | dropped record monoNs evidence =>
    cases evidence with
    | none => rfl
    | some marker => rfl

variable {K : Type} [Field K] [LinearOrder K]

/-- The log as one epoch. -/
def timeline (d : Delivery) (heartbeat : Option HeartbeatRecovery) : WalTimeline K :=
  ingest d.records d.scanEnd heartbeat

theorem timeline_told {d : Delivery} (hcomplete : d.Complete) (hkept : d.NothingRefused)
    (heartbeat : Option HeartbeatRecovery) :
    (d.timeline heartbeat : WalTimeline K).contexts.filterMap objectsOf? =
        observations d.journal.log ∧
      (d.timeline heartbeat : WalTimeline K).markers =
        ((d.journal.log.filterMap SenderEvent.append?).map Prod.fst).filterMap markerOf? := by
  obtain ⟨hcontexts, hmarkers⟩ := ingest_told (K := K) d.records d.scanEnd heartbeat
  have htold := told_appended hcomplete hkept
  unfold timeline
  rw [hcontexts, hmarkers, d.finiteRecords_eq hcomplete.codec, List.filterMap_filterMap]
  constructor
  · calc d.service.appended.filterMap objectsIn
      _ = (d.service.appended.filter told).filterMap objectsIn :=
          (filterMap_told objectsIn_untold _).symm
      _ = ((d.journal.log.filterMap SenderEvent.append?).map Prod.fst).filterMap objectsIn := by
          rw [htold, filterMap_told objectsIn_untold]
      _ = observations d.journal.log := by
          unfold observations
          rw [List.filterMap_map, List.filterMap_filterMap]
          apply List.filterMap_congr
          intro e _
          cases e.append? <;> rfl
  · rw [← filterMap_told markerOf?_untold, htold, filterMap_told markerOf?_untold]

/-- Evidence is newer than every accepted context that bears objects. -/
theorem evidence_newer {d : Delivery} (hcomplete : d.Complete) {record : WalRecord} {monoNs : ℕ}
    {evidence : Option Marker}
    (hmem : .dropped record monoNs evidence ∈ sinceExclusion d.journal.log)
    (hbears : (excludeFingerprint record).isSome = true) :
    ∀ o ∈ observations d.journal.log, o.1 < monoNs := by
  have hoffers := Recording.offerInv_after d.capacity d.drains d.calls
  have hsplit : d.journal.log.rdropWhile (fun e => e.exclusion?.isNone) ++
      sinceExclusion d.journal.log = d.journal.log := List.rdropWhile_append_rtakeWhile
  have hin : .dropped record monoNs evidence ∈ d.journal.log := by
    rw [← hsplit]
    exact List.mem_append_right _ hmem
  cases record with
  | context context =>
    obtain ⟨sync, hcall⟩ := hoffers.stamped _ _ _ hin
    obtain rfl := hcomplete.stamped context sync monoNs hcall
    intro o ho
    obtain ⟨other, sync', haccepted, hobjects⟩ := mem_observations ho
    -- The accepted context is in the part before, the dropped one in the part behind.
    have hbefore : .accepted other sync' ∈
        d.journal.log.rdropWhile (fun e => e.exclusion?.isNone) := by
      rw [← hsplit] at haccepted
      rcases List.mem_append.mp haccepted with hbefore | hbehind
      · exact hbefore
      · have hnone := List.mem_rtakeWhile_imp hbehind
        cases other with
        | context c =>
          cases hexclude : c.exclude with
          | none => simp [objectsIn, contextOf?, objectsOf?, hexclude] at hobjects
          | some exclude =>
            simp [SenderEvent.exclusion?, excludeFingerprint, hexclude] at hnone
        | trapqSegment _ | stepperRange _ | marker _ | heartbeat _ => cases hobjects
    have hcontexts : d.contexts = ((d.journal.log.rdropWhile fun e => e.exclusion?.isNone).filterMap
        SenderEvent.offered?).filterMap contextOf? ++
          ((sinceExclusion d.journal.log).filterMap SenderEvent.offered?).filterMap contextOf? := by
      unfold contexts
      rw [← hoffers.offered, ← List.filterMap_append, ← List.filterMap_append, hsplit]
      rfl
    have hincreasing := hcomplete.increasing
    rw [hcontexts, List.pairwise_append] at hincreasing
    obtain ⟨c, hc, hobserved⟩ := Option.bind_eq_some_iff.mp hobjects
    have htime : o.1 = c.monoNs := by
      obtain ⟨exclude, -, rfl⟩ := Option.map_eq_some_iff.mp hobserved
      rfl
    rw [htime]
    refine hincreasing.2.2 c ?_ context ?_
    · exact List.mem_filterMap.mpr ⟨other, List.mem_filterMap.mpr ⟨_, hbefore, rfl⟩, hc⟩
    · exact List.mem_filterMap.mpr ⟨_, List.mem_filterMap.mpr ⟨_, hmem, rfl⟩, rfl⟩
  | trapqSegment _ | stepperRange _ | marker _ | heartbeat _ => cases hbears

/-- When the file defines none of the objects, none is cancelled. -/
theorem lastOffered_nil {d : Delivery} {cases : CaseMapping} {json : JsonNumbers}
    {file : Option FileTail} (hfile : d.FileDefines cases json file) {tail : FileTail}
    (htail : file = some tail) (hbase : tail.baseOffset = 0)
    (hnone : (parseObjectDefinitions cases json tail.bytes).definitions = []) {names : List String}
    (hnames : d.lastOffered = some names) : names = [] := by
  obtain ⟨⟨names', redefines⟩, hlast, rfl⟩ := Option.map_eq_some_iff.mp hnames
  obtain ⟨record, hrecord, hprint⟩ := List.mem_filterMap.mp (List.mem_of_getLast? hlast)
  cases record with
  | context context =>
    obtain ⟨exclude, hexclude, heq⟩ := Option.map_eq_some_iff.mp hprint
    cases heq
    refine List.eq_nil_iff_forall_not_mem.mpr fun name hname => ?_
    have hcontext : context ∈ d.contexts := List.mem_filterMap.mpr ⟨_, hrecord, rfl⟩
    have hdefined := hfile tail htail hbase context hcontext exclude hexclude name hname
    rw [hnone] at hdefined
    cases hdefined
  | trapqSegment _ | stepperRange _ | marker _ | heartbeat _ => cases hprint

end Delivery

/-- A context with cancelled objects. -/
def cancelledAt (monoNs : ℕ) (excluded : List String) : Context :=
  { contextAt monoNs 5 with exclude := some ⟨none, excluded, none⟩ }

/-- Klipper is confused about the speed. -/
def confusedAt (monoNs : ℕ) (excluded : List String) : Context :=
  { cancelledAt monoNs excluded with
    gcode := { (cancelledAt monoNs excluded).gcode with speed := .nan } }

/-- The codec of two contexts. -/
def cancelledCodec : Codec where
  toVec record :=
    if record = .context (cancelledAt 10 []) then some [1]
    else if record = .context (cancelledAt 20 ["A"]) then some [2]
    else none
  fromSlice payload :=
    if payload = [1] then some (.context (cancelledAt 10 []))
    else if payload = [2] then some (.context (cancelledAt 20 ["A"]))
    else none

theorem cancelledCodec_roundTrips : cancelledCodec.RoundTrips := by
  intro record payload _ h
  unfold cancelledCodec at h ⊢
  dsimp only at h ⊢
  split_ifs at h with hfirst hsecond
  · subst hfirst
    obtain rfl := Option.some.inj h
    rfl
  · subst hsecond
    obtain rfl := Option.some.inj h
    rfl

/-- Two contexts that reach the service at once; the second one cancels an object. -/
def cancelling (second : Context) : Delivery where
  calls := [.record (.context (cancelledAt 10 [])) .immediate 10,
    .record (.context second) .immediate 20]
  capacity := 8
  drains := []
  codec := cancelledCodec
  earlier := fun _ => none
  cfg := Recording.exampleCfg
  first := 1
  heartbeatFile := ⟨.zero, .zero⟩
  now := 0
  clocks := Recording.exampleClocks
  turns := [(some (.append (.context (cancelledAt 10 [])) .immediate), Recording.exampleClocks),
    (some (.append (.context second) .immediate), Recording.exampleClocks)]

/-- The file that defines the object. -/
def cancelledInputs : ExclusionInputs ℚ where
  window := some exampleWindow
  stopEndPrintTime := some 1
  file := some ⟨0, (lit "EXCLUDE_OBJECT_DEFINE NAME=A\n").map fun c => c.toNat.toUInt8⟩

theorem cancelling_complete (second : Context) (htime : second.monoNs = 20)
    (hbears : second.exclude = some ⟨none, ["A"], none⟩) : (cancelling second).Complete where
  codec := cancelledCodec_roundTrips
  stamped := by
    intro context sync monoNs hmem
    rcases List.mem_pair.mp hmem with heq | heq
    · cases heq
      rfl
    · cases heq
      exact htime.symm
  increasing := by
    show [cancelledAt 10 [], second].Pairwise _
    rw [List.pairwise_pair, htime]
    decide
  outbox := by
    cases second
    dsimp only at hbears
    subst hbears
    rfl
  received := rfl
  accepted := ⟨.context (cancelledAt 10 []), .immediate, List.mem_cons_self, rfl⟩

theorem cancelling_defined (second : Context)
    (hbears : second.exclude = some ⟨none, ["A"], none⟩) : (cancelling second).FileDefines
      Gcode.asciiCase ⟨fun _ => none, fun _ => none⟩ cancelledInputs.file := by
  intro tail htail _ context hmem exclude hexclude name hname
  cases htail
  rcases List.mem_pair.mp hmem with rfl | rfl
  · cases hexclude
    cases hname
  · rw [hbears] at hexclude
    cases hexclude
    obtain rfl := List.mem_singleton.mp hname
    decide +kernel

end Delivery

end DeadReckoning.Reconstruct
