import DeadReckoning.Recording.Sender

/-! What the journal can rely on: no marker is lost or doubled on its way, a gap is told before
the record that follows it, and so is the loss of a cancelled object. -/
namespace DeadReckoning.Recording

open Wal (WalRecord SyncPolicy Marker MarkerKind)

section Gaps

def SenderEvent.isAccepted : SenderEvent → Bool
  | accepted _ _ => true
  | placed _ | gap _ _ | dropped _ _ _ => false

def SenderEvent.droppedAt? : SenderEvent → Option ℕ
  | dropped _ monoNs _ => some monoNs
  | accepted _ _ | placed _ | gap _ _ => none

def SenderEvent.covers (monoNs : ℕ) : SenderEvent → Bool
  | gap start stop => start ≤ monoNs && monoNs ≤ stop
  | accepted _ _ | placed _ | dropped _ _ _ => false

/-- What happened since a record was last accepted. -/
def sinceAccepted (log : SenderLog) : SenderLog := log.rtakeWhile fun e => !e.isAccepted

/-- When the records were dropped that were dropped since one was last accepted. -/
def droppedTimes (log : SenderLog) : List ℕ :=
  (sinceAccepted log).filterMap SenderEvent.droppedAt?

/-- The marker of a gap comes last, and every record dropped since the last accepted one lies
in a gap that was told since then. -/
structure GapTold (past : SenderLog) : Prop where
  next : ∃ start stop, past.getLast? = some (.gap start stop)
  covered : ∀ monoNs ∈ droppedTimes past, ∃ e ∈ sinceAccepted past, e.covers monoNs = true

/-- A record that is accepted after others were dropped comes behind their gaps. -/
def GapsHonest (past : SenderLog) : SenderEvent → Prop
  | .accepted _ _ => droppedTimes past ≠ [] → GapTold past
  | .placed _ | .gap _ _ | .dropped _ _ _ => True

theorem sinceAccepted_snoc {log : SenderLog} {e : SenderEvent} (h : e.isAccepted = false) :
    sinceAccepted (log ++ [e]) = sinceAccepted log ++ [e] := by
  rw [sinceAccepted, List.rtakeWhile_concat_pos _ _ _ (by simp [h])]
  rfl

theorem sinceAccepted_accepted {log : SenderLog} {record : WalRecord} {sync : SyncPolicy} :
    sinceAccepted (log ++ [.accepted record sync]) = [] :=
  List.rtakeWhile_concat_neg _ _ _ (by simp [SenderEvent.isAccepted])

theorem droppedTimes_snoc {log : SenderLog} {e : SenderEvent} (h : e.isAccepted = false) :
    droppedTimes (log ++ [e]) = droppedTimes log ++ e.droppedAt?.toList := by
  rw [droppedTimes, sinceAccepted_snoc h, List.filterMap_append, droppedTimes]
  cases he : e.droppedAt? <;> simp [he]

/-- The sender's open gap goes back to the first drop that no marker tells of. -/
structure GapInv (times : List ℕ) (j : Journal) : Prop where
  honest : Trace.Justified GapsHonest j.log
  closed : j.sender.gapStart = none → droppedTimes j.log = []
  covered : ∀ monoNs ∈ droppedTimes j.log,
    (∃ e ∈ sinceAccepted j.log, e.covers monoNs = true) ∨
      ∃ start, j.sender.gapStart = some start ∧ start ≤ monoNs
  known : ∀ monoNs ∈ droppedTimes j.log, monoNs ∈ times
  start : ∀ start, j.sender.gapStart = some start → start ∈ times

variable {times : List ℕ} {j j' : Journal}

theorem GapInv.mono {times' : List ℕ} (h : GapInv times j) (hsub : ∀ t ∈ times, t ∈ times') :
    GapInv times' j :=
  ⟨h.honest, h.closed, h.covered, fun t ht => hsub t (h.known t ht),
    fun s hs => hsub s (h.start s hs)⟩

/-- Events that neither drop nor accept a record nor close a gap. -/
theorem GapInv.placed (h : GapInv times j) {marker : Marker}
    (hbooks : Journal.SameBooks j.sender j'.sender) (hlog : j'.log = j.log ++ [.placed marker]) :
    GapInv times j' := by
  have hplaced : SenderEvent.isAccepted (.placed marker) = false := rfl
  have hsame : droppedTimes j'.log = droppedTimes j.log := by
    rw [hlog, droppedTimes_snoc hplaced]
    exact List.append_nil _
  refine ⟨?_, ?_, ?_, ?_, ?_⟩
  · rw [hlog, Trace.justified_snoc]
    exact ⟨h.honest, trivial⟩
  · rw [hsame, hbooks.1]
    exact h.closed
  · rw [hsame, hbooks.1, hlog, sinceAccepted_snoc hplaced]
    intro t ht
    rcases h.covered t ht with ⟨e, he, hcovers⟩ | hstart
    · exact .inl ⟨e, List.mem_append_left _ he, hcovers⟩
    · exact .inr hstart
  · rw [hsame]
    exact h.known
  · rw [hbooks.1]
    exact h.start

/-- The marker of a gap from its start to the present covers what is not covered yet. -/
theorem GapInv.gap_covers (h : GapInv times j) {monoNs start : ℕ}
    (hnow : ∀ t ∈ times, t ≤ monoNs) (hstart : j.sender.gapStart = some start) {t : ℕ}
    (ht : t ∈ droppedTimes j.log) :
    ∃ e ∈ sinceAccepted j.log ++ [.gap start monoNs], e.covers t = true := by
  rcases h.covered t ht with ⟨e, he, hcovers⟩ | ⟨start', hstart', hle⟩
  · exact ⟨e, List.mem_append_left _ he, hcovers⟩
  · obtain rfl : start' = start := by
      rw [hstart'] at hstart
      exact Option.some.inj hstart
    have hlate := hnow t (h.known t ht)
    exact ⟨.gap start' monoNs, by simp, by simp [SenderEvent.covers, hle, hlate]⟩

/-- A call with a record keeps the books of the gaps. -/
theorem GapInv.record (h : GapInv times j) {record : WalRecord} {sync : SyncPolicy} {monoNs : ℕ}
    (hnow : ∀ t ∈ times, t ≤ monoNs) (hends : Journal.RecordEnds j j' record sync monoNs) :
    GapInv (times ++ [monoNs]) j' := by
  have hgap : ∀ start, SenderEvent.isAccepted (.gap start monoNs) = false := fun _ => rfl
  have htold : ∀ start, droppedTimes (j.log ++ [.gap start monoNs]) = droppedTimes j.log := by
    intro start
    rw [droppedTimes_snoc (hgap start)]
    exact List.append_nil _
  cases hends with
  | accepted moved gapStart lastExcluded pending =>
    have hlog := moved.log
    rw [← List.append_assoc] at hlog
    have hnone : droppedTimes j'.log = [] := by
      rw [hlog, droppedTimes, sinceAccepted_accepted]
      rfl
    refine ⟨?_, fun _ => hnone, by simp [hnone], by simp [hnone], by simp [gapStart]⟩
    rw [hlog, Trace.justified_snoc]
    cases hopen : j.sender.gapStart with
    | none =>
      rw [Option.toList_none, List.map_nil, List.append_nil]
      exact ⟨h.honest, fun hdropped => (hdropped (h.closed hopen)).elim⟩
    | some start =>
      rw [Option.toList_some, List.map_singleton]
      refine ⟨Trace.justified_snoc.mpr ⟨h.honest, trivial⟩, fun _ => ⟨⟨start, monoNs, ?_⟩, ?_⟩⟩
      · simp
      · rw [htold, sinceAccepted_snoc (hgap start)]
        exact fun t ht => h.gap_covers hnow hopen ht
  | dropped closed moved gapStart lastExcluded pending =>
    have hlog := moved.log
    rw [← List.append_assoc] at hlog
    have hdrop : ∀ evidence, SenderEvent.isAccepted (.dropped record monoNs evidence) = false :=
      fun _ => rfl
    rcases gapStart with ⟨rfl, hopened⟩ | ⟨start, hopen, rfl, hopened⟩
    · rw [List.map_nil, List.append_nil] at hlog
      have htimes : droppedTimes j'.log = droppedTimes j.log ++ [monoNs] := by
        rw [hlog, droppedTimes_snoc (hdrop _)]
        rfl
      refine ⟨?_, ?_, ?_, ?_, ?_⟩
      · rw [hlog, Trace.justified_snoc]
        exact ⟨h.honest, trivial⟩
      · rw [hopened]
        exact nofun
      · rw [htimes, hlog, sinceAccepted_snoc (hdrop _), hopened]
        intro t ht
        rcases List.mem_append.mp ht with ht | ht
        · rcases h.covered t ht with ⟨e, he, hcovers⟩ | ⟨start, hstart, hle⟩
          · exact .inl ⟨e, List.mem_append_left _ he, hcovers⟩
          · exact .inr ⟨start, by rw [hstart]; rfl, hle⟩
        · obtain rfl := List.mem_singleton.mp ht
          right
          cases hstart : j.sender.gapStart with
          | none => exact ⟨t, rfl, le_rfl⟩
          | some start => exact ⟨start, rfl, hnow start (h.start start hstart)⟩
      · rw [htimes]
        intro t ht
        rcases List.mem_append.mp ht with ht | ht
        · exact List.mem_append_left _ (h.known t ht)
        · exact List.mem_append_right _ ht
      · rw [hopened]
        rintro start ⟨⟩
        cases hstart : j.sender.gapStart with
        | none => simp
        | some start => exact List.mem_append_left _ (h.start start hstart)
    · rw [List.map_singleton] at hlog
      have htimes : droppedTimes j'.log = droppedTimes j.log ++ [monoNs] := by
        rw [hlog, droppedTimes_snoc (hdrop _), htold]
        rfl
      refine ⟨?_, ?_, ?_, ?_, ?_⟩
      · rw [hlog, Trace.justified_snoc, Trace.justified_snoc]
        exact ⟨⟨h.honest, trivial⟩, trivial⟩
      · rw [hopened]
        exact nofun
      · rw [htimes, hlog, sinceAccepted_snoc (hdrop _), sinceAccepted_snoc (hgap start), hopened]
        intro t ht
        rcases List.mem_append.mp ht with ht | ht
        · obtain ⟨e, he, hcovers⟩ := h.gap_covers hnow hopen ht
          exact .inl ⟨e, List.mem_append_left _ he, hcovers⟩
        · obtain rfl := List.mem_singleton.mp ht
          exact .inr ⟨t, rfl, le_rfl⟩
      · rw [htimes]
        intro t ht
        rcases List.mem_append.mp ht with ht | ht
        · exact List.mem_append_left _ (h.known t ht)
        · exact List.mem_append_right _ ht
      · rw [hopened]
        rintro start ⟨⟩
        simp

end Gaps

section Exclusions

/-- The excluded names of an accepted context that bears them. -/
def SenderEvent.exclusion? : SenderEvent → Option (List String)
  | accepted record _ => (excludeFingerprint record).map (·.1)
  | placed _ | gap _ _ | dropped _ _ _ => none

/-- Whether the event placed the evidence of a lost cancellation. -/
def SenderEvent.isEvidence : SenderEvent → Bool
  | dropped _ _ evidence => evidence.isSome
  | accepted _ _ | placed _ | gap _ _ => false

/-- The names of the last accepted context that bears them. -/
def lastExclusion (log : SenderLog) : Option (List String) :=
  (log.filterMap SenderEvent.exclusion?).getLast?

/-- What happened since such a context was last accepted. -/
def sinceExclusion (log : SenderLog) : SenderLog := log.rtakeWhile fun e => e.exclusion?.isNone

/-- A dropped record that changes the exclusions leaves evidence, unless some is there already
since the last accepted context that bears them; and no other record leaves any. -/
def LossesHonest (past : SenderLog) : SenderEvent → Prop
  | .dropped record monoNs evidence =>
      (changesExclusion (lastExclusion past) record = true →
        evidence.isSome = true ∨ ∃ e ∈ sinceExclusion past, e.isEvidence = true) ∧
      ∀ marker, evidence = some marker → marker = lossMarker monoNs ∧
        changesExclusion (lastExclusion past) record = true ∧
        ∀ e ∈ sinceExclusion past, e.isEvidence = false
  | .accepted _ _ | .placed _ | .gap _ _ => True

/-- The sender knows the last accepted exclusions, and whether evidence was placed since. -/
structure ExclusionInv (j : Journal) : Prop where
  honest : Trace.Justified LossesHonest j.log
  last : j.sender.lastExcluded = lastExclusion j.log
  pending : j.sender.exclusionLossPending = (sinceExclusion j.log).any SenderEvent.isEvidence

variable {j j' : Journal}

theorem lastExclusion_snoc {log : SenderLog} {e : SenderEvent} :
    lastExclusion (log ++ [e]) = e.exclusion?.or (lastExclusion log) := by
  rw [lastExclusion, List.filterMap_append, List.getLast?_append]
  cases he : e.exclusion? <;> simp [he, lastExclusion]

theorem sinceExclusion_snoc {log : SenderLog} {e : SenderEvent} :
    sinceExclusion (log ++ [e]) =
      if e.exclusion?.isNone then sinceExclusion log ++ [e] else [] :=
  List.rtakeWhile_concat _ _ _

/-- An event that bears no exclusions and places no evidence. -/
theorem ExclusionInv.quiet (h : ExclusionInv j) {e : SenderEvent}
    (hlog : j'.log = j.log ++ [e]) (hexclusion : e.exclusion? = none)
    (hevidence : e.isEvidence = false) (hhonest : LossesHonest j.log e)
    (hlast : j'.sender.lastExcluded = j.sender.lastExcluded)
    (hpending : j'.sender.exclusionLossPending = j.sender.exclusionLossPending) :
    ExclusionInv j' where
  honest := by
    rw [hlog, Trace.justified_snoc]
    exact ⟨h.honest, hhonest⟩
  last := by
    rw [hlog, lastExclusion_snoc, hexclusion, hlast, h.last]
    rfl
  pending := by
    rw [hlog, sinceExclusion_snoc, hexclusion, hpending, h.pending]
    simp [hevidence]

theorem ExclusionInv.gaps (h : ExclusionInv j) {starts : List ℕ} {monoNs : ℕ}
    (hlog : j'.log = j.log ++ starts.map (.gap · monoNs))
    (hlast : j'.sender.lastExcluded = j.sender.lastExcluded)
    (hpending : j'.sender.exclusionLossPending = j.sender.exclusionLossPending) :
    ExclusionInv j' := by
  induction starts generalizing j with
  | nil =>
    rw [List.map_nil, List.append_nil] at hlog
    exact ⟨hlog ▸ h.honest, by rw [hlast, hlog, h.last], by rw [hpending, hlog, h.pending]⟩
  | cons start starts ih =>
    have hfirst : ExclusionInv (j.note (.gap start monoNs)) :=
      h.quiet rfl rfl rfl trivial rfl rfl
    apply ih hfirst _ hlast hpending
    rw [hlog, List.map_cons]
    simp [Journal.note]

/-- A call with a record keeps the books of the exclusions. -/
theorem ExclusionInv.record (h : ExclusionInv j) {record : WalRecord} {sync : SyncPolicy}
    {monoNs : ℕ} (hends : Journal.RecordEnds j j' record sync monoNs) : ExclusionInv j' := by
  cases hends with
  | accepted moved gapStart lastExcluded pending =>
    have hlog := moved.log
    rw [← List.append_assoc] at hlog
    -- The books after the marker of the gap are those before it.
    have hgaps : ExclusionInv ⟨j.sender, j.channel,
        j.log ++ j.sender.gapStart.toList.map (.gap · monoNs)⟩ := h.gaps rfl rfl rfl
    refine ⟨?_, ?_, ?_⟩
    · rw [hlog, Trace.justified_snoc]
      exact ⟨hgaps.honest, trivial⟩
    · have hlast := hgaps.last
      simp only at hlast
      rw [lastExcluded, hlog, lastExclusion_snoc, hlast]
      rfl
    · have hpending := hgaps.pending
      simp only at hpending
      rw [pending, hlog, sinceExclusion_snoc, hpending]
      cases hprint : excludeFingerprint record with
      | none => simp [SenderEvent.exclusion?, hprint, SenderEvent.isEvidence]
      | some fingerprint => simp [SenderEvent.exclusion?, hprint]
  | dropped closed moved gapStart lastExcluded pending =>
    have hlog := moved.log
    rw [← List.append_assoc] at hlog
    have hgaps : ExclusionInv ⟨j.sender, j.channel, j.log ++ closed.map (.gap · monoNs)⟩ :=
      h.gaps rfl rfl rfl
    have hlast := hgaps.last
    have hpending := hgaps.pending
    simp only at hlast hpending
    refine ⟨?_, ?_, ?_⟩
    · rw [hlog, Trace.justified_snoc]
      refine ⟨hgaps.honest, ?_, ?_⟩
      · intro hchanges
        rw [← hlast] at hchanges
        rw [Journal.evidence, hchanges]
        cases hloss : j.sender.exclusionLossPending with
        | false => exact .inl rfl
        | true =>
          right
          rw [hloss] at hpending
          obtain ⟨e, he, hevidence⟩ := List.any_eq_true.mp hpending.symm
          exact ⟨e, he, hevidence⟩
      · intro marker hmarker
        rw [Journal.evidence, Option.ite_none_right_eq_some] at hmarker
        obtain ⟨hcond, hmarker⟩ := hmarker
        rw [Bool.and_eq_true, Bool.not_eq_true'] at hcond
        refine ⟨(Option.some.inj hmarker).symm, by rw [← hlast]; exact hcond.1, ?_⟩
        intro e he
        rw [hcond.2] at hpending
        have hnone := List.any_eq_false.mp hpending.symm e he
        simpa using hnone
    · rw [lastExcluded, hlog, lastExclusion_snoc, hlast]
      rfl
    · rw [pending, hlog, sinceExclusion_snoc, hpending]
      simp only [SenderEvent.exclusion?, Option.isNone_none, if_true, List.any_append,
        List.any_cons, List.any_nil, Bool.or_false, SenderEvent.isEvidence, Journal.evidence]
      rw [← hpending]
      cases changesExclusion j.sender.lastExcluded record <;>
        cases j.sender.exclusionLossPending <;> rfl

theorem ExclusionInv.placed (h : ExclusionInv j) {marker : Marker}
    (hbooks : Journal.SameBooks j.sender j'.sender) (hlog : j'.log = j.log ++ [.placed marker]) :
    ExclusionInv j' :=
  h.quiet hlog rfl rfl trivial hbooks.2.1 hbooks.2.2

/-- Every event of a stretch that no accepted exclusions interrupt is still in view after it. -/
theorem mem_sinceExclusion {before between : SenderLog}
    (h : ∀ e ∈ between, e.exclusion? = none) {e : SenderEvent} (he : e ∈ between) :
    e ∈ sinceExclusion (before ++ between) := by
  induction between using List.reverseRecOn with
  | nil => cases he
  | append_singleton between last ih =>
    have hlast : last.exclusion? = none := h last (by simp)
    rw [← List.append_assoc, sinceExclusion_snoc, hlast, if_pos Option.isNone_none]
    rcases List.mem_append.mp he with he | he
    · exact List.mem_append_left _ (ih (fun d hd => h d (List.mem_append_left _ hd)) he)
    · exact List.mem_append_right _ he

theorem lastExclusion_stretch {before between : SenderLog} {record : WalRecord}
    {sync : SyncPolicy} {fingerprint : List String × Bool}
    (hprint : excludeFingerprint record = some fingerprint)
    (h : ∀ e ∈ between, e.exclusion? = none) :
    lastExclusion (before ++ .accepted record sync :: between) = some fingerprint.1 := by
  induction between using List.reverseRecOn with
  | nil =>
    rw [lastExclusion_snoc, SenderEvent.exclusion?, hprint]
    rfl
  | append_singleton between last ih =>
    have hlast : last.exclusion? = none := h last (by simp)
    rw [← List.cons_append, ← List.append_assoc, lastExclusion_snoc, hlast]
    exact ih fun e he => h e (List.mem_append_left _ he)

/-- Nothing is dropped in silence that changes the exclusions. -/
structure LossesTold (log : SenderLog) : Prop where
  kind : ∀ record monoNs marker, .dropped record monoNs (some marker) ∈ log →
    marker = lossMarker monoNs
  /-- Evidence of a dropped change is placed with it, or was since the last accepted context that
  bears exclusions. -/
  told : ∀ past record monoNs evidence rest, log = past ++ .dropped record monoNs evidence :: rest →
    changesExclusion (lastExclusion past) record = true →
    evidence = some (lossMarker monoNs) ∨ ∃ e ∈ sinceExclusion past, e.isEvidence = true
  /-- Between two accepted contexts that bear exclusions evidence is placed once at most. -/
  once : ∀ before between after, log = before ++ between ++ after →
    (∀ e ∈ between, e.exclusion? = none) → between.countP SenderEvent.isEvidence ≤ 1
  /-- And not at all when nothing that was dropped between them changes the exclusions. -/
  never : ∀ before record sync fingerprint between after,
    log = before ++ .accepted record sync :: between ++ after →
    excludeFingerprint record = some fingerprint → (∀ e ∈ between, e.exclusion? = none) →
    (∀ dropped monoNs evidence, .dropped dropped monoNs evidence ∈ between →
      changesExclusion (some fingerprint.1) dropped = false) →
    between.countP SenderEvent.isEvidence = 0

theorem lossesTold (h : Trace.Justified LossesHonest j.log) : LossesTold j.log where
  kind := by
    intro record monoNs marker hmem
    obtain ⟨past, rest, hlog⟩ := List.append_of_mem hmem
    exact ((h past _ rest hlog).2 marker rfl).1
  told := by
    intro past record monoNs evidence rest hlog hchanges
    obtain ⟨htold, hmarker⟩ := h past _ rest hlog
    rcases htold hchanges with hsome | hearlier
    · obtain ⟨marker, hmarker'⟩ := Option.isSome_iff_exists.mp hsome
      rw [hmarker', (hmarker marker hmarker').1]
      exact .inl rfl
    · exact .inr hearlier
  once := by
    intro before between after hlog hnone
    induction between using List.reverseRecOn generalizing after with
    | nil => simp
    | append_singleton between last ih =>
      have hfirst := ih ([last] ++ after) (by simp [hlog])
        fun e he => hnone e (List.mem_append_left _ he)
      rw [List.countP_append, List.countP_singleton]
      split
      · rename_i hevidence
        -- The last event places evidence, so none was placed in the stretch before it.
        have hjust := h (before ++ between) last after (by simp [hlog])
        have hzero : between.countP SenderEvent.isEvidence = 0 := by
          rw [List.countP_eq_zero]
          intro e he
          have hin : e ∈ sinceExclusion (before ++ between) := mem_sinceExclusion
            (fun d hd => hnone d (List.mem_append_left _ hd)) he
          cases last with
          | dropped record monoNs evidence =>
            obtain ⟨marker, hmarker⟩ := Option.isSome_iff_exists.mp hevidence
            have hclear := (hjust.2 marker hmarker).2.2 e hin
            simp [hclear]
          | accepted => cases hevidence
          | placed => cases hevidence
          | gap => cases hevidence
        omega
      · omega
  never := by
    intro before record sync fingerprint between after hlog hprint hnone hsame
    rw [List.countP_eq_zero]
    intro e he hevidence
    obtain ⟨lead, rest, rfl⟩ := List.append_of_mem he
    cases e with
    | dropped dropped monoNs evidence =>
      obtain ⟨marker, hmarker⟩ := Option.isSome_iff_exists.mp hevidence
      have hjust := h (before ++ .accepted record sync :: lead)
        (.dropped dropped monoNs evidence) (rest ++ after) (by simp [hlog])
      have hchanges := (hjust.2 marker hmarker).2.1
      rw [lastExclusion_stretch hprint fun d hd => hnone d (List.mem_append_left _ hd),
        hsame dropped monoNs evidence he] at hchanges
      cases hchanges
    | accepted => cases hevidence
    | placed => cases hevidence
    | gap => cases hevidence

end Exclusions

section Runs

/-- The times of the calls with records. -/
def recordTimes (calls : List SenderCall) : List ℕ :=
  calls.filterMap fun
    | .record _ _ monoNs => some monoNs
    | .marker _ | .heartbeatData _ | .receiveSeq _ _ => none

/-- The markers of the calls with markers. -/
def passedMarkers (calls : List SenderCall) : List Marker :=
  calls.filterMap fun
    | .marker marker => some marker
    | .record _ _ _ | .heartbeatData _ | .receiveSeq _ _ => none

def placedMarkers (log : SenderLog) : List Marker :=
  log.filterMap fun
    | .placed marker => some marker
    | .accepted _ _ | .gap _ _ | .dropped _ _ _ => none

/-- What is sent and queued is what the log tells, and the markers of the log are those of the
calls. -/
structure StreamInv (calls : List SenderCall) (j : Journal) : Prop where
  stream : j.stream = j.log.filterMap SenderEvent.append?
  placed : placedMarkers j.log = passedMarkers calls
  exclusions : ExclusionInv j

theorem Journal.Moved.streamed {j j' : Journal} {events : SenderLog} (h : Moved j j' events)
    (hstream : j.stream = j.log.filterMap SenderEvent.append?) :
    j'.stream = j'.log.filterMap SenderEvent.append? := by
  rw [h.stream, h.log, List.filterMap_append, hstream]

/-- A call with a record places no marker of a call. -/
theorem Journal.RecordEnds.placedMarkers {j j' : Journal} {record : WalRecord}
    {sync : SyncPolicy} {monoNs : ℕ} (h : RecordEnds j j' record sync monoNs) :
    placedMarkers j'.log = placedMarkers j.log := by
  have hgaps : ∀ starts : List ℕ,
      Recording.placedMarkers (starts.map (SenderEvent.gap · monoNs)) = [] := by
    intro starts
    rw [Recording.placedMarkers, List.filterMap_eq_nil_iff]
    intro e he
    obtain ⟨start, -, rfl⟩ := List.mem_map.mp he
    rfl
  have happend : ∀ log more : SenderLog, Recording.placedMarkers (log ++ more) =
      Recording.placedMarkers log ++ Recording.placedMarkers more :=
    fun log more => List.filterMap_append
  cases h with
  | accepted moved _ _ _ =>
    rw [moved.log, happend, happend, hgaps]
    exact List.append_nil _
  | dropped closed moved _ _ _ =>
    rw [moved.log, happend, happend, hgaps]
    exact List.append_nil _

theorem Journal.RecordEnds.moved {j j' : Journal} {record : WalRecord} {sync : SyncPolicy}
    {monoNs : ℕ} (h : RecordEnds j j' record sync monoNs) : ∃ events, Moved j j' events := by
  cases h with
  | accepted moved _ _ _ => exact ⟨_, moved⟩
  | dropped closed moved _ _ _ => exact ⟨_, moved⟩

variable (capacity : ℕ) (turns : List Turn)

/-- After any calls, with any turns of the consumer between the attempts. -/
theorem streamInv_after (calls : List SenderCall) :
    StreamInv calls (Journal.after capacity turns calls) := by
  apply @Runs.foldl_history _ _ _ StreamInv _ calls
  · exact ⟨rfl, rfl, ⟨by simp [Journal.new], rfl, rfl⟩⟩
  · intro past j call h
    cases call with
    | record record sync monoNs =>
      have hends := j.record_ends record sync monoNs
      obtain ⟨events, hmoved⟩ := hends.moved
      refine ⟨hmoved.streamed h.stream, ?_, h.exclusions.record hends⟩
      rw [passedMarkers, List.filterMap_append]
      exact hends.placedMarkers.trans (h.placed.trans (List.append_nil _).symm)
    | marker marker =>
      obtain ⟨hbooks, hmoved⟩ := j.marker_spec marker
      refine ⟨hmoved.streamed h.stream, ?_, h.exclusions.placed hbooks hmoved.log⟩
      have hlog : (j.step (.marker marker)).log = j.log ++ [.placed marker] := hmoved.log
      rw [hlog, placedMarkers, List.filterMap_append, passedMarkers, List.filterMap_append]
      exact congrArg (· ++ [marker]) h.placed
    | heartbeatData data =>
      obtain ⟨hsender, hmoved⟩ := @Journal.trySend_sample j (.heartbeat data) rfl
      have hlog : (j.step (.heartbeatData data)).log = j.log := rfl
      refine ⟨hmoved.streamed h.stream, ?_, ⟨?_, ?_, ?_⟩⟩
      · rw [hlog, passedMarkers, List.filterMap_append]
        exact h.placed.trans (List.append_nil _).symm
      · exact h.exclusions.honest
      · exact h.exclusions.last
      · exact h.exclusions.pending
    | receiveSeq monoNs widened =>
      obtain ⟨hsender, hmoved⟩ := @Journal.trySend_sample j (.receiveSeq monoNs widened) rfl
      have hlog : (j.step (.receiveSeq monoNs widened)).log = j.log := rfl
      refine ⟨hmoved.streamed h.stream, ?_, ⟨?_, ?_, ?_⟩⟩
      · rw [hlog, passedMarkers, List.filterMap_append]
        exact h.placed.trans (List.append_nil _).symm
      · exact h.exclusions.honest
      · exact h.exclusions.last
      · exact h.exclusions.pending

/-- After calls whose times do not decrease, the books of the gaps are right. -/
theorem gapInv_after {calls : List SenderCall} (htimes : (recordTimes calls).Pairwise (· ≤ ·)) :
    GapInv (recordTimes calls) (Journal.after capacity turns calls) := by
  have happend : ∀ past call, recordTimes (past ++ [call]) =
      recordTimes past ++ recordTimes [call] := fun past call => List.filterMap_append
  revert htimes
  apply @Runs.foldl_history _ _ _
    (fun past j => (recordTimes past).Pairwise (· ≤ ·) → GapInv (recordTimes past) j) _ calls
  · intro _
    exact ⟨by simp [Journal.new], fun _ => rfl, nofun, nofun, nofun⟩
  · intro past j call h htimes
    rw [happend, List.pairwise_append] at htimes
    have hinv := h htimes.1
    rw [happend]
    cases call with
    | record record sync monoNs =>
      apply hinv.record _ (j.record_ends record sync monoNs)
      intro t ht
      exact htimes.2.2 t ht monoNs (List.mem_singleton.mpr rfl)
    | marker marker =>
      obtain ⟨hbooks, hmoved⟩ := j.marker_spec marker
      have hplaced : GapInv (recordTimes past) (j.step (.marker marker)) :=
        hinv.placed hbooks hmoved.log
      exact hplaced.mono fun t ht => List.mem_append_left _ ht
    | heartbeatData data =>
      have hsame : GapInv (recordTimes past) (j.step (.heartbeatData data)) :=
        ⟨hinv.honest, hinv.closed, hinv.covered, hinv.known, hinv.start⟩
      exact hsame.mono fun t ht => List.mem_append_left _ ht
    | receiveSeq monoNs widened =>
      have hsame : GapInv (recordTimes past) (j.step (.receiveSeq monoNs widened)) :=
        ⟨hinv.honest, hinv.closed, hinv.covered, hinv.known, hinv.start⟩
      exact hsame.mono fun t ht => List.mem_append_left _ ht

/-- What the thread and the log can rely on when the sender shuts down. -/
structure ChannelHonest (calls : List SenderCall) (j : Journal) : Prop where
  /-- What the thread consumes ends with the command to shut down. -/
  ended : j.shutdown = j.channel.accepted ++ [.shutdown]
  /-- The records and markers it consumes, with those still queued behind them, are the accepted
  records and the placed markers, each once and in order. -/
  stream : j.shutdown.filterMap WalCmd.append? ++
      j.sender.outbox.map (fun marker => (.marker marker, .immediate)) =
    j.log.filterMap SenderEvent.append?
  /-- Each marker of a call is placed once, in the order of the calls. -/
  placed : placedMarkers j.log = passedMarkers calls
  gaps : Trace.Justified GapsHonest j.log

/-- A record that stands for any other. -/
def exampleRecord (monoNs : ℕ) : SenderCall :=
  .record (.marker ⟨monoNs, .resubscribed⟩) .batched monoNs

/-- Two records fill the channel and the third is dropped; there is room for the marker of its
gap, and not for the fourth record; the fifth finds room. -/
def exampleStall : Journal :=
  .after 2 [⟨0, false⟩, ⟨0, false⟩, ⟨0, false⟩, ⟨1, false⟩, ⟨0, false⟩, ⟨2, false⟩]
    [exampleRecord 1, exampleRecord 2, exampleRecord 3, exampleRecord 4, exampleRecord 9]

/-- A channel with room for one record: the marker waits in the outbox. -/
def exampleStop : Journal :=
  .after 1 [] [exampleRecord 1, .marker ⟨2, .recorderStopped⟩]

/-- One marker that closes the gap in front of an accepted record and covers every record dropped
since the one before it. -/
def GapToldAtOnce (past : SenderLog) : Prop :=
  ∃ start stop, past.getLast? = some (.gap start stop) ∧
    ∀ monoNs ∈ droppedTimes past, start ≤ monoNs ∧ monoNs ≤ stop

end Runs

end DeadReckoning.Recording
