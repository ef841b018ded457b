import DeadReckoning.Recording.Durability
import DeadReckoning.Recording.SenderHonesty

/-! From the records that a producer offers to the records that the service has appended: what of
them the report about cancelled objects rests on. -/
namespace DeadReckoning.Recording

open Wal

section Offers

/-- The record of a call. -/
def SenderCall.offers? : SenderCall → Option WalRecord
  | .record offered _ _ => some offered
  | .marker _ | .heartbeatData _ | .receiveSeq _ _ => none

/-- The record that an event decides on. -/
def SenderEvent.offered? : SenderEvent → Option WalRecord
  | accepted record _ | dropped record _ _ => some record
  | placed _ | gap _ _ => none

/-- Each offered record is accepted or dropped, in the order of the calls, and dropped at the time
of its call. -/
structure OfferInv (calls : List SenderCall) (j : Journal) : Prop where
  offered : j.log.filterMap SenderEvent.offered? = calls.filterMap SenderCall.offers?
  stamped : ∀ record monoNs evidence, .dropped record monoNs evidence ∈ j.log →
    ∃ sync, .record record sync monoNs ∈ calls

theorem offered_gaps (starts : List ℕ) (monoNs : ℕ) :
    (starts.map (SenderEvent.gap · monoNs)).filterMap SenderEvent.offered? = [] := by
  rw [List.filterMap_eq_nil_iff]
  intro e he
  obtain ⟨start, -, rfl⟩ := List.mem_map.mp he
  rfl

/-- A call with a record ends with an event that decides on it. -/
theorem Journal.RecordEnds.decides {j j' : Journal} {record : WalRecord} {sync : SyncPolicy}
    {monoNs : ℕ} (h : RecordEnds j j' record sync monoNs) : ∃ (starts : List ℕ) (e : SenderEvent),
    j'.log = j.log ++ (starts.map (SenderEvent.gap · monoNs) ++ [e]) ∧ e.offered? = some record ∧
      ∀ other t evidence, e = .dropped other t evidence → other = record ∧ t = monoNs := by
  cases h with
  | accepted moved _ _ _ =>
    refine ⟨j.sender.gapStart.toList, .accepted record sync, moved.log, rfl, ?_⟩
    intro other t evidence he
    cases he
  | dropped closed moved _ _ _ =>
    refine ⟨closed, _, moved.log, rfl, ?_⟩
    intro other t evidence he
    cases he
    exact ⟨rfl, rfl⟩

theorem offerInv_after (capacity : ℕ) (turns : List Turn) (calls : List SenderCall) :
    OfferInv calls (Journal.after capacity turns calls) := by
  apply @Runs.foldl_history _ _ _ OfferInv _ calls
  · refine ⟨rfl, ?_⟩
    intro record monoNs evidence hmem
    cases List.not_mem_nil hmem
  · intro past j call h
    have hpast : ∀ record monoNs evidence, .dropped record monoNs evidence ∈ j.log →
        ∃ sync, .record record sync monoNs ∈ past ++ [call] := by
      intro record monoNs evidence hmem
      obtain ⟨sync, hsync⟩ := h.stamped record monoNs evidence hmem
      exact ⟨sync, List.mem_append_left _ hsync⟩
    cases call with
    | record record sync monoNs =>
      obtain ⟨starts, e, hlog, he, hdropped⟩ := (j.record_ends record sync monoNs).decides
      have hstep : (j.step (.record record sync monoNs)).log =
          j.log ++ (starts.map (.gap · monoNs) ++ [e]) := hlog
      constructor
      · rw [hstep, List.filterMap_append, List.filterMap_append, offered_gaps, List.filterMap_append,
          h.offered]
        simp [he, SenderCall.offers?]
      · intro other t evidence hmem
        rw [hstep] at hmem
        rcases List.mem_append.mp hmem with hold | hnew
        · exact hpast other t evidence hold
        · rcases List.mem_append.mp hnew with hgap | hlast
          · obtain ⟨start, -, heq⟩ := List.mem_map.mp hgap
            cases heq
          · obtain ⟨rfl, rfl⟩ := hdropped other t evidence (List.mem_singleton.mp hlast).symm
            exact ⟨sync, by simp⟩
    | marker marker =>
      obtain ⟨-, hmoved⟩ := j.marker_spec marker
      have hstep : (j.step (.marker marker)).log = j.log ++ [.placed marker] := hmoved.log
      constructor
      · rw [hstep, List.filterMap_append, List.filterMap_append, h.offered]
        rfl
      · intro other t evidence hmem
        rw [hstep] at hmem
        rcases List.mem_append.mp hmem with hold | hnew
        · exact hpast other t evidence hold
        · cases List.mem_singleton.mp hnew
    | heartbeatData data =>
      refine ⟨?_, hpast⟩
      rw [List.filterMap_append]
      exact h.offered.trans (List.append_nil _).symm
    | receiveSeq monoNs widened =>
      refine ⟨?_, hpast⟩
      rw [List.filterMap_append]
      exact h.offered.trans (List.append_nil _).symm

/-- The names of the last offered context that bears them. -/
def lastOffered (records : List WalRecord) : Option (List String) :=
  (records.filterMap excludeFingerprint).getLast?.map (·.1)

theorem lastOffered_snoc {records : List WalRecord} {record : WalRecord} :
    lastOffered (records ++ [record]) =
      ((excludeFingerprint record).map (·.1)).or (lastOffered records) := by
  rw [lastOffered, List.filterMap_append, List.getLast?_append]
  cases hprint : excludeFingerprint record with
  | none => simp [hprint, lastOffered]
  | some fingerprint => simp [hprint]

theorem lastOffered_isSome {records : List WalRecord} {record : WalRecord} (h : record ∈ records)
    (hbears : (excludeFingerprint record).isSome = true) :
    ∃ names, lastOffered records = some names := by
  cases hlast : lastOffered records with
  | some names => exact ⟨names, rfl⟩
  | none =>
    rw [lastOffered, Option.map_eq_none_iff, List.getLast?_eq_none_iff] at hlast
    rw [List.filterMap_eq_nil_iff.mp hlast record h] at hbears
    cases hbears

theorem changesExclusion_eq_false {last : Option (List String)} {record : WalRecord}
    {fingerprint : List String × Bool} (hprint : excludeFingerprint record = some fingerprint)
    (h : changesExclusion last record = false) : last = some fingerprint.1 := by
  obtain ⟨excluded, redefines⟩ := fingerprint
  rw [changesExclusion, hprint] at h
  simp_all

theorem bears_of_changesExclusion {last : Option (List String)} {record : WalRecord}
    (h : changesExclusion last record = true) : (excludeFingerprint record).isSome = true := by
  rw [changesExclusion] at h
  cases hprint : excludeFingerprint record with
  | none =>
    rw [hprint] at h
    cases h
  | some fingerprint => rfl

/-- An event that decides on no names. -/
theorem quiet_event {log : SenderLog} {e : SenderEvent}
    (h : (e.offered?.bind excludeFingerprint).isNone = true) :
    e.exclusion? = none ∧ lastOffered ((log ++ [e]).filterMap SenderEvent.offered?) =
      lastOffered (log.filterMap SenderEvent.offered?) := by
  rw [List.filterMap_append]
  cases e with
  | placed marker => exact ⟨rfl, congrArg lastOffered (List.append_nil _)⟩
  | gap start stop => exact ⟨rfl, congrArg lastOffered (List.append_nil _)⟩
  | accepted record sync =>
    have hnone : excludeFingerprint record = none := Option.isNone_iff_eq_none.mp h
    refine ⟨congrArg (Option.map _) hnone, ?_⟩
    show lastOffered (_ ++ [record]) = _
    rw [lastOffered_snoc, hnone]
    rfl
  | dropped record monoNs evidence =>
    have hnone : excludeFingerprint record = none := Option.isNone_iff_eq_none.mp h
    refine ⟨rfl, ?_⟩
    show lastOffered (_ ++ [record]) = _
    rw [lastOffered_snoc, hnone]
    rfl

/-- The last accepted names are the last offered ones, or there is evidence that they are not. -/
theorem lastOffered_or_evidence {log : SenderLog} (h : Trace.Justified LossesHonest log) :
    lastOffered (log.filterMap SenderEvent.offered?) = lastExclusion log ∨
      ∃ e ∈ sinceExclusion log, e.isEvidence = true := by
  induction log using List.reverseRecOn with
  | nil => exact .inl rfl
  | append_singleton log e ih =>
    obtain ⟨hlog, hlast⟩ := Trace.justified_snoc.mp h
    -- An event that neither offers nor accepts names leaves both sides as they were.
    have hquiet : (e.offered?.bind excludeFingerprint).isNone = true →
        lastOffered ((log ++ [e]).filterMap SenderEvent.offered?) = lastExclusion (log ++ [e]) ∨
          ∃ e' ∈ sinceExclusion (log ++ [e]), e'.isEvidence = true := by
      intro hnone
      obtain ⟨hexclusion, hoffered⟩ := quiet_event hnone
      rw [lastExclusion_snoc, sinceExclusion_snoc, hexclusion, hoffered]
      rcases ih hlog with hsame | ⟨e', he', hevidence⟩
      · exact .inl hsame
      · exact .inr ⟨e', List.mem_append_left _ he', hevidence⟩
    cases hbears : e.offered?.bind excludeFingerprint with
    | none => exact hquiet (congrArg Option.isNone hbears)
    | some fingerprint =>
      obtain ⟨record, hoffered, hprint⟩ := Option.bind_eq_some_iff.mp hbears
      have hnewest : lastOffered ((log ++ [e]).filterMap SenderEvent.offered?) =
          some fingerprint.1 := by
        have hone : [e].filterMap SenderEvent.offered? = [record] := by simp [hoffered]
        rw [List.filterMap_append, hone, lastOffered_snoc, hprint]
        rfl
      cases e with
      | placed marker => cases hoffered
      | gap start stop => cases hoffered
      | accepted other sync =>
        obtain rfl : other = record := Option.some.inj hoffered
        left
        rw [hnewest, lastExclusion_snoc, SenderEvent.exclusion?, hprint]
        rfl
      | dropped other monoNs evidence =>
        obtain rfl : other = record := Option.some.inj hoffered
        rw [hnewest, lastExclusion_snoc, sinceExclusion_snoc]
        cases hchanges : changesExclusion (lastExclusion log) other with
        | false => exact .inl (changesExclusion_eq_false hprint hchanges).symm
        | true =>
          right
          rcases hlast.1 hchanges with hhere | ⟨e', he', hevidence⟩
          · exact ⟨_, List.mem_append_right _ (List.mem_singleton.mpr rfl), hhere⟩
          · exact ⟨e', List.mem_append_left _ he', hevidence⟩

/-- What evidence since the last accepted names looks like. -/
theorem evidence_spec {log : SenderLog} (h : Trace.Justified LossesHonest log) {e : SenderEvent}
    (hmem : e ∈ log) (hevidence : e.isEvidence = true) : ∃ record monoNs,
    e = .dropped record monoNs (some (lossMarker monoNs)) ∧
      (excludeFingerprint record).isSome = true := by
  obtain ⟨past, rest, hlog⟩ := List.append_of_mem hmem
  cases e with
  | dropped record monoNs evidence =>
    obtain ⟨marker, rfl⟩ := Option.isSome_iff_exists.mp hevidence
    obtain ⟨rfl, hchanges, -⟩ := (h past _ rest hlog).2 marker rfl
    exact ⟨record, monoNs, rfl, bears_of_changesExclusion hchanges⟩
  | accepted => cases hevidence
  | placed => cases hevidence
  | gap => cases hevidence

end Offers

section Appended

variable {codec : Codec} {earlier : Disk} {first : ℕ} {s : Service} {clocks : Clocks}

/-- The report about the objects rests on the contexts that bear them and on the markers. -/
def told : WalRecord → Bool
  | .context context => context.exclude.isSome
  | .marker _ => true
  | .trapqSegment _ | .stepperRange _ | .heartbeat _ => false

/-- What the service receives before it is told to end. -/
def receivedBy (turns : List (Option WalCmd × Clocks)) : List WalCmd :=
  (turns.filterMap Prod.fst).takeWhile (· ≠ .shutdown)

/-- The records of some commands that the report rests on. -/
def toldBy (cmds : List WalCmd) : List WalRecord :=
  ((cmds.filterMap WalCmd.append?).map Prod.fst).filter told

theorem toldBy_cons (cmd : WalCmd) (cmds : List WalCmd) :
    toldBy (cmd :: cmds) = toldBy [cmd] ++ toldBy cmds := by
  unfold toldBy
  rw [← List.singleton_append, List.filterMap_append, List.map_append, List.filter_append]

theorem syncSegment_appended (s : Service) : s.syncSegment.appended = s.appended := by
  unfold Service.syncSegment
  split
  · rfl
  · rfl

variable (clocks) in
theorem writeHeartbeatSlot_appended (s : Service) :
    (s.writeHeartbeatSlot clocks).2.appended = s.appended := by
  unfold Service.writeHeartbeatSlot
  split
  · rfl
  · rfl

/-- A record that the writer takes joins the log, any other is skipped. -/
theorem append_told {now : ℕ} {record : WalRecord} {sync : SyncPolicy}
    (h : Kept codec earlier first s) (htaken : told record = true → Accepted codec record) :
    (s.append codec clocks now record sync).appended.filter told =
      s.appended.filter told ++ [record].filter told := by
  by_cases hrecord : Accepted codec record
  · rw [(append_accepted h.toConsistent hrecord).appended_eq, List.filter_append]
  · have huntold : told record = false := by
      cases htold : told record with
      | false => rfl
      | true => exact absurd (htaken htold) hrecord
    rw [append_refused hrecord]
    simp [huntold]

theorem heartbeatTick_told (h : Kept codec earlier first s) :
    (s.heartbeatTick codec clocks).appended.filter told = s.appended.filter told := by
  have hslot := h.writeHeartbeatSlot clocks
  have hsame := writeHeartbeatSlot_appended clocks s
  unfold Service.heartbeatTick
  split
  · rfl
  · split
    · rename_i heq
      rw [heq] at hsame
      exact congrArg (List.filter told) hsame
    · rename_i heartbeat s' heq
      rw [heq] at hslot hsame
      split
      · have hbeat : told (.heartbeat heartbeat) = false := rfl
        refine (append_told hslot fun htold => by cases htold).trans ?_
        rw [hsame]
        simp [hbeat]
      · exact congrArg (List.filter told) hsame

theorem handle_told {cmd : WalCmd} (h : Kept codec earlier first s)
    (htaken : ∀ record sync, cmd = .append record sync → told record = true →
      Accepted codec record) :
    (s.handle codec clocks cmd).appended.filter told = s.appended.filter told ++ toldBy [cmd] := by
  cases cmd with
  | append record sync =>
    have happend : (s.append codec clocks clocks.appendAt record sync).appended.filter told =
        s.appended.filter told ++ [record].filter told := append_told h (htaken record sync rfl)
    unfold Service.handle
    dsimp only
    split
    · exact (congrArg (List.filter told) (writeHeartbeatSlot_appended clocks _)).trans happend
    · exact happend
  | heartbeat data => exact (List.append_nil _).symm
  | receiveSeq monoNs widened => exact (List.append_nil _).symm
  | shutdown => exact (List.append_nil _).symm

/-- What becomes due in a turn tells nothing. -/
theorem due_told {now next : ℕ} (h : Kept codec earlier first s) :
    (if s.nextHeartbeat ≤ now then { s.heartbeatTick codec clocks with nextHeartbeat := next }
      else s).appended.filter told = s.appended.filter told := by
  split
  · exact heartbeatTick_told h
  · rfl

theorem batch_told {now : ℕ} :
    (if s.batchDeadline.any fun deadline => deadline ≤ now then s.syncSegment
      else s).appended = s.appended := by
  split
  · exact syncSegment_appended s
  · rfl

theorem turn_told {received : Option WalCmd} (h : Kept codec earlier first s)
    (htaken : ∀ record sync, received = some (.append record sync) → told record = true →
      Accepted codec record) :
    (s.turn codec received clocks).appended.filter told =
      s.appended.filter told ++ toldBy received.toList := by
  cases received with
  | none =>
    refine (due_told h.batch).trans ?_
    rw [batch_told]
    exact (List.append_nil _).symm
  | some cmd =>
    refine (due_told h.handle.batch).trans ?_
    rw [batch_told]
    exact handle_told h fun record sync hcmd => htaken record sync (congrArg some hcmd)

/-- Whatever is in the log was taken by the writer. -/
theorem appended_accepted (h : Kept codec earlier first s) :
    ∀ record ∈ s.appended, Accepted codec record := by
  obtain ⟨segments, hholds⟩ := h.holds
  intro record hmem
  rw [hholds.appended] at hmem
  obtain ⟨index, hindex, hrecord⟩ := List.mem_flatMap.mp hmem
  have hrange := List.mem_range'_1.mp hindex
  have hfirst := h.first_le
  obtain ⟨_, _, _, _, _, haccepted⟩ := hholds.content index hrange.1 (by omega)
  exact haccepted record hrecord

/-- The log tells of a run what the commands told, as long as the writer takes that. -/
theorem run_told {turns : List (Option WalCmd × Clocks)} (h : Kept codec earlier first s)
    (htaken : ∀ record sync, .append record sync ∈ receivedBy turns → told record = true →
      Accepted codec record) :
    (s.run codec turns).appended.filter told =
      s.appended.filter told ++ toldBy (receivedBy turns) := by
  induction turns generalizing s with
  | nil => exact (List.append_nil _).symm
  | cons t turns ih =>
    obtain ⟨received, clocks⟩ := t
    unfold Service.run
    split
    · rename_i hshutdown
      subst hshutdown
      rw [syncSegment_appended]
      exact (List.append_nil _).symm
    · rename_i hrunning
      cases received with
      | none =>
        have hsame : receivedBy ((none, clocks) :: turns) = receivedBy turns := rfl
        rw [hsame] at htaken ⊢
        rw [ih h.turn htaken, turn_told h fun _ _ hcmd => by cases hcmd]
        exact congrArg (· ++ _) (List.append_nil _)
      | some cmd =>
        have hcmd : cmd ≠ .shutdown := fun heq => hrunning (congrArg some heq)
        have hfirst : receivedBy ((some cmd, clocks) :: turns) = cmd :: receivedBy turns := by
          simp [receivedBy, hcmd]
        rw [hfirst] at htaken ⊢
        rw [ih h.turn fun record sync hmem => htaken record sync (List.mem_cons_of_mem _ hmem),
          turn_told h fun record sync heq => ?_, List.append_assoc]
        · exact congrArg (_ ++ ·) (toldBy_cons cmd _).symm
        · obtain rfl := Option.some.inj heq
          exact htaken record sync List.mem_cons_self

end Appended

end DeadReckoning.Recording
