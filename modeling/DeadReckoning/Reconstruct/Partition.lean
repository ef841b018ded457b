import DeadReckoning.Reconstruct.Epoch
import Mathlib.Order.Bounds.Basic
import Mathlib.Data.List.Basic

/-! The partition of a log into epochs, against what an epoch is. -/
namespace DeadReckoning.Reconstruct

open Wal

section Specification

def isSocketLost : WalRecord → Bool
  | .marker ⟨_, .socketLost⟩ => true
  | _ => false

/-- The stamps of some records. -/
def monos (group : List ScannedRecord) : Set ℕ := {m | ∃ r ∈ group, r.2.monoNs = m}

/-- The offset restarts and the clock falls far below the newest stamp. -/
def Reboots (last : ℕ) (prev r : ScannedRecord) : Prop :=
  r.1 ≤ prev.1 ∧ r.2.monoNs + rebootMonoRegressionNs ≤ last

/-- The span is about these records, the first of them at `offset`, and no boundary lies within. -/
structure Describes (offset : ℕ) (group : List ScannedRecord) (e : EpochSpan) : Prop where
  nonempty : group ≠ []
  start : e.start = offset
  stop : e.stop = offset + group.length
  printing : e.printing = group.any (isPrintingContext ·.2)
  hasContext : e.hasContext = group.any (isContext ·.2)
  hasMotion : e.hasMotion = group.any (isMotion ·.2)
  least : IsLeast (monos group) e.minMonoNs
  greatest : IsGreatest (monos group) e.maxMonoNs
  connected : ∀ r ∈ group.dropLast, isSocketLost r.2 = false
  steady : ∀ before prev r after, group = before ++ prev :: r :: after →
    ∀ last, IsGreatest (monos (before ++ [prev])) last → ¬ Reboots last prev r

/-- Why an epoch ends between two records. -/
def Justified (a : EpochSpan) (prev r : ScannedRecord) : EpochBoundaryKind → Prop
  | .hostReboot last next =>
      last = a.maxMonoNs ∧ next = r.2.monoNs ∧ Reboots a.maxMonoNs prev r
  | .firmwareRestart lost =>
      prev.2 = .marker ⟨lost, .socketLost⟩ ∧ ¬ Reboots a.maxMonoNs prev r

/-- The spans describe the records group by group, in order and without a gap. -/
inductive Epochs : List ScannedRecord → List EpochSpan → Prop
  | empty : Epochs [] []
  | first {group : List ScannedRecord} {e : EpochSpan} :
      Describes 0 group e → e.boundaryBefore = none → Epochs group [e]
  | next {records group : List ScannedRecord} {spans : List EpochSpan} {a b : EpochSpan}
      {prev r : ScannedRecord} {kind : EpochBoundaryKind} :
      Epochs records (spans ++ [a]) → Describes records.length group b →
      records.getLast? = some prev → group.head? = some r →
      b.boundaryBefore = some kind → Justified a prev r kind →
      Epochs (records ++ group) (spans ++ [a, b])

/-- The sum in the test for a reboot leaves the range of the machine's integers. -/
def Partitioning.overflows (p : Partitioning) (r : ScannedRecord) : Prop :=
  (p.current.start < p.current.stop ∧ p.prevOffset.any (fun prev => r.1 ≤ prev) = true) ∧
    2 ^ 64 ≤ r.2.monoNs + rebootMonoRegressionNs

/-- The partition is what it should be, and no sum on the way overflows. -/
structure PartitionLaw (records : List ScannedRecord) : Prop where
  epochs : Epochs records (partition records)
  checked : ∀ before r after, records = before ++ r :: after →
    ¬ (partitioning before).overflows r

end Specification

section Groups

theorem monos_append_singleton (group : List ScannedRecord) (r : ScannedRecord) :
    monos (group ++ [r]) = insert r.2.monoNs (monos group) := by
  ext m
  simp only [monos, List.mem_append, List.mem_singleton, Set.mem_ofPred_eq, Set.mem_insert_iff]
  constructor
  · rintro ⟨r', hr' | rfl, rfl⟩
    · exact .inr ⟨r', hr', rfl⟩
    · exact .inl rfl
  · rintro (rfl | ⟨r', hr', rfl⟩)
    · exact ⟨r, .inr rfl, rfl⟩
    · exact ⟨r', .inl hr', rfl⟩

/-- A group of one record. -/
theorem describes_singleton {r : ScannedRecord} (hr : r.2.monoNs < 2 ^ 64) (offset : ℕ)
    (kind : Option EpochBoundaryKind) (p : Partitioning)
    (hcurrent : p.current = Partitioning.openSpan offset kind) :
    Describes offset [r] (p.fold r).current := by
  have hmonos : monos [r] = {r.2.monoNs} := by
    ext m
    simp [monos, eq_comm]
  unfold Partitioning.fold
  rw [hcurrent]
  exact
    { nonempty := List.cons_ne_nil _ _
      start := rfl
      stop := rfl
      printing := by simp [Partitioning.openSpan]
      hasContext := by simp [Partitioning.openSpan]
      hasMotion := by simp [Partitioning.openSpan]
      least := by
        have hmin : min (2 ^ 64 - 1) r.2.monoNs = r.2.monoNs := min_eq_right (by omega)
        simp only [Partitioning.openSpan, hmin, hmonos]
        exact isLeast_singleton
      greatest := by
        simp only [Partitioning.openSpan, Nat.zero_max, hmonos]
        exact isGreatest_singleton
      connected := fun r' hr' => by cases hr'
      steady := fun before prev r' after h => by
        have hlength := congrArg List.length h
        simp only [List.length_append, List.length_cons, List.length_nil] at hlength
        omega }

/-- A group that a record joins. -/
theorem Describes.join {offset : ℕ} {group : List ScannedRecord} {p : Partitioning}
    {prev r : ScannedRecord} (h : Describes offset group p.current)
    (hlast : group.getLast? = some prev) (hconnected : isSocketLost prev.2 = false)
    (hsteady : ¬ Reboots p.current.maxMonoNs prev r) :
    Describes offset (group ++ [r]) (p.fold r).current where
  nonempty := by simp
  start := h.start
  stop := by
    simp only [Partitioning.fold, h.stop, List.length_append, List.length_singleton]
    omega
  printing := by simp [Partitioning.fold, h.printing]
  hasContext := by simp [Partitioning.fold, h.hasContext]
  hasMotion := by simp [Partitioning.fold, h.hasMotion]
  least := by
    rw [monos_append_singleton]
    simpa only [Partitioning.fold, min_comm] using h.least.insert r.2.monoNs
  greatest := by
    rw [monos_append_singleton]
    simpa only [Partitioning.fold, max_comm] using h.greatest.insert r.2.monoNs
  connected := by
    rw [List.dropLast_concat]
    intro r' hr'
    obtain ⟨front, rfl⟩ : ∃ front, group = front ++ [prev] := List.getLast?_eq_some_iff.mp hlast
    rcases List.mem_append.mp hr' with hfront | hprev
    · exact h.connected r' (by rwa [List.dropLast_concat])
    · rw [List.mem_singleton.mp hprev]
      exact hconnected
  steady := by
    intro before prev' r' after hsplit last hgreatest
    rcases List.eq_nil_or_concat after with rfl | ⟨after', x, rfl⟩
    · -- the record that joins is the last one
      have hsplit' : group ++ [r] = (before ++ [prev']) ++ [r'] := by simpa using hsplit
      obtain ⟨rfl, hr⟩ := List.append_inj' hsplit' rfl
      cases hr
      rw [List.getLast?_concat] at hlast
      cases hlast
      rw [hgreatest.unique h.greatest]
      exact hsteady
    · have hsplit' : group ++ [r] = (before ++ prev' :: r' :: after') ++ [x] := by
        simpa using hsplit
      obtain ⟨rfl, -⟩ := List.append_inj' hsplit' rfl
      exact h.steady before prev' r' after' rfl last hgreatest

end Groups

section Law

/-- The last span describes the records at the end. -/
theorem Epochs.last {records : List ScannedRecord} {spans : List EpochSpan} {e : EpochSpan}
    (h : Epochs records (spans ++ [e])) :
    ∃ earlier group, records = earlier ++ group ∧ Describes earlier.length group e := by
  generalize hall : spans ++ [e] = all at h
  cases h with
  | empty => simp at hall
  | first hdescribes _ =>
    obtain ⟨-, heq⟩ := List.append_inj' (hall.trans (List.nil_append _).symm) rfl
    cases heq
    exact ⟨[], records, rfl, hdescribes⟩
  | @next records group spans' a b prev r kind hepochs hdescribes _ _ _ _ =>
    have hall' : spans ++ [e] = (spans' ++ [a]) ++ [b] := by simpa using hall
    obtain ⟨-, heq⟩ := List.append_inj' hall' rfl
    cases heq
    exact ⟨records, group, rfl, hdescribes⟩

theorem Epochs.join {records : List ScannedRecord} {spans : List EpochSpan} {p : Partitioning}
    {last r : ScannedRecord} (h : Epochs records (spans ++ [p.current]))
    (hlast : records.getLast? = some last) (hconnected : isSocketLost last.2 = false)
    (hsteady : ¬ Reboots p.current.maxMonoNs last r) :
    Epochs (records ++ [r]) (spans ++ [(p.fold r).current]) := by
  generalize hall : spans ++ [p.current] = all at h
  cases h with
  | empty => simp at hall
  | @first _ e hdescribes hfirst =>
    obtain ⟨rfl, heq⟩ := List.append_inj' (hall.trans (List.nil_append _).symm) rfl
    obtain rfl : p.current = e := by simpa using heq
    exact .first (hdescribes.join hlast hconnected hsteady) hfirst
  | @next records group spans' a b prev next kind hepochs hdescribes hprev hnext hkind hjust =>
    have hall' : spans ++ [p.current] = (spans' ++ [a]) ++ [b] := by simpa using hall
    obtain ⟨rfl, heq⟩ := List.append_inj' hall' rfl
    obtain rfl : p.current = b := by simpa using heq
    have hgroup : group.getLast? = some last := by
      rwa [List.getLast?_append_of_ne_nil _ hdescribes.nonempty] at hlast
    rw [List.append_assoc, List.append_assoc]
    refine .next hepochs (hdescribes.join hgroup hconnected hsteady) hprev ?_ hkind hjust
    exact (List.head?_append_of_ne_nil group hdescribes.nonempty).trans hnext

/-- The stamp of a lost socket. -/
def socketLost? : WalRecord → Option ℕ
  | .marker ⟨mono, .socketLost⟩ => some mono
  | _ => none

theorem isSocketLost_eq_false {record : WalRecord} (h : socketLost? record = none) :
    isSocketLost record = false := by
  unfold socketLost? at h
  unfold isSocketLost
  split at h
  · cases h
  · rfl

theorem eq_of_socketLost? {record : WalRecord} {mono : ℕ} (h : socketLost? record = some mono) :
    record = .marker ⟨mono, .socketLost⟩ := by
  unfold socketLost? at h
  split at h
  · cases h
    rfl
  · cases h

/-- The accumulators after some records, the last of them `last`. -/
structure Accumulates (records : List ScannedRecord) (last : ScannedRecord) (p : Partitioning) :
    Prop where
  epochs : Epochs records p.spans
  newest : records.getLast? = some last
  prevOffset : p.prevOffset = some last.1
  pending : p.pendingSocketLost = socketLost? last.2

theorem pending_fold (p : Partitioning) (r : ScannedRecord) (h : p.pendingSocketLost = none) :
    (p.fold r).pendingSocketLost = socketLost? r.2 := by
  obtain ⟨offset, record⟩ := r
  cases record with
  | marker m =>
    obtain ⟨mono, kind⟩ := m
    cases kind <;> first | rfl | exact h
  | trapqSegment _ | stepperRange _ | context _ | heartbeat _ => exact h

/-- The span under construction is not empty. -/
theorem Accumulates.current {records : List ScannedRecord} {last : ScannedRecord}
    {p : Partitioning} (h : Accumulates records last p) :
    p.current.start < p.current.stop ∧ p.current.stop = records.length := by
  obtain ⟨earlier, group, rfl, hdescribes⟩ := h.epochs.last
  have hpos := List.length_pos_iff.mpr hdescribes.nonempty
  rw [hdescribes.start, hdescribes.stop, List.length_append]
  constructor
  · omega
  · rfl

/-- A boundary is a reboot, or else a restart that is pending. -/
theorem Accumulates.boundary {records : List ScannedRecord} {last r : ScannedRecord}
    {p : Partitioning} (h : Accumulates records last p) (hsum : ¬ p.overflows r) :
    (Reboots p.current.maxMonoNs last r ∧
        p.boundary r = some (.hostReboot p.current.maxMonoNs r.2.monoNs)) ∨
      (¬ Reboots p.current.maxMonoNs last r ∧
        p.boundary r = (socketLost? last.2).map .firmwareRestart) := by
  have hstart := h.current.1
  have hnew : (p.prevOffset.any fun prev => r.1 ≤ prev) = decide (r.1 ≤ last.1) := by
    rw [h.prevOffset]
    rfl
  unfold Partitioning.boundary
  dsimp only
  rw [hnew, h.pending]
  by_cases hrestart : r.1 ≤ last.1
  · have hmod : (r.2.monoNs + rebootMonoRegressionNs) % 2 ^ 64 =
        r.2.monoNs + rebootMonoRegressionNs := by
      refine Nat.mod_eq_of_lt (not_le.mp fun hle => hsum ⟨⟨hstart, ?_⟩, hle⟩)
      rw [hnew]
      exact decide_eq_true hrestart
    rw [hmod]
    by_cases hregress : r.2.monoNs + rebootMonoRegressionNs ≤ p.current.maxMonoNs
    · exact .inl ⟨⟨hrestart, hregress⟩, if_pos ⟨hstart, decide_eq_true hrestart, hregress⟩⟩
    · refine .inr ⟨fun hreboots => hregress hreboots.2, if_neg ?_⟩
      rintro ⟨-, -, hle⟩
      exact hregress hle
  · refine .inr ⟨fun hreboots => hrestart hreboots.1, if_neg ?_⟩
    rintro ⟨-, hdecide, -⟩
    exact hrestart (of_decide_eq_true hdecide)

/-- A record that opens an epoch. -/
theorem Accumulates.open {records : List ScannedRecord} {last r : ScannedRecord}
    {p : Partitioning} (h : Accumulates records last p) (hr : r.2.monoNs < 2 ^ 64)
    {kind : EpochBoundaryKind} (hjust : Justified p.current last r kind) :
    Accumulates (records ++ [r]) r ((p.close (some kind)).fold r) where
  epochs := by
    have hdescribes := describes_singleton hr p.current.stop (some kind) (p.close (some kind)) rfl
    rw [h.current.2] at hdescribes
    have hspans : ((p.close (some kind)).fold r).spans =
        p.epochs ++ [p.current, ((p.close (some kind)).fold r).current] := by
      simp [Partitioning.spans, Partitioning.close, Partitioning.fold]
    rw [hspans]
    exact .next h.epochs hdescribes h.newest rfl rfl hjust
  newest := List.getLast?_concat
  prevOffset := rfl
  pending := pending_fold _ _ rfl

theorem Accumulates.step {records : List ScannedRecord} {last r : ScannedRecord}
    {p : Partitioning} (h : Accumulates records last p) (hr : r.2.monoNs < 2 ^ 64)
    (hsum : ¬ p.overflows r) : Accumulates (records ++ [r]) r (p.step r) := by
  unfold Partitioning.step
  rcases h.boundary hsum with ⟨hreboots, hboundary⟩ | ⟨hsteady, hboundary⟩
  · rw [hboundary]
    exact h.open hr ⟨rfl, rfl, hreboots⟩
  · rw [hboundary]
    cases hlost : socketLost? last.2 with
    | some lost => exact h.open hr ⟨eq_of_socketLost? hlost, hsteady⟩
    | none =>
      exact
        { epochs := h.epochs.join h.newest (isSocketLost_eq_false hlost) hsteady
          newest := List.getLast?_concat
          prevOffset := rfl
          pending := pending_fold _ _ (h.pending.trans hlost) }

/-- A restart of the offset with a stamp at the end of the range. -/
def Overflowing (records : List ScannedRecord) : Prop :=
  ∃ before prev r after, records = before ++ prev :: r :: after ∧ r.1 ≤ prev.1 ∧
    2 ^ 64 ≤ r.2.monoNs + rebootMonoRegressionNs

/-- What the loop has accumulated, as long as no sum has overflowed. -/
theorem accumulates {records : List ScannedRecord} (hbounded : ∀ r ∈ records, r.2.monoNs < 2 ^ 64)
    (hsums : ∀ before r after, records = before ++ r :: after → ¬ (partitioning before).overflows r)
    (hne : records ≠ []) :
    ∃ last, Accumulates records last (partitioning records) := by
  induction records using List.reverseRecOn with
  | nil => exact absurd rfl hne
  | append_singleton records r ih =>
    have hr := hbounded r (by simp)
    rw [partitioning_append, List.foldl_cons, List.foldl_nil]
    rcases List.eq_nil_or_concat records with rfl | ⟨_, _, hconcat⟩
    · refine ⟨r, ?_⟩
      exact
        { epochs := .first (describes_singleton hr 0 none .new rfl) rfl
          newest := rfl
          prevOffset := rfl
          pending := pending_fold _ _ rfl }
    · obtain ⟨last, h⟩ := ih (fun r' hr' => hbounded r' (by simp [hr']))
        (fun before r' after heq => hsums before r' (after ++ [r]) (by simp [heq]))
        (by simp [hconcat])
      exact ⟨r, h.step hr (hsums records r [] rfl)⟩

/-- The loop over a log without overflowing restarts evaluates no sum that overflows. -/
theorem not_overflows {records : List ScannedRecord} (h : ¬ Overflowing records) (before : List ScannedRecord) (r : ScannedRecord)
    (after : List ScannedRecord) (heq : records = before ++ r :: after) :
    ¬ (partitioning before).overflows r := by
  rintro ⟨⟨hstart, hoffset⟩, hle⟩
  rcases List.eq_nil_or_concat before with rfl | ⟨before', prev, hconcat⟩
  · exact absurd hstart (lt_irrefl 0)
  · have hprev : (partitioning before).prevOffset = some prev.1 := by
      rw [hconcat, List.concat_eq_append, partitioning_append]
      rfl
    rw [hprev] at hoffset
    refine h ⟨before', prev, r, after, ?_, of_decide_eq_true hoffset, hle⟩
    rw [heq, hconcat]
    simp

/-- The partition law holds of a log exactly when no record that restarts the offset carries a stamp
within a second of the largest one there is. -/
theorem partition_law_iff {records : List ScannedRecord}
    (hbounded : ∀ r ∈ records, r.2.monoNs < 2 ^ 64) :
    PartitionLaw records ↔ ¬ Overflowing records := by
  constructor
  · rintro hlaw ⟨before, prev, r, after, heq, hoffset, hle⟩
    have hfirst : before ++ [prev] ≠ [] := by simp
    have heq' : records = (before ++ [prev]) ++ r :: after := by simpa using heq
    refine hlaw.checked _ r after heq' ⟨⟨?_, ?_⟩, hle⟩
    · obtain ⟨last, haccumulates⟩ := @accumulates (before ++ [prev])
        (fun r' hr' => hbounded r' (by rw [heq']; exact List.mem_append_left _ hr'))
        (fun b r' a h => hlaw.checked b r' (a ++ r :: after) (by rw [heq', h]; simp)) hfirst
      exact haccumulates.current.1
    · have hprev : (partitioning (before ++ [prev])).prevOffset = some prev.1 := by
        rw [partitioning_append]
        rfl
      rw [hprev]
      exact decide_eq_true hoffset
  · intro h
    have hsums := not_overflows h
    refine ⟨?_, hsums⟩
    by_cases hne : records = []
    · subst hne
      exact .empty
    · obtain ⟨last, haccumulates⟩ := accumulates hbounded hsums hne
      have hspans : partition records = (partitioning records).spans := by simp [partition, hne]
      rw [hspans]
      exact haccumulates.epochs

theorem partition_law_two_boots :
    (∀ r ∈ [((16 : ℕ), WalRecord.marker ⟨5000000000, .socketLost⟩),
        ((16 : ℕ), WalRecord.marker ⟨7, .resubscribed⟩)], r.2.monoNs < 2 ^ 64) ∧
      (PartitionLaw [((16 : ℕ), WalRecord.marker ⟨5000000000, .socketLost⟩),
        ((16 : ℕ), WalRecord.marker ⟨7, .resubscribed⟩)] ↔
      ¬ Overflowing [((16 : ℕ), WalRecord.marker ⟨5000000000, .socketLost⟩),
        ((16 : ℕ), WalRecord.marker ⟨7, .resubscribed⟩)]) :=
  ⟨by decide, partition_law_iff (by decide)⟩

/-- Two segments whose stamps are the largest there are: the sum overflows, and where it wraps the
second one becomes an epoch of its own. -/
theorem sum_overflows_at_largest_stamp :
    ¬ ∀ records : List ScannedRecord,
      (∀ r ∈ records, r.1 < 2 ^ 64 ∧ r.2.monoNs < 2 ^ 64) → PartitionLaw records := by
  intro h
  let r : ScannedRecord := (16, .marker ⟨2 ^ 64 - 1, .resubscribed⟩)
  have hlaw := h [r, r] (by decide)
  refine hlaw.checked [r] r [] rfl ⟨⟨?_, ?_⟩, ?_⟩
  · decide
  · decide
  · decide

end Law

end DeadReckoning.Reconstruct
