import DeadReckoning.Recording.CrashSurvival
import DeadReckoning.StateFiles.Published

/-! The watcher of the power line: an edge that is still there after the debounce is put into the
sidecar, then sent to the log, and only then does the daemon end. -/
namespace DeadReckoning.StateFiles

open Recording (BootRun Directory Passes Survives WalCmd decodePowerFailEdge encodePowerFailEdge)
open Replace (Disk)
open Wal (Accepted Codec WalRecord)

section Watcher

/-- One round of the watcher: whether an edge came, what the clock showed then, and the line after
the debounce; `none` is an error of the line. -/
structure Round where
  waited : Bool
  nowMonoNs : UInt64
  asserted : Option Bool

inductive WatcherOutcome where
  | fired
  | sourceEnded
  deriving DecidableEq

/-- What becomes of a blocking send; a cut may come first. -/
inductive Delivery where
  | taken
  | gone
  | cut

/-- What the watcher has done: to the files, to the log and to the daemon. -/
structure Watch where
  disk : Disk Text UInt8
  deliveries : List Delivery
  sent : List WalCmd
  exits : ℕ

def powerFailing (edgeMonoNs : UInt64) : WalRecord :=
  .marker ⟨edgeMonoNs.toNat, .powerFailing⟩

/-- The first copy; an error of the write is not one of the response. -/
def putSidecar (edgeMonoNs : UInt64) : Prog Watch Unit Unit := fun w =>
  match writeSidecar edgeMonoNs w.disk with
  | (.error .cut, disk) => (.error (), { w with disk := disk })
  | (_, disk) => (.ok (), { w with disk := disk })

def appendEdge (edgeMonoNs : UInt64) : WalCmd := .append (powerFailing edgeMonoNs) .immediate

/-- The second copy, which waits for a place in the channel. -/
def sendMarker (edgeMonoNs : UInt64) : Prog Watch Unit Unit := fun w =>
  match w.deliveries with
  | [] => (.ok (), { w with sent := w.sent ++ [appendEdge edgeMonoNs] })
  | .taken :: rest =>
      (.ok (), { w with deliveries := rest, sent := w.sent ++ [appendEdge edgeMonoNs] })
  | .gone :: rest => (.ok (), { w with deliveries := rest })
  | .cut :: rest => (.error (), { w with deliveries := rest })

def mandatory (edgeMonoNs : UInt64) : Prog Watch Unit Unit := do
  putSidecar edgeMonoNs
  sendMarker edgeMonoNs

/-- The daemon ends. -/
def bestEffort : Prog Watch Unit Unit := Prog.update fun w => { w with exits := w.exits + 1 }

/-- What follows an edge that was confirmed. -/
def respond (edgeMonoNs : UInt64) : Prog Watch Unit (Option WatcherOutcome) := do
  mandatory edgeMonoNs
  bestEffort
  pure (some .fired)

/-- The watcher over its rounds; without a further one it waits. -/
def runWatcher : List Round → Prog Watch Unit (Option WatcherOutcome)
  | [] => pure none
  | round :: rounds =>
      if !round.waited then pure (some .sourceEnded)
      else
        match round.asserted with
        | some true => respond round.nowMonoNs
        | some false => runWatcher rounds
        | none => pure (some .sourceEnded)

end Watcher

section Response

variable {rounds : List Round} {edge : UInt64} {w : Watch} {S : Option Bytes → Prop}

/-- The first edge that is still there after its debounce came at this time. -/
def Confirmed (rounds : List Round) (edge : UInt64) : Prop :=
  ∃ blips round rest, rounds = blips ++ round :: rest ∧
    (∀ blip ∈ blips, blip.waited = true ∧ blip.asserted = some false) ∧
      round.waited = true ∧ round.asserted = some true ∧ round.nowMonoNs = edge

theorem Confirmed.cons {blip : Round} (h : Confirmed rounds edge) (hwaited : blip.waited = true)
    (hblip : blip.asserted = some false) : Confirmed (blip :: rounds) edge := by
  obtain ⟨blips, round, rest, rfl, hblips, hround⟩ := h
  exact ⟨blip :: blips, round, rest, rfl, List.forall_mem_cons.mpr ⟨⟨hwaited, hblip⟩, hblips⟩,
    hround⟩

/-- A round that is confirmed comes first, or behind a blip. -/
theorem Confirmed.cases {round : Round} (h : Confirmed (round :: rounds) edge) :
    round.waited = true ∧ (round.asserted = some true ∧ round.nowMonoNs = edge ∨
      round.asserted = some false ∧ Confirmed rounds edge) := by
  obtain ⟨blips, last, rest, hsplit, hall, hwaited, hasserted, hnow⟩ := h
  cases blips with
  | nil =>
    obtain ⟨rfl, rfl⟩ := List.cons.inj hsplit
    exact ⟨hwaited, .inl ⟨hasserted, hnow⟩⟩
  | cons blip blips =>
    obtain ⟨rfl, rfl⟩ := List.cons.inj hsplit
    obtain ⟨hfirst, hrest⟩ := List.forall_mem_cons.mp hall
    exact ⟨hfirst.1, .inr ⟨hfirst.2, blips, last, rest, rfl, hrest, hwaited, hasserted, hnow⟩⟩

theorem not_confirmed_nil : ¬ Confirmed [] edge := by
  rintro ⟨blips, round, rest, hsplit, -⟩
  exact List.append_ne_nil_of_right_ne_nil blips (List.cons_ne_nil round rest) hsplit.symm

theorem Confirmed.unique {other : UInt64} (h : Confirmed rounds edge)
    (hother : Confirmed rounds other) : edge = other := by
  induction rounds with
  | nil => exact (not_confirmed_nil h).elim
  | cons round rounds ih =>
    rcases h.cases.2 with ⟨hasserted, rfl⟩ | ⟨hasserted, hlater⟩
    · rcases hother.cases.2 with ⟨-, rfl⟩ | ⟨hblip, -⟩
      · rfl
      · rw [hasserted] at hblip
        cases hblip
    · rcases hother.cases.2 with ⟨hasserted', -⟩ | ⟨-, hlater'⟩
      · rw [hasserted] at hasserted'
        cases hasserted'
      · exact ih hlater hlater'

/-- The watcher answers the first confirmed edge, and otherwise does nothing. -/
theorem runWatcher_cases (rounds : List Round) :
    (∃ edge, Confirmed rounds edge ∧ runWatcher rounds = respond edge) ∨
      (∀ edge, ¬ Confirmed rounds edge) ∧ ∃ outcome, outcome ≠ some .fired ∧
        runWatcher rounds = pure outcome := by
  induction rounds with
  | nil =>
    exact .inr ⟨fun edge h => not_confirmed_nil h, none, by simp, rfl⟩
  | cons round rounds ih =>
    unfold runWatcher
    cases hwaited : round.waited with
    | false =>
      refine .inr ⟨fun edge h => ?_, some .sourceEnded, by simp, rfl⟩
      rw [h.cases.1] at hwaited
      cases hwaited
    | true =>
      rw [Bool.not_true, if_neg Bool.false_ne_true]
      cases hasserted : round.asserted with
      | none =>
        refine .inr ⟨fun edge h => ?_, some .sourceEnded, by simp, rfl⟩
        rcases h.cases.2 with ⟨h, -⟩ | ⟨h, -⟩
        · rw [h] at hasserted
          cases hasserted
        · rw [h] at hasserted
          cases hasserted
      | some asserted =>
        cases asserted with
        | true =>
          exact .inl ⟨round.nowMonoNs, ⟨[], round, rounds, rfl, by simp, hwaited, hasserted, rfl⟩,
            rfl⟩
        | false =>
          rcases ih with ⟨edge, hconfirmed, hrun⟩ | ⟨hnone, houtcome⟩
          · exact .inl ⟨edge, hconfirmed.cons hwaited hasserted, hrun⟩
          · refine .inr ⟨fun edge h => ?_, houtcome⟩
            rcases h.cases.2 with ⟨h, -⟩ | ⟨-, h⟩
            · rw [h] at hasserted
              cases hasserted
            · exact hnone edge h

/-- What has come of an edge that was confirmed, wherever the power failed. The sidecar holds what
it held or the edge; nothing else is begun before its write is over; and both copies last, the sidecar
when its write succeeded and the marker when the log has handled it before its own cut. -/
structure Responded (S : Option Bytes → Prop) (edge : UInt64) (w : Watch)
    (result : Except Unit (Option WatcherOutcome)) (w' : Watch) : Prop where
  sidecar : ∀ left, w'.disk.MayShow powerFailFileName left →
    S left ∨ left = some (encodePowerFailEdge edge)
  ordered : w'.sent ≠ w.sent ∨ w'.exits ≠ w.exits →
    (writeSidecar edge w.disk).1 = .error .failed ∨
      ∀ left, w'.disk.MayShow powerFailFileName left →
        readStatePresence decodePowerFailEdge left = .present edge
  sent : w'.sent = w.sent ∨ w'.sent = w.sent ++ [appendEdge edge]
  exits : w'.exits = w.exits ∨ w'.exits = w.exits + 1
  fired : result = .ok (some .fired) ↔ w'.exits = w.exits + 1
  logged : w'.sent ≠ w.sent → ∀ (codec : Codec) (dir : Directory) (boot : BootRun)
    (part : List WalRecord), Survives codec dir boot part → Accepted codec (powerFailing edge) →
      ∀ (t : Recording.Service) (clocks : Recording.Clocks)
        (rest : List (Option WalCmd × Recording.Clocks)),
        Passes codec (boot.start dir) boot.turns t ((some (appendEdge edge), clocks) :: rest) →
        (t.handle codec clocks (appendEdge edge)).calls.length ≤ boot.cut →
          powerFailing edge ∈ part

/-- The marker is sent, or the log is gone, or the power fails first. -/
theorem sendMarker_cases (edge : UInt64) (w : Watch) :
    (sendMarker edge w).2.disk = w.disk ∧ (sendMarker edge w).2.exits = w.exits ∧
      ((sendMarker edge w).2.sent = w.sent ∨
        (sendMarker edge w).2.sent = w.sent ++ [appendEdge edge]) := by
  unfold sendMarker
  split
  · exact ⟨rfl, rfl, .inr rfl⟩
  · exact ⟨rfl, rfl, .inr rfl⟩
  · exact ⟨rfl, rfl, .inl rfl⟩
  · exact ⟨rfl, rfl, .inl rfl⟩

theorem respond_cut {w' : Watch} (h : putSidecar edge w = (.error (), w')) :
    respond edge w = (.error (), w') := by
  unfold respond mandatory
  simp only [Bind.bind, Prog.andThen, h]

theorem respond_put {u : Watch} (h : putSidecar edge w = (.ok (), u)) :
    respond edge w = match sendMarker edge u with
      | (.ok _, v) => (.ok (some .fired), { v with exits := v.exits + 1 })
      | (.error e, v) => (.error e, v) := by
  unfold respond mandatory
  simp only [Bind.bind, Prog.andThen, h]
  cases sendMarker edge u with
  | mk result v =>
    cases result with
    | ok _ => rfl
    | error _ => rfl

theorem respond_responded (hdisk : w.disk.May powerFailFileName S) :
    Responded S edge w (respond edge w).1 (respond edge w).2 := by
  have htriple := @Replace.triple_replace _ _ _ _ _ (encodePowerFailEdge edge) S
    (naming.apart .powerFail .powerFail)
  have hlogged : ∀ (codec : Codec) (dir : Directory) (boot : BootRun) (part : List WalRecord),
      Survives codec dir boot part → Accepted codec (powerFailing edge) →
        ∀ (t : Recording.Service) (clocks : Recording.Clocks)
          (rest : List (Option WalCmd × Recording.Clocks)),
          Passes codec (boot.start dir) boot.turns t ((some (appendEdge edge), clocks) :: rest) →
          (t.handle codec clocks (appendEdge edge)).calls.length ≤ boot.cut →
            powerFailing edge ∈ part := by
    intro codec dir boot part hpart hrecord t clocks rest hpasses hcut
    have hfront := hpart.immediate t (powerFailing edge) clocks rest hrecord hpasses hcut
    exact hfront.subset (List.mem_append_right _ (List.mem_singleton_self _))
  cases hres : writeSidecar edge w.disk with
  | mk result disk =>
    by_cases hcut : result = .error .cut
    · subst hcut
      have hput : putSidecar edge w = (.error (), { w with disk := disk }) := by
        unfold putSidecar
        rw [hres]
      rw [respond_cut hput]
      exact
        { sidecar := fun left hleft => (htriple.error hdisk hres).mayShow hleft
          ordered := fun h => by simp at h
          sent := .inl rfl
          exits := .inl rfl
          fired := by simp
          logged := fun h => by simp at h }
    · have hput : putSidecar edge w = (.ok (), { w with disk := disk }) := by
        unfold putSidecar
        rw [hres]
        split
        · rename_i heq
          exact absurd (congrArg Prod.fst heq) hcut
        · rename_i heq
          rw [(Prod.mk.inj heq).2]
      obtain ⟨hsame, hexits, hsent⟩ := sendMarker_cases edge { w with disk := disk }
      have hsidecar : ∀ left, disk.MayShow powerFailFileName left →
          S left ∨ left = some (encodePowerFailEdge edge) := by
        intro left hleft
        cases result with
        | ok _ => exact .inr ((htriple.ok hdisk hres).mayShow hleft)
        | error fault => exact (htriple.error hdisk hres).mayShow hleft
      have hordered : result = .error .failed ∨
          ∀ left, disk.MayShow powerFailFileName left →
            readStatePresence decodePowerFailEdge left = .present edge := by
        cases result with
        | ok _ =>
          refine .inr fun left hleft => ?_
          obtain rfl := (htriple.ok hdisk hres).mayShow hleft
          unfold readStatePresence
          dsimp only
          rw [decodePowerFailEdge_encode]
        | error fault =>
          cases fault with
          | failed => exact .inl rfl
          | cut => exact absurd rfl hcut
      rw [respond_put hput]
      cases hsend : sendMarker edge { w with disk := disk } with
      | mk answer v =>
        rw [hsend] at hsame hexits hsent
        dsimp only at hsame hexits hsent
        rw [← hsame] at hsidecar hordered
        cases answer with
        | ok _ =>
          exact
            { sidecar := hsidecar
              ordered := by
                rw [hres]
                exact fun _ => hordered
              sent := hsent
              exits := .inr (congrArg (· + 1) hexits)
              fired := by simp [hexits]
              logged := fun _ => hlogged }
        | error _ =>
          exact
            { sidecar := hsidecar
              ordered := by
                rw [hres]
                exact fun _ => hordered
              sent := hsent
              exits := .inl hexits
              fired := by simp [hexits]
              logged := fun _ => hlogged }

/-- A blip, then the edge. -/
def exampleRounds : List Round := [⟨true, 5, some false⟩, ⟨true, 9, some true⟩]

/-- The power fails while the marker waits. -/
def exampleWatch : Watch := ⟨⟨fun _ => none, fun _ => [], []⟩, [.cut], [], 0⟩

end Response

end DeadReckoning.StateFiles
