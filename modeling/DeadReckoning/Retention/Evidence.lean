import DeadReckoning.Lib.Runs
import DeadReckoning.Retention.Pruning
import Mathlib.Data.List.Flatten
import Mathlib.Data.List.Pairwise

/-! What retention never deletes: a segment of a boot that reaches into what must be kept. -/
namespace DeadReckoning.Retention

open Bytes Wal

section Lists

variable {α : Type*}

/-- A cut between two members of a stretch cuts the stretch. -/
theorem stretch_cut {left right before stretch after : List α}
    (h : left ++ right = before ++ stretch ++ after) (hnodup : (left ++ right).Nodup) {a b : α}
    (ha : a ∈ left) (hb : b ∈ right) (ha' : a ∈ stretch) (hb' : b ∈ stretch) :
    ∃ front back, stretch = front ++ back ∧ left = before ++ front ∧ right = back ++ after ∧
      a ∈ front ∧ b ∈ back := by
  have hdisjoint := List.disjoint_of_nodup_append hnodup
  rw [List.append_assoc] at h
  rcases List.append_eq_append_iff.mp h with ⟨more, hbefore, hright⟩ | ⟨front, hleft, hstretch⟩
  · -- All of the stretch would stand behind the cut.
    exact absurd (by simp [hright, ha'] : a ∈ right) (hdisjoint ha)
  · rcases List.append_eq_append_iff.mp hstretch with
      ⟨more, hfront, _⟩ | ⟨back, hback, hright⟩
    · exact absurd hb (hdisjoint (by simp [hleft, hfront, hb'] : b ∈ left))
    · refine ⟨front, back, hback, hleft, hright, ?_, ?_⟩
      · have hnot : a ∉ back := fun hin => hdisjoint ha (by simp [hright, hin])
        simpa [hback, hnot] using ha'
      · have hnot : b ∉ front := fun hin => hdisjoint (by simp [hleft, hin]) hb
        simpa [hback, hnot] using hb'

/-- With distinct keys, the members whose key occurs in a sublist are that sublist. -/
theorem filter_of_sublist {l segments : List α} {key : α → ℕ} (hl : l.Sublist segments)
    (hkeys : (segments.map key).Nodup) :
    segments.filter (fun a => key a ∈ l.map key) = l := by
  induction hl with
  | slnil => rfl
  | @cons l segments a hl ih =>
    simp only [List.map_cons, List.nodup_cons] at hkeys
    have habsent : key a ∉ l.map key := fun hmem => hkeys.1 ((hl.map key).subset hmem)
    rw [List.filter_cons_of_neg (by simpa using habsent), ih hkeys.2]
  | @cons_cons l segments a hl ih =>
    simp only [List.map_cons, List.nodup_cons] at hkeys
    have hrest : segments.filter (fun b => key b ∈ (a :: l).map key) =
        segments.filter (fun b => key b ∈ l.map key) := by
      apply List.filter_congr
      intro b hb
      have hne : key b ≠ key a := fun heq => hkeys.1 (heq ▸ List.mem_map_of_mem hb)
      simp [hne]
    rw [List.filter_cons_of_pos (by simp), hrest, ih hkeys.2]

/-- What is kept and what is not add up to all. -/
theorem sum_filter_add (l : List α) (size : α → ℕ) (p : α → Bool) :
    ((l.filter p).map size).sum + ((l.filter fun a => !p a).map size).sum = (l.map size).sum := by
  induction l with
  | nil => rfl
  | cons a l ih =>
    cases hp : p a <;> simp only [List.filter_cons, hp, Bool.false_eq_true, ↓reduceIte,
      Bool.not_false, Bool.not_true, List.map_cons, List.sum_cons] <;> omega

end Lists

section Groups

/-- The session of a group of segments. -/
def Session.of (group : List SegmentMeta) : Session := group.foldl Session.push .new

theorem Session.of_snoc (group : List SegmentMeta) (seg : SegmentMeta) :
    Session.of (group ++ [seg]) = (Session.of group).push seg := by
  simp [Session.of]

@[simp] theorem Session.segments_of (group : List SegmentMeta) :
    (Session.of group).segments = group.map fun m => m.index := by
  induction group using List.reverseRecOn with
  | nil => rfl
  | append_singleton group seg ih => simp [Session.of_snoc, Session.push, ih]

@[simp] theorem Session.totalBytes_of (group : List SegmentMeta) :
    (Session.of group).totalBytes = (group.map fun m => m.sizeBytes).sum := by
  induction group using List.reverseRecOn with
  | nil => rfl
  | append_singleton group seg ih => simp [Session.of_snoc, Session.push, ih]

@[simp] theorem Session.deletable_of (group : List SegmentMeta) :
    (Session.of group).deletable = group.all fun m => m.createdMonoNs.isSome := by
  induction group using List.reverseRecOn with
  | nil => rfl
  | append_singleton group seg ih => simp [Session.of_snoc, Session.push, ih]

def lastReadable (segments : List SegmentMeta) : Option UInt64 :=
  (segments.filterMap fun m => m.createdMonoNs).getLast?

theorem lastReadable_snoc (segments : List SegmentMeta) (seg : SegmentMeta) :
    lastReadable (segments ++ [seg]) = seg.createdMonoNs.or (lastReadable segments) := by
  unfold lastReadable
  cases h : seg.createdMonoNs with
  | none => simp [h]
  | some stamp => simp [h]

/-- The clock was reset between the two stretches. -/
def ResetBetween (left right : List SegmentMeta) : Prop :=
  ∃ u rest cur prev, right = u :: rest ∧ u.createdMonoNs = some cur ∧
    lastReadable left = some prev ∧ rebootMonoRegressionNs ≤ prev.toNat - cur.toNat

/-- The sessions are those of groups that follow one another, and the clock was reset between any
two of them. -/
structure Grouped (past : List SegmentMeta) (groups : List (List SegmentMeta)) (g : Grouping) :
    Prop where
  sessions : g.sessions = groups.map .of
  flatten : groups.flatten = past
  last : g.lastReadableMono = lastReadable past
  cuts : ∀ before after, groups = before ++ after → before ≠ [] → after ≠ [] →
    ResetBetween before.flatten after.flatten

theorem Grouped.opens {past : List SegmentMeta} {groups : List (List SegmentMeta)} {g : Grouping}
    (h : Grouped past groups g) {seg : SegmentMeta} (hseg : g.boundary seg = true) :
    Grouped (past ++ [seg]) (groups ++ [[seg]]) (g.fold seg) where
  sessions := by
    simp only [Grouping.fold, hseg, ↓reduceIte, List.modifyLast_concat, h.sessions]
    simp [Session.of]
  flatten := by simp [h.flatten]
  last := by rw [lastReadable_snoc, ← h.last]; rfl
  cuts before after hsplit hbefore hafter := by
    rcases List.eq_nil_or_concat after with rfl | ⟨after, group, rfl⟩
    · exact absurd rfl hafter
    rw [List.concat_eq_append, ← List.append_assoc] at hsplit
    obtain ⟨hgroups, hgroup⟩ := List.append_inj' hsplit rfl
    obtain rfl := List.singleton_inj.mp hgroup
    cases after with
    | nil =>
      -- The new session: the boundary itself.
      rw [List.append_nil] at hgroups
      have hopen : g.sessions.isEmpty = false := by
        rw [h.sessions, hgroups]
        cases before with
        | nil => exact absurd rfl hbefore
        | cons _ _ => rfl
      unfold Grouping.boundary at hseg
      cases hcur : seg.createdMonoNs with
      | none => simp [hcur, hopen] at hseg
      | some cur =>
        cases hprev : g.lastReadableMono with
        | none => simp [hcur, hprev, hopen] at hseg
        | some prev =>
          simp only [hcur, hprev, decide_eq_true_eq] at hseg
          rw [h.last, ← h.flatten, hgroups] at hprev
          exact ⟨seg, [], cur, prev, by simp, hcur, hprev, hseg⟩
    | cons first after =>
      obtain ⟨u, rest, cur, prev, hright, hcur, hprev, hreset⟩ :=
        h.cuts before (first :: after) hgroups hbefore (by simp)
      refine ⟨u, rest ++ [seg], cur, prev, ?_, hcur, hprev, hreset⟩
      simp only [List.concat_eq_append, List.flatten_append, hright]
      simp

theorem Grouped.join {past : List SegmentMeta} {groups : List (List SegmentMeta)}
    {group : List SegmentMeta} {g : Grouping} (h : Grouped past (groups ++ [group]) g)
    {seg : SegmentMeta} (hseg : g.boundary seg = false) :
    Grouped (past ++ [seg]) (groups ++ [group ++ [seg]]) (g.fold seg) where
  sessions := by
    simp only [Grouping.fold, hseg, h.sessions, Bool.false_eq_true, ↓reduceIte, List.map_append,
      List.map_cons, List.map_nil, List.modifyLast_concat, Session.of_snoc]
  flatten := by simp [← h.flatten]
  last := by rw [lastReadable_snoc, ← h.last]; rfl
  cuts before after hsplit hbefore hafter := by
    rcases List.eq_nil_or_concat after with rfl | ⟨after, last, rfl⟩
    · exact absurd rfl hafter
    rw [List.concat_eq_append, ← List.append_assoc] at hsplit
    obtain ⟨hgroups, hgroup⟩ := List.append_inj' hsplit rfl
    obtain rfl := List.singleton_inj.mp hgroup
    obtain ⟨u, rest, cur, prev, hright, hcur, hprev, hreset⟩ :=
      h.cuts before (after ++ [group]) (by rw [hgroups, List.append_assoc]) hbefore (by simp)
    refine ⟨u, rest ++ [seg], cur, prev, ?_, hcur, hprev, hreset⟩
    have hnew : (after ++ [group ++ [seg]]).flatten = (after ++ [group]).flatten ++ [seg] := by
      simp
    rw [List.concat_eq_append, hnew, hright, List.cons_append]

theorem Grouped.snoc {past : List SegmentMeta} {groups : List (List SegmentMeta)} {g : Grouping}
    (h : Grouped past groups g) (seg : SegmentMeta) :
    ∃ groups, Grouped (past ++ [seg]) groups (g.fold seg) := by
  cases hseg : g.boundary seg with
  | true => exact ⟨_, h.opens hseg⟩
  | false =>
    rcases List.eq_nil_or_concat groups with rfl | ⟨groups, group, rfl⟩
    · -- Without a session there is no stamp, and the first segment opens one.
      have hempty : g.sessions = [] := h.sessions
      have hstamp : g.lastReadableMono = none := by rw [h.last, ← h.flatten]; rfl
      cases hcur : seg.createdMonoNs <;>
        simp [Grouping.boundary, hcur, hempty, hstamp] at hseg
    · rw [List.concat_eq_append] at h
      exact ⟨_, h.join hseg⟩

theorem exists_grouped (segments : List SegmentMeta) :
    ∃ groups, Grouped segments groups (segments.foldl Grouping.fold ⟨[], none⟩) := by
  apply @Runs.foldl_history _ _ _ (fun past g => ∃ groups, Grouped past groups g) _ segments
  · exact ⟨[], rfl, rfl, rfl, fun before after h hbefore => by simp at h; exact absurd h.1 hbefore⟩
  · rintro past g seg ⟨groups, h⟩
    exact h.snoc seg

end Groups

section Loop

/-- The sessions taken from the old ones: the oldest that may go, each while too much was in use,
and all that may go when too much is left. -/
structure Takes (cap : ℕ) (old : List Session) (total kept : ℕ) (chosen : List Session) :
    Prop where
  oldest : chosen <+: old.filter fun s => s.deletable
  needed : ∀ before s after, chosen = before ++ s :: after →
    cap + (before.map fun s => s.totalBytes).sum < total
  adds : kept + (chosen.map fun s => s.totalBytes).sum = total
  spent : cap < kept → chosen = old.filter fun s => s.deletable

theorem takes_nil {cap : ℕ} {old : List Session} {total : ℕ}
    (h : cap < total → old.filter (fun s => s.deletable) = []) : Takes cap old total total [] where
  oldest := List.nil_prefix
  needed := by simp
  adds := by simp
  spent hover := (h hover).symm

theorem Takes.cons {cap : ℕ} {old chosen : List Session} {total kept : ℕ} {s : Session}
    (hclean : s.deletable = true) (hneed : cap < total) (hfits : s.totalBytes ≤ total)
    (h : Takes cap old (total - s.totalBytes) kept chosen) :
    Takes cap (s :: old) total kept (s :: chosen) where
  oldest := by simpa [hclean] using h.oldest
  needed before u after hsplit := by
    cases before with
    | nil => simpa using hneed
    | cons v before =>
      obtain ⟨rfl, hrest⟩ := List.cons.inj hsplit
      have hlater := h.needed before u after hrest
      simp only [List.map_cons, List.sum_cons]
      omega
  adds := by
    have hsum := h.adds
    simp only [List.map_cons, List.sum_cons]
    omega
  spent hover := by simp [hclean, h.spent hover]

/-- Every subtraction of the loop stays above zero, so that it is exact. -/
theorem pruneLoop_takes (cap : ℕ) {old : List Session} {running : ℕ} (delete : List ℕ)
    (hfits : (old.map fun s => s.totalBytes).sum ≤ running) :
    ∃ chosen, Takes cap old running (pruneLoop cap old running delete).1 chosen ∧
      (pruneLoop cap old running delete).2 =
        delete ++ chosen.flatMap fun s => s.segments := by
  induction old generalizing running delete with
  | nil => exact ⟨[], takes_nil fun _ => rfl, by simp [pruneLoop]⟩
  | cons s rest ih =>
    simp only [List.map_cons, List.sum_cons] at hfits
    unfold pruneLoop
    by_cases hunder : running ≤ cap
    · rw [if_pos hunder]
      exact ⟨[], takes_nil fun hover => absurd hover (by omega), by simp⟩
    · rw [if_neg hunder]
      cases hclean : s.deletable with
      | false =>
        obtain ⟨chosen, htakes, hdelete⟩ := ih delete (by omega : _ ≤ running)
        refine ⟨chosen, ⟨?_, htakes.needed, htakes.adds, ?_⟩, hdelete⟩
        · simpa [hclean] using htakes.oldest
        · simpa [hclean] using htakes.spent
      | true =>
        obtain ⟨chosen, htakes, hdelete⟩ :=
          ih (delete ++ s.segments) (by omega : _ ≤ running - s.totalBytes)
        refine ⟨s :: chosen, htakes.cons hclean (by omega) (by omega), ?_⟩
        simpa using hdelete

theorem planPruning_eq (sessions : List Session) (pins : Pins) (cap : ℕ) :
    planPruning sessions pins cap =
      let total := (sessions.map fun s => s.totalBytes).sum
      let (running, delete) := pruneLoop cap (sessions.take (keepFloor sessions pins)) total []
      ⟨delete, running, cap,
        if cap < running then some ⟨running - cap, running, cap, pins.pinned⟩ else none⟩ := by
  cases sessions with
  | nil => simp [planPruning, pruneLoop]
  | cons s rest => rfl

theorem planPruning_takes (sessions : List Session) (pins : Pins) (cap : ℕ) :
    ∃ chosen, Takes cap (sessions.take (keepFloor sessions pins))
        (sessions.map fun s => s.totalBytes).sum (planPruning sessions pins cap).keptBytes chosen ∧
      (planPruning sessions pins cap).delete = chosen.flatMap fun s => s.segments := by
  have hfits : ((sessions.take (keepFloor sessions pins)).map fun s => s.totalBytes).sum ≤
      (sessions.map fun s => s.totalBytes).sum := by
    conv_rhs => rw [← List.take_append_drop (keepFloor sessions pins) sessions]
    rw [List.map_append, List.sum_append]
    omega
  rw [planPruning_eq]
  simpa using pruneLoop_takes cap [] hfits

/-- Too much left is told, and only that. -/
theorem planPruning_overage (sessions : List Session) (pins : Pins) (cap : ℕ) :
    (planPruning sessions pins cap).overage.isSome = true ↔
      cap < (planPruning sessions pins cap).keptBytes := by
  rw [planPruning_eq]
  dsimp only
  split <;> simp_all

end Loop

section Evidence

/-- The sessions that are kept: the newest, and those from a pinned one on. -/
def MustStay (sessions : List Session) (pins : Pins) (j : ℕ) : Prop :=
  j + 1 = sessions.length ∨ ∃ k, pins.keepFrom = some k ∧ k ≤ j

theorem keepFloor_le_iff {sessions : List Session} {pins : Pins} {j : ℕ}
    (hj : j < sessions.length) :
    keepFloor sessions pins ≤ j ↔ MustStay sessions pins j := by
  unfold keepFloor MustStay
  cases pins.keepFrom with
  | none =>
    simp only [Option.elim_none, reduceCtorEq, false_and, exists_false, or_false]
    omega
  | some k =>
    simp only [Option.elim_some, Option.some.injEq, exists_eq_left', inf_le_iff]
    omega

/-- The readable stamps of a boot never decrease. -/
def Rising (boot : List SegmentMeta) : Prop :=
  (boot.filterMap fun m => m.createdMonoNs).Pairwise (· ≤ ·)

/-- No clock is reset within a boot, once one of its stamps was read. -/
theorem Rising.not_resetBetween {before front back after : List SegmentMeta}
    (h : Rising (front ++ back)) (hback : back ≠ []) {m : SegmentMeta} (hm : m ∈ front)
    (hread : m.createdMonoNs.isSome = true) :
    ¬ ResetBetween (before ++ front) (back ++ after) := by
  rintro ⟨u, rest, cur, prev, hright, hcur, hprev, hreset⟩
  obtain ⟨stamp, hstamp⟩ := Option.isSome_iff_exists.mp hread
  have hsome : front.filterMap (fun m => m.createdMonoNs) ≠ [] :=
    List.ne_nil_of_mem (List.mem_filterMap.mpr ⟨m, hm, hstamp⟩)
  have hprevMem : prev ∈ front.filterMap (fun m => m.createdMonoNs) := by
    unfold lastReadable at hprev
    rw [List.filterMap_append, List.getLast?_append_of_ne_nil _ hsome] at hprev
    exact List.mem_of_getLast? hprev
  have hcurMem : cur ∈ back.filterMap (fun m => m.createdMonoNs) := by
    cases back with
    | nil => exact absurd rfl hback
    | cons v back =>
      obtain ⟨rfl, _⟩ := List.cons.inj hright
      exact List.mem_filterMap.mpr ⟨v, by simp, hcur⟩
  unfold Rising at h
  rw [List.filterMap_append, List.pairwise_append] at h
  have hle : prev.toNat ≤ cur.toNat := UInt64.le_iff_toNat_le.mp (h.2.2 prev hprevMem cur hcurMem)
  simp only [rebootMonoRegressionNs] at hreset
  omega

variable {segments : List SegmentMeta} {pins : Pins} {cap : ℕ}

/-- The groups behind a plan: those it takes come before the floor and are readable. -/
structure Planned (segments : List SegmentMeta) (pins : Pins) (cap : ℕ)
    (groups chosen : List (List SegmentMeta)) : Prop where
  sessions : groupIntoSessions segments = groups.map .of
  flatten : groups.flatten = segments
  cuts : ∀ before after, groups = before ++ after → before ≠ [] → after ≠ [] →
    ResetBetween before.flatten after.flatten
  takes : Takes cap ((groupIntoSessions segments).take (keepFloor (groupIntoSessions segments) pins))
    ((groupIntoSessions segments).map fun s => s.totalBytes).sum
    (planPruning (groupIntoSessions segments) pins cap).keptBytes (chosen.map .of)
  taken : chosen.Sublist (groups.take (keepFloor (groupIntoSessions segments) pins))
  clean : ∀ group ∈ chosen, ∀ m ∈ group, m.createdMonoNs.isSome = true
  delete : (planPruning (groupIntoSessions segments) pins cap).delete =
    chosen.flatten.map fun m => m.index

theorem exists_planned (segments : List SegmentMeta) (pins : Pins) (cap : ℕ) :
    ∃ groups chosen, Planned segments pins cap groups chosen := by
  obtain ⟨groups, h⟩ := exists_grouped segments
  have hsessions : groupIntoSessions segments = groups.map .of := h.sessions
  obtain ⟨taken, htakes, hdelete⟩ := planPruning_takes (groupIntoSessions segments) pins cap
  have hclean := htakes.oldest.sublist
  have hold := hclean.trans List.filter_sublist
  rw [hsessions, ← List.map_take] at hold
  obtain ⟨chosen, hchosen, rfl⟩ := List.sublist_map_iff.mp hold
  refine ⟨groups, chosen, hsessions, h.flatten, h.cuts, htakes, by rw [hsessions]; exact hchosen,
    ?_, ?_⟩
  · intro group hgroup m hm
    have hmem := hclean.subset (List.mem_map_of_mem (f := Session.of) hgroup)
    have hdeletable := (List.mem_filter.mp hmem).2
    rw [Session.deletable_of, List.all_eq_true] at hdeletable
    exact hdeletable m hm
  · rw [hdelete, List.flatMap_map]
    simp [List.map_flatten, List.flatMap]

namespace Planned

variable {groups chosen : List (List SegmentMeta)}

theorem segment_of_delete (h : Planned segments pins cap groups chosen) {index : ℕ}
    (hdelete : index ∈ (planPruning (groupIntoSessions segments) pins cap).delete) :
    ∃ m ∈ segments, m.index = index := by
  rw [h.delete] at hdelete
  obtain ⟨m, hm, hindex⟩ := List.mem_map.mp hdelete
  refine ⟨m, ?_, hindex⟩
  rw [← h.flatten]
  exact (h.taken.trans (List.take_sublist _ _)).flatten.subset hm

/-- A deleted segment stands before the floor, in a readable group. -/
theorem of_mem_delete (h : Planned segments pins cap groups chosen)
    (hindices : (segments.map fun m => m.index).Nodup) {m : SegmentMeta} (hm : m ∈ segments)
    (hdelete : m.index ∈ (planPruning (groupIntoSessions segments) pins cap).delete) :
    ∃ group ∈ chosen, m ∈ group := by
  rw [h.delete, List.mem_map] at hdelete
  obtain ⟨m', hm', hindex⟩ := hdelete
  have hsegment : m' ∈ segments := by
    rw [← h.flatten]
    exact (h.taken.trans (List.take_sublist _ _)).flatten.subset hm'
  obtain rfl := List.inj_on_of_nodup_map hindices hsegment hm hindex
  exact List.mem_flatten.mp hm'

theorem split (h : Planned segments pins cap groups chosen) :
    (groups.take (keepFloor (groupIntoSessions segments) pins)).flatten ++
      (groups.drop (keepFloor (groupIntoSessions segments) pins)).flatten = segments := by
  rw [← List.flatten_append, List.take_append_drop, h.flatten]

theorem drop_sessions (h : Planned segments pins cap groups chosen) (n : ℕ) :
    (groupIntoSessions segments).drop n = (groups.drop n).map .of := by
  rw [h.sessions, List.map_drop]

theorem flatMap_segments (h : Planned segments pins cap groups chosen) :
    ((groupIntoSessions segments).flatMap fun s => s.segments) = segments.map fun m => m.index := by
  rw [h.sessions, List.flatMap_map, ← h.flatten]
  simp [List.map_flatten, List.flatMap]

/-- The segments of a session that must stay stand behind the floor. -/
theorem mem_behind (h : Planned segments pins cap groups chosen)
    (hindices : (segments.map fun m => m.index).Nodup) {n : SegmentMeta} (hn : n ∈ segments)
    {j : ℕ} {s : Session} (hs : (groupIntoSessions segments)[j]? = some s)
    (hstay : MustStay (groupIntoSessions segments) pins j) (hmem : n.index ∈ s.segments) :
    n ∈ (groups.drop (keepFloor (groupIntoSessions segments) pins)).flatten := by
  obtain ⟨hj, _⟩ := List.getElem?_eq_some_iff.mp hs
  have hfloor := (keepFloor_le_iff hj).mpr hstay
  rw [h.sessions, List.getElem?_map, Option.map_eq_some_iff] at hs
  obtain ⟨group, hgroup, rfl⟩ := hs
  have hin : group ∈ groups.drop (keepFloor (groupIntoSessions segments) pins) := by
    apply List.mem_of_getElem? (i := j - keepFloor (groupIntoSessions segments) pins)
    rw [List.getElem?_drop, ← hgroup]
    congr 1
    omega
  rw [Session.segments_of, List.mem_map] at hmem
  obtain ⟨n', hn', hindex⟩ := hmem
  have hsegment : n' ∈ segments := by
    rw [← h.flatten]
    exact List.mem_flatten.mpr ⟨group, List.mem_of_getElem? hgroup, hn'⟩
  obtain rfl := List.inj_on_of_nodup_map hindices hsegment hn hindex
  exact List.mem_flatten.mpr ⟨group, hin, hn'⟩

theorem mem_before (h : Planned segments pins cap groups chosen) {group : List SegmentMeta}
    (hgroup : group ∈ chosen) {m : SegmentMeta} (hm : m ∈ group) :
    m ∈ (groups.take (keepFloor (groupIntoSessions segments) pins)).flatten :=
  List.mem_flatten.mpr ⟨group, h.taken.subset hgroup, hm⟩

/-- A boot with a segment that must stay loses none. -/
theorem evidence (h : Planned segments pins cap groups chosen)
    (hindices : (segments.map fun m => m.index).Nodup) {before boot after : List SegmentMeta}
    (hboot : segments = before ++ boot ++ after) (hrising : Rising boot) {m n : SegmentMeta}
    (hm : m ∈ boot) (hn : n ∈ boot) {j : ℕ} {s : Session}
    (hs : (groupIntoSessions segments)[j]? = some s)
    (hstay : MustStay (groupIntoSessions segments) pins j) (hmem : n.index ∈ s.segments) :
    m.index ∉ (planPruning (groupIntoSessions segments) pins cap).delete := by
  intro hdelete
  have hin : ∀ x ∈ boot, x ∈ segments := fun x hx => by simp [hboot, hx]
  obtain ⟨group, hgroup, hmg⟩ := h.of_mem_delete hindices (hin m hm) hdelete
  have hfront := h.mem_before hgroup hmg
  have hback := h.mem_behind hindices (hin n hn) hs hstay hmem
  obtain ⟨front, back, rfl, hleft, hright, hmfront, hnback⟩ := stretch_cut (h.split.trans hboot)
    (by rw [h.split]; exact hindices.of_map) hfront hback hm hn
  -- The floor cuts the boot at a reset of the clock, and a boot has none.
  have hreset := h.cuts _ _ (List.take_append_drop _ _).symm
    (fun hnil => by rw [hnil] at hfront; cases hfront)
    (fun hnil => by rw [hnil] at hback; cases hback)
  rw [hleft, hright] at hreset
  exact hrising.not_resetBetween (List.ne_nil_of_mem hnback) hmfront
    (h.clean group hgroup m hmg) hreset

/-- Behind a deleted segment there is a higher one. -/
theorem exists_above (h : Planned segments pins cap groups chosen)
    (hindices : (segments.map fun m => m.index).Pairwise (· < ·)) (hsegments : segments ≠ [])
    {m : SegmentMeta} (hm : m ∈ segments)
    (hdelete : m.index ∈ (planPruning (groupIntoSessions segments) pins cap).delete) :
    ∃ u ∈ segments, m.index < u.index := by
  obtain ⟨group, hgroup, hmg⟩ := h.of_mem_delete hindices.nodup hm hdelete
  have hfront := h.mem_before hgroup hmg
  have hgroups : groups ≠ [] := by
    rintro rfl
    exact hsegments h.flatten.symm
  have hfloor : keepFloor (groupIntoSessions segments) pins < groups.length := by
    have hpos := List.length_pos_of_ne_nil hgroups
    have hlast : MustStay (groupIntoSessions segments) pins (groups.length - 1) := by
      left
      rw [h.sessions, List.length_map]
      omega
    have hle := (keepFloor_le_iff (by rw [h.sessions, List.length_map]; omega)).mpr hlast
    omega
  obtain ⟨u, rest, _, _, hright, _⟩ := h.cuts _ _ (List.take_append_drop _ _).symm
    (fun hnil => by rw [hnil] at hfront; cases hfront)
    (fun hnil => by have := congrArg List.length hnil; simp at this; omega)
  have hu : u ∈ (groups.drop (keepFloor (groupIntoSessions segments) pins)).flatten := by
    rw [hright]
    exact List.mem_cons_self
  have hsorted := List.pairwise_map.mp hindices
  rw [← h.split, List.pairwise_append] at hsorted
  refine ⟨u, ?_, hsorted.2.2 m hfront u hu⟩
  rw [← h.split]
  exact List.mem_append_right _ hu

/-- A segment stands in one group only. -/
theorem group_unique (h : Planned segments pins cap groups chosen)
    (hindices : (segments.map fun m => m.index).Nodup) {m : SegmentMeta}
    {group group' : List SegmentMeta} (hgroup : group ∈ groups) (hgroup' : group' ∈ groups)
    (hm : m ∈ group) (hm' : m ∈ group') : group = group' := by
  by_contra hne
  have hnodup := hindices.of_map
  rw [← h.flatten, List.nodup_flatten] at hnodup
  have hsymm : Std.Symm (@List.Disjoint SegmentMeta) := ⟨fun _ _ hd => hd.symm⟩
  exact hnodup.2.forall hgroup hgroup' hne hm hm'

/-- What may never go and what is to go have nothing in common. -/
theorem unguarded (h : Planned segments pins cap groups chosen)
    (hindices : (segments.map fun m => m.index).Pairwise (· < ·)) {index : ℕ}
    (hdelete : index ∈ (planPruning (groupIntoSessions segments) pins cap).delete) :
    index ∉ protectedSegments (groupIntoSessions segments) pins := by
  have hnodup := hindices.nodup
  obtain ⟨m, hm, rfl⟩ := h.segment_of_delete hdelete
  obtain ⟨group, hgroup, hmg⟩ := h.of_mem_delete hnodup hm hdelete
  have hgroups : group ∈ groups := List.take_subset _ _ (h.taken.subset hgroup)
  -- The segment of an index in a group is the one deleted.
  have hsame : ∀ group' ∈ groups, m.index ∈ (Session.of group').segments → m ∈ group' := by
    intro group' hgroup' hindex
    rw [Session.segments_of, List.mem_map] at hindex
    obtain ⟨m', hm', heq⟩ := hindex
    have hsegment : m' ∈ segments := by
      rw [← h.flatten]
      exact List.mem_flatten.mpr ⟨group', hgroup', hm'⟩
    exact List.inj_on_of_nodup_map hnodup hsegment hm heq ▸ hm'
  unfold protectedSegments
  split
  · simp
  · simp only [Finset.mem_union, List.mem_toFinset, List.mem_flatMap, not_or]
    refine ⟨⟨?_, ?_⟩, ?_⟩
    · rintro ⟨s, hs, hindex⟩
      rw [h.drop_sessions, List.mem_map] at hs
      obtain ⟨group', hgroup', rfl⟩ := hs
      have hbehind := List.mem_flatten.mpr
        ⟨group', hgroup', hsame group' (List.drop_subset _ _ hgroup') hindex⟩
      have hall := hnodup.of_map
      rw [← h.split] at hall
      exact List.disjoint_of_nodup_append hall (h.mem_before hgroup hmg) hbehind
    · rintro ⟨s, hs, hindex⟩
      obtain ⟨hs, htaint⟩ := List.mem_filter.mp hs
      rw [h.sessions, List.mem_map] at hs
      obtain ⟨group', hgroup', rfl⟩ := hs
      obtain rfl := h.group_unique hnodup hgroups hgroup' hmg (hsame group' hgroup' hindex)
      have hclean : (Session.of group).deletable = true := by
        rw [Session.deletable_of, List.all_eq_true]
        exact h.clean group hgroup
      rw [hclean] at htaint
      cases htaint
    · rw [h.flatMap_segments]
      cases hmax : (segments.map fun m => m.index).max? with
      | none => simp
      | some highest =>
        obtain ⟨u, hu, hlt⟩ := h.exists_above hindices (List.ne_nil_of_mem hm) hm hdelete
        have hle := (List.max?_eq_some_iff.mp hmax).2 u.index (List.mem_map_of_mem hu)
        have hne : m.index ≠ highest := by omega
        simpa using hne

/-- What is kept adds up: nothing was subtracted that was not there. -/
theorem kept (h : Planned segments pins cap groups chosen)
    (hindices : (segments.map fun m => m.index).Nodup) :
    (planPruning (groupIntoSessions segments) pins cap).keptBytes =
      ((segments.filter fun m => m.index ∉
        (planPruning (groupIntoSessions segments) pins cap).delete).map fun m => m.sizeBytes).sum := by
  have hsublist : chosen.flatten.Sublist segments := by
    rw [← h.flatten]
    exact (h.taken.trans (List.take_sublist _ _)).flatten
  have hdeleted := filter_of_sublist hsublist hindices
  rw [← h.delete] at hdeleted
  have hsum : ∀ gs : List (List SegmentMeta), ((gs.map Session.of).map fun s => s.totalBytes).sum =
      (gs.flatten.map fun m => m.sizeBytes).sum := by
    intro gs
    induction gs with
    | nil => rfl
    | cons g gs ih => simpa using ih
  have hadds := h.takes.adds
  rw [hsum, h.sessions, hsum, h.flatten, ← h.sessions] at hadds
  have hsplit := sum_filter_add segments (fun m => m.sizeBytes) fun m =>
    m.index ∈ (planPruning (groupIntoSessions segments) pins cap).delete
  rw [hdeleted] at hsplit
  simp only [decide_not]
  omega

/-- When too much is left, nothing clean is left before the floor. -/
theorem spent (h : Planned segments pins cap groups chosen)
    (hover : cap < (planPruning (groupIntoSessions segments) pins cap).keptBytes) {j : ℕ}
    {s : Session} (hs : (groupIntoSessions segments)[j]? = some s)
    (hold : ¬ MustStay (groupIntoSessions segments) pins j) (hclean : s.deletable = true) :
    ∀ index ∈ s.segments, index ∈ (planPruning (groupIntoSessions segments) pins cap).delete := by
  intro index hindex
  obtain ⟨hj, hget⟩ := List.getElem?_eq_some_iff.mp hs
  have hfloor : ¬ keepFloor (groupIntoSessions segments) pins ≤ j := fun hle =>
    hold ((keepFloor_le_iff hj).mp hle)
  have hmem : s ∈ (groupIntoSessions segments).take
      (keepFloor (groupIntoSessions segments) pins) := by
    apply List.mem_of_getElem? (i := j)
    rw [List.getElem?_take, if_pos (by omega), hs]
  have htaken : s ∈ chosen.map Session.of := by
    rw [h.takes.spent hover]
    exact List.mem_filter.mpr ⟨hmem, hclean⟩
  obtain ⟨group, hgroup, rfl⟩ := List.mem_map.mp htaken
  rw [Session.segments_of] at hindex
  obtain ⟨m, hm, rfl⟩ := List.mem_map.mp hindex
  rw [h.delete]
  exact List.mem_map_of_mem (List.mem_flatten.mpr ⟨group, hgroup, hm⟩)

end Planned

/-- Retention spares what a recovery needs, and frees what it may. -/
structure Spares (boots : List (List SegmentMeta)) (pins : Pins) (cap : ℕ)
    (sessions : List Session) (plan : PruningPlan) : Prop where
  evidence : ∀ boot ∈ boots, ∀ m ∈ boot, ∀ n ∈ boot, ∀ (j : ℕ) (s : Session),
    sessions[j]? = some s → MustStay sessions pins j → n.index ∈ s.segments →
      m.index ∉ plan.delete
  unguarded : ∀ index ∈ plan.delete, index ∉ protectedSegments sessions pins
  unrefused : ∀ dir, ∃ dir', applyPruning dir plan.delete (protectedSegments sessions pins)
    ((boots.flatten.map fun m => m.index).max?.getD 0) = .ok dir'
  readable : ∀ m ∈ boots.flatten, m.createdMonoNs = none → m.index ∉ plan.delete
  highest : ∀ m ∈ boots.flatten, (∀ n ∈ boots.flatten, n.index ≤ m.index) →
    m.index ∉ plan.delete
  wholeSessions : ∃ chosen, Takes cap (sessions.take (keepFloor sessions pins))
      (sessions.map fun s => s.totalBytes).sum plan.keptBytes chosen ∧
    plan.delete = chosen.flatMap fun s => s.segments
  kept : plan.keptBytes =
    ((boots.flatten.filter fun m => m.index ∉ plan.delete).map fun m => m.sizeBytes).sum
  overage : plan.overage.isSome = true ↔ cap < plan.keptBytes
  spent : plan.overage.isSome = true → ∀ (j : ℕ) (s : Session), sessions[j]? = some s →
    ¬ MustStay sessions pins j → s.deletable = true → ∀ index ∈ s.segments, index ∈ plan.delete

theorem applyPruning_ok {dir : WalDir} {delete : List ℕ} {guarded : Finset ℕ} {maxIndex : ℕ}
    (hguarded : ∀ index ∈ delete, index ∉ guarded) (hmax : maxIndex ∉ delete) :
    ∃ dir', applyPruning dir delete guarded maxIndex = .ok dir' := by
  have hnone : delete.find? (fun index => index = maxIndex || decide (index ∈ guarded)) = none := by
    rw [List.find?_eq_none]
    intro index hindex
    have hne : index ≠ maxIndex := fun heq => hmax (heq ▸ hindex)
    simp [hne, hguarded index hindex]
  unfold applyPruning
  rw [hnone]
  exact ⟨_, rfl⟩

variable (codec : Codec)

/-- A torn state file pins all there is. -/
theorem resolvePins_torn {dir : WalDir} (sessions : List Session)
    (htorn : dir.pending = .unreadable ∨ dir.frameInvalid = .unreadable) :
    (resolvePins codec dir sessions).keepFrom = some 0 := by
  unfold resolvePins
  rcases htorn with h | h
  · rw [h]
    rfl
  · rw [h]
    cases dir.pending <;> rfl

theorem planPruning_keepAll {sessions : List Session} {pins : Pins} (hpins : pins.keepFrom = some 0)
    (cap : ℕ) : (planPruning sessions pins cap).delete = [] := by
  have hfloor : keepFloor sessions pins = 0 := by simp [keepFloor, hpins]
  rw [planPruning_eq, hfloor]
  rfl

/-- Whatever boots the segments come from, whatever headers were damaged, whatever is pinned and
however small the cap; and a torn state file keeps the whole directory. -/
theorem retention_spares {boots : List (List SegmentMeta)}
    (hindices : (boots.flatten.map fun m => m.index).Pairwise (· < ·))
    (hrising : ∀ boot ∈ boots, Rising boot) :
    (∀ pins cap, Spares boots pins cap (groupIntoSessions boots.flatten)
      (planPruning (groupIntoSessions boots.flatten) pins cap)) ∧
    ∀ dir cap, dir.pending = .unreadable ∨ dir.frameInvalid = .unreadable →
      (runPruning codec dir cap).1.delete = [] ∧ (runPruning codec dir cap).2 = .ok dir := by
  constructor
  · intro pins cap
    obtain ⟨groups, chosen, h⟩ := exists_planned boots.flatten pins cap
    have hnodup := hindices.nodup
    have hover := planPruning_overage (groupIntoSessions boots.flatten) pins cap
    have hhighest : ∀ m ∈ boots.flatten, (∀ n ∈ boots.flatten, n.index ≤ m.index) →
        m.index ∉ (planPruning (groupIntoSessions boots.flatten) pins cap).delete := by
      intro m hm hmax hdelete
      obtain ⟨u, hu, hlt⟩ := h.exists_above hindices (List.ne_nil_of_mem hm) hm hdelete
      exact absurd (hmax u hu) (by omega)
    have hunguarded : ∀ index ∈ (planPruning (groupIntoSessions boots.flatten) pins cap).delete,
        index ∉ protectedSegments (groupIntoSessions boots.flatten) pins :=
      fun _ hindex => h.unguarded hindices hindex
    constructor
    · intro boot hboot m hm n hn j s hs hstay hmem
      obtain ⟨before, after, rfl⟩ := List.append_of_mem hboot
      have hstretch : (before ++ boot :: after).flatten =
          before.flatten ++ boot ++ after.flatten := by simp
      exact h.evidence hnodup hstretch (hrising boot hboot) hm hn hs hstay hmem
    · exact hunguarded
    · intro dir
      apply applyPruning_ok hunguarded
      cases hmax : (boots.flatten.map fun m => m.index).max? with
      | none =>
        have hempty : boots.flatten = [] := by simpa using hmax
        intro hdelete
        obtain ⟨m, hm, _⟩ := h.segment_of_delete hdelete
        rw [hempty] at hm
        cases hm
      | some highest =>
        obtain ⟨hmem, hle⟩ := List.max?_eq_some_iff.mp hmax
        obtain ⟨m, hm, rfl⟩ := List.mem_map.mp hmem
        exact hhighest m hm fun n hn => hle n.index (List.mem_map_of_mem hn)
    · intro m hm hstamp hdelete
      obtain ⟨group, hgroup, hmg⟩ := h.of_mem_delete hnodup hm hdelete
      have hclean := h.clean group hgroup m hmg
      rw [hstamp] at hclean
      cases hclean
    · exact hhighest
    · exact planPruning_takes _ _ _
    · exact h.kept hnodup
    · exact hover
    · intro hsome j s hs hold hclean
      exact h.spent (hover.mp hsome) hs hold hclean
  · intro dir cap htorn
    have hpins := resolvePins_torn codec (groupIntoSessions (readSegmentMetas dir)) htorn
    have hdelete := @planPruning_keepAll (groupIntoSessions (readSegmentMetas dir)) _ hpins cap
    unfold runPruning
    simp only [hdelete, List.isEmpty_nil, ↓reduceIte, and_self]

/-- Three boots; a header of the second was damaged where it begins. -/
def exampleBoots : List (List SegmentMeta) :=
  [[⟨1, 100, some 50000000000⟩, ⟨2, 100, some 60000000000⟩],
    [⟨3, 100, some 20000000000⟩, ⟨4, 10, none⟩, ⟨5, 100, some 30000000000⟩],
    [⟨6, 10, none⟩, ⟨7, 100, some 5000000000⟩]]

/-- Both damaged headers keep the session of the second boot, and with it what of the third boot
was grouped there. -/
theorem retention_spares_damaged :
    (planPruning (groupIntoSessions exampleBoots.flatten) ⟨none, none⟩ 150).delete = [1, 2] ∧
      Spares exampleBoots ⟨none, none⟩ 150 (groupIntoSessions exampleBoots.flatten)
        (planPruning (groupIntoSessions exampleBoots.flatten) ⟨none, none⟩ 150) :=
  ⟨by decide, (@retention_spares exampleCodec exampleBoots (by decide)
    (by unfold Rising; decide)).1 _ _⟩

end Evidence

end DeadReckoning.Retention
