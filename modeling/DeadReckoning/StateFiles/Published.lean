import DeadReckoning.Boot.StateFiles
import DeadReckoning.Lib.Text
import DeadReckoning.Lib.Replace
import DeadReckoning.Recording.Sidecars

/-! The two state files that must not be lost or torn by the power failure they are about: the
marker of an invalid frame and the edge of the failure. Both are published by a rename. -/
namespace DeadReckoning.StateFiles

open Boot (StatePresence)
open Recording (decodePowerFailEdge encodePowerFailEdge)
open Replace (Disk Fault Naming)

section Files

/-- The marker of a recovery that was aborted with the frame shifted. -/
structure FrameInvalid where
  detectedWallNs : UInt64
  stepId : UInt32
  phase : Text
  reason : Text
  armMonoNs : Option UInt64
  deriving DecidableEq

/-- The marker as JSON text. -/
structure MarkerCodec where
  toStringPretty : FrameInvalid → Option Bytes
  fromStr : Bytes → Option FrameInvalid

def MarkerCodec.RoundTrips (codec : MarkerCodec) : Prop :=
  ∀ marker json, codec.toStringPretty marker = some json → codec.fromStr json = some marker

def frameInvalidFileName : Text := lit "frame_invalid.json"

def frameInvalidTempName : Text := lit "frame_invalid.json.tmp"

def powerFailFileName : Text := lit "power_fail.bin"

def powerFailTempName : Text := lit "power_fail.bin.tmp"

def writeFrameInvalid (codec : MarkerCodec) (marker : FrameInvalid) :
    Prog (Disk Text UInt8) Fault Unit :=
  match codec.toStringPretty marker with
  | none => Prog.stop .failed
  | some json => Replace.replace frameInvalidTempName frameInvalidFileName json

/-- An error of the removal is ignored. -/
def clearFrameInvalid : Prog (Disk Text UInt8) Fault Unit :=
  Replace.attempt (Replace.remove frameInvalidFileName)

def writeSidecar (edgeMonoNs : UInt64) : Prog (Disk Text UInt8) Fault Unit :=
  Replace.replace powerFailTempName powerFailFileName (encodePowerFailEdge edgeMonoNs)

/-- The sidecar is removed at a start that has consumed it. -/
def deleteSidecar : Prog (Disk Text UInt8) Fault Unit :=
  Replace.attempt (Replace.remove powerFailFileName)

/-- A file that may be absent, or present and undecodable. -/
def readStatePresence {α : Type} (decode : Bytes → Option α) : Option Bytes → StatePresence α
  | none => .absent
  | some bytes => match decode bytes with
    | none => .unreadable
    | some value => .present value

end Files

section Histories

/-- What happens to the two files. A write tells whether it succeeded. -/
inductive Happening where
  | armed (marker : FrameInvalid) (ok : Bool)
  | cleared
  | edge (edgeMonoNs : UInt64) (ok : Bool)
  | disposed
  | rebooted

/-- One program, or a power cut and what it leaves. -/
inductive Happens (codec : MarkerCodec) : Disk Text UInt8 → Happening → Disk Text UInt8 → Prop
  | armed (d : Disk Text UInt8) (marker : FrameInvalid) :
      Happens codec d (.armed marker (writeFrameInvalid codec marker d).1.toBool)
        (writeFrameInvalid codec marker d).2
  | cleared (d : Disk Text UInt8) : Happens codec d .cleared (clearFrameInvalid d).2
  | edge (d : Disk Text UInt8) (edgeMonoNs : UInt64) :
      Happens codec d (.edge edgeMonoNs (writeSidecar edgeMonoNs d).1.toBool)
        (writeSidecar edgeMonoNs d).2
  | disposed (d : Disk Text UInt8) : Happens codec d .disposed (deleteSidecar d).2
  | rebooted {d d' : Disk Text UInt8} (h : ∀ name, d'.past name = [] ∧ ∃ left,
      d.MayShow name left ∧ d'.shown name = left.map fun contents => ⟨contents, true⟩) :
      Happens codec d .rebooted d'

inductive Happened (codec : MarkerCodec) : Disk Text UInt8 → List Happening → Disk Text UInt8 → Prop
  | nil (d : Disk Text UInt8) : Happened codec d [] d
  | cons {d d' d'' : Disk Text UInt8} {happening : Happening} {happenings : List Happening}
      (h : Happens codec d happening d') (hrest : Happened codec d' happenings d'') :
      Happened codec d (happening :: happenings) d''

/-- The two files. -/
inductive StateFile where
  | frameInvalid
  | powerFail
  deriving DecidableEq

def tempName : StateFile → Text
  | .frameInvalid => frameInvalidTempName
  | .powerFail => powerFailTempName

def fileName : StateFile → Text
  | .frameInvalid => frameInvalidFileName
  | .powerFail => powerFailFileName

theorem naming : Naming tempName fileName where
  apart j k := by cases j <;> cases k <;> decide
  injective := by
    intro j k h
    cases j <;> cases k <;> first | rfl | exact absurd h (by decide)

/-- What is written, and to which of the files; nothing when there is no JSON of the marker. -/
def Happening.event (codec : MarkerCodec) : Happening → Option (Replace.Event StateFile UInt8)
  | .armed marker ok => (codec.toStringPretty marker).map fun json =>
      if ok then .replaced .frameInvalid json else .attempted .frameInvalid json
  | .cleared => some (.removed .frameInvalid)
  | .edge edgeMonoNs ok =>
      let bytes := encodePowerFailEdge edgeMonoNs
      some (if ok then .replaced .powerFail bytes else .attempted .powerFail bytes)
  | .disposed => some (.removed .powerFail)
  | .rebooted => some .rebooted

variable {codec : MarkerCodec} {d d' : Disk Text UInt8} {happenings : List Happening}

/-- A happening is an event of the files, or changes nothing. -/
theorem Happens.step {happening : Happening} (h : Happens codec d happening d') :
    (happening.event codec = none ∧ d' = d) ∨
      ∃ event, happening.event codec = some event ∧
        Replace.Step tempName fileName d event d' := by
  cases h with
  | armed marker =>
    cases hjson : codec.toStringPretty marker with
    | none =>
      have hwrite : writeFrameInvalid codec marker d = (.error .failed, d) := by
        unfold writeFrameInvalid
        rw [hjson]
        rfl
      rw [hwrite]
      exact .inl ⟨by rw [Happening.event, hjson]; rfl, rfl⟩
    | some json =>
      have hwrite : writeFrameInvalid codec marker =
          Replace.replace frameInvalidTempName frameInvalidFileName json := by
        unfold writeFrameInvalid
        rw [hjson]
      rw [hwrite]
      cases hres : Replace.replace frameInvalidTempName frameInvalidFileName json d with
      | mk result after =>
        cases result with
        | ok _ =>
          exact .inr ⟨.replaced .frameInvalid json, by rw [Happening.event, hjson]; rfl,
            @Replace.Step.replaced Text UInt8 StateFile _ tempName fileName d after _ json hres⟩
        | error fault =>
          exact .inr ⟨.attempted .frameInvalid json, by rw [Happening.event, hjson]; rfl,
            @Replace.Step.attempted Text UInt8 StateFile _ tempName fileName d after _ json fault
              hres⟩
  | cleared =>
    rw [clearFrameInvalid, Replace.attempt_state]
    exact .inr ⟨_, rfl,
      @Replace.Step.removed Text UInt8 StateFile _ tempName fileName d .frameInvalid⟩
  | edge edgeMonoNs =>
    cases hres : writeSidecar edgeMonoNs d with
    | mk result after =>
      cases result with
      | ok _ =>
        exact .inr ⟨_, rfl,
          @Replace.Step.replaced Text UInt8 StateFile _ tempName fileName d after .powerFail _ hres⟩
      | error fault =>
        exact .inr ⟨_, rfl, @Replace.Step.attempted Text UInt8 StateFile _ tempName fileName d after
          .powerFail _ fault hres⟩
  | disposed =>
    rw [deleteSidecar, Replace.attempt_state]
    exact .inr ⟨_, rfl, @Replace.Step.removed Text UInt8 StateFile _ tempName fileName d .powerFail⟩
  | rebooted h => exact .inr ⟨_, rfl, .rebooted h⟩

theorem Happened.run (h : Happened codec d happenings d') :
    Replace.Run tempName fileName d (happenings.filterMap (Happening.event codec)) d' := by
  induction h with
  | nil d => exact .nil d
  | cons h hrest ih =>
    rcases h.step with ⟨hevent, rfl⟩ | ⟨event, hevent, hstep⟩
    · rw [List.filterMap_cons_none hevent]
      exact ih
    · rw [List.filterMap_cons_some hevent]
      exact .cons hstep ih

/-- A marker that was written had a JSON. -/
theorem Happened.armed (h : Happened codec d happenings d') {marker : FrameInvalid}
    (hmarker : .armed marker true ∈ happenings) :
    ∃ json, codec.toStringPretty marker = some json := by
  induction h with
  | nil d => cases hmarker
  | cons h hrest ih =>
    rcases List.mem_cons.mp hmarker with rfl | hlater
    · generalize hhappening : Happening.armed marker true = happening at h
      cases h with
      | armed found =>
        rw [Happening.armed.injEq] at hhappening
        obtain ⟨rfl, hok⟩ := hhappening
        cases hjson : codec.toStringPretty marker with
        | none =>
          unfold writeFrameInvalid at hok
          rw [hjson] at hok
          cases hok
        | some json => exact ⟨json, rfl⟩
      | cleared => cases hhappening
      | edge edgeMonoNs => cases hhappening
      | disposed => cases hhappening
      | rebooted h => cases hhappening
    · exact ih hlater

/-- What is promised of a state file, whatever was cut or failed: it is never torn, it holds what
was written, and once a write has succeeded it is there until it is removed. -/
structure Lasting {α : Type} (decode : Bytes → Option α) (wrote : α → Bool → Happening)
    (removed : Happening) (name : Text) (happenings : List Happening) (d : Disk Text UInt8) :
    Prop where
  whole : ∀ left, d.MayShow name left → readStatePresence decode left ≠ .unreadable
  genuine : ∀ left value, d.MayShow name left →
    readStatePresence decode left = .present value → ∃ ok, wrote value ok ∈ happenings
  lasting : ∀ before value after, happenings = before ++ wrote value true :: after →
    removed ∉ after → ∀ left, d.MayShow name left →
      ∃ later, readStatePresence decode left = .present later ∧
        (later = value ∨ ∃ ok, wrote later ok ∈ after)

/-- The happenings that concern one of the files. -/
structure About {α : Type} (codec : MarkerCodec) (k : StateFile) (encode : α → Option Bytes)
    (wrote : α → Bool → Happening) (removed : Happening) : Prop where
  success : ∀ value bytes, encode value = some bytes →
    (wrote value true).event codec = some (.replaced k bytes)
  writes : ∀ happening bytes, happening.event codec = some (.replaced k bytes) ∨
    happening.event codec = some (.attempted k bytes) →
      ∃ value ok, happening = wrote value ok ∧ encode value = some bytes
  removes : ∀ happening, happening.event codec = some (.removed k) → happening = removed

section About

variable {α : Type} {k : StateFile} {encode : α → Option Bytes} {decode : Bytes → Option α}
  {wrote : α → Bool → Happening} {removed : Happening}

theorem About.written (h : About codec k encode wrote removed) {bytes : Bytes}
    (hbytes : .replaced k bytes ∈ happenings.filterMap (Happening.event codec) ∨
      .attempted k bytes ∈ happenings.filterMap (Happening.event codec)) :
    ∃ value ok, wrote value ok ∈ happenings ∧ encode value = some bytes := by
  rcases hbytes with hmem | hmem
  · obtain ⟨happening, hhappening, hevent⟩ := List.mem_filterMap.mp hmem
    obtain ⟨value, ok, rfl, hencode⟩ := h.writes happening bytes (.inl hevent)
    exact ⟨value, ok, hhappening, hencode⟩
  · obtain ⟨happening, hhappening, hevent⟩ := List.mem_filterMap.mp hmem
    obtain ⟨value, ok, rfl, hencode⟩ := h.writes happening bytes (.inr hevent)
    exact ⟨value, ok, hhappening, hencode⟩

theorem About.lasting (h : About codec k encode wrote removed)
    (hdecode : ∀ value bytes, encode value = some bytes → decode bytes = some value)
    (hrun : Happened codec d happenings d')
    (hwrote : ∀ value, wrote value true ∈ happenings → ∃ bytes, encode value = some bytes)
    (hstart : d.May (fileName k) fun value => value = none) :
    Lasting decode wrote removed (fileName k) happenings d' := by
  have hpresent : ∀ value bytes, encode value = some bytes →
      readStatePresence decode (some bytes) = .present value := by
    intro value bytes hencode
    unfold readStatePresence
    dsimp only
    rw [hdecode value bytes hencode]
  have hmay := hrun.run.may naming hstart
  have hread : ∀ left, d'.MayShow (fileName k) left → left = none ∨
      ∃ value ok bytes, wrote value ok ∈ happenings ∧ encode value = some bytes ∧
        left = some bytes := by
    intro left hleft
    rcases Replace.foldl_may (hmay.mayShow hleft) with hnone | ⟨hnone, -⟩ | ⟨bytes, rfl, hbytes⟩
    · exact .inl hnone
    · exact .inl hnone
    · obtain ⟨value, ok, hvalue, hencode⟩ := h.written hbytes
      exact .inr ⟨value, ok, bytes, hvalue, hencode, rfl⟩
  constructor
  · intro left hleft
    rcases hread left hleft with rfl | ⟨value, ok, bytes, -, hencode, rfl⟩
    · exact fun heq => by cases heq
    · rw [hpresent value bytes hencode]
      exact fun heq => by cases heq
  · intro left value hleft hvalue
    rcases hread left hleft with rfl | ⟨found, ok, bytes, hfound, hencode, rfl⟩
    · cases hvalue
    · rw [hpresent found bytes hencode, StatePresence.present.injEq] at hvalue
      exact ⟨ok, hvalue ▸ hfound⟩
  · intro before value after hsplit hkept left hleft
    obtain ⟨bytes, hencode⟩ := hwrote value (hsplit ▸ List.mem_append_right _ List.mem_cons_self)
    have hlast := hmay.mayShow hleft
    rw [hsplit, List.filterMap_append, List.filterMap_cons_some (h.success value bytes hencode)]
      at hlast
    have hgone : .removed k ∉ after.filterMap (Happening.event codec) := by
      intro hmem
      obtain ⟨happening, hhappening, hevent⟩ := List.mem_filterMap.mp hmem
      exact hkept (h.removes happening hevent ▸ hhappening)
    rcases Replace.foldl_may_of_replaced hlast hgone with rfl | ⟨later, rfl, hlater⟩
    · exact ⟨value, hpresent value bytes hencode, .inl rfl⟩
    · obtain ⟨found, ok, hfound, hencode'⟩ := h.written hlater
      exact ⟨found, hpresent found later hencode', .inr ⟨ok, hfound⟩⟩

end About

theorem about_frameInvalid (codec : MarkerCodec) :
    About codec .frameInvalid codec.toStringPretty .armed .cleared where
  success value bytes h := by
    rw [Happening.event, h]
    rfl
  writes happening bytes h := by
    cases happening with
    | armed marker ok =>
      refine ⟨marker, ok, rfl, ?_⟩
      cases hjson : codec.toStringPretty marker with
      | none =>
        rw [Happening.event, hjson] at h
        rcases h with h | h <;> cases h
      | some json =>
        rw [Happening.event, hjson] at h
        cases ok <;> rcases h with h | h <;> cases h <;> rfl
    | edge edgeMonoNs ok => cases ok <;> rcases h with h | h <;> cases h
    | cleared => rcases h with h | h <;> cases h
    | disposed => rcases h with h | h <;> cases h
    | rebooted => rcases h with h | h <;> cases h
  removes happening h := by
    cases happening with
    | cleared => rfl
    | armed marker ok =>
      obtain ⟨json, -, heq⟩ := Option.map_eq_some_iff.mp h
      cases ok <;> cases heq
    | edge edgeMonoNs ok => cases ok <;> cases h
    | disposed => cases h
    | rebooted => cases h

theorem about_powerFail (codec : MarkerCodec) :
    About codec .powerFail (fun edgeMonoNs => some (encodePowerFailEdge edgeMonoNs)) .edge
      .disposed where
  success value bytes h := by
    obtain rfl := Option.some.inj h
    rfl
  writes happening bytes h := by
    cases happening with
    | edge edgeMonoNs ok =>
      refine ⟨edgeMonoNs, ok, rfl, ?_⟩
      cases ok <;> rcases h with h | h <;> cases h <;> rfl
    | armed marker ok =>
      rcases h with h | h
      · obtain ⟨json, -, heq⟩ := Option.map_eq_some_iff.mp h
        cases ok <;> cases heq
      · obtain ⟨json, -, heq⟩ := Option.map_eq_some_iff.mp h
        cases ok <;> cases heq
    | cleared => rcases h with h | h <;> cases h
    | disposed => rcases h with h | h <;> cases h
    | rebooted => rcases h with h | h <;> cases h
  removes happening h := by
    cases happening with
    | disposed => rfl
    | armed marker ok =>
      obtain ⟨json, -, heq⟩ := Option.map_eq_some_iff.mp h
      cases ok <;> cases heq
    | edge edgeMonoNs ok => cases ok <;> cases h
    | cleared => cases h
    | rebooted => cases h

theorem decodePowerFailEdge_encode (edgeMonoNs : UInt64) :
    decodePowerFailEdge (encodePowerFailEdge edgeMonoNs) = some edgeMonoNs :=
  Recording.decodePowerFailEdge_eq_some_iff.mpr
    (List.take_of_length_le (Recording.length_encodeSidecar rfl).le)

/-- Over any history of writes, removals, failed calls and power cuts, neither state file is ever
torn, and what was once published is there until it is removed. -/
theorem state_files_last (hcodec : codec.RoundTrips) (hrun : Happened codec d happenings d')
    (hstart : ∀ k, d.May (fileName k) fun value => value = none) :
    Lasting codec.fromStr .armed .cleared frameInvalidFileName happenings d' ∧
      Lasting decodePowerFailEdge .edge .disposed powerFailFileName happenings d' := by
  constructor
  · exact (about_frameInvalid codec).lasting hcodec hrun (fun _ hmarker => hrun.armed hmarker)
      (hstart .frameInvalid)
  · refine (about_powerFail codec).lasting ?_ hrun (fun edgeMonoNs _ => ⟨_, rfl⟩)
      (hstart .powerFail)
    intro edgeMonoNs bytes hbytes
    obtain rfl := Option.some.inj hbytes
    exact decodePowerFailEdge_encode edgeMonoNs

def exampleFrameInvalid : FrameInvalid := ⟨7, 3, lit "touch", lit "shifted-frame-declared", some 5⟩

def exampleFrameInvalidJson : Bytes :=
  (lit "\x7b\n  \"detected_wall_ns\": 7,\n  \"step_id\": 3,\n  \"phase\": \"touch\"," ++
    lit "\n  \"reason\": \"shifted-frame-declared\",\n  \"arm_mono_ns\": 5\n\x7d").map
      fun c => UInt8.ofNat c.toNat

/-- The JSON of the one marker. -/
def exampleMarkerCodec : MarkerCodec where
  toStringPretty marker :=
    if marker = exampleFrameInvalid then some exampleFrameInvalidJson else none
  fromStr json := if json = exampleFrameInvalidJson then some exampleFrameInvalid else none

theorem exampleMarkerCodec_roundTrips : exampleMarkerCodec.RoundTrips := by
  intro marker json h
  simp only [exampleMarkerCodec, Option.ite_none_right_eq_some, Option.some.injEq] at h ⊢
  exact ⟨h.2.symm, h.1.symm⟩

/-- The renaming of the marker fails, and the power fails before it can be tidied up. -/
def exampleDisk : Disk Text UInt8 :=
  ⟨fun _ => none, fun _ => [], [.done, .done, .done, .failed [], .cut]⟩

def exampleAfter : Disk Text UInt8 :=
  (writeSidecar 9 (writeFrameInvalid exampleMarkerCodec exampleFrameInvalid exampleDisk).2).2

theorem state_files_last_cut :
    Lasting exampleMarkerCodec.fromStr .armed .cleared frameInvalidFileName
        [.armed exampleFrameInvalid false, .edge 9 true] exampleAfter ∧
      Lasting decodePowerFailEdge .edge .disposed powerFailFileName
        [.armed exampleFrameInvalid false, .edge 9 true] exampleAfter :=
  state_files_last exampleMarkerCodec_roundTrips
    (.cons (.armed exampleDisk exampleFrameInvalid) (.cons (.edge _ 9) (.nil _)))
    fun _ _ hentry => ⟨none, List.mem_singleton.mp hentry, rfl⟩

end Histories

end DeadReckoning.StateFiles
