import DeadReckoning.Lib.Prog
import Mathlib.Logic.Function.Basic

/-! Files that are replaced as a whole: written under another name, synced, renamed, and the
directory synced. Every call may fail, and the program may stop before any of them; what a name
shows after a power cut is then the old file or the new one. -/
namespace Replace

/-- A file: its contents, and whether they are on the medium. -/
structure File (β : Type) where
  contents : List β
  synced : Bool

/-- How the system answers a call. One that fails may leave any contents; a cut comes before it. -/
inductive Answer (β : Type) where
  | done
  | failed (left : List β)
  | cut

inductive Fault where
  | failed
  | cut
  deriving DecidableEq

/-- What the names show, what they may show instead after a power cut, and the answers to come. -/
structure Disk (ν β : Type) where
  shown : ν → Option (File β)
  past : ν → List (Option (File β))
  answers : List (Answer β)

section Calls

variable {ν β : Type} [DecidableEq ν]

namespace Disk

/-- The name shows something else, and until the directory is synced maybe not. -/
def put (d : Disk ν β) (name : ν) (entry : Option (File β)) : Disk ν β :=
  { d with
    shown := Function.update d.shown name entry
    past := Function.update d.past name (d.shown name :: d.past name) }

/-- The contents are not on the medium. -/
def spoil (d : Disk ν β) (name : ν) (left : List β) : Disk ν β := d.put name (some ⟨left, false⟩)

end Disk

/-- A call with its effect, and with what it leaves when it fails. -/
def call (effect : Disk ν β → Disk ν β) (spoiled : List β → Disk ν β → Disk ν β) :
    Prog (Disk ν β) Fault Unit := fun d =>
  match d.answers with
  | [] => (.ok (), effect d)
  | .done :: rest => (.ok (), effect { d with answers := rest })
  | .failed left :: rest => (.error .failed, spoiled left { d with answers := rest })
  | .cut :: rest => (.error .cut, { d with answers := rest })

/-- Creates the file, or empties it. -/
def create (name : ν) : Prog (Disk ν β) Fault Unit :=
  call (fun d => d.spoil name []) fun left d => d.spoil name left

def writeAll (name : ν) (bytes : List β) : Prog (Disk ν β) Fault Unit :=
  call (fun d => d.spoil name (((d.shown name).map (·.contents)).getD [] ++ bytes)) fun left d =>
    d.spoil name left

def syncAll (name : ν) : Prog (Disk ν β) Fault Unit :=
  call (fun d => d.put name ((d.shown name).map fun file => ⟨file.contents, true⟩)) fun left d =>
    d.spoil name left

/-- The other name shows the file, and this one nothing. -/
def rename (name other : ν) : Prog (Disk ν β) Fault Unit :=
  call (fun d => (d.put other (d.shown name)).put name none) fun _ d => d

def remove (name : ν) : Prog (Disk ν β) Fault Unit :=
  call (fun d => d.put name none) fun _ d => d

def syncDir : Prog (Disk ν β) Fault Unit :=
  call (fun d => { d with past := fun _ => [] }) fun _ d => d

/-- Goes on when a call fails, but not behind a cut. -/
def attempt (x : Prog (Disk ν β) Fault Unit) : Prog (Disk ν β) Fault Unit :=
  x.onError fun fault => if fault = .cut then Prog.stop .cut else pure ()

/-- Cleans up behind a call that fails. -/
def cleaning (x cleanup : Prog (Disk ν β) Fault Unit) : Prog (Disk ν β) Fault Unit :=
  x.onError fun fault =>
    if fault = .cut then Prog.stop .cut else attempt cleanup >>= fun _ => Prog.stop .failed

/-- Replaces a file by one with the bytes. -/
def replace (temp target : ν) (bytes : List β) : Prog (Disk ν β) Fault Unit := do
  cleaning (do create temp; writeAll temp bytes; syncAll temp) (remove temp)
  cleaning (rename temp target) (remove temp)
  syncDir

end Calls

section Contents

variable {ν β : Type} [DecidableEq ν] {d : Disk ν β} {name other temp target : ν}
  {bytes : List β} {S T : Option (List β) → Prop}

/-- All that the name may show is on the medium and has the property. -/
def Disk.May (d : Disk ν β) (name : ν) (S : Option (List β) → Prop) : Prop :=
  ∀ entry ∈ d.shown name :: d.past name, ∃ value : Option (List β),
    entry = value.map (fun contents => ⟨contents, true⟩) ∧ S value

omit [DecidableEq ν] in
theorem Disk.May.mono (h : d.May name S) (hST : ∀ value, S value → T value) : d.May name T := by
  intro entry hentry
  obtain ⟨value, heq, hvalue⟩ := h entry hentry
  exact ⟨value, heq, hST value hvalue⟩

theorem Disk.May.put_of_ne {entry : Option (File β)} (h : d.May name S) (hne : name ≠ other) :
    (d.put other entry).May name S := by
  intro old hold
  simp only [Disk.put, Function.update_of_ne hne] at hold
  exact h old hold

/-- The new value joins those that the name may show. -/
theorem Disk.May.put (h : d.May name S) (value : Option (List β)) :
    (d.put name (value.map fun contents => ⟨contents, true⟩)).May name
      fun v => S v ∨ v = value := by
  intro entry hentry
  simp only [Disk.put, Function.update_self, List.mem_cons] at hentry
  rcases hentry with rfl | hentry
  · exact ⟨value, rfl, .inr rfl⟩
  · obtain ⟨old, heq, hold⟩ := h entry (List.mem_cons.mpr hentry)
    exact ⟨old, heq, .inl hold⟩

omit [DecidableEq ν] in
/-- The rule of a call. -/
theorem triple_call {effect : Disk ν β → Disk ν β} {spoiled : List β → Disk ν β → Disk ν β}
    {P : Disk ν β → Prop} {Q : Unit → Disk ν β → Prop} {E : Fault → Disk ν β → Prop}
    (hanswers : ∀ d answers, P d → P { d with answers := answers })
    (heffect : ∀ d, P d → Q () (effect d)) (hspoiled : ∀ left d, P d → E .failed (spoiled left d))
    (hcut : ∀ d, P d → E .cut d) : Prog.Triple P (call effect spoiled) Q E := by
  intro d hd
  unfold call
  cases hanswer : d.answers with
  | nil => exact heffect d hd
  | cons answer rest =>
    cases answer with
    | done => exact heffect _ (hanswers d rest hd)
    | failed left => exact hspoiled left _ (hanswers d rest hd)
    | cut => exact hcut _ (hanswers d rest hd)

omit [DecidableEq ν] in
theorem triple_cleaning {x cleanup : Prog (Disk ν β) Fault Unit} {P : Disk ν β → Prop}
    {Q : Unit → Disk ν β → Prop} {E : Disk ν β → Prop}
    (hx : Prog.Triple P x Q fun _ => E) (hcleanup : Prog.Triple E cleanup (fun _ => E) fun _ => E) :
    Prog.Triple P (cleaning x cleanup) Q fun _ => E := by
  refine Prog.Triple.onError hx fun fault => ?_
  split
  · exact Prog.Triple.stop _ fun _ h => h
  · refine Prog.Triple.bind (Q := fun _ => E) ?_ fun _ => Prog.Triple.stop _ fun _ h => h
    refine Prog.Triple.onError hcleanup fun fault => ?_
    split
    · exact Prog.Triple.stop _ fun _ h => h
    · exact Prog.Triple.pure () fun _ h => h

theorem triple_remove_other (hne : target ≠ temp) : Prog.Triple
    (fun d : Disk ν β => d.May target S) (remove temp) (fun _ d => d.May target S)
      fun _ d => d.May target S :=
  triple_call (fun _ _ h => h) (fun _ h => h.put_of_ne hne) (fun _ _ h => h) fun _ h => h

/-- Once the other file is synced it has the bytes, and the target is what it was. -/
theorem triple_stage (hne : target ≠ temp) : Prog.Triple (fun d : Disk ν β => d.May target S)
    (do create temp; writeAll temp bytes; syncAll temp)
    (fun _ d => d.May target S ∧ d.shown temp = some ⟨bytes, true⟩)
    fun _ d => d.May target S := by
  refine Prog.Triple.bind
    (Q := fun _ d => d.May target S ∧ (d.shown temp).map (·.contents) = some []) ?_ fun _ => ?_
  · refine triple_call (fun _ _ h => h) (fun d h => ⟨h.put_of_ne hne, ?_⟩)
      (fun _ _ h => h.put_of_ne hne) fun _ h => h
    simp [Disk.spoil, Disk.put]
  refine Prog.Triple.bind
    (Q := fun _ d => d.May target S ∧ (d.shown temp).map (·.contents) = some bytes) ?_ fun _ => ?_
  · refine triple_call (fun _ _ h => h) (fun d h => ⟨h.1.put_of_ne hne, ?_⟩)
      (fun _ _ h => h.1.put_of_ne hne) fun _ h => h.1
    simp [Disk.spoil, Disk.put, h.2]
  · refine triple_call (fun _ _ h => h) (fun d h => ⟨h.1.put_of_ne hne, ?_⟩)
      (fun _ _ h => h.1.put_of_ne hne) fun _ h => h.1
    obtain ⟨file, hfile, rfl⟩ := Option.map_eq_some_iff.mp h.2
    simp [Disk.put, hfile]

/-- A file that is replaced shows the old contents or the new ones, and only the new ones when the
replacement has succeeded. -/
theorem triple_replace (hne : target ≠ temp) : Prog.Triple (fun d : Disk ν β => d.May target S)
    (replace temp target bytes) (fun _ d => d.May target (· = some bytes))
    fun _ d => d.May target fun v => S v ∨ v = some bytes := by
  have hnew : ∀ d : Disk ν β, d.May target S → d.May target fun v => S v ∨ v = some bytes :=
    fun d h => h.mono fun _ hv => .inl hv
  refine Prog.Triple.bind (triple_cleaning ((triple_stage hne).conseq (fun _ h => h)
    (fun _ _ h => h) fun _ d h => hnew d h) (triple_remove_other hne)) fun _ => ?_
  refine Prog.Triple.bind (Q := fun _ d => d.May target (fun v => S v ∨ v = some bytes) ∧
    d.shown target = some ⟨bytes, true⟩) ?_ fun _ => ?_
  · refine triple_cleaning ?_ (triple_remove_other hne)
    refine triple_call (fun _ _ h => h) (fun d h => ?_) (fun _ d h => hnew d h.1)
      fun d h => hnew d h.1
    rw [h.2]
    refine ⟨(h.1.put (some bytes)).put_of_ne hne, ?_⟩
    simp [Disk.put, Function.update_of_ne hne]
  · refine triple_call (fun _ _ h => h) (fun d h => ?_) (fun _ _ h => h.1) fun _ h => h.1
    intro entry hentry
    simp only [List.mem_singleton] at hentry
    exact ⟨some bytes, hentry.trans h.2, rfl⟩

/-- A file that is removed may still be there after a power cut. -/
theorem triple_remove : Prog.Triple (fun d : Disk ν β => d.May target S) (remove target)
    (fun _ d => d.May target fun v => S v ∨ v = none)
    fun _ d => d.May target fun v => S v ∨ v = none :=
  triple_call (fun _ _ h => h) (fun _ h => h.put none) (fun _ _ h => h.mono fun _ hv => .inl hv)
    fun _ h => h.mono fun _ hv => .inl hv

/-- What happens to one file leaves the others as they are. -/
theorem triple_replace_other (htemp : name ≠ temp) (htarget : name ≠ target) : Prog.Triple
    (fun d : Disk ν β => d.May name S) (replace temp target bytes) (fun _ d => d.May name S)
      fun _ d => d.May name S := by
  refine Prog.Triple.bind (triple_cleaning ((triple_stage htemp).mono fun _ _ h => h.1)
    (triple_remove_other htemp)) fun _ => ?_
  refine Prog.Triple.bind (Q := fun _ d => d.May name S)
    (triple_cleaning ?_ (triple_remove_other htemp)) fun _ => ?_
  · exact triple_call (fun _ _ h => h) (fun _ h => (h.put_of_ne htarget).put_of_ne htemp)
      (fun _ _ h => h) fun _ h => h
  · refine triple_call (fun _ _ h => h) (fun d h => ?_) (fun _ _ h => h) fun _ h => h
    intro entry hentry
    simp only [List.mem_singleton] at hentry
    exact h entry (hentry ▸ List.mem_cons_self)

omit [DecidableEq ν] in
/-- What is done in an attempt is done without one. -/
theorem attempt_state (x : Prog (Disk ν β) Fault Unit) (d : Disk ν β) :
    (attempt x d).2 = (x d).2 := by
  unfold attempt Prog.onError
  split
  · rename_i heq
    rw [heq]
  · rename_i fault _ heq
    rw [heq]
    cases fault <;> rfl

theorem triple_remove_of_ne (hne : name ≠ target) : Prog.Triple
    (fun d : Disk ν β => d.May name S) (remove target) (fun _ d => d.May name S)
      fun _ d => d.May name S :=
  triple_call (fun _ _ h => h) (fun _ h => h.put_of_ne hne) (fun _ _ h => h) fun _ h => h

end Contents

section Histories

/-- What happens to some files that are replaced as a whole. -/
inductive Event (κ β : Type) where
  | replaced (k : κ) (bytes : List β)
  | attempted (k : κ) (bytes : List β)
  | removed (k : κ)
  | rebooted

variable {ν β κ : Type} [DecidableEq ν] {temp target : κ → ν} {d d' : Disk ν β} {k : κ}
  {events : List (Event κ β)} {S : Option (List β) → Prop}

/-- What a power cut leaves of a file: anything, unless it is on the medium. -/
inductive Leaves : Option (File β) → Option (List β) → Prop
  | absent : Leaves none none
  | synced (contents : List β) : Leaves (some ⟨contents, true⟩) (some contents)
  | spoiled (contents left : List β) : Leaves (some ⟨contents, false⟩) (some left)

/-- What the name may show after a power cut. -/
def Disk.MayShow (d : Disk ν β) (name : ν) (left : Option (List β)) : Prop :=
  ∃ entry ∈ d.shown name :: d.past name, Leaves entry left

inductive Step (temp target : κ → ν) : Disk ν β → Event κ β → Disk ν β → Prop
  | replaced {d d' : Disk ν β} (k : κ) (bytes : List β)
      (h : replace (temp k) (target k) bytes d = (.ok (), d')) :
      Step temp target d (.replaced k bytes) d'
  | attempted {d d' : Disk ν β} (k : κ) (bytes : List β) (fault : Fault)
      (h : replace (temp k) (target k) bytes d = (.error fault, d')) :
      Step temp target d (.attempted k bytes) d'
  | removed {d : Disk ν β} (k : κ) : Step temp target d (.removed k) (remove (target k) d).2
  | rebooted {d d' : Disk ν β} (h : ∀ name, d'.past name = [] ∧ ∃ left, d.MayShow name left ∧
      d'.shown name = left.map fun contents => ⟨contents, true⟩) :
      Step temp target d .rebooted d'

/-- One event after another. -/
inductive Run (temp target : κ → ν) : Disk ν β → List (Event κ β) → Disk ν β → Prop
  | nil (d : Disk ν β) : Run temp target d [] d
  | cons {d d' d'' : Disk ν β} {event : Event κ β} {events : List (Event κ β)}
      (h : Step temp target d event d') (hrest : Run temp target d' events d'') :
      Run temp target d (event :: events) d''

/-- What a file may be read as after an event. -/
def Event.may [DecidableEq κ] (k : κ) (S : Option (List β) → Prop) :
    Event κ β → Option (List β) → Prop
  | .replaced j bytes => if j = k then fun v => v = some bytes else S
  | .attempted j bytes => if j = k then fun v => S v ∨ v = some bytes else S
  | .removed j => if j = k then fun v => S v ∨ v = none else S
  | .rebooted => S

/-- The names of the files, and of those that are written first, are all different. -/
structure Naming (temp target : κ → ν) : Prop where
  apart : ∀ j k, target k ≠ temp j
  injective : Function.Injective target

omit [DecidableEq ν] in
theorem Disk.May.mayShow {name : ν} (h : d.May name S) {left : Option (List β)}
    (hleft : d.MayShow name left) : S left := by
  obtain ⟨entry, hentry, hleaves⟩ := hleft
  obtain ⟨value, heq, hvalue⟩ := h entry hentry
  cases hleaves with
  | absent =>
    cases value with
    | none => exact hvalue
    | some contents => cases heq
  | synced contents =>
    cases value with
    | none => cases heq
    | some contents' =>
      obtain rfl : contents = contents' := congrArg File.contents (Option.some.inj heq)
      exact hvalue
  | spoiled contents left =>
    cases value with
    | none => cases heq
    | some contents' => cases congrArg File.synced (Option.some.inj heq)

omit [DecidableEq ν] in
theorem state_of_triple {P Q : Disk ν β → Prop} {x : Prog (Disk ν β) Fault Unit}
    (h : Prog.Triple P x (fun _ => Q) fun _ => Q) (hd : P d) : Q (x d).2 := by
  have hres := h d hd
  split at hres
  · rename_i heq
    rwa [heq]
  · rename_i heq
    rwa [heq]

theorem Step.may [DecidableEq κ] {event : Event κ β} (hnaming : Naming temp target)
    (h : Step temp target d event d') (hd : d.May (target k) S) :
    d'.May (target k) (event.may k S) := by
  have hother : ∀ {j : κ}, j ≠ k → target k ≠ target j := fun hjk heq =>
    hjk (hnaming.injective heq).symm
  cases h with
  | replaced j bytes h =>
    rw [Event.may]
    split
    · rename_i hjk
      subst hjk
      exact (triple_replace (hnaming.apart j j)).ok hd h
    · rename_i hjk
      exact (triple_replace_other (hnaming.apart j k) (hother hjk)).ok hd h
  | attempted j bytes fault h =>
    rw [Event.may]
    split
    · rename_i hjk
      subst hjk
      exact (triple_replace (hnaming.apart j j)).error hd h
    · rename_i hjk
      exact (triple_replace_other (hnaming.apart j k) (hother hjk)).error hd h
  | removed j =>
    rw [Event.may]
    split
    · rename_i hjk
      subst hjk
      exact state_of_triple triple_remove hd
    · rename_i hjk
      exact state_of_triple (triple_remove_of_ne (hother hjk)) hd
  | rebooted h =>
    intro entry hentry
    obtain ⟨hpast, left, hleft, hshown⟩ := h (target k)
    rw [hpast, List.mem_singleton] at hentry
    exact ⟨left, hentry.trans hshown, hd.mayShow hleft⟩

/-- The abstract run bounds what is read. -/
theorem Run.may [DecidableEq κ] (hnaming : Naming temp target) (h : Run temp target d events d')
    (hd : d.May (target k) S) :
    d'.May (target k) (events.foldl (fun S event => event.may k S) S) := by
  induction h generalizing S with
  | nil d => exact hd
  | cons h hrest ih => exact ih (h.may hnaming hd)

section Reading

variable [DecidableEq κ] {v : Option (List β)}

theorem Event.of_may {event : Event κ β} (h : event.may k S v) :
    S v ∨ (v = none ∧ event = .removed k) ∨
      ∃ bytes, v = some bytes ∧ (event = .replaced k bytes ∨ event = .attempted k bytes) := by
  cases event with
  | replaced j bytes =>
    by_cases hjk : j = k
    · subst hjk
      rw [Event.may, if_pos rfl] at h
      exact .inr (.inr ⟨bytes, h, .inl rfl⟩)
    · rw [Event.may, if_neg hjk] at h
      exact .inl h
  | attempted j bytes =>
    by_cases hjk : j = k
    · subst hjk
      rw [Event.may, if_pos rfl] at h
      exact h.imp id fun hnew => .inr ⟨bytes, hnew, .inr rfl⟩
    · rw [Event.may, if_neg hjk] at h
      exact .inl h
  | removed j =>
    by_cases hjk : j = k
    · subst hjk
      rw [Event.may, if_pos rfl] at h
      exact h.imp id fun hnone => .inl ⟨hnone, rfl⟩
    · rw [Event.may, if_neg hjk] at h
      exact .inl h
  | rebooted => exact .inl h

/-- What is read was there, or was written; nothing is read only where it was so at the start, or
where the file was removed. -/
theorem foldl_may (h : events.foldl (fun S event => event.may k S) S v) :
    S v ∨ (v = none ∧ .removed k ∈ events) ∨
      ∃ bytes, v = some bytes ∧ (.replaced k bytes ∈ events ∨ .attempted k bytes ∈ events) := by
  induction events generalizing S with
  | nil => exact .inl h
  | cons event events ih =>
    have hlater : ∀ e, e ∈ events → e ∈ event :: events := fun e he => List.mem_cons_of_mem event he
    rcases ih h with hnow | ⟨hnone, hremoved⟩ | ⟨bytes, hbytes, hwritten⟩
    · rcases Event.of_may hnow with hold | ⟨hnone, rfl⟩ | ⟨bytes, hbytes, hwritten⟩
      · exact .inl hold
      · exact .inr (.inl ⟨hnone, List.mem_cons_self⟩)
      · refine .inr (.inr ⟨bytes, hbytes, ?_⟩)
        rcases hwritten with rfl | rfl
        · exact .inl List.mem_cons_self
        · exact .inr List.mem_cons_self
    · exact .inr (.inl ⟨hnone, hlater _ hremoved⟩)
    · exact .inr (.inr ⟨bytes, hbytes, hwritten.imp (hlater _) (hlater _)⟩)

/-- Once a replacement has succeeded, its contents or later ones are read until the file is
removed. -/
theorem foldl_may_of_replaced {bytes : List β} {before after : List (Event κ β)}
    (h : (before ++ .replaced k bytes :: after).foldl (fun S event => event.may k S) S v)
    (hremoved : .removed k ∉ after) :
    v = some bytes ∨
      ∃ later, v = some later ∧ (.replaced k later ∈ after ∨ .attempted k later ∈ after) := by
  rw [List.foldl_append, List.foldl_cons, Event.may, if_pos rfl] at h
  rcases foldl_may h with hbytes | ⟨-, hmem⟩ | hlater
  · exact .inl hbytes
  · exact absurd hmem hremoved
  · exact .inr hlater

end Reading

end Histories

end Replace
