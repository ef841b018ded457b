import DeadReckoning.Lib.Prog
import Mathlib.Logic.Function.Basic

/-! A directory that several writers share: one makes and removes files, the others add some before
each thing that it does. -/
namespace Directory

variable {ν β : Type} [DecidableEq ν]

/-- What an operation runs into. -/
inductive Fault (β : Type) where
  | refused
  | cut (left : β)
  deriving DecidableEq

/-- What comes before one operation, and how the system answers it. -/
structure Turn (ν β : Type) where
  foreign : List (ν × β)
  fault : Option (Fault β)
  hidden : List ν

/-- The files, those the writer made itself, and what the others have added. -/
structure Disk (ν β : Type) where
  root : ν → Option β
  own : List ν
  foreign : List (ν × β)
  turns : List (Turn ν β)

/-- A disk on which nothing has been done yet. -/
def Disk.fresh (root : ν → Option β) (turns : List (Turn ν β)) : Disk ν β := ⟨root, [], [], turns⟩

/-- A file of another writer, which takes no name that is in use. -/
def Disk.add (d : Disk ν β) (file : ν × β) : Disk ν β :=
  if (d.root file.1).isSome then d
  else { d with
    root := Function.update d.root file.1 (some file.2)
    foreign := d.foreign ++ [file] }

/-- The turn of the next operation, when the others have added their files. -/
def Disk.next (d : Disk ν β) : Turn ν β × Disk ν β :=
  match d.turns with
  | [] => (⟨[], none, []⟩, d)
  | turn :: turns => (turn, turn.foreign.foldl Disk.add { d with turns := turns })

def Disk.make (d : Disk ν β) (name : ν) (contents : β) : Disk ν β :=
  { d with
    root := Function.update d.root name (some contents)
    own := d.own ++ [name] }

/-- Makes a file that is not there yet, `none` when it is. -/
def createNew (name : ν) (contents : β) : Prog (Disk ν β) (Fault β) (Option Unit) := fun d =>
  let (turn, d) := d.next
  match turn.fault, (d.root name).isSome with
  | some .refused, _ => (.error .refused, d)
  | _, true => (.ok none, d)
  | some (.cut left), false => (.error (.cut left), d.make name left)
  | none, false => (.ok (some ()), d.make name contents)

def Disk.drop (d : Disk ν β) (name : ν) : Disk ν β :=
  { d with
    root := Function.update d.root name none
    own := d.own.filter (· ≠ name) }

/-- Removes whatever file has the name, unless the system refuses to. -/
def remove (name : ν) (d : Disk ν β) : Option (Fault β) × Disk ν β :=
  let (turn, d) := d.next
  (turn.fault, if turn.fault.isSome then d else d.drop name)

/-- The names that a listing finds in use, none when there is no listing. -/
def listing {ε : Type} : Prog (Disk ν β) ε (ν → Bool) := fun d =>
  let (turn, d) := d.next
  (.ok fun name => turn.fault.isNone && (d.root name).isSome && !turn.hidden.contains name, d)

section Accounts

variable {start : ν → Option β} {d : Disk ν β} {name : ν} {contents : β}

/-- Every file is from the start, was added by another, or is the writer's own, and the first two
kinds are as they were. -/
structure Accounted (start : ν → Option β) (d : Disk ν β) : Prop where
  kept : ∀ n c, start n = some c → d.root n = some c
  foreign : ∀ n c, (n, c) ∈ d.foreign → d.root n = some c
  own : ∀ n ∈ d.own, (d.root n).isSome = true ∧ start n = none ∧ ∀ c, (n, c) ∉ d.foreign
  origin : ∀ n c, d.root n = some c → n ∈ d.own ∨ start n = some c ∨ (n, c) ∈ d.foreign

omit [DecidableEq ν] in
theorem accounted_fresh (turns : List (Turn ν β)) : Accounted start (Disk.fresh start turns) :=
  ⟨fun _ _ h => h, nofun, nofun, fun _ _ h => .inr (.inl h)⟩

theorem Accounted.add (h : Accounted start d) (file : ν × β) : Accounted start (d.add file) := by
  obtain ⟨name, contents⟩ := file
  unfold Disk.add
  split
  · exact h
  · rename_i hfree
    have hnone : d.root name = none := by simpa using hfree
    have hother (n : ν) (hn : (d.root n).isSome = true) :
        Function.update d.root name (some contents) n = d.root n := by
      apply Function.update_of_ne
      rintro rfl
      rw [hnone] at hn
      cases hn
    refine ⟨?_, ?_, ?_, ?_⟩
    · intro n c hn
      have hroot := h.kept n c hn
      show Function.update d.root name (some contents) n = some c
      rw [hother n (by rw [hroot]; rfl), hroot]
    · intro n c hn
      show Function.update d.root name (some contents) n = some c
      rcases List.mem_append.mp hn with hn | hn
      · have hroot := h.foreign n c hn
        rw [hother n (by rw [hroot]; rfl), hroot]
      · obtain ⟨rfl, rfl⟩ := Prod.mk.inj (List.mem_singleton.mp hn)
        exact Function.update_self _ _ _
    · intro n hn
      obtain ⟨hroot, hstart, hforeign⟩ := h.own n hn
      refine ⟨?_, hstart, fun c hc => ?_⟩
      · show (Function.update d.root name (some contents) n).isSome = true
        rwa [hother n hroot]
      · rcases List.mem_append.mp hc with hc | hc
        · exact hforeign c hc
        · obtain ⟨rfl, -⟩ := Prod.mk.inj (List.mem_singleton.mp hc)
          rw [hnone] at hroot
          cases hroot
    · intro n c hn
      change Function.update d.root name (some contents) n = some c at hn
      by_cases hself : n = name
      · subst hself
        rw [Function.update_self] at hn
        obtain rfl := Option.some.inj hn
        exact .inr (.inr (List.mem_append_right _ (List.mem_singleton.mpr rfl)))
      · rw [Function.update_of_ne hself] at hn
        exact (h.origin n c hn).imp id (Or.imp id (List.mem_append_left _))

omit [DecidableEq ν] in
theorem Accounted.congr {d' : Disk ν β} (h : Accounted start d) (hroot : d'.root = d.root)
    (hown : d'.own = d.own) (hforeign : d'.foreign = d.foreign) : Accounted start d' := by
  refine ⟨?_, ?_, ?_, ?_⟩
  · rw [hroot]
    exact h.kept
  · rw [hroot, hforeign]
    exact h.foreign
  · rw [hroot, hown, hforeign]
    exact h.own
  · rw [hroot, hown, hforeign]
    exact h.origin

theorem Accounted.next (h : Accounted start d) : Accounted start d.next.2 := by
  unfold Disk.next
  split
  · exact h
  · rename_i turn turns _
    have hrest : Accounted start { d with turns := turns } := h.congr rfl rfl rfl
    have hall (files : List (ν × β)) (d' : Disk ν β) (h' : Accounted start d') :
        Accounted start (files.foldl Disk.add d') := by
      induction files generalizing d' with
      | nil => exact h'
      | cons file files ih => exact ih _ (h'.add file)
    exact hall _ _ hrest

theorem add_own (d : Disk ν β) (file : ν × β) : (d.add file).own = d.own := by
  unfold Disk.add
  split
  · rfl
  · rfl

@[simp] theorem next_own (d : Disk ν β) : d.next.2.own = d.own := by
  unfold Disk.next
  split
  · rfl
  · rename_i turn turns _
    have hall (files : List (ν × β)) (d' : Disk ν β) :
        (files.foldl Disk.add d').own = d'.own := by
      induction files generalizing d' with
      | nil => rfl
      | cons file files ih => rw [List.foldl_cons, ih, add_own]
    exact hall _ _

theorem Accounted.make (h : Accounted start d) (hfree : d.root name = none) (contents : β) :
    Accounted start (d.make name contents) := by
  have hother (n : ν) (hn : (d.root n).isSome = true) :
      Function.update d.root name (some contents) n = d.root n := by
    apply Function.update_of_ne
    rintro rfl
    rw [hfree] at hn
    cases hn
  refine ⟨?_, ?_, ?_, ?_⟩
  · intro n c hn
    have hroot := h.kept n c hn
    show Function.update d.root name (some contents) n = some c
    rw [hother n (by rw [hroot]; rfl), hroot]
  · intro n c hn
    have hroot := h.foreign n c hn
    show Function.update d.root name (some contents) n = some c
    rw [hother n (by rw [hroot]; rfl), hroot]
  · intro n hn
    show (Function.update d.root name (some contents) n).isSome = true ∧ _
    rcases List.mem_append.mp hn with hn | hn
    · obtain ⟨hroot, hstart, hforeign⟩ := h.own n hn
      rw [hother n hroot]
      exact ⟨hroot, hstart, hforeign⟩
    · obtain rfl := List.mem_singleton.mp hn
      rw [Function.update_self]
      refine ⟨rfl, ?_, fun c hc => ?_⟩
      · by_contra hstart
        obtain ⟨c, hc⟩ := Option.ne_none_iff_exists'.mp hstart
        rw [h.kept n c hc] at hfree
        cases hfree
      · rw [h.foreign n c hc] at hfree
        cases hfree
  · intro n c hn
    change Function.update d.root name (some contents) n = some c at hn
    by_cases hself : n = name
    · exact .inl (List.mem_append_right _ (List.mem_singleton.mpr hself))
    · rw [Function.update_of_ne hself] at hn
      exact (h.origin n c hn).imp (List.mem_append_left _) id

/-- Whatever comes of it, a file is made where there was none, or nothing is done. -/
theorem createNew_cases (d : Disk ν β) (name : ν) (contents : β) :
    (createNew name contents d).2 = d.next.2 ∧ (createNew name contents d).1 ≠ .ok (some ()) ∨
      d.next.2.root name = none ∧ ∃ written, (createNew name contents d).2 =
        d.next.2.make name written := by
  have hfree (h : (d.next.2.root name).isSome = false) : d.next.2.root name = none := by
    simpa using h
  unfold createNew
  dsimp only
  split
  · exact .inl ⟨rfl, nofun⟩
  · exact .inl ⟨rfl, nofun⟩
  · rename_i hroot
    exact .inr ⟨hfree hroot, _, rfl⟩
  · rename_i hroot
    exact .inr ⟨hfree hroot, _, rfl⟩

theorem Accounted.createNew (h : Accounted start d) (name : ν) (contents : β) :
    Accounted start (createNew name contents d).2 := by
  rcases createNew_cases d name contents with ⟨hd, -⟩ | ⟨hfree, written, hd⟩
  · rw [hd]
    exact h.next
  · rw [hd]
    exact h.next.make hfree written

/-- A file is the writer's own from the moment it has been made. -/
theorem createNew_own (d : Disk ν β) (name : ν) (contents : β) :
    ((createNew name contents d).2.own = d.own ∨
      (createNew name contents d).2.own = d.own ++ [name]) ∧
    ((createNew name contents d).1 = .ok (some ()) →
      (createNew name contents d).2.own = d.own ++ [name]) ∧
    ((createNew name contents d).1 = .ok none → (createNew name contents d).2.own = d.own) := by
  have hmade (written : β) : (d.next.2.make name written).own = d.own ++ [name] := by
    rw [← next_own d]
    rfl
  unfold createNew
  dsimp only
  split
  · exact ⟨.inl (next_own d), nofun, nofun⟩
  · exact ⟨.inl (next_own d), nofun, fun _ => next_own d⟩
  · exact ⟨.inr (hmade _), nofun, nofun⟩
  · exact ⟨.inr (hmade _), fun _ => hmade _, nofun⟩

/-- The rule of making a file. -/
theorem createNew_triple (own : List ν) (name : ν) (contents : β) :
    Prog.Triple (fun d => Accounted start d ∧ d.own = own) (createNew name contents)
      (fun created d => Accounted start d ∧ d.own = if created.isSome then own ++ [name] else own)
      fun _ d => Accounted start d := by
  rintro d ⟨hd, rfl⟩
  have haccounted := hd.createNew name contents
  obtain ⟨-, hmade, hleft⟩ := createNew_own d name contents
  rcases hres : createNew name contents d with ⟨fault | _ | ⟨⟩, d'⟩
  · rw [hres] at haccounted
    exact haccounted
  · rw [hres] at haccounted hleft
    exact ⟨haccounted, hleft rfl⟩
  · rw [hres] at haccounted hmade
    exact ⟨haccounted, hmade rfl⟩

/-- The rule of looking for names. -/
theorem listing_triple {ε : Type} {E : ε → Disk ν β → Prop} (own : List ν) :
    Prog.Triple (fun d => Accounted start d ∧ d.own = own) listing
      (fun _ d => Accounted start d ∧ d.own = own) E := by
  rintro d ⟨hd, rfl⟩
  exact ⟨hd.next, next_own d⟩

/-- The writer may drop what is its own. -/
theorem Accounted.drop (h : Accounted start d) (hname : name ∈ d.own) :
    Accounted start (d.drop name) := by
  obtain ⟨-, hstart, hforeign⟩ := h.own name hname
  refine ⟨?_, ?_, ?_, ?_⟩
  · intro n c hn
    show Function.update d.root name none n = some c
    rw [Function.update_of_ne, h.kept n c hn]
    rintro rfl
    rw [hstart] at hn
    cases hn
  · intro n c hn
    show Function.update d.root name none n = some c
    rw [Function.update_of_ne, h.foreign n c hn]
    rintro rfl
    exact hforeign c hn
  · intro n hn
    obtain ⟨hmem, hne⟩ := List.mem_filter.mp hn
    show (Function.update d.root name none n).isSome = true ∧ _
    rw [Function.update_of_ne (of_decide_eq_true hne)]
    exact h.own n hmem
  · intro n c hn
    change Function.update d.root name none n = some c at hn
    by_cases hself : n = name
    · subst hself
      rw [Function.update_self] at hn
      cases hn
    · rw [Function.update_of_ne hself] at hn
      exact (h.origin n c hn).imp
        (fun hmem => List.mem_filter.mpr ⟨hmem, decide_eq_true hself⟩) id

/-- Nothing happens when there is nothing to drop. -/
theorem Accounted.drop_absent (h : Accounted start d) (hname : d.root name = none) :
    Accounted start (d.drop name) := by
  apply h.congr
  · exact Function.update_eq_self_iff.mpr hname.symm
  · apply List.filter_eq_self.mpr
    intro n hn
    apply decide_eq_true
    rintro rfl
    have hsome := (h.own n hn).1
    rw [hname] at hsome
    cases hsome
  · rfl

theorem drop_root (d : Disk ν β) (name : ν) : (d.drop name).root name = none :=
  Function.update_self _ _ _

end Accounts

end Directory
