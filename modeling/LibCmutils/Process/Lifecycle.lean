import LibCmutils.Lib.Owners
import LibCmutils.Lib.Transition
import Mathlib.Data.Finset.Erase
import Mathlib.Data.Finset.Insert

/-!
Processes (`src/process.c`): their life, their pipes and the chains they form.

* `ProcKernel`: the descriptors of pipes that are open, the children that are not reaped, and
  what was done wrong.
* `Proc`: `CMUTIL_Process_Internal`. `startSubprocess`: `CMUTIL_StartSubprocess` with the labels
  that clean up, `startSubprocess_spec` what it does.
* `procStart`, `procSuspend`, `procResume`, `procPipeTo`, `procWait`, `procKill`, `procDestroy`:
  the functions of a process.
* `procSystem`: the calls in any order, with children that end at any time.

The code is compiled for POSIX. What the system decides (whether a call succeeds, the numbers it
gives) is a part of the action. The memory for the arguments and the environment is left out, and
so is what the reader thread does; joining it takes no step.
-/

namespace LibCmutils

/-! ### The kernel -/

/-- A child that is not reaped. -/
inductive ProcChild where
  | alive | zombie
  deriving DecidableEq

/-- What must not happen: a descriptor is closed that is not open, a process gets a signal that
is no child, pipes are closed below the reader. -/
inductive ProcFault where
  | badClose (fd : ℕ)
  | badSignal (pid : ℕ)
  | readerAlive
  deriving DecidableEq

/-- The descriptors that are open, the children, and what was done wrong. -/
structure ProcKernel where
  fds : Finset ℕ
  children : ℕ → Option ProcChild
  faults : List ProcFault

namespace ProcKernel

variable (k : ProcKernel)

/-- `pipe`, which may fail: the ends for reading and for writing. Without `some` the system
cannot give these numbers. -/
def pipe : Option (ℕ × ℕ) → Option (ProcKernel × Option (ℕ × ℕ))
  | none => some (k, none)
  | some (r, w) =>
      if r ∉ k.fds ∧ w ∉ k.fds ∧ r ≠ w then
        some ({ k with fds := insert w (insert r k.fds) }, some (r, w))
      else none

/-- `CMUTIL_ClosePipe`. The empty stream is `none`. -/
def closePipe : Option ℕ → ProcKernel
  | none => k
  | some fd =>
      if fd ∈ k.fds then { k with fds := k.fds.erase fd }
      else { k with faults := .badClose fd :: k.faults }

@[simp] lemma closePipe_none : k.closePipe none = k := rfl

/-- Both ends of a pipe are closed. -/
def closeBoth : Option (ℕ × ℕ) → ProcKernel
  | none => k
  | some (r, w) => (k.closePipe (some w)).closePipe (some r)

/-- Pipes are closed one after the other. -/
def closeAll (ps : List (Option (ℕ × ℕ))) : ProcKernel := ps.foldl closeBoth k

/-- `fork`, with the number of the child. -/
def fork (pid : ℕ) : Option ProcKernel :=
  if k.children pid = none then
    some { k with children := Function.update k.children pid (some .alive) }
  else none

/-- A child is reaped. -/
def reap (pid : ℕ) : ProcKernel := { k with children := Function.update k.children pid none }

/-- `kill`. -/
def signal (pid : ℕ) : ProcKernel :=
  if k.children pid = none then { k with faults := .badSignal pid :: k.faults } else k

end ProcKernel

/-! ### Processes -/

/-- `CMProcStatus_`. -/
inductive ProcStatus where
  | idle | running | suspended | exited
  deriving DecidableEq

/-- `CMProcStreamType`, a set of three flags. -/
structure ProcStreamType where
  read : Bool
  write : Bool
  readErr : Bool
  deriving DecidableEq

/-- `CMUTIL_Process_Internal`. A process is known by its number. -/
structure Proc where
  streams : ProcStreamType
  pid : ℕ
  pipeFrom : Option ℕ
  pipeTo : Option ℕ
  status : ProcStatus
  inpipe : Option ℕ
  outpipe : Option ℕ
  errpipe : Option ℕ
  reader : Bool
  deriving DecidableEq

/-- `CMUTIL_ProcessCreateInternal`. -/
def procCreate : Proc where
  streams := ⟨false, false, false⟩
  pid := 0
  pipeFrom := none
  pipeTo := none
  status := .idle
  inpipe := none
  outpipe := none
  errpipe := none
  reader := false

/-- The descriptors of a process. -/
def Proc.fds (ip : Proc) : List ℕ := [ip.inpipe, ip.outpipe, ip.errpipe].filterMap id

/-- The child of a process, as long as it is not reaped. -/
def Proc.child (ip : Proc) : List ℕ :=
  match ip.status with
  | .running | .suspended => [ip.pid]
  | .idle | .exited => []

/-- What the system decides when a process is started: the pipes, whether all is prepared for
the child, its number, and whether the command can be run. -/
structure StartFacts where
  pipe1 : Option (ℕ × ℕ)
  pipe2 : Option (ℕ × ℕ)
  pipe3 : Option (ℕ × ℕ)
  pipe4 : Option (ℕ × ℕ)
  prepared : Bool
  child : Option ℕ
  exec : Bool

/-- `CMUTIL_StartSubprocess` with all pipes open, from the preparation of the child on. -/
def startChild (facts : StartFacts) (ip : Proc) (p1 : Option (ℕ × ℕ)) (p2 p3 p4 : ℕ × ℕ)
    (k : ProcKernel) : Option (Bool × Proc × ProcKernel) :=
  match facts.prepared, facts.child with
  | true, some pid =>
      match k.fork pid with
      | none => none
      | some k =>
          let k := k.closeBoth (some p4)
          let ip := { ip with pid := pid }
          if facts.exec then
            let k := k.closePipe (p1.map Prod.fst)
            let ip := { ip with
              inpipe := if ip.streams.write then p1.map Prod.snd else ip.inpipe
              outpipe := some p2.1
              errpipe := some p3.1 }
            some (true, ip, (k.closePipe (some p2.2)).closePipe (some p3.2))
          else some (false, ip, (k.reap pid).closeAll [some p3, some p2, p1])
  | _, _ => some (false, ip, k.closeAll [some p4, some p3, some p2, p1])

/-- `CMUTIL_StartSubprocess`. Without `some` the system cannot decide so. -/
def startSubprocess (facts : StartFacts) (ip : Proc) (k : ProcKernel) :
    Option (Bool × Proc × ProcKernel) :=
  match if ip.streams.write then k.pipe facts.pipe1 else some (k, none) with
  | none => none
  | some (k, p1) =>
      if ip.streams.write ∧ p1 = none then some (false, ip, k)
      else
        match k.pipe facts.pipe2 with
        | none => none
        | some (k, none) => some (false, ip, k.closeAll [p1])
        | some (k, some p2) =>
            match k.pipe facts.pipe3 with
            | none => none
            | some (k, none) => some (false, ip, k.closeAll [some p2, p1])
            | some (k, some p3) =>
                match k.pipe facts.pipe4 with
                | none => none
                | some (k, none) => some (false, ip, k.closeAll [some p3, some p2, p1])
                | some (k, some p4) => startChild facts ip p1 p2 p3 p4 k

/-! ### Opening and closing -/

/-- The descriptors `l` were opened since `k`, the children are `children`, and nothing was done
wrong. -/
structure ProcKernel.Opened (k : ProcKernel) (l : List ℕ) (children : ℕ → Option ProcChild)
    (k' : ProcKernel) : Prop where
  nodup : l.Nodup
  fresh : ∀ fd ∈ l, fd ∉ k.fds
  mem_iff : ∀ fd, fd ∈ k'.fds ↔ fd ∈ l ∨ fd ∈ k.fds
  children_eq : k'.children = children
  faults : k'.faults = k.faults

/-- The ends of a pipe, the one for writing first. -/
def pipeEnds : Option (ℕ × ℕ) → List ℕ
  | none => []
  | some (r, w) => [w, r]

namespace ProcKernel.Opened

variable {k k' k'' : ProcKernel} {l : List ℕ} {children : ℕ → Option ProcChild}

lemma refl (k : ProcKernel) : k.Opened [] k.children k :=
  ⟨List.nodup_nil, by simp, by simp, rfl, rfl⟩

lemma perm (h : k.Opened l children k') {l' : List ℕ} (hl : l.Perm l') :
    k.Opened l' children k' :=
  ⟨hl.nodup_iff.mp h.nodup, fun fd hfd => h.fresh fd (hl.mem_iff.mpr hfd),
    fun fd => by rw [h.mem_iff, hl.mem_iff], h.children_eq, h.faults⟩

/-- A pipe is opened. -/
lemma pipe (h : k.Opened l children k') {facts p : Option (ℕ × ℕ)}
    (hp : k'.pipe facts = some (k'', p)) :
    k.Opened (pipeEnds p ++ l) children k'' := by
  match facts with
  | none =>
      obtain ⟨rfl, rfl⟩ := Prod.mk.inj (Option.some.inj hp)
      exact h
  | some (r, w) =>
      rw [ProcKernel.pipe] at hp
      split_ifs at hp with hfree
      obtain ⟨hr, hw, hne⟩ := hfree
      obtain ⟨rfl, rfl⟩ := Prod.mk.inj (Option.some.inj hp)
      rw [h.mem_iff, not_or] at hr hw
      refine ⟨?_, ?_, fun fd => ?_, h.children_eq, h.faults⟩
      · simp [pipeEnds, h.nodup, hr.1, hw.1, Ne.symm hne]
      · simp only [pipeEnds, List.cons_append, List.nil_append, List.mem_cons]
        rintro fd (rfl | rfl | hfd)
        · exact hw.2
        · exact hr.2
        · exact h.fresh fd hfd
      · simp only [pipeEnds, Finset.mem_insert, h.mem_iff, List.cons_append, List.nil_append,
          List.mem_cons, or_assoc]

/-- A descriptor is closed that was opened. -/
lemma close {fd : ℕ} (h : k.Opened (fd :: l) children k') :
    k.Opened l children (k'.closePipe (some fd)) := by
  have hmem : fd ∈ k'.fds := (h.mem_iff fd).mpr (Or.inl List.mem_cons_self)
  have hne : ∀ fd' ∈ l, fd' ≠ fd := fun fd' hfd' heq =>
    (List.nodup_cons.mp h.nodup).1 (heq ▸ hfd')
  rw [closePipe, if_pos hmem]
  refine ⟨(List.nodup_cons.mp h.nodup).2, fun fd' hfd' => h.fresh fd' (List.mem_cons_of_mem _ hfd'),
    fun fd' => ?_, h.children_eq, h.faults⟩
  rw [Finset.mem_erase, h.mem_iff, List.mem_cons]
  constructor
  · rintro ⟨hfd, (rfl | hl) | hk⟩
    · exact absurd rfl hfd
    · exact Or.inl hl
    · exact Or.inr hk
  · rintro (hl | hk)
    · exact ⟨hne fd' hl, Or.inl (Or.inr hl)⟩
    · refine ⟨?_, Or.inr hk⟩
      rintro rfl
      exact h.fresh fd' List.mem_cons_self hk

/-- A pipe is closed again. -/
lemma closeBoth (p : Option (ℕ × ℕ)) (h : k.Opened (pipeEnds p ++ l) children k') :
    k.Opened l children (k'.closeBoth p) := by
  match p with
  | none => exact h
  | some (r, w) => exact h.close.close

lemma closeAll (ps : List (Option (ℕ × ℕ)))
    (h : k.Opened (ps.flatMap pipeEnds) children k') :
    k.Opened [] children (k'.closeAll ps) := by
  induction ps generalizing k' with
  | nil => exact h
  | cons p ps ih => exact ih (h.closeBoth p)

/-- A descriptor is closed that was opened, wherever it stands in the list. -/
lemma close_middle {fd : ℕ} (l₁ : List ℕ) {l₂ : List ℕ}
    (h : k.Opened (l₁ ++ fd :: l₂) children k') :
    k.Opened (l₁ ++ l₂) children (k'.closePipe (some fd)) :=
  (h.perm List.perm_middle).close

lemma fork (h : k.Opened l children k') {pid : ℕ} (hp : k'.fork pid = some k'') :
    children pid = none ∧
      k.Opened l (Function.update children pid (some .alive)) k'' := by
  rw [ProcKernel.fork] at hp
  split_ifs at hp with hfree
  rw [h.children_eq] at hfree
  rw [← Option.some.inj hp]
  exact ⟨hfree, h.nodup, h.fresh, h.mem_iff, by simp [h.children_eq], h.faults⟩

lemma reap (h : k.Opened l children k') (pid : ℕ) :
    k.Opened l (Function.update children pid none) (k'.reap pid) :=
  ⟨h.nodup, h.fresh, h.mem_iff, by simp [ProcKernel.reap, h.children_eq], h.faults⟩

end ProcKernel.Opened

/-- What `CMUTIL_StartSubprocess` leads to from the kernel `k`: a failure after which the
descriptors and the children are as before, or a process with a new child whose descriptors are
those that were opened and are left. -/
def Started (k : ProcKernel) (ip : Proc) (r : Bool × Proc × ProcKernel) : Prop :=
  ∃ pid inpipe outpipe errpipe,
    r.2.1 = { ip with pid := pid, inpipe := inpipe, outpipe := outpipe, errpipe := errpipe } ∧
    if r.1 then
      k.children pid = none ∧ outpipe ≠ none ∧ errpipe ≠ none ∧
        k.Opened r.2.1.fds (Function.update k.children pid (some .alive)) r.2.2
    else
      inpipe = ip.inpipe ∧ outpipe = ip.outpipe ∧ errpipe = ip.errpipe ∧
        k.Opened [] k.children r.2.2

lemma started_failed {k k' : ProcKernel} {ip : Proc} (h : k.Opened [] k.children k') (pid : ℕ) :
    Started k ip (false, { ip with pid := pid }, k') :=
  ⟨pid, ip.inpipe, ip.outpipe, ip.errpipe, rfl, rfl, rfl, rfl, h⟩

lemma startChild_spec {facts : StartFacts} {ip : Proc} {k k' : ProcKernel} {p1 : Option (ℕ × ℕ)}
    {p2 p3 p4 : ℕ × ℕ} {r : Bool × Proc × ProcKernel} (hin : ip.inpipe = none)
    (hp1 : p1 ≠ none ↔ ip.streams.write = true)
    (hopened : k.Opened ([some p4, some p3, some p2, p1].flatMap pipeEnds) k.children k')
    (h : startChild facts ip p1 p2 p3 p4 k' = some r) : Started k ip r := by
  obtain ⟨r2, w2⟩ := p2
  obtain ⟨r3, w3⟩ := p3
  rw [startChild] at h
  split at h
  · next pid _ _ =>
      split at h
      · exact absurd h (by simp)
      · next k₁ hfork =>
          obtain ⟨hfree, hforked⟩ := hopened.fork hfork
          have hclosed : k.Opened ([w3, r3, w2, r2] ++ pipeEnds p1)
              (Function.update k.children pid (some .alive)) (k₁.closeBoth (some p4)) := by
            simpa [pipeEnds] using ProcKernel.Opened.closeBoth (some p4) hforked
          split_ifs at h with hexec
          · rw [← Option.some.inj h]
            refine ⟨pid, if ip.streams.write then p1.map Prod.snd else ip.inpipe, some r2,
              some r3, rfl, hfree, by simp, by simp, ?_⟩
            match p1 with
            | none =>
                have hwrite : ip.streams.write = false := by simpa using hp1
                have hout := hclosed.close_middle [w3, r3]
                simp only [Option.map_none, ProcKernel.closePipe_none, hwrite, hin]
                exact hout.close.perm (List.Perm.swap _ _ _)
            | some (r1, w1) =>
                have hwrite := hp1.mp (by simp)
                have hin : k.Opened [w3, r3, w2, r2, w1] _ _ :=
                  hclosed.close_middle [w3, r3, w2, r2, w1]
                have hout := hin.close_middle [w3, r3]
                simp only [Option.map_some, hwrite]
                exact hout.close.perm (List.reverse_perm [w1, r2, r3])
          · rw [← Option.some.inj h]
            refine started_failed ?_ pid
            have hreaped := ProcKernel.Opened.closeAll [some (r3, w3), some (r2, w2), p1]
              (by simpa [pipeEnds] using hclosed.reap pid)
            rwa [Function.update_eq_self_iff.mpr hfree.symm] at hreaped
  · rw [← Option.some.inj h]
    exact started_failed (hopened.closeAll _) ip.pid

/-- **What starting a process does.** -/
theorem startSubprocess_spec {facts : StartFacts} {ip : Proc} {k : ProcKernel}
    {r : Bool × Proc × ProcKernel} (hin : ip.inpipe = none)
    (h : startSubprocess facts ip k = some r) : Started k ip r := by
  rw [startSubprocess] at h
  split at h
  · exact absurd h (by simp)
  · next k₁ p1 hpipe1 =>
      have h1 : k.Opened (pipeEnds p1) k.children k₁ := by
        split_ifs at hpipe1
        · simpa using (ProcKernel.Opened.refl k).pipe hpipe1
        · obtain ⟨rfl, rfl⟩ := Prod.mk.inj (Option.some.inj hpipe1)
          exact .refl k
      have hread : ip.streams.write = false → p1 = none := by
        intro hwrite
        rw [hwrite] at hpipe1
        exact (Prod.mk.inj (Option.some.inj hpipe1)).2.symm
      split_ifs at h with hfail
      · rw [← Option.some.inj h]
        rw [hfail.2] at h1
        exact started_failed h1 ip.pid
      · split at h
        · exact absurd h (by simp)
        · next k₂ hpipe2 =>
            rw [← Option.some.inj h]
            refine started_failed (ProcKernel.Opened.closeAll [p1] ?_) ip.pid
            simpa [pipeEnds] using h1.pipe hpipe2
        · next k₂ p2 hpipe2 =>
            have h2 := h1.pipe hpipe2
            split at h
            · exact absurd h (by simp)
            · next k₃ hpipe3 =>
                rw [← Option.some.inj h]
                refine started_failed (ProcKernel.Opened.closeAll [some p2, p1] ?_) ip.pid
                simpa [pipeEnds] using h2.pipe hpipe3
            · next k₃ p3 hpipe3 =>
                have h3 := h2.pipe hpipe3
                split at h
                · exact absurd h (by simp)
                · next k₄ hpipe4 =>
                    rw [← Option.some.inj h]
                    refine started_failed
                      (ProcKernel.Opened.closeAll [some p3, some p2, p1] ?_) ip.pid
                    simpa [pipeEnds] using h3.pipe hpipe4
                · next k₄ p4 hpipe4 =>
                    refine startChild_spec hin ?_ (by simpa using h3.pipe hpipe4) h
                    cases hwrite : ip.streams.write with
                    | false => simp [hread hwrite]
                    | true => simpa [hwrite] using hfail

/-! ### The functions of a process -/

/-- The pipes of a process are closed, and its reader must not run. -/
def closePipes (ip : Proc) (k : ProcKernel) : Proc × ProcKernel :=
  let k := if ip.reader then { k with faults := .readerAlive :: k.faults } else k
  ({ ip with inpipe := none, outpipe := none, errpipe := none },
    ((k.closePipe ip.inpipe).closePipe ip.outpipe).closePipe ip.errpipe)

/-- `CMUTIL_ProcessStart`, where `thread` says whether there is a thread for the reader. -/
def procStart (type : ProcStreamType) (facts : StartFacts) (thread : Bool) (ip : Proc)
    (k : ProcKernel) : Option (Proc × ProcKernel) :=
  if ip.status ≠ .idle ∧ ip.status ≠ .exited then some (ip, k)
  else
    let (ip, k) := closePipes { ip with reader := false } k
    match startSubprocess facts { ip with streams := type } k with
    | none => none
    | some (false, ip, k) => some (ip, k)
    | some (true, ip, k) => some ({ ip with status := .running, reader := thread }, k)

/-- `CMUTIL_ProcessSuspend`. -/
def procSuspend (ip : Proc) (k : ProcKernel) : Proc × ProcKernel :=
  if ip.status ≠ .running then (ip, k)
  else ({ ip with status := .suspended }, k.signal ip.pid)

/-- `CMUTIL_ProcessResume`. -/
def procResume (ip : Proc) (k : ProcKernel) : Proc × ProcKernel :=
  if ip.status ≠ .suspended then (ip, k)
  else ({ ip with status := .running }, k.signal ip.pid)

/-- `CMUTIL_ProcessWait`, at its last look at the child. -/
def procWait (ip : Proc) (k : ProcKernel) : Proc × ProcKernel :=
  if ip.status = .running then
    match k.children ip.pid with
    | some .alive => (ip, k)
    | some .zombie => ({ ip with status := .exited, reader := false }, k.reap ip.pid)
    | none => ({ ip with status := .exited, reader := false }, k)
  else (ip, k)

/-- `CMUTIL_ProcessKill`. The child is reaped, after the second signal at the latest. -/
def procKill (ip : Proc) (k : ProcKernel) : Proc × ProcKernel :=
  ({ ip with status := .exited },
    if ip.status = .running ∨ ip.status = .suspended then (k.signal ip.pid).reap ip.pid else k)

/-- `CMUTIL_ProcessDestroy` without the chain. -/
def procRelease (ip : Proc) (k : ProcKernel) : Proc × ProcKernel :=
  let (ip, k) := if ip.status = .running ∨ ip.status = .suspended then procKill ip k else (ip, k)
  closePipes { ip with reader := false } k

/-! ### All processes -/

/-- The processes by their numbers, the kernel, and the freed processes that were written to. -/
structure ProcWorld where
  procs : ℕ → Option Proc
  kernel : ProcKernel
  stray : List ℕ

namespace ProcWorld

/-- A process and the kernel are changed. -/
def set (s : ProcWorld) (p : ℕ) (r : Proc × ProcKernel) : ProcWorld :=
  { s with procs := Function.update s.procs p (some r.1), kernel := r.2 }

/-- A field of a process is written, by a pointer to the process. -/
def write (s : ProcWorld) (p : ℕ) (f : Proc → Proc) : ProcWorld :=
  match s.procs p with
  | some ip => { s with procs := Function.update s.procs p (some (f ip)) }
  | none => { s with stray := p :: s.stray }

end ProcWorld

/-- A process from which may be read, and one to which may be written. -/
def Proc.isSource (ip : Proc) : Bool :=
  ip.status = .running && ip.streams.read && !ip.streams.readErr

def Proc.isTarget (it : Proc) : Bool :=
  it.status = .running && it.streams.write && !it.streams.readErr

/-- `CMUTIL_ProcessPipeTo`. -/
def procPipeTo (p q : ℕ) (s : ProcWorld) : Option ProcWorld :=
  match s.procs p, s.procs q with
  | some ip, some it =>
      if ip.isSource ∧ it.isTarget then
        some ((s.write q fun it => { it with pipeFrom := some p }).write p
          fun ip => { ip with pipeTo := some q })
      else some s
  | _, _ => none

/-- The part of `CMUTIL_ProcessDestroy` for the chain. -/
def procUnlink (p : ℕ) (s : ProcWorld) : ProcWorld :=
  let s := match (s.procs p).bind Proc.pipeFrom with
    | some q => (s.write q fun it => { it with pipeTo := none }).write p
        fun ip => { ip with pipeFrom := none }
    | none => s
  match (s.procs p).bind Proc.pipeTo with
  | some q => (s.write q fun it => { it with pipeFrom := none }).write p
      fun ip => { ip with pipeTo := none }
  | none => s

/-- `CMUTIL_ProcessDestroy`. -/
def procDestroy (p : ℕ) (s : ProcWorld) : Option ProcWorld :=
  match (procUnlink p s).procs p with
  | none => none
  | some ip =>
      some { procUnlink p s with
        procs := Function.update (procUnlink p s).procs p none
        kernel := (procRelease ip (procUnlink p s).kernel).2 }

/-- A call of the library, or the end of a child. -/
inductive ProcAct where
  | create (p : ℕ)
  | start (p : ℕ) (type : ProcStreamType) (facts : StartFacts) (thread : Bool)
  | suspend (p : ℕ)
  | resume (p : ℕ)
  | pipeTo (p q : ℕ)
  | wait (p : ℕ)
  | kill (p : ℕ)
  | destroy (p : ℕ)
  | childEnds (pid : ℕ)

/-- One step. A call is for a process that is there. -/
def ProcWorld.step (s : ProcWorld) : ProcAct → Option ProcWorld
  | .create p =>
      if s.procs p = none then
        some { s with procs := Function.update s.procs p (some procCreate) }
      else none
  | .start p type facts thread =>
      (s.procs p).bind fun ip => (procStart type facts thread ip s.kernel).map (s.set p)
  | .suspend p => (s.procs p).map fun ip => s.set p (procSuspend ip s.kernel)
  | .resume p => (s.procs p).map fun ip => s.set p (procResume ip s.kernel)
  | .pipeTo p q => procPipeTo p q s
  | .wait p => (s.procs p).map fun ip => s.set p (procWait ip s.kernel)
  | .kill p => (s.procs p).map fun ip => s.set p (procKill ip s.kernel)
  | .destroy p => procDestroy p s
  | .childEnds pid =>
      if s.kernel.children pid = some .alive then
        some { s with kernel := { s.kernel with
          children := Function.update s.kernel.children pid (some .zombie) } }
      else none

/-- No process is there, and nothing is open. -/
def ProcWorld.empty : ProcWorld where
  procs := fun _ => none
  kernel := ⟨∅, fun _ => none, []⟩
  stray := []

/-- The processes under all calls. -/
def procSystem : TransitionSystem ProcWorld ProcAct where
  init := (· = .empty)
  step := ProcWorld.step

end LibCmutils
