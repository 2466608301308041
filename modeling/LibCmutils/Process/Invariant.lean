import LibCmutils.Process.Lifecycle

/-!
What holds of processes in every run (`src/process.c`).

* `ProcKept`: what a function leaves of a process and the kernel. The process exchanges its
  descriptors and its child for others, and nothing is done wrong.
* `ProcInv`: the open descriptors and the children that are not reaped are those of the
  processes, each of one process alone; nothing was done wrong.
* `proc_accounting`: the invariant holds in every state reached.
-/

namespace LibCmutils

/-! ### One process -/

/-- What a function leaves of a process and the kernel. -/
structure ProcKept (ip : Proc) (k : ProcKernel) (r : Proc × ProcKernel) : Prop where
  fds : Exchange ip.fds r.1.fds (· ∈ k.fds) (· ∈ r.2.fds)
  child : Exchange ip.child r.1.child (k.children · ≠ none) (r.2.children · ≠ none)
  faults : r.2.faults = k.faults
  live : r.1.child ≠ [] → r.1.outpipe ≠ none ∧ r.1.errpipe ≠ none

namespace ProcKept

variable {ip : Proc} {k : ProcKernel} {r r' : Proc × ProcKernel}

lemma trans (h : ProcKept ip k r) (h' : ProcKept r.1 r.2 r') : ProcKept ip k r' :=
  ⟨h.fds.trans h'.fds, h.child.trans h'.child, h'.faults.trans h.faults, h'.live⟩

/-- A process and the kernel, when the process holds what is in use. -/
lemma self (h : ProcKept ip k r) : ProcKept r.1 r.2 r :=
  ⟨h.fds.self, h.child.self, rfl, h.live⟩

/-- Other fields are changed. -/
lemma fields (h : ProcKept ip k (ip, k)) {ip' : Proc} (hin : ip'.inpipe = ip.inpipe)
    (hout : ip'.outpipe = ip.outpipe) (herr : ip'.errpipe = ip.errpipe)
    (hchild : ip'.child = ip.child) : ProcKept ip k (ip', k) := by
  have hfds : ip'.fds = ip.fds := by rw [Proc.fds, Proc.fds, hin, hout, herr]
  refine ⟨?_, ?_, rfl, ?_⟩
  · simpa only [hfds] using h.fds
  · simpa only [hchild] using h.child
  · simpa only [hchild, hout, herr] using h.live

end ProcKept

/-- Different descriptors that are open are closed. -/
lemma ProcKernel.closePipe_foldl {l : List ℕ} (hnodup : l.Nodup) :
    ∀ {k : ProcKernel}, (∀ fd ∈ l, fd ∈ k.fds) →
      (∀ fd, fd ∈ (l.foldl (fun k fd => k.closePipe (some fd)) k).fds ↔ fd ∈ k.fds ∧ fd ∉ l) ∧
        (l.foldl (fun k fd => k.closePipe (some fd)) k).children = k.children ∧
        (l.foldl (fun k fd => k.closePipe (some fd)) k).faults = k.faults := by
  induction l with
  | nil => simp
  | cons fd l ih =>
      intro k hopen
      obtain ⟨hfd, hnodup⟩ := List.nodup_cons.mp hnodup
      have hclose : k.closePipe (some fd) = { k with fds := k.fds.erase fd } :=
        if_pos (hopen fd List.mem_cons_self)
      have hrest : ∀ fd' ∈ l, fd' ∈ (k.closePipe (some fd)).fds := by
        intro fd' hfd'
        rw [hclose, Finset.mem_erase]
        exact ⟨fun heq => hfd (heq ▸ hfd'), hopen fd' (List.mem_cons_of_mem _ hfd')⟩
      obtain ⟨hfds, hchildren, hfaults⟩ := ih hnodup hrest
      rw [List.foldl_cons, hchildren, hfaults]
      refine ⟨fun fd' => ?_, by rw [hclose], by rw [hclose]⟩
      rw [hfds, hclose, Finset.mem_erase, List.mem_cons, not_or]
      tauto

/-- The pipes of a process are closed, whose reader does not run. -/
lemma closePipes_kept {ip : Proc} {k : ProcKernel} (h : ProcKept ip k (ip, k))
    (hreader : ip.reader = false) (hchild : ip.child = []) :
    ProcKept ip k (closePipes ip k) := by
  have hclose : (closePipes ip k).2 = ip.fds.foldl (fun k fd => k.closePipe (some fd)) k := by
    rw [closePipes, hreader, Proc.fds]
    rcases ip.inpipe with _ | fd₁ <;> rcases ip.outpipe with _ | fd₂ <;>
      rcases ip.errpipe with _ | fd₃ <;> rfl
  obtain ⟨hfds, hchildren, hfaults⟩ := ProcKernel.closePipe_foldl h.fds.nodup
    (k := k) fun fd hfd => (h.fds.used_iff fd).mpr (Or.inl hfd)
  have hchild' : (closePipes ip k).1.child = ip.child := rfl
  refine ⟨?_, ?_, by rw [hclose, hfaults], fun hne => absurd (hchild'.trans hchild) hne⟩
  · rw [hclose]
    exact .release hfds
  · rw [hchild', hclose, hchildren]
    exact h.child

/-- A child gets a signal. -/
lemma signal_eq {ip : Proc} {k : ProcKernel} (h : ProcKept ip k (ip, k))
    (hpid : ip.pid ∈ ip.child) : k.signal ip.pid = k :=
  if_neg ((h.child.used_iff ip.pid).mpr (Or.inl hpid))

/-- The child is reaped, and the status says so. -/
lemma reap_kept {ip : Proc} {k : ProcKernel} (h : ProcKept ip k (ip, k))
    (hpid : ip.child = [ip.pid]) (reader : Bool) :
    ProcKept ip k ({ ip with status := .exited, reader := reader }, k.reap ip.pid) := by
  refine ⟨h.fds, ?_, rfl, fun hne => absurd rfl hne⟩
  rw [hpid]
  refine .release fun pid => ?_
  by_cases heq : pid = ip.pid
  · simp [ProcKernel.reap, heq]
  · simp [ProcKernel.reap, heq]

/-! ### The functions -/

section Functions

variable {ip : Proc} {k : ProcKernel}

lemma child_of_not_live (h : ¬ (ip.status = .running ∨ ip.status = .suspended)) :
    ip.child = [] := by
  rw [Proc.child]
  split
  · next heq => exact absurd (Or.inl heq) h
  · next heq => exact absurd (Or.inr heq) h
  · rfl
  · rfl

lemma child_of_status {ip' : Proc} (h : ip'.status = ip.status) (hchild : ip.child = []) :
    ip'.child = [] := by
  rw [Proc.child] at hchild ⊢
  rw [h]
  split at hchild
  · exact absurd hchild (by simp)
  · exact absurd hchild (by simp)
  · rfl
  · rfl

lemma procSuspend_kept (h : ProcKept ip k (ip, k)) : ProcKept ip k (procSuspend ip k) := by
  rw [procSuspend]
  split_ifs with hstatus
  · exact h
  · rw [not_not] at hstatus
    rw [signal_eq h (by simp [Proc.child, hstatus])]
    exact h.fields rfl rfl rfl (by simp [Proc.child, hstatus])

lemma procResume_kept (h : ProcKept ip k (ip, k)) : ProcKept ip k (procResume ip k) := by
  rw [procResume]
  split_ifs with hstatus
  · exact h
  · rw [not_not] at hstatus
    rw [signal_eq h (by simp [Proc.child, hstatus])]
    exact h.fields rfl rfl rfl (by simp [Proc.child, hstatus])

lemma procWait_kept (h : ProcKept ip k (ip, k)) : ProcKept ip k (procWait ip k) := by
  rw [procWait]
  split_ifs with hstatus
  · have hpid : ip.child = [ip.pid] := by simp [Proc.child, hstatus]
    split
    · exact h
    · exact reap_kept h hpid false
    · next hnone => exact absurd hnone ((h.child.used_iff ip.pid).mpr (Or.inl (by simp [hpid])))
  · exact h

lemma procKill_kept (h : ProcKept ip k (ip, k)) : ProcKept ip k (procKill ip k) := by
  rw [procKill]
  split_ifs with hstatus
  · have hpid : ip.child = [ip.pid] := by
      rcases hstatus with hstatus | hstatus <;> simp [Proc.child, hstatus]
    rw [signal_eq h (by simp [hpid])]
    exact reap_kept h hpid ip.reader
  · exact h.fields rfl rfl rfl (child_of_not_live hstatus).symm

/-- A process is released: nothing is left of it. -/
lemma procRelease_kept (h : ProcKept ip k (ip, k)) :
    ProcKept ip k (procRelease ip k) ∧ (procRelease ip k).1.fds = [] ∧
      (procRelease ip k).1.child = [] := by
  have key : ∀ r, ProcKept ip k r → r.1.child = [] →
      ProcKept ip k (closePipes { r.1 with reader := false } r.2) := by
    intro r hr hchild
    have hjoined : ProcKept r.1 r.2 ({ r.1 with reader := false }, r.2) :=
      hr.self.fields rfl rfl rfl rfl
    exact (hr.trans hjoined).trans (closePipes_kept hjoined.self rfl hchild)
  rw [procRelease]
  split_ifs with hlive
  · exact ⟨key _ (procKill_kept h) rfl, rfl, rfl⟩
  · exact ⟨key _ h (child_of_not_live hlive), rfl, child_of_not_live hlive⟩

/-- What starting a process leaves, when it holds nothing before. -/
lemma started_kept {r : Bool × Proc × ProcKernel} (h : ProcKept ip k (ip, k)) (hfds : ip.fds = [])
    (hchild : ip.child = []) (hr : Started k ip r) :
    ∀ thread, ProcKept ip k
      (if r.1 then { r.2.1 with status := .running, reader := thread } else r.2.1, r.2.2) := by
  intro thread
  obtain ⟨ok, ip', k'⟩ := r
  obtain ⟨pid, inpipe, outpipe, errpipe, hip, hok⟩ := hr
  simp only at hip hok
  cases ok with
  | false =>
      obtain ⟨rfl, rfl, rfl, hopened⟩ := hok
      have hk : ∀ fd, fd ∈ k'.fds ↔ fd ∈ k.fds := by simpa using hopened.mem_iff
      have hchild' : ip'.child = [] := child_of_status (by rw [hip]) hchild
      have hfds' : ip'.fds = ip.fds := by rw [hip]; rfl
      refine ⟨?_, ?_, hopened.faults, fun hne => absurd hchild' hne⟩
      · simpa only [Bool.false_eq_true, if_false, hk, hfds'] using h.fds
      · simpa only [Bool.false_eq_true, if_false, hopened.children_eq, hchild', hchild]
          using h.child
  | true =>
      obtain ⟨hfree, hout, herr, hopened⟩ := hok
      have hpid : ip'.pid = pid := by rw [hip]
      have hchild' : ({ ip' with status := .running, reader := thread } : Proc).child = [pid] := by
        simp [Proc.child, hpid]
      refine ⟨?_, ?_, hopened.faults, fun _ => ?_⟩
      · rw [hfds]
        exact .take hopened.nodup hopened.fresh hopened.mem_iff
      · simp only [if_true, hchild', hchild, hopened.children_eq]
        refine .take (List.nodup_singleton _) (by simpa using hfree) fun pid' => ?_
        by_cases heq : pid' = pid
        · simp [heq]
        · simp [heq]
      · simp only [if_true, hip]
        exact ⟨hout, herr⟩

/-- A process is started. -/
lemma procStart_kept (h : ProcKept ip k (ip, k)) {type : ProcStreamType} {facts : StartFacts}
    {thread : Bool} {r : Proc × ProcKernel} (hr : procStart type facts thread ip k = some r) :
    ProcKept ip k r := by
  rw [procStart] at hr
  split_ifs at hr with hstatus
  · rw [← Option.some.inj hr]
    exact h
  · have hchild : ip.child = [] := by
      refine child_of_not_live fun hlive => hstatus ?_
      rcases hlive with hlive | hlive <;> simp [hlive]
    have hjoined : ProcKept ip k ({ ip with reader := false }, k) := h.fields rfl rfl rfl rfl
    have hclosed := closePipes_kept hjoined.self rfl hchild
    have hready : ProcKept ip k ({ (closePipes { ip with reader := false } k).1 with
        streams := type }, (closePipes { ip with reader := false } k).2) :=
      (hjoined.trans hclosed).trans (hclosed.self.fields rfl rfl rfl rfl)
    have hstarted : ∀ r', startSubprocess facts { (closePipes { ip with reader := false } k).1 with
        streams := type } (closePipes { ip with reader := false } k).2 = some r' →
        ProcKept ip k (if r'.1 then { r'.2.1 with status := .running, reader := thread }
          else r'.2.1, r'.2.2) := fun r' hr' =>
      hready.trans (started_kept hready.self rfl hchild (startSubprocess_spec rfl hr') thread)
    simp only at hr
    split at hr
    · exact absurd hr (by simp)
    · next ip' k' hr' =>
        rw [← Option.some.inj hr]
        exact hstarted _ hr'
    · next ip' k' hr' =>
        rw [← Option.some.inj hr]
        exact hstarted _ hr'

end Functions

/-! ### All processes -/

/-- The invariant. -/
structure ProcInv (s : ProcWorld) : Prop where
  fds : Owned s.procs Proc.fds (· ∈ s.kernel.fds)
  children : Owned s.procs Proc.child (s.kernel.children · ≠ none)
  faults : s.kernel.faults = []
  live : ∀ p ip, s.procs p = some ip → ip.child ≠ [] → ip.outpipe ≠ none ∧ ip.errpipe ≠ none

namespace ProcInv

variable {s : ProcWorld} {p : ℕ} {ip : Proc} {r : Proc × ProcKernel}

lemma kept (h : ProcInv s) (hip : s.procs p = some ip) :
    ProcKept ip s.kernel (ip, s.kernel) :=
  ⟨h.fds.exchange_refl hip, h.children.exchange_refl hip, rfl, h.live p ip hip⟩

/-- A function is called for a process. -/
lemma set (h : ProcInv s) (hip : s.procs p = some ip) (hr : ProcKept ip s.kernel r) :
    ProcInv (s.set p r) := by
  refine ⟨h.fds.update ?_, h.children.update ?_, hr.faults.trans h.faults, fun q iq hq => ?_⟩
  · rw [hip]
    exact hr.fds
  · rw [hip]
    exact hr.child
  · simp only [ProcWorld.set] at hq
    by_cases hqp : q = p
    · rw [hqp, Function.update_self] at hq
      rw [← Option.some.inj hq]
      exact hr.live
    · rw [Function.update_of_ne hqp] at hq
      exact h.live q iq hq

/-- A field of the chain is written. -/
lemma write (h : ProcInv s) (p : ℕ) {f : Proc → Proc} (hf : ∀ ip, f ip = { ip with
    pipeFrom := (f ip).pipeFrom, pipeTo := (f ip).pipeTo }) : ProcInv (s.write p f) := by
  rw [ProcWorld.write]
  split
  · next ip hip =>
      have hkept : ProcKept ip s.kernel (f ip, s.kernel) :=
        (h.kept hip).fields (by rw [hf]) (by rw [hf]) (by rw [hf]) (by rw [hf]; rfl)
      exact h.set hip hkept
  · exact ⟨h.fds, h.children, h.faults, h.live⟩

lemma unlink (h : ProcInv s) (p : ℕ) : ProcInv (procUnlink p s) := by
  cases hfrom : (s.procs p).bind Proc.pipeFrom with
  | none =>
      simp only [procUnlink, hfrom]
      split
      · exact (h.write _ fun _ => rfl).write _ fun _ => rfl
      · exact h
  | some q =>
      have hcut := (h.write q (f := fun it => { it with pipeTo := none }) fun _ => rfl).write p
        (f := fun ip => { ip with pipeFrom := none }) fun _ => rfl
      simp only [procUnlink, hfrom]
      split
      · exact (hcut.write _ fun _ => rfl).write _ fun _ => rfl
      · exact hcut

lemma destroy (h : ProcInv s) {s' : ProcWorld} (hs : procDestroy p s = some s') : ProcInv s' := by
  rw [procDestroy] at hs
  split at hs
  · exact absurd hs (by simp)
  · next ip hip =>
      have hu := h.unlink p
      obtain ⟨hkept, hfds, hchild⟩ := procRelease_kept (hu.kept hip)
      rw [← Option.some.inj hs]
      refine ⟨hu.fds.update ?_, hu.children.update ?_, hkept.faults.trans hu.faults,
        fun q iq hq => ?_⟩
      · have hx := hkept.fds
        rw [hfds] at hx
        rw [hip]
        exact hx
      · have hx := hkept.child
        rw [hchild] at hx
        rw [hip]
        exact hx
      · simp only at hq
        by_cases hqp : q = p
        · rw [hqp, Function.update_self] at hq
          exact absurd hq (by simp)
        · rw [Function.update_of_ne hqp] at hq
          exact hu.live q iq hq

lemma create (h : ProcInv s) (hp : s.procs p = none) :
    ProcInv { s with procs := Function.update s.procs p (some procCreate) } := by
  refine ⟨h.fds.update ?_, h.children.update ?_, h.faults, fun q iq hq => ?_⟩
  · rw [hp]
    exact .refl List.nodup_nil (by simp)
  · rw [hp]
    exact .refl List.nodup_nil (by simp)
  · simp only at hq
    by_cases hqp : q = p
    · rw [hqp, Function.update_self] at hq
      rw [← Option.some.inj hq]
      exact fun hne => absurd rfl hne
    · rw [Function.update_of_ne hqp] at hq
      exact h.live q iq hq

lemma step (h : ProcInv s) {a : ProcAct} {s' : ProcWorld} (hs : s.step a = some s') :
    ProcInv s' := by
  cases a with
  | create p =>
      simp only [ProcWorld.step] at hs
      split_ifs at hs with hp
      rw [← Option.some.inj hs]
      exact h.create hp
  | start p type facts thread =>
      obtain ⟨ip, hip, hstart⟩ := Option.bind_eq_some_iff.mp hs
      obtain ⟨r, hr, rfl⟩ := Option.map_eq_some_iff.mp hstart
      exact h.set hip (procStart_kept (h.kept hip) hr)
  | suspend p =>
      obtain ⟨ip, hip, rfl⟩ := Option.map_eq_some_iff.mp hs
      exact h.set hip (procSuspend_kept (h.kept hip))
  | resume p =>
      obtain ⟨ip, hip, rfl⟩ := Option.map_eq_some_iff.mp hs
      exact h.set hip (procResume_kept (h.kept hip))
  | pipeTo p q =>
      simp only [ProcWorld.step, procPipeTo] at hs
      split at hs
      · split_ifs at hs
        · rw [← Option.some.inj hs]
          exact (h.write _ fun _ => rfl).write _ fun _ => rfl
        · rwa [← Option.some.inj hs]
      · exact absurd hs (by simp)
  | wait p =>
      obtain ⟨ip, hip, rfl⟩ := Option.map_eq_some_iff.mp hs
      exact h.set hip (procWait_kept (h.kept hip))
  | kill p =>
      obtain ⟨ip, hip, rfl⟩ := Option.map_eq_some_iff.mp hs
      exact h.set hip (procKill_kept (h.kept hip))
  | destroy p => exact h.destroy hs
  | childEnds pid =>
      simp only [ProcWorld.step] at hs
      split_ifs at hs with halive
      rw [← Option.some.inj hs]
      have hused : ∀ pid', Function.update s.kernel.children pid (some .zombie) pid' ≠ none ↔
          s.kernel.children pid' ≠ none := by
        intro pid'
        by_cases heq : pid' = pid
        · simp [heq, halive]
        · simp [heq]
      exact ⟨h.fds, by simpa only [hused] using h.children, h.faults, h.live⟩

end ProcInv

/-- **Every descriptor and every child is accounted for.** After any calls, in any order and with
children that end at any time, the pipes that are open are those of the processes, the children
that are not reaped are those of the processes that run or are suspended, none of them is held
twice, the pipes of a running process are open, and no call has closed a descriptor that was not
open, sent a signal to a process that was no child any more, or closed the pipes below a
reader. -/
theorem proc_accounting (actions : List ProcAct) :
    ProcInv ((procSystem.run .empty actions).getD .empty) := by
  have hstart : procSystem.Reachable .empty := .start rfl
  have hreach := hstart.run_getD actions
  refine hreach.invariant ?_ fun s a s' h hs => h.step hs
  rintro s rfl
  exact ⟨by simpa [ProcWorld.empty] using Owned.empty,
    by simpa [ProcWorld.empty] using Owned.empty, rfl, by simp [ProcWorld.empty]⟩

end LibCmutils
