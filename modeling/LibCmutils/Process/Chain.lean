import LibCmutils.Lib.Mutual
import LibCmutils.Process.Lifecycle

/-!
Chains of processes (`src/process.c`).

* `toOf`, `fromOf`: the process that a process is piped to, and the one from which it is piped.
* `Chained`: the links of a chain lead both ways, and no freed process was written to.
* `JoinsFree`: a step joins two ends that are free, or joined already.
* `proc_chained_iff`: the processes are chained throughout a run exactly when every step joins
  free ends. `CMUTIL_ProcessPipeTo` does not look at the links it overwrites, and a process that
  is left behind writes to a freed one when it is destroyed.
-/

namespace LibCmutils

/-- The process that a process is piped to. -/
def ProcWorld.toOf (s : ProcWorld) (p : ℕ) : Option ℕ := (s.procs p).bind Proc.pipeTo

/-- The process from which a process is piped. -/
def ProcWorld.fromOf (s : ProcWorld) (p : ℕ) : Option ℕ := (s.procs p).bind Proc.pipeFrom

/-- The links lead both ways, and no freed process was written to. -/
structure Chained (s : ProcWorld) : Prop where
  links : Mutual s.toOf s.fromOf
  stray : s.stray = []

/-- The ends that a step joins are free, or joined already. -/
def JoinsFree (s : ProcWorld) : ProcAct → Prop
  | .pipeTo p q =>
      ∀ ip it, s.procs p = some ip → s.procs q = some it → ip.isSource = true →
        it.isTarget = true →
          ip.pipeTo = none ∧ it.pipeFrom = none ∨ ip.pipeTo = some q ∧ it.pipeFrom = some p
  | _ => True

/-! ### Writing a link -/

namespace ProcWorld

variable {s : ProcWorld} {p q : ℕ} {f : Proc → Proc}

lemma write_some {ip : Proc} (h : s.procs p = some ip) (f : Proc → Proc) :
    s.write p f = { s with procs := Function.update s.procs p (some (f ip)) } := by
  rw [write, h]

lemma procs_write_ne_none : (s.write p f).procs q ≠ none ↔ s.procs q ≠ none := by
  cases hp : s.procs p with
  | none => rw [write, hp]
  | some ip =>
      rw [write_some hp]
      by_cases hq : q = p
      · simp [hq, hp]
      · simp [hq]

lemma stray_write (h : s.procs p ≠ none) : (s.write p f).stray = s.stray := by
  obtain ⟨ip, hip⟩ := Option.ne_none_iff_exists'.mp h
  rw [write_some hip]

/-- A field of the process is written: what a link of it was may change. -/
lemma bind_write {g : Proc → Option ℕ} {v : Option ℕ} (hv : ∀ ip, g (f ip) = v)
    (h : s.procs p ≠ none) :
    (fun q => ((s.write p f).procs q).bind g) =
      Function.update (fun q => (s.procs q).bind g) p v := by
  obtain ⟨ip, hip⟩ := Option.ne_none_iff_exists'.mp h
  funext q
  rw [write_some hip]
  by_cases hq : q = p
  · simp [hq, hv]
  · simp [hq]

/-- Another field of the process is written. -/
lemma bind_write_keep {g : Proc → Option ℕ} (hg : ∀ ip, g (f ip) = g ip) :
    (fun q => ((s.write p f).procs q).bind g) = fun q => (s.procs q).bind g := by
  funext q
  cases hp : s.procs p with
  | none => rw [write, hp]
  | some ip =>
      rw [write_some hp]
      by_cases hq : q = p
      · simp [hq, hp, hg]
      · simp [hq]

lemma toOf_ne_none (h : s.toOf p = some q) : s.procs p ≠ none := by
  intro hn
  rw [toOf, hn] at h
  exact absurd h (by simp)

lemma fromOf_ne_none (h : s.fromOf p = some q) : s.procs p ≠ none := by
  intro hn
  rw [fromOf, hn] at h
  exact absurd h (by simp)

/-- Where a process is piped to is written, and where it is piped from. -/
def setTo (s : ProcWorld) (p : ℕ) (v : Option ℕ) : ProcWorld :=
  s.write p fun ip => { ip with pipeTo := v }

def setFrom (s : ProcWorld) (p : ℕ) (v : Option ℕ) : ProcWorld :=
  s.write p fun ip => { ip with pipeFrom := v }

variable {v w : Option ℕ}

lemma toOf_setTo (h : s.procs p ≠ none) : (s.setTo p v).toOf = Function.update s.toOf p v :=
  bind_write (fun _ => rfl) h

lemma fromOf_setFrom (h : s.procs p ≠ none) :
    (s.setFrom p v).fromOf = Function.update s.fromOf p v :=
  bind_write (fun _ => rfl) h

lemma toOf_setFrom : (s.setFrom p v).toOf = s.toOf := bind_write_keep fun _ => rfl

lemma fromOf_setTo : (s.setTo p v).fromOf = s.fromOf := bind_write_keep fun _ => rfl

end ProcWorld

open ProcWorld

/-! ### The functions -/

variable {s : ProcWorld} {p q : ℕ}

/-- A link is taken away, the end behind first. -/
lemma Chained.cut (h : Chained s) (hpq : s.toOf p = some q) :
    Chained ((s.setTo p none).setFrom q none) ∧ Chained ((s.setFrom q none).setTo p none) := by
  have hp := toOf_ne_none hpq
  have hq := fromOf_ne_none ((h.links p q).mp hpq)
  have hq' : (s.setTo p none).procs q ≠ none := procs_write_ne_none.mpr hq
  have hp' : (s.setFrom q none).procs p ≠ none := procs_write_ne_none.mpr hp
  refine ⟨⟨?_, ?_⟩, ⟨?_, ?_⟩⟩
  · rw [toOf_setFrom, toOf_setTo hp, fromOf_setFrom hq', fromOf_setTo]
    exact h.links.cut hpq
  · rw [setFrom, stray_write hq', setTo, stray_write hp, h.stray]
  · rw [toOf_setTo hp', toOf_setFrom, fromOf_setTo, fromOf_setFrom hq]
    exact h.links.cut hpq
  · rw [setTo, stray_write hp', setFrom, stray_write hq, h.stray]

/-- Destroying a process takes it out of its chain. -/
lemma chained_unlink (h : Chained s) (p : ℕ) :
    Chained (procUnlink p s) ∧ (procUnlink p s).toOf p = none ∧
      (procUnlink p s).fromOf p = none := by
  -- first the link to it
  have hfirst : ∃ s₁, Chained s₁ ∧ s₁.fromOf p = none ∧
      (s₁.toOf p = none → procUnlink p s = s₁) ∧
      ∀ q, s₁.toOf p = some q → procUnlink p s = (s₁.setFrom q none).setTo p none := by
    cases hfrom : s.fromOf p with
    | none =>
        have hbind : (s.procs p).bind Proc.pipeFrom = none := hfrom
        refine ⟨s, h, hfrom, fun hto => ?_, fun q hto => ?_⟩
        · simp only [procUnlink, hbind, show (s.procs p).bind Proc.pipeTo = none from hto]
        · simp only [procUnlink, hbind, show (s.procs p).bind Proc.pipeTo = some q from hto]
          rfl
    | some q =>
        have hbind : (s.procs p).bind Proc.pipeFrom = some q := hfrom
        have hto := (h.links q p).mpr hfrom
        have hp : (s.setTo q none).procs p ≠ none := procs_write_ne_none.mpr (fromOf_ne_none hfrom)
        refine ⟨(s.setTo q none).setFrom p none, (h.cut hto).1, ?_, fun hto => ?_, fun r hto => ?_⟩
        · rw [fromOf_setFrom hp, Function.update_self]
        · rw [toOf, setFrom, setTo] at hto
          simp only [procUnlink, hbind, hto]
          rfl
        · rw [toOf, setFrom, setTo] at hto
          simp only [procUnlink, hbind, hto]
          rfl
  obtain ⟨s₁, h₁, hfrom, hnone, hsome⟩ := hfirst
  cases hto : s₁.toOf p with
  | none =>
      rw [hnone hto]
      exact ⟨h₁, hto, hfrom⟩
  | some q =>
      have hp' : (s₁.setFrom q none).procs p ≠ none := procs_write_ne_none.mpr (toOf_ne_none hto)
      rw [hsome q hto]
      refine ⟨(h₁.cut hto).2, ?_, ?_⟩
      · simp only [toOf_setTo hp', Function.update_self]
      · simp only [fromOf_setTo, fromOf_setFrom (fromOf_ne_none ((h₁.links p q).mp hto))]
        by_cases hq : p = q
        · simp [hq]
        · rw [Function.update_of_ne hq, hfrom]

/-- A function that leaves the links of its process alone. -/
lemma Chained.set (h : Chained s) {ip : Proc} (hip : s.procs p = some ip)
    {r : Proc × ProcKernel} (hto : r.1.pipeTo = ip.pipeTo) (hfrom : r.1.pipeFrom = ip.pipeFrom) :
    Chained (s.set p r) := by
  have hlinks : (s.set p r).toOf = s.toOf ∧ (s.set p r).fromOf = s.fromOf := by
    constructor
    · funext q
      by_cases hq : q = p
      · simp [toOf, ProcWorld.set, hq, hip, hto]
      · simp [toOf, ProcWorld.set, hq]
    · funext q
      by_cases hq : q = p
      · simp [fromOf, ProcWorld.set, hq, hip, hfrom]
      · simp [fromOf, ProcWorld.set, hq]
  refine ⟨?_, h.stray⟩
  rw [hlinks.1, hlinks.2]
  exact h.links

lemma procStart_links {type : ProcStreamType} {facts : StartFacts} {thread : Bool} {ip : Proc}
    {k : ProcKernel} {r : Proc × ProcKernel} (h : procStart type facts thread ip k = some r) :
    r.1.pipeTo = ip.pipeTo ∧ r.1.pipeFrom = ip.pipeFrom := by
  rw [procStart] at h
  split_ifs at h
  · rw [← Option.some.inj h]
    exact ⟨rfl, rfl⟩
  · simp only at h
    split at h
    · exact absurd h (by simp)
    · next hstart =>
        obtain ⟨_, _, _, _, hip, -⟩ := startSubprocess_spec rfl hstart
        rw [← Option.some.inj h]
        simp only at hip ⊢
        rw [hip]
        exact ⟨rfl, rfl⟩
    · next hstart =>
        obtain ⟨_, _, _, _, hip, -⟩ := startSubprocess_spec rfl hstart
        rw [← Option.some.inj h]
        simp only at hip ⊢
        rw [hip]
        exact ⟨rfl, rfl⟩

lemma procSuspend_links (ip : Proc) (k : ProcKernel) :
    (procSuspend ip k).1.pipeTo = ip.pipeTo ∧ (procSuspend ip k).1.pipeFrom = ip.pipeFrom := by
  rw [procSuspend]
  split_ifs <;> exact ⟨rfl, rfl⟩

lemma procResume_links (ip : Proc) (k : ProcKernel) :
    (procResume ip k).1.pipeTo = ip.pipeTo ∧ (procResume ip k).1.pipeFrom = ip.pipeFrom := by
  rw [procResume]
  split_ifs <;> exact ⟨rfl, rfl⟩

lemma procWait_links (ip : Proc) (k : ProcKernel) :
    (procWait ip k).1.pipeTo = ip.pipeTo ∧ (procWait ip k).1.pipeFrom = ip.pipeFrom := by
  rw [procWait]
  split_ifs
  · split <;> exact ⟨rfl, rfl⟩
  · exact ⟨rfl, rfl⟩

/-- The step for `CMUTIL_ProcessPipeTo` between a source and a target. -/
lemma procPipeTo_links {ip it : Proc} (hip : s.procs p = some ip) (hit : s.procs q = some it)
    (hsource : ip.isSource = true) (htarget : it.isTarget = true) {s' : ProcWorld}
    (hs : procPipeTo p q s = some s') :
    s'.toOf = Function.update s.toOf p (some q) ∧
      s'.fromOf = Function.update s.fromOf q (some p) ∧ s'.stray = s.stray := by
  have hp : s.procs p ≠ none := by simp [hip]
  have hq : s.procs q ≠ none := by simp [hit]
  have hp' : (s.setFrom q (some p)).procs p ≠ none := procs_write_ne_none.mpr hp
  rw [procPipeTo, hip, hit] at hs
  simp only [hsource, htarget, and_self, if_true] at hs
  have hs' : (s.setFrom q (some p)).setTo p (some q) = s' := Option.some.inj hs
  rw [← hs', toOf_setTo hp', toOf_setFrom, fromOf_setTo, fromOf_setFrom hq, setTo,
    stray_write hp', setFrom, stray_write hq]
  exact ⟨rfl, rfl, rfl⟩

/-- The step changes nothing, or joins a source and a target. -/
lemma procPipeTo_cases {s' : ProcWorld} (hs : procPipeTo p q s = some s') :
    ∃ ip it, s.procs p = some ip ∧ s.procs q = some it ∧
      (s' = s ∧ ¬ (ip.isSource = true ∧ it.isTarget = true) ∨
        ip.isSource = true ∧ it.isTarget = true ∧
          s'.toOf = Function.update s.toOf p (some q) ∧
          s'.fromOf = Function.update s.fromOf q (some p) ∧ s'.stray = s.stray) := by
  have hs₀ := hs
  rw [procPipeTo] at hs
  split at hs
  · next ip it hip hit =>
      refine ⟨ip, it, hip, hit, ?_⟩
      split_ifs at hs with hsuits
      · exact Or.inr ⟨hsuits.1, hsuits.2, procPipeTo_links hip hit hsuits.1 hsuits.2 hs₀⟩
      · exact Or.inl ⟨(Option.some.inj hs).symm, hsuits⟩
  · exact absurd hs (by simp)

/-! ### Runs -/

lemma Chained.create (h : Chained s) (hp : s.procs p = none) :
    Chained { s with procs := Function.update s.procs p (some procCreate) } := by
  have hto : ∀ g : Proc → Option ℕ, g procCreate = none →
      (fun q => (Function.update s.procs p (some procCreate) q).bind g)
        = fun q => (s.procs q).bind g := by
    intro g hg
    funext q
    by_cases hq : q = p
    · simp [hq, hp, hg]
    · simp [hq]
  exact ⟨by simpa only [Mutual, toOf, fromOf, funext_iff.mp (hto Proc.pipeTo rfl) _,
    funext_iff.mp (hto Proc.pipeFrom rfl) _] using h.links, h.stray⟩

lemma Chained.destroy (h : Chained s) {s' : ProcWorld} (hs : procDestroy p s = some s') :
    Chained s' := by
  obtain ⟨hu, hto, hfrom⟩ := chained_unlink h p
  rw [procDestroy] at hs
  split at hs
  · exact absurd hs (by simp)
  · have hlinks : ∀ g : Proc → Option ℕ, ((procUnlink p s).procs p).bind g = none →
        (fun q => (Function.update (procUnlink p s).procs p none q).bind g)
          = fun q => ((procUnlink p s).procs q).bind g := by
      intro g hg
      funext q
      by_cases hq : q = p
      · simp [hq, hg]
      · simp [hq]
    rw [← Option.some.inj hs]
    exact ⟨by simpa only [Mutual, toOf, fromOf, funext_iff.mp (hlinks Proc.pipeTo hto) _,
      funext_iff.mp (hlinks Proc.pipeFrom hfrom) _] using hu.links, hu.stray⟩

/-- A step that joins free ends keeps the processes chained. -/
lemma Chained.step (h : Chained s) {a : ProcAct} (ha : JoinsFree s a) {s' : ProcWorld}
    (hs : s.step a = some s') : Chained s' := by
  cases a with
  | create p =>
      simp only [ProcWorld.step] at hs
      split_ifs at hs with hp
      rw [← Option.some.inj hs]
      exact h.create hp
  | start p type facts thread =>
      obtain ⟨ip, hip, hstart⟩ := Option.bind_eq_some_iff.mp hs
      obtain ⟨r, hr, rfl⟩ := Option.map_eq_some_iff.mp hstart
      exact h.set hip (procStart_links hr).1 (procStart_links hr).2
  | suspend p =>
      obtain ⟨ip, hip, rfl⟩ := Option.map_eq_some_iff.mp hs
      exact h.set hip (procSuspend_links ip _).1 (procSuspend_links ip _).2
  | resume p =>
      obtain ⟨ip, hip, rfl⟩ := Option.map_eq_some_iff.mp hs
      exact h.set hip (procResume_links ip _).1 (procResume_links ip _).2
  | pipeTo p q =>
      obtain ⟨ip, it, hip, hit, ⟨rfl, -⟩ | ⟨hsource, htarget, hto, hfrom, hstray⟩⟩ :=
        procPipeTo_cases hs
      · exact h
      · have htoOf : s.toOf p = ip.pipeTo := by rw [toOf, hip]; rfl
        have hfromOf : s.fromOf q = it.pipeFrom := by rw [fromOf, hit]; rfl
        refine ⟨?_, hstray.trans h.stray⟩
        rw [hto, hfrom]
        rcases ha ip it hip hit hsource htarget with ⟨hfree, hfree'⟩ | ⟨hjoined, hjoined'⟩
        · exact h.links.join (htoOf.trans hfree) (hfromOf.trans hfree')
        · rw [Function.update_eq_self_iff.mpr (htoOf.trans hjoined).symm,
            Function.update_eq_self_iff.mpr (hfromOf.trans hjoined').symm]
          exact h.links
  | wait p =>
      obtain ⟨ip, hip, rfl⟩ := Option.map_eq_some_iff.mp hs
      exact h.set hip (procWait_links ip _).1 (procWait_links ip _).2
  | kill p =>
      obtain ⟨ip, hip, rfl⟩ := Option.map_eq_some_iff.mp hs
      exact h.set hip rfl rfl
  | destroy p => exact h.destroy hs
  | childEnds pid =>
      simp only [ProcWorld.step] at hs
      split_ifs at hs
      rw [← Option.some.inj hs]
      exact ⟨h.links, h.stray⟩

/-- A step that leaves the processes chained joins free ends. -/
lemma Chained.joinsFree (h : Chained s) {a : ProcAct} {s' : ProcWorld} (hs : s.step a = some s')
    (h' : Chained s') : JoinsFree s a := by
  cases a with
  | pipeTo p q =>
      intro ip it hip hit hsource htarget
      obtain ⟨hto, hfrom, -⟩ := procPipeTo_links hip hit hsource htarget hs
      have hlinks := h'.links
      rw [hto, hfrom] at hlinks
      have htoOf : s.toOf p = ip.pipeTo := by rw [toOf, hip]; rfl
      have hfromOf : s.fromOf q = it.pipeFrom := by rw [fromOf, hit]; rfl
      rw [← htoOf, ← hfromOf]
      exact h.links.free_or_joined hlinks
  | create | start | suspend | resume | wait | kill | destroy | childEnds => trivial

lemma chained_empty : Chained .empty := ⟨fun p q => by simp [toOf, fromOf, ProcWorld.empty], rfl⟩

/-- **A chain stays in order as long as free ends are joined.** In every run the links of the
processes lead both ways, to processes that are there, and no freed process is written to, if and
only if every step joins ends that are free or joined already. -/
theorem proc_chained_iff {actions : List ProcAct} {s : ProcWorld}
    (hrun : procSystem.run .empty actions = some s) :
    procSystem.Throughout Chained .empty actions ↔ procSystem.Meets JoinsFree .empty actions := by
  have hgood : ∀ s, procSystem.ReachableBy JoinsFree s → Chained s := fun s hs =>
    hs.invariant (fun _ hinit => hinit ▸ chained_empty) fun s a s' h ha hs => h.step ha hs
  exact TransitionSystem.throughout_iff_meets rfl hgood
    (fun s a s' hs hstep ha h' => ha ((hgood s hs).joinsFree hstep h')) hrun

/-- Two processes are started, the first one is piped to the second one, which is destroyed. -/
def pipedRun : List ProcAct :=
  [.create 0, .create 1,
    .start 0 ⟨true, false, false⟩ ⟨none, some (3, 4), some (5, 6), some (7, 8), true, some 100,
      true⟩ true,
    .start 1 ⟨false, true, false⟩ ⟨some (4, 6), some (7, 8), some (9, 10), some (11, 12), true,
      some 101, true⟩ true,
    .pipeTo 0 1, .destroy 1]

theorem proc_chained_iff_piped :
    procSystem.Throughout Chained .empty pipedRun ↔
      procSystem.Meets JoinsFree .empty pipedRun := by
  have hrun : (procSystem.run .empty pipedRun).isSome = true := by decide
  obtain ⟨s, hs⟩ := Option.isSome_iff_exists.mp hrun
  exact proc_chained_iff hs

end LibCmutils
