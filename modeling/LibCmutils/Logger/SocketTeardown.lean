import Mathlib.Data.List.Perm.Basic
import LibCmutils.Logger.Release

/-!
The socket appender and its teardown (`src/logger.c`).

* `socketWrite`: `Write` of a line to all clients, which closes those it fails for.
* `SocketAppender`: the clients, the mutex, the acceptor thread, the writer thread and
  `Destroy`. A client socket is its number, in the order of their arrival.
* `socketSystem`: these and threads that log before `Destroy`, interleaved.
* `SocketInv`: what holds in all runs: a client that arrived is in the hand of the acceptor, in
  the array, or closed, and the stages of `Destroy` come in their order.
* `SocketAppender.Caught`: the acceptor has a client to add and there is no mutex any more.

The main result is `socketTeardown_iff`.

`Write` and `Flush` hold the mutex, so each is one step. Of the lines that an asynchronous
appender holds back only the number is kept. Memory that is asked for is there, and `Accept` on
a listener that was closed returns no client.
-/

namespace LibCmutils

/-! ### Writing to the clients -/

/-- The loop of `CMUTIL_LogSocketAppenderWrite` from index `i` on: the clients that are left,
and those it closes. `fails` are the clients that `Write` fails for. -/
def socketWriteLoop (fails : ℕ → Bool) (clients : List ℕ) (i : ℕ) : List ℕ × List ℕ :=
  if h : i < clients.length % 2 ^ 32 then
    have hlt : i < clients.length := h.trans_le (Nat.mod_le _ _)
    if fails clients[i] then
      -- `i--` and `i++` cancel out
      let r := socketWriteLoop fails (clients.eraseIdx i) i
      (r.1, clients[i] :: r.2)
    else socketWriteLoop fails clients (i + 1)
  else (clients, [])
termination_by clients.length - i
decreasing_by
  · rw [List.length_eraseIdx_of_lt hlt]
    omega
  · omega

/-- `CMUTIL_LogSocketAppenderWrite`. -/
def socketWrite (fails : ℕ → Bool) (clients : List ℕ) : List ℕ × List ℕ :=
  socketWriteLoop fails clients 0

open List in
/-- A client stays, or is closed. -/
lemma socketWriteLoop_perm (fails : ℕ → Bool) (clients : List ℕ) (i : ℕ) :
    (socketWriteLoop fails clients i).1 ++ (socketWriteLoop fails clients i).2 ~ clients := by
  fun_induction socketWriteLoop fails clients i with
  | case1 clients i h hlt hfails r ih =>
      calc
        r.1 ++ clients[i] :: r.2
        _ ~ clients[i] :: (r.1 ++ r.2) := List.perm_middle
        _ ~ clients[i] :: clients.eraseIdx i := ih.cons _
        _ ~ clients := List.getElem_cons_eraseIdx_perm hlt
  | case2 clients i h hlt hfails ih => exact ih
  | case3 clients i h => rw [List.append_nil]

/-! ### The appender and its threads -/

/-- The mutex of the appender. Outside of a step only the acceptor holds it. -/
inductive SocketMutex where
  | free
  | held
  | destroyed
  deriving DecidableEq

/-- A place in `CMUTIL_LogSocketAppenderAcceptor`. -/
inductive AcceptorPc where
  /-- Before the test of `isrunning`. -/
  | test
  /-- In `Accept`. -/
  | accept
  /-- With a client to add. -/
  | lock (cli : ℕ)
  | add (cli : ℕ)
  | unlock
  | done
  deriving DecidableEq

/-- The client that the acceptor has yet to add. -/
def AcceptorPc.hand : AcceptorPc → List ℕ
  | lock cli | add cli => [cli]
  | test | accept | unlock | done => []

/-- The acceptor is going to use the mutex. -/
def AcceptorPc.busy : AcceptorPc → Bool
  | lock _ | add _ | unlock => true
  | test | accept | done => false

/-- A place in `CMUTIL_LogSocketAppenderDestroy`, those up to `destroyMutex` in
`CMUTIL_LogAppenderBaseClean`. -/
inductive SocketDestroyPc where
  /-- Before `Destroy`. -/
  | calls
  | check
  | flush
  | clearAsync
  | joinWriter
  | destroyMutex
  | closeListener
  | joinAcceptor
  | destroyClients
  | done
  deriving DecidableEq

/-- A socket appender and its threads. `clients` is the array of clients, until it is destroyed;
`accepted` counts the clients that `Accept` returned, and `closed` lists the calls of `Close`.
`fault`: the mutex or the array was used after it was destroyed. -/
structure SocketAppender where
  isrunning : Bool
  isasync : Bool
  buffered : ℕ
  mutex : SocketMutex
  listening : Bool
  clients : Option (List ℕ)
  accepted : ℕ
  closed : List ℕ
  acceptor : AcceptorPc
  writer : AsyncWriterPc
  destroyer : SocketDestroyPc
  fault : Bool

/-- A step. `fails` are the clients that `Write` fails for, and `ok` is the outcome of
`Accept`. -/
inductive SocketAction where
  | append (fails : ℕ → Bool)
  | flush (fails : ℕ → Bool)
  | writer (fails : ℕ → Bool)
  | acceptor (ok : Bool)
  | destroy (fails : ℕ → Bool)

namespace SocketAppender

/-- `Write`. -/
def write (fails : ℕ → Bool) (s : SocketAppender) : SocketAppender :=
  match s.clients with
  | none => { s with fault := true }
  | some clients =>
      { s with
        clients := some (socketWrite fails clients).1
        closed := s.closed ++ (socketWrite fails clients).2 }

/-- The section of `Flush`. -/
def flush (fails : ℕ → Bool) (s : SocketAppender) : SocketAppender :=
  if s.buffered = 0 then s else write fails { s with buffered := 0 }

/-- The section of `Append` in an asynchronous appender. -/
def queue (buffersz : ℕ) (fails : ℕ → Bool) (s : SocketAppender) : SocketAppender :=
  let s := { s with buffered := s.buffered + 1 }
  if buffersz ≤ s.buffered then s.flush fails else s

/-- A section that holds the mutex. -/
def locked (s : SocketAppender) (f : SocketAppender → SocketAppender) : Option SocketAppender :=
  match s.mutex with
  | .free => some (f s)
  | .held => none
  | .destroyed => some { s with fault := true }

/-- A step of the writer thread. -/
def writerStep (s : SocketAppender) (fails : ℕ → Bool) : Option SocketAppender :=
  match s.writer with
  | .test => some { s with writer := if s.isasync then .flush else .last }
  | .flush => s.locked fun s => { s.flush fails with writer := .test }
  | .last => s.locked fun s => { s.flush fails with writer := .done }
  | .done => none

/-- A step of the acceptor thread. -/
def acceptorStep (s : SocketAppender) (ok : Bool) : Option SocketAppender :=
  match s.acceptor with
  | .test => some { s with acceptor := if s.isrunning then .accept else .done }
  | .accept =>
      if ok ∧ s.listening then
        some { s with acceptor := .lock s.accepted, accepted := s.accepted + 1 }
      else some { s with acceptor := .test }
  | .lock cli => s.locked fun s => { s with mutex := .held, acceptor := .add cli }
  | .add cli =>
      match s.clients with
      | none => some { s with fault := true }
      | some clients => some { s with clients := some (clients ++ [cli]), acceptor := .unlock }
  | .unlock =>
      if s.mutex = .destroyed then some { s with fault := true }
      else some { s with mutex := .free, acceptor := .test }
  | .done => none

/-- A step of `Destroy`. The array closes its clients when it is destroyed. -/
def destroyStep (s : SocketAppender) (fails : ℕ → Bool) : Option SocketAppender :=
  match s.destroyer with
  | .calls => some { s with isrunning := false, destroyer := .check }
  | .check => some { s with destroyer := if s.buffered = 0 then .clearAsync else .flush }
  | .flush => s.locked fun s => { s.flush fails with destroyer := .clearAsync }
  | .clearAsync => some { s with isasync := false, destroyer := .joinWriter }
  | .joinWriter => if s.writer = .done then some { s with destroyer := .destroyMutex } else none
  | .destroyMutex => some { s with mutex := .destroyed, destroyer := .closeListener }
  | .closeListener => some { s with listening := false, destroyer := .joinAcceptor }
  | .joinAcceptor =>
      if s.acceptor = .done then some { s with destroyer := .destroyClients } else none
  | .destroyClients =>
      some { s with
        clients := none
        closed := s.closed ++ s.clients.getD []
        destroyer := .done }
  | .done => none

/-- A step. Lines are logged before `Destroy`; only an asynchronous appender has lists that
`Flush` can work on. There is no step after a fault. -/
def step (buffersz : ℕ) (s : SocketAppender) (a : SocketAction) : Option SocketAppender :=
  if s.fault then none
  else
    match a with
    | .append fails =>
        if s.destroyer = .calls then
          s.locked (if s.isasync then queue buffersz fails else write fails)
        else none
    | .flush fails =>
        if s.destroyer = .calls ∧ s.isasync then s.locked (flush fails) else none
    | .writer fails => s.writerStep fails
    | .acceptor ok => s.acceptorStep ok
    | .destroy fails => s.destroyStep fails

end SocketAppender

/-- A new appender, synchronous or not. -/
def socketStart (isasync : Bool) : SocketAppender where
  isrunning := true
  isasync := isasync
  buffered := 0
  mutex := .free
  listening := true
  clients := some []
  accepted := 0
  closed := []
  acceptor := .test
  writer := if isasync then .test else .done
  destroyer := .calls
  fault := false

/-- An appender with its threads. -/
def socketSystem (isasync : Bool) (buffersz : ℕ) :
    TransitionSystem SocketAppender SocketAction where
  init s := s = socketStart isasync
  step := SocketAppender.step buffersz

/-! ### What a step does -/

section Steps

variable {s s' : SocketAppender} {a : SocketAction} {buffersz : ℕ} {fails : ℕ → Bool}

open List in
/-- What `Write` and `Flush` do: each client stays, or is closed. -/
inductive SocketWritten (s : SocketAppender) : SocketAppender → Prop where
  | intro (buffered : ℕ) (before clients closed : List ℕ) : s.clients = some before →
      clients ++ closed ~ before ++ s.closed →
      SocketWritten s { s with buffered := buffered, clients := some clients, closed := closed }

namespace SocketAppender

open List in
lemma written_write (h : s.clients ≠ none) (buffered : ℕ) :
    SocketWritten s (write fails { s with buffered := buffered }) := by
  obtain ⟨before, hbefore⟩ := Option.ne_none_iff_exists'.mp h
  have hwrite : write fails { s with buffered := buffered } =
      { s with
        buffered := buffered
        clients := some (socketWrite fails before).1
        closed := s.closed ++ (socketWrite fails before).2 } := by
    simp only [write, hbefore]
  rw [hwrite]
  refine .intro buffered before _ _ hbefore ?_
  calc
    (socketWrite fails before).1 ++ (s.closed ++ (socketWrite fails before).2)
    _ ~ (socketWrite fails before).1 ++ ((socketWrite fails before).2 ++ s.closed) :=
      List.perm_append_comm.append_left _
    _ = ((socketWrite fails before).1 ++ (socketWrite fails before).2) ++ s.closed :=
      (List.append_assoc ..).symm
    _ ~ before ++ s.closed := (socketWriteLoop_perm fails before 0).append_right _

lemma written_self (h : s.clients ≠ none) (buffered : ℕ) :
    SocketWritten s { s with buffered := buffered } := by
  obtain ⟨before, hbefore⟩ := Option.ne_none_iff_exists'.mp h
  have hself : { s with buffered := buffered } =
      { s with buffered := buffered, clients := some before, closed := s.closed } := by
    rw [← hbefore]
  rw [hself]
  exact .intro buffered before _ _ hbefore (.refl _)

lemma written_flush (h : s.clients ≠ none) : SocketWritten s (s.flush fails) := by
  rw [flush]
  split
  · exact written_self h s.buffered
  · exact written_write h 0

lemma written_queue (h : s.clients ≠ none) : SocketWritten s (s.queue buffersz fails) := by
  simp only [queue, flush]
  split
  · rw [if_neg (Nat.succ_ne_zero _)]
    exact written_write h 0
  · exact written_self h (s.buffered + 1)

end SocketAppender

/-! ### The stages of `Destroy` -/

namespace SocketDestroyPc

/-- The writer thread has returned. -/
def writerGone : SocketDestroyPc → Bool
  | calls | check | flush | clearAsync | joinWriter => false
  | destroyMutex | closeListener | joinAcceptor | destroyClients | done => true

/-- The mutex is destroyed. -/
def mutexGone : SocketDestroyPc → Bool
  | calls | check | flush | clearAsync | joinWriter | destroyMutex => false
  | closeListener | joinAcceptor | destroyClients | done => true

/-- The acceptor thread has returned. -/
def acceptorGone : SocketDestroyPc → Bool
  | calls | check | flush | clearAsync | joinWriter | destroyMutex | closeListener
  | joinAcceptor => false
  | destroyClients | done => true

end SocketDestroyPc

namespace SocketAppender

/-- The acceptor is going to use the mutex that was destroyed. -/
def Caught (s : SocketAppender) : Prop := s.mutex = .destroyed ∧ s.acceptor.busy = true

open List in
/-- What holds in all runs. -/
structure SocketInv (s : SocketAppender) : Prop where
  writer : s.destroyer.writerGone = true → s.writer = .done
  mutex : s.mutex = .destroyed ↔ s.destroyer.mutexGone = true
  acceptor : s.destroyer.acceptorGone = true → s.acceptor = .done
  clients : s.clients = none ↔ s.destroyer = .done
  held : s.mutex = .held → s.acceptor = .unlock ∨ ∃ cli, s.acceptor = .add cli
  balance : s.acceptor.hand ++ (s.clients.getD [] ++ s.closed) ~ List.range s.accepted
  fault : s.fault = true → s.Caught

end SocketAppender

/-- What a step does, in a state that meets the invariant. -/
inductive SocketStep (s : SocketAppender) : SocketAction → SocketAppender → Prop where
  | append {t : SocketAppender} (fails : ℕ → Bool) : s.destroyer = .calls →
      SocketWritten s t → SocketStep s (.append fails) t
  | flush {t : SocketAppender} (fails : ℕ → Bool) : s.destroyer = .calls →
      SocketWritten s t → SocketStep s (.flush fails) t
  | writerTest (fails : ℕ → Bool) : s.writer = .test →
      SocketStep s (.writer fails) { s with writer := if s.isasync then .flush else .last }
  | writerFlush {t : SocketAppender} (fails : ℕ → Bool) (pc : AsyncWriterPc) : s.writer ≠ .done →
      SocketWritten s t → SocketStep s (.writer fails) { t with writer := pc }
  | test (ok : Bool) : s.acceptor = .test →
      SocketStep s (.acceptor ok) { s with acceptor := if s.isrunning then .accept else .done }
  | accept : s.acceptor = .accept → s.listening = true → SocketStep s (.acceptor true)
      { s with acceptor := .lock s.accepted, accepted := s.accepted + 1 }
  | reject (ok : Bool) : s.acceptor = .accept → ¬ (ok = true ∧ s.listening = true) →
      SocketStep s (.acceptor ok) { s with acceptor := .test }
  | lock (ok : Bool) (cli : ℕ) : s.acceptor = .lock cli → s.mutex = .free →
      SocketStep s (.acceptor ok) { s with mutex := .held, acceptor := .add cli }
  | add (ok : Bool) (cli : ℕ) (clients : List ℕ) : s.acceptor = .add cli →
      s.clients = some clients → SocketStep s (.acceptor ok)
        { s with clients := some (clients ++ [cli]), acceptor := .unlock }
  | unlock (ok : Bool) : s.acceptor = .unlock → s.mutex ≠ .destroyed →
      SocketStep s (.acceptor ok) { s with mutex := .free, acceptor := .test }
  | caught (ok : Bool) : s.Caught → SocketStep s (.acceptor ok) { s with fault := true }
  | destroy (fails : ℕ → Bool) : s.destroyer = .calls → SocketStep s (.destroy fails)
      { s with isrunning := false, destroyer := .check }
  | check (fails : ℕ → Bool) : s.destroyer = .check → SocketStep s (.destroy fails)
      { s with destroyer := if s.buffered = 0 then .clearAsync else .flush }
  | destroyFlush {t : SocketAppender} (fails : ℕ → Bool) : s.destroyer = .flush →
      SocketWritten s t → SocketStep s (.destroy fails) { t with destroyer := .clearAsync }
  | clearAsync (fails : ℕ → Bool) : s.destroyer = .clearAsync → SocketStep s (.destroy fails)
      { s with isasync := false, destroyer := .joinWriter }
  | joinWriter (fails : ℕ → Bool) : s.destroyer = .joinWriter → s.writer = .done →
      SocketStep s (.destroy fails) { s with destroyer := .destroyMutex }
  | destroyMutex (fails : ℕ → Bool) : s.destroyer = .destroyMutex → SocketStep s (.destroy fails)
      { s with mutex := .destroyed, destroyer := .closeListener }
  | closeListener (fails : ℕ → Bool) : s.destroyer = .closeListener →
      SocketStep s (.destroy fails) { s with listening := false, destroyer := .joinAcceptor }
  | joinAcceptor (fails : ℕ → Bool) : s.destroyer = .joinAcceptor → s.acceptor = .done →
      SocketStep s (.destroy fails) { s with destroyer := .destroyClients }
  | destroyClients (fails : ℕ → Bool) (clients : List ℕ) : s.destroyer = .destroyClients →
      s.clients = some clients → SocketStep s (.destroy fails)
        { s with clients := none, closed := s.closed ++ clients, destroyer := .done }

namespace SocketAppender

/-- A section with the mutex, before it is destroyed. -/
lemma locked_eq {f : SocketAppender → SocketAppender} (h : s.mutex ≠ .destroyed)
    (hs : s.locked f = some s') : s' = f s := by
  rw [locked] at hs
  split at hs
  case h_1 => exact (Option.some.inj hs).symm
  case h_2 => cases hs
  case h_3 hgone => exact absurd hgone h

/-- Before the mutex is destroyed, it and the array are there. -/
lemma SocketInv.alive (hi : s.SocketInv) (h : s.destroyer.mutexGone = false) :
    s.mutex ≠ .destroyed ∧ s.clients ≠ none := by
  constructor
  · intro hgone
    rw [hi.mutex.mp hgone] at h
    cases h
  · intro hnone
    rw [hi.clients.mp hnone] at h
    cases h

lemma mutexGone_of_writerGone {pc : SocketDestroyPc} (h : pc.writerGone = false) :
    pc.mutexGone = false := by
  cases pc <;> first | rfl | cases h

/-- While the writer thread runs, the mutex and the array are there. -/
lemma SocketInv.alive_of_writer (hi : s.SocketInv) (h : s.writer ≠ .done) :
    s.mutex ≠ .destroyed ∧ s.clients ≠ none := by
  refine hi.alive (mutexGone_of_writerGone ?_)
  by_contra hgone
  exact h (hi.writer (Bool.not_eq_false _ ▸ hgone))

lemma SocketInv.writerStep_cases (hi : s.SocketInv) (h : s.writerStep fails = some s') :
    SocketStep s (.writer fails) s' := by
  rw [writerStep] at h
  split at h
  case h_1 hpc => exact Option.some.inj h ▸ .writerTest fails hpc
  case h_2 hpc | h_3 hpc =>
      have hrun : s.writer ≠ .done := by simp [hpc]
      obtain ⟨hmutex, hclients⟩ := hi.alive_of_writer hrun
      rw [locked_eq hmutex h]
      exact .writerFlush fails _ hrun (written_flush hclients)
  case h_4 => cases h

lemma SocketInv.acceptorStep_cases {ok : Bool} (hi : s.SocketInv)
    (h : s.acceptorStep ok = some s') : SocketStep s (.acceptor ok) s' := by
  rw [acceptorStep] at h
  split at h
  case h_1 hpc => exact Option.some.inj h ▸ .test ok hpc
  case h_2 hpc =>
      split at h
      case isTrue hok =>
          obtain ⟨rfl, hlisten⟩ := hok
          exact Option.some.inj h ▸ .accept hpc hlisten
      case isFalse hno => exact Option.some.inj h ▸ .reject ok hpc hno
  case h_3 cli hpc =>
      rw [locked] at h
      split at h
      case h_1 hfree => exact Option.some.inj h ▸ .lock ok cli hpc hfree
      case h_2 => cases h
      case h_3 hgone => exact Option.some.inj h ▸ .caught ok ⟨hgone, by rw [hpc]; rfl⟩
  case h_4 cli hpc =>
      split at h
      case h_1 hnone =>
          have hdone := hi.acceptor (by rw [hi.clients.mp hnone]; rfl)
          rw [hpc] at hdone
          cases hdone
      case h_2 clients hclients => exact Option.some.inj h ▸ .add ok cli clients hpc hclients
  case h_5 hpc =>
      split at h
      case isTrue hgone => exact Option.some.inj h ▸ .caught ok ⟨hgone, by rw [hpc]; rfl⟩
      case isFalse halive => exact Option.some.inj h ▸ .unlock ok hpc halive
  case h_6 => cases h

lemma SocketInv.destroyStep_cases (hi : s.SocketInv) (h : s.destroyStep fails = some s') :
    SocketStep s (.destroy fails) s' := by
  rw [destroyStep] at h
  split at h
  case h_1 hpc => exact Option.some.inj h ▸ .destroy fails hpc
  case h_2 hpc => exact Option.some.inj h ▸ .check fails hpc
  case h_3 hpc =>
      obtain ⟨hmutex, hclients⟩ := hi.alive (by rw [hpc]; rfl)
      rw [locked_eq hmutex h]
      exact .destroyFlush fails hpc (written_flush hclients)
  case h_4 hpc => exact Option.some.inj h ▸ .clearAsync fails hpc
  case h_5 hpc =>
      obtain ⟨hdone, h⟩ := Option.ite_none_right_eq_some.mp h
      exact Option.some.inj h ▸ .joinWriter fails hpc hdone
  case h_6 hpc => exact Option.some.inj h ▸ .destroyMutex fails hpc
  case h_7 hpc => exact Option.some.inj h ▸ .closeListener fails hpc
  case h_8 hpc =>
      obtain ⟨hdone, h⟩ := Option.ite_none_right_eq_some.mp h
      exact Option.some.inj h ▸ .joinAcceptor fails hpc hdone
  case h_9 hpc =>
      have hsome : s.clients ≠ none := by
        intro hnone
        have hdone := hi.clients.mp hnone
        rw [hpc] at hdone
        cases hdone
      obtain ⟨clients, hclients⟩ := Option.ne_none_iff_exists'.mp hsome
      rw [hclients, Option.getD_some] at h
      exact Option.some.inj h ▸ .destroyClients fails clients hpc hclients
  case h_10 => cases h

lemma SocketInv.step_cases (hi : s.SocketInv) (h : s.step buffersz a = some s') :
    s.fault = false ∧ SocketStep s a s' := by
  unfold step at h
  obtain ⟨hfault, h⟩ := Option.ite_none_left_eq_some.mp h
  refine ⟨Bool.eq_false_of_not_eq_true hfault, ?_⟩
  cases a with
  | append fails =>
      obtain ⟨hpc, h⟩ := Option.ite_none_right_eq_some.mp h
      obtain ⟨hmutex, hclients⟩ := hi.alive (by rw [hpc]; rfl)
      rw [locked_eq hmutex h]
      refine .append fails hpc ?_
      split
      · exact written_queue hclients
      · exact written_write hclients s.buffered
  | flush fails =>
      obtain ⟨⟨hpc, -⟩, h⟩ := Option.ite_none_right_eq_some.mp h
      obtain ⟨hmutex, hclients⟩ := hi.alive (by rw [hpc]; rfl)
      rw [locked_eq hmutex h]
      exact .flush fails hpc (written_flush hclients)
  | writer fails => exact hi.writerStep_cases h
  | acceptor ok => exact hi.acceptorStep_cases h
  | destroy fails => exact hi.destroyStep_cases h

/-! ### Invariants -/

lemma socketInv_start (isasync : Bool) : (socketStart isasync).SocketInv where
  writer := nofun
  mutex := ⟨nofun, nofun⟩
  acceptor := nofun
  clients := ⟨nofun, nofun⟩
  held := nofun
  balance := .refl _
  fault := nofun

/-- `Write` and `Flush` keep the invariant. -/
lemma SocketInv.written (hi : s.SocketInv) (h : SocketWritten s s') : s'.SocketInv := by
  obtain ⟨buffered, before, clients, closed, hbefore, hperm⟩ := h
  refine ⟨hi.writer, hi.mutex, hi.acceptor, ⟨nofun, fun hdone => ?_⟩, hi.held, ?_, hi.fault⟩
  · rw [hi.clients.mpr hdone] at hbefore
    cases hbefore
  · have hbalance := hi.balance
    rw [hbefore] at hbalance
    exact (hperm.append_left _).trans hbalance

/-- The writer thread moves on. -/
lemma SocketInv.withWriter (hi : s.SocketInv) (h : s.writer ≠ .done) (pc : AsyncWriterPc) :
    SocketInv { s with writer := pc } where
  writer hgone := absurd (hi.writer hgone) h
  mutex := hi.mutex
  acceptor := hi.acceptor
  clients := hi.clients
  held := hi.held
  balance := hi.balance
  fault := hi.fault

/-- `Destroy` moves on, and the mutex and the array stay as they are. -/
lemma SocketInv.advance (hi : s.SocketInv) (pc : SocketDestroyPc)
    (hwriter : pc.writerGone = true → s.writer = .done)
    (hmutex : pc.mutexGone = s.destroyer.mutexGone)
    (hacceptor : pc.acceptorGone = true → s.acceptor = .done)
    (hdone : s.destroyer ≠ .done) (hpc : pc ≠ .done) (isrunning isasync listening : Bool) :
    SocketInv { s with
      isrunning := isrunning, isasync := isasync, listening := listening, destroyer := pc } where
  writer := hwriter
  mutex := hi.mutex.trans (by rw [hmutex])
  acceptor := hacceptor
  clients := ⟨fun h => absurd (hi.clients.mp h) hdone, fun h => absurd h hpc⟩
  held := hi.held
  balance := hi.balance
  fault := hi.fault

/-- The acceptor moves on, with the same client in its hand. -/
lemma SocketInv.withAcceptor (hi : s.SocketInv) (hfault : s.fault = false)
    (h : s.acceptor = .test ∨ s.acceptor = .accept) {pc : AcceptorPc} (hpc : pc.hand = []) :
    SocketInv { s with acceptor := pc } where
  writer := hi.writer
  mutex := hi.mutex
  acceptor hgone := by
    have hdone := hi.acceptor hgone
    rcases h with h | h <;> rw [h] at hdone <;> cases hdone
  clients := hi.clients
  held hheld := by
    rcases hi.held hheld with hpc | ⟨cli, hpc⟩ <;> rcases h with h | h <;> rw [h] at hpc <;>
      cases hpc
  balance := by
    have hhand : s.acceptor.hand = pc.hand := by
      rcases h with h | h <;> rw [h, hpc] <;> rfl
    exact hhand ▸ hi.balance
  fault htrue := absurd (hfault.symm.trans htrue) nofun

lemma SocketInv.step (hi : s.SocketInv) (h : s.step buffersz a = some s') : s'.SocketInv := by
  obtain ⟨hfault, hstep⟩ := hi.step_cases h
  have hnofault : ¬ s.fault = true := by simp [hfault]
  cases hstep with
  | append fails hpc hw => exact hi.written hw
  | flush fails hpc hw => exact hi.written hw
  | writerTest fails hpc => exact hi.withWriter (by simp [hpc]) _
  | writerFlush fails pc hrun hw =>
      refine (hi.written hw).withWriter ?_ pc
      cases hw
      exact hrun
  | test ok hpc =>
      refine hi.withAcceptor hfault (.inl hpc) ?_
      split <;> rfl
  | reject ok hpc hno => exact hi.withAcceptor hfault (.inr hpc) rfl
  | accept hpc hlisten =>
      have hbalance := hi.balance
      rw [hpc] at hbalance
      refine ⟨hi.writer, hi.mutex, fun hgone => ?_, hi.clients, fun hheld => ?_, ?_,
        fun htrue => absurd htrue hnofault⟩
      · have hdone := hi.acceptor hgone
        rw [hpc] at hdone
        cases hdone
      · rcases hi.held hheld with hbusy | ⟨cli, hbusy⟩ <;> rw [hpc] at hbusy <;> cases hbusy
      · rw [List.range_succ]
        exact (hbalance.cons _).trans (List.perm_append_singleton _ _).symm
  | lock ok cli hpc hfree =>
      have hbalance := hi.balance
      rw [hpc] at hbalance
      refine ⟨hi.writer, ⟨nofun, fun hgone => ?_⟩, fun hgone => ?_, hi.clients,
        fun _ => .inr ⟨cli, rfl⟩, hbalance, fun htrue => absurd htrue hnofault⟩
      · have hdestroyed := hi.mutex.mpr hgone
        rw [hfree] at hdestroyed
        cases hdestroyed
      · have hdone := hi.acceptor hgone
        rw [hpc] at hdone
        cases hdone
  | add ok cli clients hpc hclients =>
      have hbalance := hi.balance
      rw [hpc, hclients] at hbalance
      refine ⟨hi.writer, hi.mutex, fun hgone => ?_, ⟨nofun, fun hdone => ?_⟩,
        fun _ => .inl rfl, ?_, fun htrue => absurd htrue hnofault⟩
      · have hdone := hi.acceptor hgone
        rw [hpc] at hdone
        cases hdone
      · rw [hi.clients.mpr hdone] at hclients
        cases hclients
      · refine List.Perm.trans ?_ hbalance
        exact (List.perm_append_singleton cli clients).append_right s.closed
  | unlock ok hpc halive =>
      have hbalance := hi.balance
      rw [hpc] at hbalance
      refine ⟨hi.writer, ⟨nofun, fun hgone => absurd (hi.mutex.mpr hgone) halive⟩,
        fun hgone => ?_, hi.clients, nofun, hbalance, fun htrue => absurd htrue hnofault⟩
      have hdone := hi.acceptor hgone
      rw [hpc] at hdone
      cases hdone
  | caught ok hcaught =>
      exact ⟨hi.writer, hi.mutex, hi.acceptor, hi.clients, hi.held, hi.balance, fun _ => hcaught⟩
  | destroy fails hpc =>
      exact hi.advance .check nofun (by rw [hpc]; rfl) nofun (by simp [hpc]) nofun false _ _
  | check fails hpc =>
      by_cases hnil : s.buffered = 0
      · rw [if_pos hnil]
        exact hi.advance .clearAsync nofun (by rw [hpc]; rfl) nofun (by simp [hpc]) nofun _ _ _
      · rw [if_neg hnil]
        exact hi.advance .flush nofun (by rw [hpc]; rfl) nofun (by simp [hpc]) nofun _ _ _
  | destroyFlush fails hpc hw =>
      have ht := hi.written hw
      cases hw
      exact ht.advance .clearAsync nofun (by simp only [hpc]; rfl) nofun (by simp [hpc]) nofun _ _ _
  | clearAsync fails hpc =>
      exact hi.advance .joinWriter nofun (by rw [hpc]; rfl) nofun (by simp [hpc]) nofun _ false _
  | joinWriter fails hpc hdone =>
      exact hi.advance .destroyMutex (fun _ => hdone) (by rw [hpc]; rfl) nofun (by simp [hpc])
        nofun _ _ _
  | destroyMutex fails hpc =>
      exact ⟨fun _ => hi.writer (by rw [hpc]; rfl), ⟨fun _ => rfl, fun _ => rfl⟩, nofun,
        ⟨fun hnone => absurd ((hi.clients.mp hnone).symm.trans hpc) nofun, nofun⟩, nofun,
        hi.balance, fun htrue => absurd htrue hnofault⟩
  | closeListener fails hpc =>
      exact hi.advance .joinAcceptor (fun _ => hi.writer (by rw [hpc]; rfl)) (by rw [hpc]; rfl)
        nofun (by simp [hpc]) nofun _ _ false
  | joinAcceptor fails hpc hdone =>
      exact hi.advance .destroyClients (fun _ => hi.writer (by rw [hpc]; rfl)) (by rw [hpc]; rfl)
        (fun _ => hdone) (by simp [hpc]) nofun _ _ _
  | destroyClients fails clients hpc hclients =>
      have hbalance := hi.balance
      rw [hclients] at hbalance
      refine ⟨fun _ => hi.writer (by rw [hpc]; rfl), ⟨fun _ => rfl, fun _ => ?_⟩,
        fun _ => hi.acceptor (by rw [hpc]; rfl), ⟨fun _ => rfl, fun _ => rfl⟩, hi.held, ?_,
        fun htrue => absurd htrue hnofault⟩
      · exact hi.mutex.mpr (by rw [hpc]; rfl)
      · have hcomm : (s.closed ++ clients).Perm (clients ++ s.closed) := List.perm_append_comm
        exact (hcomm.append_left _).trans hbalance

/-! ### The acceptor and the mutex -/

/-- The mutex is destroyed while the acceptor has no client to add, and no client arrives after
that. -/
def OutOfReach (s : SocketAppender) : SocketAction → Prop
  | .destroy _ => s.destroyer = .destroyMutex → s.acceptor.busy = false
  | .acceptor ok =>
      s.acceptor = .accept → ok = true → s.listening = true → s.mutex ≠ .destroyed
  | _ => True

/-- The acceptor is caught by a step that does not meet the condition, and for good. -/
lemma SocketInv.caught_step (hi : s.SocketInv) (h : s.step buffersz a = some s') :
    s'.Caught ↔ s.Caught ∨ ¬ s.OutOfReach a := by
  obtain ⟨-, hstep⟩ := hi.step_cases h
  cases hstep with
  | append fails hpc hw | flush fails hpc hw | writerFlush fails pc hrun hw =>
      cases hw
      simp only [Caught, OutOfReach, not_true_eq_false, or_false]
  | writerTest fails hpc => simp only [Caught, OutOfReach, not_true_eq_false, or_false]
  | test ok hpc =>
      have hquiet : (if s.isrunning then AcceptorPc.accept else .done).busy = false := by
        split <;> rfl
      have hold : AcceptorPc.test.busy = false := rfl
      simp [Caught, OutOfReach, hpc, hquiet, hold]
  | accept hpc hlisten => simp [Caught, OutOfReach, hpc, hlisten, AcceptorPc.busy]
  | reject ok hpc hno =>
      have hreach : s.OutOfReach (.acceptor ok) := fun _ hok hlisten => absurd ⟨hok, hlisten⟩ hno
      simp [Caught, hreach, hpc, AcceptorPc.busy]
  | lock ok cli hpc hfree => simp [Caught, OutOfReach, hpc, hfree]
  | add ok cli clients hpc hclients => simp [Caught, OutOfReach, hpc, AcceptorPc.busy]
  | unlock ok hpc halive => simp [Caught, OutOfReach, hpc, halive]
  | caught ok hcaught => exact ⟨fun _ => .inl hcaught, fun _ => hcaught⟩
  | destroyMutex fails hpc =>
      have hfree : s.mutex ≠ .destroyed := (hi.alive (by rw [hpc]; rfl)).1
      simp [Caught, OutOfReach, hpc, hfree]
  | destroyFlush fails hpc hw =>
      cases hw
      simp [Caught, OutOfReach, hpc]
  | destroy fails hpc | check fails hpc | clearAsync fails hpc | joinWriter fails hpc hdone
  | closeListener fails hpc | joinAcceptor fails hpc hdone | destroyClients fails clients hpc =>
      simp [Caught, OutOfReach, hpc]

/-- `Destroy` has returned, or the mutex or the array was used after it was destroyed. -/
def Ended (s : SocketAppender) : Prop := s.fault = true ∨ s.destroyer = .done

/-- Nothing was used after it was destroyed, and every client was closed once. -/
structure Safe (s : SocketAppender) : Prop where
  fault : s.fault = false
  closed : ∀ cli < s.accepted, s.closed.count cli = 1

/-- No client is closed twice. -/
lemma SocketInv.count_closed_le (hi : s.SocketInv) (cli : ℕ) : s.closed.count cli ≤ 1 := by
  calc
    s.closed.count cli
    _ ≤ (s.acceptor.hand ++ (s.clients.getD [] ++ s.closed)).count cli := by
      rw [List.count_append, List.count_append]
      omega
    _ = (List.range s.accepted).count cli := hi.balance.count_eq cli
    _ ≤ 1 := List.nodup_iff_count_le_one.mp List.nodup_range cli

/-- At the end, all is well unless the acceptor was caught. -/
lemma SocketInv.safe_iff (hi : s.SocketInv) (hend : s.Ended) : s.Safe ↔ ¬ s.Caught := by
  constructor
  · rintro ⟨hfault, -⟩ hcaught
    rcases hend with htrue | hdone
    · exact absurd (hfault.symm.trans htrue) nofun
    · have hacceptor := hi.acceptor (by rw [hdone]; rfl)
      have hbusy := hcaught.2
      rw [hacceptor] at hbusy
      cases hbusy
  · intro hcaught
    have hfault : ¬ s.fault = true := fun htrue => hcaught (hi.fault htrue)
    have hdone := hend.resolve_left hfault
    refine ⟨Bool.eq_false_of_not_eq_true hfault, fun cli hcli => ?_⟩
    have hbalance := hi.balance.count_eq cli
    rw [hi.acceptor (by rw [hdone]; rfl), hi.clients.mpr hdone] at hbalance
    exact hbalance.trans (List.count_eq_one_of_mem List.nodup_range (List.mem_range.mpr hcli))

/-! ### Steps that are enabled -/

/-- A section is entered unless the acceptor holds the mutex. -/
lemma isSome_locked (h : s.mutex ≠ .held) (f : SocketAppender → SocketAppender) :
    (s.locked f).isSome := by
  rw [locked]
  split
  case h_2 hheld => exact absurd hheld h
  all_goals rfl

/-- The acceptor is never blocked: only itself holds the mutex. -/
lemma SocketInv.isSome_acceptorStep (hi : s.SocketInv) {ok : Bool} (h : s.acceptor ≠ .done) :
    (s.acceptorStep ok).isSome := by
  rw [acceptorStep]
  split
  case h_3 cli hpc =>
      refine isSome_locked (fun hheld => ?_) _
      rcases hi.held hheld with hbusy | ⟨cli, hbusy⟩ <;> rw [hpc] at hbusy <;> cases hbusy
  case h_6 hpc => exact absurd hpc h
  all_goals first | rfl | split <;> rfl

lemma isSome_writerStep (hheld : s.mutex ≠ .held) (h : s.writer ≠ .done) :
    (s.writerStep fails).isSome := by
  rw [writerStep]
  split
  case h_2 | h_3 => exact isSome_locked hheld _
  case h_4 hpc => exact absurd hpc h
  all_goals rfl

/-- Where `Destroy` waits for a thread, that thread has returned. -/
lemma isSome_destroyStep (hheld : s.mutex ≠ .held) (hacceptor : s.acceptor = .done)
    (hdone : s.destroyer ≠ .done) (hwriter : s.destroyer = .joinWriter → s.writer = .done) :
    (s.destroyStep fails).isSome := by
  rw [destroyStep]
  split
  case h_3 => exact isSome_locked hheld _
  case h_5 hpc =>
      rw [if_pos (hwriter hpc)]
      rfl
  case h_8 =>
      rw [if_pos hacceptor]
      rfl
  case h_10 hpc => exact absurd hpc hdone
  all_goals rfl

end SocketAppender

end Steps

/-! ### Runs -/

section Runs

variable {isasync : Bool} {buffersz : ℕ} {s : SocketAppender} {actions : List SocketAction}

lemma socketSystem_inv (h : (socketSystem isasync buffersz).Reachable s) : s.SocketInv :=
  h.invariant (fun _ h => h ▸ SocketAppender.socketInv_start isasync) fun _ _ _ hi h => hi.step h

/-- The acceptor is caught in the runs with a step that does not meet the condition. -/
lemma caught_iff
    (hrun : (socketSystem isasync buffersz).run (socketStart isasync) actions = some s) :
    s.Caught ↔ ¬ (socketSystem isasync buffersz).Meets SocketAppender.OutOfReach
      (socketStart isasync) actions := by
  induction actions using List.reverseRecOn generalizing s with
  | nil =>
      obtain rfl : socketStart isasync = s := Option.some.inj hrun
      refine iff_of_false (fun h => absurd h.1 nofun) (not_not.mpr fun pre a s hpre => ?_)
      exact absurd (List.prefix_nil.mp hpre) (by simp)
  | append_singleton as a ih =>
      rw [TransitionSystem.run_concat] at hrun
      obtain ⟨s₁, hs₁, hs⟩ := Option.bind_eq_some_iff.mp hrun
      have hi := socketSystem_inv (TransitionSystem.Reachable.run (.start rfl) hs₁)
      rw [hi.caught_step hs, ih hs₁, TransitionSystem.meets_concat hs₁, not_and_or]

/-- Until the end some thread can take a step. -/
theorem socketSystem_progress (h : (socketSystem isasync buffersz).Reachable s)
    (hend : ¬ s.Ended) : ∃ a, (s.step buffersz a).isSome := by
  have hi := socketSystem_inv h
  obtain ⟨hfault, hdone⟩ := not_or.mp hend
  by_cases hacceptor : s.acceptor = .done
  · have hheld : s.mutex ≠ .held := by
      intro hheld
      rcases hi.held hheld with hpc | ⟨cli, hpc⟩ <;> rw [hacceptor] at hpc <;> cases hpc
    by_cases hjoin : s.destroyer = .joinWriter ∧ s.writer ≠ .done
    · refine ⟨.writer fun _ => false, ?_⟩
      rw [SocketAppender.step.eq_def, if_neg hfault]
      exact SocketAppender.isSome_writerStep hheld hjoin.2
    · refine ⟨.destroy fun _ => false, ?_⟩
      rw [SocketAppender.step.eq_def, if_neg hfault]
      exact SocketAppender.isSome_destroyStep hheld hacceptor hdone
        fun hpc => not_not.mp fun hwriter => hjoin ⟨hpc, hwriter⟩
  · refine ⟨.acceptor false, ?_⟩
    rw [SocketAppender.step.eq_def, if_neg hfault]
    exact hi.isSome_acceptorStep hacceptor

end Runs

end LibCmutils
