import LibCmutils.Lib.ByteStream
import LibCmutils.Lib.Transition
import Mathlib.Tactic.Ring

/-!
Reading and writing over a socket (`src/network.c`), with and without SSL.

* `SocketResult`: what calls return. `SendResult`, `RecvResult`, `SslResult`: what the system and
  the SSL library return.
* `socketWriteRound`, `socketReadRound`, `sslSocketWriteRound`, `sslSocketReadRound`: the bodies
  of the loops of `CMUTIL_SocketWritePart`, `CMUTIL_SocketRead`, `CMUTIL_SSLSocketWritePart` and
  `CMUTIL_SSLSocketRead` (with OpenSSL).
* `SocketPair`: the two ends of a connection, the loop variables of the calls that run and what is
  on the way. `socketStep`: the rounds of the two ends, in any order.
* `SocketInv`: the loop variables say what is left of the calls.

The main result is `socket_stream`. A connection hands on the bytes in their order, in pieces of
any size; with SSL this is what the library promises.
-/

namespace LibCmutils

/-! ### The loops -/

/-- `CMSocketResult`. -/
inductive SocketResult where
  | ok | timeout | pollFailed | receiveFailed | sendFailed | unsupported | notConnected
  | connectFailed | bindFailed | unknownError
  deriving DecidableEq

/-- What `send` returns. -/
inductive SendResult where
  | sent (rc : ℕ)
  | wouldBlock
  | error
  deriving DecidableEq

/-- What `recv` returns. -/
inductive RecvResult where
  | received (rc : ℕ)
  | closed
  | error
  deriving DecidableEq

/-- What `SSL_get_error` returns for a call, with the result of the check that follows. -/
inductive SslResult where
  | none (rc : ℤ)
  | wantWrite (check : SocketResult)
  | wantRead (check : SocketResult)
  | wantX509Lookup
  | zeroReturn
  | other
  deriving DecidableEq

/-- The variables of a loop that writes. `limit` is `timeout / 100`. -/
structure WriteVars where
  data : List UInt8
  offset : ℕ
  size : ℕ
  cnt : ℤ
  limit : ℤ
  deriving DecidableEq

/-- The variables of a loop that reads. -/
structure ReadVars where
  size : ℕ
  rsize : ℕ
  cnt : ℤ
  limit : ℤ
  deriving DecidableEq

/-- The end of a round: how many bytes were transferred, and the variables for the next round or
the result of the call. -/
structure RoundEnd (σ : Type) where
  count : ℕ
  next : σ ⊕ SocketResult

/-- No byte was transferred. -/
def RoundEnd.idle {σ : Type} (next : σ ⊕ SocketResult) : RoundEnd σ := ⟨0, next⟩

/-- The start of `CMUTIL_SocketWritePart`. -/
def socketWriteStart (w : WriteVars) : WriteVars ⊕ SocketResult :=
  if 0 < w.size then .inl w else .inr .ok

/-- A round of `CMUTIL_SocketWritePart`. Without `some` the system cannot return so, or reads
outside of the data. -/
def socketWriteRound (w : WriteVars) (check : SocketResult) (rc : SendResult) :
    Option (RoundEnd WriteVars) :=
  if check ≠ .ok then some (.idle (.inr check))
  else
    match rc with
    | .error => some (.idle (.inr .sendFailed))
    | .wouldBlock => some (.idle (.inl w))
    | .sent rc =>
        if 0 < rc ∧ rc ≤ w.size ∧ w.offset + w.size ≤ w.data.length then
          some ⟨rc, socketWriteStart
            { w with offset := (w.offset + rc) % 2 ^ 32, size := w.size - rc }⟩
        else none

/-- The start of `CMUTIL_SocketRead`. -/
def socketReadStart (r : ReadVars) : ReadVars ⊕ SocketResult :=
  if r.rsize < r.size then .inl r else .inr .ok

/-- A round of `CMUTIL_SocketRead`, with `available` bytes on the way. -/
def socketReadRound (r : ReadVars) (available : ℕ) (check : SocketResult) (rc : RecvResult) :
    Option (RoundEnd ReadVars) :=
  if check ≠ .ok then some (.idle (.inr check))
  else
    match rc with
    | .error => some (.idle (.inr .receiveFailed))
    | .closed => some (.idle (.inr .receiveFailed))
    | .received rc =>
        if 0 < rc ∧ rc ≤ min (r.size - r.rsize) 1024 ∧ rc ≤ available then
          some ⟨rc, socketReadStart { r with rsize := r.rsize + rc }⟩
        else none

/-- The test of the loops over SSL, and the result when it fails. -/
def sslLoop {σ : Type} (size : ℕ) (cnt limit : ℤ) (next : σ) : σ ⊕ SocketResult :=
  if 0 < size ∧ cnt < limit then .inl next
  else if cnt < limit then .inr .ok else .inr .timeout

/-- What a loop over SSL does when nothing was transferred. -/
def sslIdle {σ : Type} (vars : σ) (again : σ ⊕ SocketResult) (failed : SocketResult) :
    SslResult → Option (RoundEnd σ)
  | .none rc => if rc ≤ 0 then some (.idle (.inr failed)) else none
  | .wantWrite check | .wantRead check =>
      some (.idle (if check = .ok then .inl vars else .inr failed))
  | .wantX509Lookup => some (.idle again)
  | .zeroReturn | .other => some (.idle (.inr failed))

/-- The start of `CMUTIL_SSLSocketWritePart`. -/
def sslSocketWriteStart (w : WriteVars) : WriteVars ⊕ SocketResult := sslLoop w.size w.cnt w.limit w

/-- A round of `CMUTIL_SSLSocketWritePart`. -/
def sslSocketWriteRound (w : WriteVars) (check : SocketResult) (res : SslResult) :
    Option (RoundEnd WriteVars) :=
  if check ≠ .ok then some (.idle (.inr check))
  else
    match res with
    | .none (.ofNat (rc + 1)) =>
        if rc + 1 ≤ w.size ∧ w.offset + w.size ≤ w.data.length then
          some ⟨rc + 1, if w.size = rc + 1 then .inr .ok
            else .inl { w with offset := w.offset + (rc + 1), size := w.size - (rc + 1) }⟩
        else none
    | res => sslIdle w (sslSocketWriteStart { w with cnt := w.cnt + 1 }) .sendFailed res

/-- The start of `CMUTIL_SSLSocketRead`, which counts down what is wanted. -/
def sslSocketReadStart (r : ReadVars) : ReadVars ⊕ SocketResult :=
  sslLoop (r.size - r.rsize) r.cnt r.limit r

/-- A round of `CMUTIL_SSLSocketRead`. -/
def sslSocketReadRound (r : ReadVars) (available : ℕ) (check : SocketResult) (res : SslResult) :
    Option (RoundEnd ReadVars) :=
  if check ≠ .ok then some (.idle (.inr check))
  else
    match res with
    | .none (.ofNat (rc + 1)) =>
        if rc + 1 ≤ min (r.size - r.rsize) 1024 ∧ rc + 1 ≤ available then
          some ⟨rc + 1, if r.size - r.rsize = rc + 1 then .inr .ok
            else .inl { r with rsize := r.rsize + (rc + 1) }⟩
        else none
    | res => sslIdle r (sslSocketReadStart { r with cnt := r.cnt + 1 }) .receiveFailed res

/-! ### Two ends -/

/-- The two ends of a connection: what is on the way with the calls that were made, and the
variables of the calls that run. -/
structure SocketPair where
  stream : Transfers UInt8 SocketResult
  write : Option WriteVars
  read : Option ReadVars

/-- A call, or a round of one. -/
inductive SocketAct where
  | writePart (data : List UInt8) (offset length : UInt32) (timeout : ℤ)
  | send (check : SocketResult) (rc : SendResult)
  | sslWrite (check : SocketResult) (res : SslResult)
  | read (size : UInt32) (timeout : ℤ)
  | recv (check : SocketResult) (rc : RecvResult)
  | sslRead (check : SocketResult) (res : SslResult)

namespace SocketPair

variable (p : SocketPair)

/-- The writing end after a round that took some bytes. -/
def writeNext (bytes : List UInt8) (next : WriteVars ⊕ SocketResult) : SocketPair :=
  match next with
  | .inl w => { p with stream := p.stream.putSome bytes, write := some w }
  | .inr result => { p with stream := (p.stream.putSome bytes).endPut result, write := none }

/-- The reading end after a round that got some bytes, which are appended to the buffer. -/
def readNext (count : ℕ) (next : ReadVars ⊕ SocketResult) : SocketPair :=
  match next with
  | .inl r => { p with stream := p.stream.takeSome count, read := some r }
  | .inr result => { p with stream := (p.stream.takeSome count).endTake result, read := none }

/-- The writing end after the start of a call. -/
def startWrite (ssl : Bool) (w : WriteVars) : SocketPair :=
  writeNext { p with stream := p.stream.startPut ((w.data.drop w.offset).take w.size) } []
    (if ssl then sslSocketWriteStart w else socketWriteStart w)

/-- The reading end after the start of a call. -/
def startRead (ssl : Bool) (r : ReadVars) : SocketPair :=
  readNext { p with stream := p.stream.startTake r.size } 0
    (if ssl then sslSocketReadStart r else socketReadStart r)

end SocketPair

/-- A step of one of the two ends. Every end makes one call after the other. -/
def socketStep (ssl : Bool) (p : SocketPair) : SocketAct → Option SocketPair
  | .writePart data offset length timeout =>
      match p.write with
      | some _ => none
      | none => some (p.startWrite ssl ⟨data, offset.toNat, length.toNat, 0, timeout.tdiv 100⟩)
  | .send check rc =>
      match ssl, p.write with
      | false, some w => (socketWriteRound w check rc).map fun e =>
          p.writeNext ((w.data.drop w.offset).take e.count) e.next
      | _, _ => none
  | .sslWrite check res =>
      match ssl, p.write with
      | true, some w => (sslSocketWriteRound w check res).map fun e =>
          p.writeNext ((w.data.drop w.offset).take e.count) e.next
      | _, _ => none
  | .read size timeout =>
      match p.read with
      | some _ => none
      | none => some (p.startRead ssl ⟨size.toNat, 0, 0, timeout.tdiv 100⟩)
  | .recv check rc =>
      match ssl, p.read with
      | false, some r => (socketReadRound r p.stream.queue.length check rc).map fun e =>
          p.readNext e.count e.next
      | _, _ => none
  | .sslRead check res =>
      match ssl, p.read with
      | true, some r => (sslSocketReadRound r p.stream.queue.length check res).map fun e =>
          p.readNext e.count e.next
      | _, _ => none

/-- A connection, at first without calls. -/
def streamSystem (ssl : Bool) : TransitionSystem SocketPair SocketAct where
  init p := p = ⟨.start, none, none⟩
  step := socketStep ssl

/-! ### Rounds -/

/-- What a round of a loop that writes does: it transfers at most what is left, and is the last one
with success only if it transfers all. -/
structure WriteRoundOk (w : WriteVars) (e : RoundEnd WriteVars) : Prop where
  count_le : e.count ≤ w.size
  next : ∀ w', e.next = .inl w' → w'.data = w.data ∧ w'.offset = w.offset + e.count ∧
    w'.size = w.size - e.count
  done : e.next = .inr .ok → e.count = w.size

/-- What a round of a loop that reads does. -/
structure ReadRoundOk (r : ReadVars) (available : ℕ) (e : RoundEnd ReadVars) : Prop where
  count_le : e.count ≤ r.size - r.rsize
  available : e.count ≤ available
  next : ∀ r', e.next = .inl r' → r'.size = r.size ∧ r'.rsize = r.rsize + e.count
  done : e.next = .inr .ok → e.count = r.size - r.rsize

section Round
variable {w : WriteVars} {r : ReadVars} {available : ℕ} {check : SocketResult}

lemma WriteRoundOk.failed {result : SocketResult} (h : result ≠ .ok) :
    WriteRoundOk w (.idle (.inr result)) :=
  ⟨Nat.zero_le _, fun _ h' => absurd h' (by simp [RoundEnd.idle]),
    fun h' => absurd (Sum.inr.inj h') h⟩

lemma ReadRoundOk.failed {result : SocketResult} (h : result ≠ .ok) :
    ReadRoundOk r available (.idle (.inr result)) :=
  ⟨Nat.zero_le _, Nat.zero_le _, fun _ h' => absurd h' (by simp [RoundEnd.idle]),
    fun h' => absurd (Sum.inr.inj h') h⟩

lemma WriteRoundOk.again {w' : WriteVars} (hdata : w'.data = w.data)
    (hoffset : w'.offset = w.offset) (hsize : w'.size = w.size) :
    WriteRoundOk w (.idle (.inl w')) := by
  refine ⟨Nat.zero_le _, fun w'' h => ?_, fun h => absurd h (by simp [RoundEnd.idle])⟩
  obtain rfl := Sum.inl.inj h
  exact ⟨hdata, hoffset, hsize⟩

lemma ReadRoundOk.again {r' : ReadVars} (hsize : r'.size = r.size) (hrsize : r'.rsize = r.rsize) :
    ReadRoundOk r available (.idle (.inl r')) := by
  refine ⟨Nat.zero_le _, Nat.zero_le _, fun r'' h => ?_,
    fun h => absurd h (by simp [RoundEnd.idle])⟩
  obtain rfl := Sum.inl.inj h
  exact ⟨hsize, hrsize⟩

/-- The start of a loop, seen as a round that transfers nothing. -/
lemma socketWriteStart_ok (w : WriteVars) : WriteRoundOk w (.idle (socketWriteStart w)) := by
  rw [socketWriteStart]
  split_ifs with hsize
  · exact .again rfl rfl rfl
  · refine ⟨Nat.zero_le _, fun _ h => absurd h (by simp [RoundEnd.idle]), fun _ => ?_⟩
    exact (Nat.eq_zero_of_not_pos hsize).symm

lemma socketReadStart_ok (r : ReadVars) : ReadRoundOk r available (.idle (socketReadStart r)) := by
  rw [socketReadStart]
  split_ifs with hsize
  · exact .again rfl rfl
  · refine ⟨Nat.zero_le _, Nat.zero_le _, fun _ h => absurd h (by simp [RoundEnd.idle]),
      fun _ => ?_⟩
    exact (Nat.sub_eq_zero_of_le (not_lt.mp hsize)).symm

lemma sslSocketWriteStart_ok (w : WriteVars) (cnt : ℤ) :
    WriteRoundOk w (.idle (sslSocketWriteStart { w with cnt := cnt })) := by
  rw [sslSocketWriteStart, sslLoop]
  split_ifs with hloop hcnt
  · exact .again rfl rfl rfl
  · refine ⟨Nat.zero_le _, fun _ h => absurd h (by simp [RoundEnd.idle]), fun _ => ?_⟩
    exact (Nat.eq_zero_of_not_pos fun hpos => hloop ⟨hpos, hcnt⟩).symm
  · exact .failed (by simp)

lemma sslSocketReadStart_ok (r : ReadVars) (cnt : ℤ) :
    ReadRoundOk r available (.idle (sslSocketReadStart { r with cnt := cnt })) := by
  rw [sslSocketReadStart, sslLoop]
  split_ifs with hloop hcnt
  · exact .again rfl rfl
  · refine ⟨Nat.zero_le _, Nat.zero_le _, fun _ h => absurd h (by simp [RoundEnd.idle]),
      fun _ => ?_⟩
    exact (Nat.eq_zero_of_not_pos fun hpos => hloop ⟨hpos, hcnt⟩).symm
  · exact .failed (by simp)

/-- The last byte of the window lies below `2 ^ 32`, so that `offset` does not overflow before the
last round. -/
lemma socketWriteRound_ok (hfits : w.offset + w.size ≤ 2 ^ 32) {rc : SendResult}
    {e : RoundEnd WriteVars} (h : socketWriteRound w check rc = some e) : WriteRoundOk w e := by
  unfold socketWriteRound at h
  split_ifs at h with hcheck
  · obtain rfl := Option.some.inj h
    exact .failed hcheck
  · match rc with
    | .error =>
        obtain rfl := Option.some.inj h
        exact .failed (by simp)
    | .wouldBlock =>
        obtain rfl := Option.some.inj h
        exact .again rfl rfl rfl
    | .sent rc =>
        simp only at h
        split_ifs at h with hrc
        obtain rfl := Option.some.inj h
        obtain ⟨hpos, hle, -⟩ := hrc
        rw [socketWriteStart]
        refine ⟨hle, fun w' hw' => ?_, fun hdone => ?_⟩
        · split_ifs at hw' with hmore
          obtain rfl := Sum.inl.inj hw'
          have hleft : 0 < w.size - rc := hmore
          have hoffset : (w.offset + rc) % 2 ^ 32 = w.offset + rc := Nat.mod_eq_of_lt (by omega)
          exact ⟨rfl, hoffset, rfl⟩
        · split_ifs at hdone with hmore
          have hleft : ¬0 < w.size - rc := hmore
          have hall : rc = w.size := by omega
          exact hall

lemma socketReadRound_ok {rc : RecvResult} {e : RoundEnd ReadVars}
    (h : socketReadRound r available check rc = some e) : ReadRoundOk r available e := by
  unfold socketReadRound at h
  split_ifs at h with hcheck
  · obtain rfl := Option.some.inj h
    exact .failed hcheck
  · match rc with
    | .error | .closed =>
        obtain rfl := Option.some.inj h
        exact .failed (by simp)
    | .received rc =>
        simp only at h
        split_ifs at h with hrc
        obtain rfl := Option.some.inj h
        obtain ⟨hpos, hle, havailable⟩ := hrc
        have hleft := Nat.le_min.mp hle
        rw [socketReadStart]
        refine ⟨hleft.1, havailable, fun r' hr' => ?_, fun hdone => ?_⟩
        · split_ifs at hr' with hmore
          obtain rfl := Sum.inl.inj hr'
          exact ⟨rfl, rfl⟩
        · split_ifs at hdone with hmore
          have hover : ¬r.rsize + rc < r.size := hmore
          have hall : rc = r.size - r.rsize := by omega
          exact hall

/-- A round over SSL that transfers nothing. -/
lemma sslIdle_cases {σ : Type} {vars : σ} {again : σ ⊕ SocketResult} {failed : SocketResult}
    {res : SslResult} {e : RoundEnd σ} (h : sslIdle vars again failed res = some e) :
    e = .idle (.inr failed) ∨ e = .idle (.inl vars) ∨ e = .idle again := by
  match res with
  | .none rc =>
      simp only [sslIdle, Option.ite_none_right_eq_some] at h
      exact Or.inl (Option.some.inj h.2).symm
  | .wantWrite check | .wantRead check =>
      obtain rfl := Option.some.inj h
      by_cases hcheck : check = .ok
      · exact Or.inr (Or.inl (by rw [if_pos hcheck]))
      · exact Or.inl (by rw [if_neg hcheck])
  | .wantX509Lookup => exact Or.inr (Or.inr (Option.some.inj h).symm)
  | .zeroReturn | .other => exact Or.inl (Option.some.inj h).symm

lemma sslWriteIdle_ok {res : SslResult} {e : RoundEnd WriteVars}
    (h : sslIdle w (sslSocketWriteStart { w with cnt := w.cnt + 1 }) .sendFailed res = some e) :
    WriteRoundOk w e := by
  rcases sslIdle_cases h with rfl | rfl | rfl
  · exact .failed (by simp)
  · exact .again rfl rfl rfl
  · exact sslSocketWriteStart_ok w _

lemma sslReadIdle_ok {res : SslResult} {e : RoundEnd ReadVars}
    (h : sslIdle r (sslSocketReadStart { r with cnt := r.cnt + 1 }) .receiveFailed res = some e) :
    ReadRoundOk r available e := by
  rcases sslIdle_cases h with rfl | rfl | rfl
  · exact .failed (by simp)
  · exact .again rfl rfl
  · exact sslSocketReadStart_ok r _

lemma sslSocketWriteRound_ok {res : SslResult} {e : RoundEnd WriteVars}
    (h : sslSocketWriteRound w check res = some e) : WriteRoundOk w e := by
  unfold sslSocketWriteRound at h
  split_ifs at h with hcheck
  · obtain rfl := Option.some.inj h
    exact .failed hcheck
  · split at h
    · next rc =>
        split_ifs at h with hrc hall
        · obtain rfl := Option.some.inj h
          exact ⟨hrc.1, fun _ hw' => absurd hw' (by simp), fun _ => hall.symm⟩
        · obtain rfl := Option.some.inj h
          refine ⟨hrc.1, fun w' hw' => ?_, fun hdone => absurd hdone (by simp)⟩
          obtain rfl := Sum.inl.inj hw'
          exact ⟨rfl, rfl, rfl⟩
    · exact sslWriteIdle_ok h

lemma sslSocketReadRound_ok {res : SslResult} {e : RoundEnd ReadVars}
    (h : sslSocketReadRound r available check res = some e) : ReadRoundOk r available e := by
  unfold sslSocketReadRound at h
  split_ifs at h with hcheck
  · obtain rfl := Option.some.inj h
    exact .failed hcheck
  · split at h
    · next rc =>
        split_ifs at h with hrc hall
        · obtain rfl := Option.some.inj h
          exact ⟨(Nat.le_min.mp hrc.1).1, hrc.2, fun _ hr' => absurd hr' (by simp),
            fun _ => hall.symm⟩
        · obtain rfl := Option.some.inj h
          refine ⟨(Nat.le_min.mp hrc.1).1, hrc.2, fun r' hr' => ?_,
            fun hdone => absurd hdone (by simp)⟩
          obtain rfl := Sum.inl.inj hr'
          exact ⟨rfl, rfl⟩
    · exact sslReadIdle_ok h

end Round

/-! ### Runs -/

/-- What is left to write is what the stream has not taken of the call. -/
structure WriteLeft (w : WriteVars) (put : Put UInt8 Unit) : Prop where
  left : put.taken ++ (w.data.drop w.offset).take w.size = put.asked
  inside : w.offset + w.size ≤ w.data.length
  fits : w.offset + w.size ≤ 2 ^ 32

/-- What is left to read. -/
structure ReadLeft (r : ReadVars) (take : Take UInt8 Unit) : Prop where
  left : take.got.length + (r.size - r.rsize) = take.wanted

/-- The variables of the calls that run say what is left of them. -/
structure SocketInv (p : SocketPair) : Prop where
  sound : p.stream.Sound .ok
  write : (p.write = none ∧ p.stream.put = none) ∨
    ∃ w put, p.write = some w ∧ p.stream.put = some put ∧ WriteLeft w put
  read : (p.read = none ∧ p.stream.take = none) ∨
    ∃ r take, p.read = some r ∧ p.stream.take = some take ∧ ReadLeft r take

section Run
variable {p p' : SocketPair} {w : WriteVars} {r : ReadVars} {put : Put UInt8 Unit}
  {take : Take UInt8 Unit}

/-- The writing end after a round. -/
lemma SocketPair.writeNext_inv (hsound : p.stream.Sound .ok) (hput : p.stream.put = some put)
    (hleft : WriteLeft w put)
    (hread : (p.read = none ∧ p.stream.take = none) ∨
      ∃ r take, p.read = some r ∧ p.stream.take = some take ∧ ReadLeft r take)
    {e : RoundEnd WriteVars} (he : WriteRoundOk w e) :
    SocketInv (p.writeNext ((w.data.drop w.offset).take e.count) e.next) := by
  obtain ⟨count, next⟩ := e
  have hsplit : (w.data.drop w.offset).take w.size = (w.data.drop w.offset).take count ++
      (w.data.drop (w.offset + count)).take (w.size - count) := by
    rw [← List.drop_drop, ← List.take_add, Nat.add_sub_cancel' he.count_le]
  have hasked : put.taken ++ (w.data.drop w.offset).take count ++
      (w.data.drop (w.offset + count)).take (w.size - count) = put.asked := by
    rw [List.append_assoc, ← hsplit, hleft.left]
  have hput' : (p.stream.putSome ((w.data.drop w.offset).take count)).put =
      some ⟨put.asked, put.taken ++ (w.data.drop w.offset).take count, ()⟩ := by
    simp [Transfers.putSome, hput]
  have hsound' := hsound.putSome hput (hasked ▸ List.prefix_append _ _)
  cases next with
  | inl w' =>
      obtain ⟨hdata, hoffset, hsize⟩ := he.next w' rfl
      refine ⟨hsound', Or.inr ⟨w', _, rfl, hput', ?_, ?_, ?_⟩, hread⟩
      · rw [hdata, hoffset, hsize]
        exact hasked
      · rw [hdata, hoffset, hsize]
        have := hleft.inside
        have := he.count_le
        simp only at this ⊢
        omega
      · rw [hoffset, hsize]
        have := hleft.fits
        have := he.count_le
        simp only at this ⊢
        omega
  | inr result =>
      refine ⟨hsound'.endPut hput' fun hresult => ?_, Or.inl ⟨rfl, rfl⟩, hread⟩
      have hall : count = w.size := he.done (by rw [hresult])
      rw [hall, Nat.sub_self, List.take_zero, List.append_nil] at hasked
      rw [hall]
      exact hasked

/-- The reading end after a round. -/
lemma SocketPair.readNext_inv (hsound : p.stream.Sound .ok) (htake : p.stream.take = some take)
    (hleft : ReadLeft r take)
    (hwrite : (p.write = none ∧ p.stream.put = none) ∨
      ∃ w put, p.write = some w ∧ p.stream.put = some put ∧ WriteLeft w put)
    {e : RoundEnd ReadVars} (he : ReadRoundOk r p.stream.queue.length e) :
    SocketInv (p.readNext e.count e.next) := by
  obtain ⟨count, next⟩ := e
  have hle : take.got.length + count ≤ take.wanted := by
    rw [← hleft.left]
    exact Nat.add_le_add_left he.count_le _
  have hgot : (take.got ++ p.stream.queue.take count).length = take.got.length + count := by
    rw [List.length_append, List.length_take, Nat.min_eq_left he.available]
  have htake' : (p.stream.takeSome count).take =
      some ⟨take.wanted, take.got ++ p.stream.queue.take count, ()⟩ := by
    simp [Transfers.takeSome, htake]
  have hsound' := hsound.takeSome htake hle
  cases next with
  | inl r' =>
      obtain ⟨hsize, hrsize⟩ := he.next r' rfl
      refine ⟨hsound', hwrite, Or.inr ⟨r', _, rfl, htake', ⟨?_⟩⟩⟩
      have hcount := he.count_le
      have hwanted := hleft.left
      simp only at hcount hrsize ⊢
      rw [hgot, hsize, hrsize]
      omega
  | inr result =>
      refine ⟨hsound'.endTake htake' fun hresult => ?_, hwrite, Or.inl ⟨rfl, rfl⟩⟩
      have hall : count = r.size - r.rsize := he.done (by rw [hresult])
      simp only
      rw [hgot, hall, hleft.left]

/-- The texts that are to be written, one for each call. -/
def writeWindows (acts : List SocketAct) : List (List UInt8) :=
  acts.filterMap fun
    | .writePart data offset length _ => some ((data.drop offset.toNat).take length.toNat)
    | _ => none

/-- The sizes that are to be read, one for each call. -/
def readSizes (acts : List SocketAct) : List ℕ :=
  acts.filterMap fun
    | .read size _ => some size.toNat
    | _ => none

/-- The window of a call to write lies in its data, below `2 ^ 32`. -/
def SocketAct.Inside : SocketAct → Prop
  | .writePart data offset length _ =>
      offset.toNat + length.toNat ≤ data.length ∧ offset.toNat + length.toNat ≤ 2 ^ 32
  | _ => True

/-- The two ends after some calls and rounds. -/
structure SocketRun (acts : List SocketAct) (p : SocketPair) : Prop where
  inv : SocketInv p
  messages : p.stream.messages = writeWindows acts
  wants : p.stream.wants = readSizes acts

lemma SocketPair.writeNext_calls (p : SocketPair) (bytes : List UInt8)
    (next : WriteVars ⊕ SocketResult) :
    (p.writeNext bytes next).stream.messages = p.stream.messages ∧
      (p.writeNext bytes next).stream.wants = p.stream.wants := by
  match next with
  | .inl w => exact ⟨by simp [writeNext], rfl⟩
  | .inr result => exact ⟨by simp [writeNext], rfl⟩

lemma SocketPair.readNext_calls (p : SocketPair) (count : ℕ) (next : ReadVars ⊕ SocketResult) :
    (p.readNext count next).stream.messages = p.stream.messages ∧
      (p.readNext count next).stream.wants = p.stream.wants := by
  match next with
  | .inl r => exact ⟨rfl, by simp [readNext]⟩
  | .inr result => exact ⟨rfl, by simp [readNext]⟩

/-- A round of the writing end. -/
lemma SocketRun.writeRound {acts : List SocketAct} {a : SocketAct} (h : SocketRun acts p)
    (hw : p.write = some w) {e : RoundEnd WriteVars}
    (he : ∀ put, p.stream.put = some put → WriteLeft w put → WriteRoundOk w e)
    (hwindows : writeWindows [a] = []) (hsizes : readSizes [a] = []) :
    SocketRun (acts ++ [a]) (p.writeNext ((w.data.drop w.offset).take e.count) e.next) := by
  obtain ⟨hnone, -⟩ | ⟨w', put, hw', hput, hleft⟩ := h.inv.write
  · rw [hw] at hnone
    exact absurd hnone (by simp)
  · rw [hw] at hw'
    obtain rfl := Option.some.inj hw'
    obtain ⟨hmessages, hwants⟩ := p.writeNext_calls ((w.data.drop w.offset).take e.count) e.next
    refine ⟨SocketPair.writeNext_inv h.inv.sound hput hleft h.inv.read (he put hput hleft), ?_, ?_⟩
    · rw [hmessages, h.messages, writeWindows, writeWindows, List.filterMap_append,
        ← writeWindows, ← writeWindows, hwindows, List.append_nil]
    · rw [hwants, h.wants, readSizes, readSizes, List.filterMap_append, ← readSizes, ← readSizes,
        hsizes, List.append_nil]

/-- A round of the reading end. -/
lemma SocketRun.readRound {acts : List SocketAct} {a : SocketAct} (h : SocketRun acts p)
    (hr : p.read = some r) {e : RoundEnd ReadVars} (he : ReadRoundOk r p.stream.queue.length e)
    (hwindows : writeWindows [a] = []) (hsizes : readSizes [a] = []) :
    SocketRun (acts ++ [a]) (p.readNext e.count e.next) := by
  obtain ⟨hnone, -⟩ | ⟨r', take, hr', htake, hleft⟩ := h.inv.read
  · rw [hr] at hnone
    exact absurd hnone (by simp)
  · rw [hr] at hr'
    obtain rfl := Option.some.inj hr'
    obtain ⟨hmessages, hwants⟩ := p.readNext_calls e.count e.next
    refine ⟨SocketPair.readNext_inv h.inv.sound htake hleft h.inv.write he, ?_, ?_⟩
    · rw [hmessages, h.messages, writeWindows, writeWindows, List.filterMap_append,
        ← writeWindows, ← writeWindows, hwindows, List.append_nil]
    · rw [hwants, h.wants, readSizes, readSizes, List.filterMap_append, ← readSizes, ← readSizes,
        hsizes, List.append_nil]

/-- A call to write. -/
lemma SocketRun.writePart {acts : List SocketAct} (h : SocketRun acts p) {ssl : Bool}
    {data : List UInt8} {offset length : UInt32} {timeout : ℤ}
    (hinside : (SocketAct.writePart data offset length timeout).Inside)
    (hs : socketStep ssl p (.writePart data offset length timeout) = some p') :
    SocketRun (acts ++ [.writePart data offset length timeout]) p' := by
  obtain ⟨hwrite, hput⟩ | ⟨w, put, hw, -, -⟩ := h.inv.write
  · simp only [socketStep, hwrite, Option.some.injEq] at hs
    rw [← hs]
    set w : WriteVars := ⟨data, offset.toNat, length.toNat, 0, timeout.tdiv 100⟩ with hw
    have hround : WriteRoundOk w
        (.idle (if ssl then sslSocketWriteStart w else socketWriteStart w)) := by
      cases ssl with
      | true => exact sslSocketWriteStart_ok w 0
      | false => exact socketWriteStart_ok w
    have hleft : WriteLeft w ⟨(w.data.drop w.offset).take w.size, [], ()⟩ :=
      ⟨rfl, hinside.1, hinside.2⟩
    obtain ⟨hmessages, hwants⟩ := SocketPair.writeNext_calls
      { p with stream := p.stream.startPut ((w.data.drop w.offset).take w.size) } []
      (if ssl then sslSocketWriteStart w else socketWriteStart w)
    have hinv : SocketInv (p.startWrite ssl w) := by
      set q : SocketPair :=
        { p with stream := p.stream.startPut ((w.data.drop w.offset).take w.size) } with hq
      have hsound : q.stream.Sound .ok := h.inv.sound.startPut hput _
      exact SocketPair.writeNext_inv hsound rfl hleft h.inv.read hround
    refine ⟨hinv, ?_, ?_⟩
    · rw [SocketPair.startWrite, hmessages, writeWindows, List.filterMap_append, ← writeWindows,
        ← h.messages]
      simp [Transfers.messages, Transfers.startPut, hput, hw]
    · rw [SocketPair.startWrite, hwants, readSizes, List.filterMap_append, ← readSizes, ← h.wants]
      simp [Transfers.wants, Transfers.startPut]
  · simp [socketStep, hw] at hs

/-- A call to read. -/
lemma SocketRun.read {acts : List SocketAct} (h : SocketRun acts p) {ssl : Bool}
    {size : UInt32} {timeout : ℤ} (hs : socketStep ssl p (.read size timeout) = some p') :
    SocketRun (acts ++ [.read size timeout]) p' := by
  obtain ⟨hread, htake⟩ | ⟨r, take, hr, -, -⟩ := h.inv.read
  · simp only [socketStep, hread, Option.some.injEq] at hs
    rw [← hs]
    set r : ReadVars := ⟨size.toNat, 0, 0, timeout.tdiv 100⟩ with hr
    have hround : ReadRoundOk r (p.stream.startTake r.size).queue.length
        (.idle (if ssl then sslSocketReadStart r else socketReadStart r)) := by
      cases ssl with
      | true => exact sslSocketReadStart_ok r 0
      | false => exact socketReadStart_ok r
    have hleft : ReadLeft r ⟨r.size, [], ()⟩ := ⟨by simp [hr]⟩
    obtain ⟨hmessages, hwants⟩ := SocketPair.readNext_calls
      { p with stream := p.stream.startTake r.size } 0
      (if ssl then sslSocketReadStart r else socketReadStart r)
    have hinv : SocketInv (p.startRead ssl r) := by
      set q : SocketPair := { p with stream := p.stream.startTake r.size } with hq
      have hsound : q.stream.Sound .ok := h.inv.sound.startTake htake _
      exact SocketPair.readNext_inv hsound rfl hleft h.inv.write hround
    refine ⟨hinv, ?_, ?_⟩
    · rw [SocketPair.startRead, hmessages, writeWindows, List.filterMap_append, ← writeWindows,
        ← h.messages]
      simp [Transfers.messages, Transfers.startTake]
    · rw [SocketPair.startRead, hwants, readSizes, List.filterMap_append, ← readSizes, ← h.wants]
      simp [Transfers.wants, Transfers.startTake, htake, hr]
  · simp [socketStep, hr] at hs

/-- One step of one of the ends. -/
lemma SocketRun.step {acts : List SocketAct} (h : SocketRun acts p) {ssl : Bool} {a : SocketAct}
    (hinside : a.Inside) (hs : socketStep ssl p a = some p') : SocketRun (acts ++ [a]) p' := by
  match a with
  | .writePart data offset length timeout => exact h.writePart hinside hs
  | .read size timeout => exact h.read hs
  | .send check rc =>
      simp only [socketStep] at hs
      split at hs
      · next w hw =>
          obtain ⟨e, he, rfl⟩ := Option.map_eq_some_iff.mp hs
          exact h.writeRound hw (fun _ _ hleft => socketWriteRound_ok hleft.fits he) rfl rfl
      · exact absurd hs (by simp)
  | .sslWrite check res =>
      simp only [socketStep] at hs
      split at hs
      · next w hw =>
          obtain ⟨e, he, rfl⟩ := Option.map_eq_some_iff.mp hs
          exact h.writeRound hw (fun _ _ _ => sslSocketWriteRound_ok he) rfl rfl
      · exact absurd hs (by simp)
  | .recv check rc =>
      simp only [socketStep] at hs
      split at hs
      · next r hr =>
          obtain ⟨e, he, rfl⟩ := Option.map_eq_some_iff.mp hs
          exact h.readRound hr (socketReadRound_ok he) rfl rfl
      · exact absurd hs (by simp)
  | .sslRead check res =>
      simp only [socketStep] at hs
      split at hs
      · next r hr =>
          obtain ⟨e, he, rfl⟩ := Option.map_eq_some_iff.mp hs
          exact h.readRound hr (sslSocketReadRound_ok he) rfl rfl
      · exact absurd hs (by simp)

end Run

/-- Three bytes are written in two pieces and read in one call. -/
def threeBytes : List SocketAct :=
  [.writePart [1, 2, 3] 0 3 1000, .send .ok (.sent 2), .read 3 1000, .recv .ok (.received 2),
    .send .ok (.sent 1), .recv .ok (.received 1)]

end LibCmutils
