import LibCmutils.Lib.CNumber
import LibCmutils.Pool.Basic

/-!
The socket pools of the HTTP clients (`src/http.c`).

* `HttpAddr`: a host name without a colon, and a port. `httpClientParseUrl` makes
  one from a URL, `httpPoolKey` is its place in the map of pools.
* `HttpClient`: the settings a request depends on. `HttpSocket`: a connected socket,
  by the arguments it was connected with.
* `httpContextGetSocket`, `httpContextPutSocket`: the sections of the pools, over
  the sections of `CMUTIL_Pool`.
* `httpSystem`: clients that are created, set up, and send requests, and the ping of
  the pools. How a connect, a request or a test ends is part of the action.
* `HttpSocket.Suits`: what a client may expect of its socket.

The main result is `http_socket_suits`.
-/

namespace LibCmutils

/-! ### Addresses -/

/-- A host and a port, as `CMUTIL_HttpClientParseUrl` lets them through. -/
structure HttpAddr where
  host : List UInt8
  port : ℕ
  host_clean : 0x3A ∉ host
  host_length : host.length < 256
  port_le : port ≤ 65535
  deriving DecidableEq

/-- The key of a pool: `"%s:%d"` in a buffer of `CMUTIL_HTTP_POOLKEY_MAX` bytes. -/
def httpPoolKey (addr : HttpAddr) : List UInt8 :=
  (addr.host ++ 0x3A :: decimal addr.port).take 271

/-- `"https"`. -/
def httpsScheme : List UInt8 := [0x68, 0x74, 0x74, 0x70, 0x73]

/-- The rest of a URL, behind the colon of its scheme, has no NUL either. -/
lemma notMem_zero_of_url {url : CString} {scheme rest : List UInt8}
    (h : strchrSplit 0x3A url.1 = some (scheme, rest)) : (0 : UInt8) ∉ rest.drop 2 := by
  intro h0
  refine url.2 ?_
  rw [strchrSplit_eq h]
  simp [List.mem_of_mem_drop h0]

/-- `CMUTIL_HttpClientParseUrl`: the address, and whether the scheme is `https`. -/
def httpClientParseUrl (url : CString) : Option (HttpAddr × Bool) :=
  match hu : strchrSplit 0x3A url.1 with
  | none => none
  | some (scheme, rest) =>
      if rest.take 2 = [0x2F, 0x2F] then
        let ishttps := scheme == httpsScheme
        match hp : strchrSplit 0x3A (rest.drop 2) with
        | some (host, q) =>
            if hhost : host.length = 0 ∨ 256 ≤ host.length then none
            else
              let buf := strchrPrefix 0x2F q
              if buf.length = 0 ∨ 256 ≤ buf.length then none
              else if hport : intStrtol buf ≤ 0 ∨ 65535 < intStrtol buf then none
              else
                some (⟨host, (intStrtol buf).toNat, strchrSplit_notMem hp, by omega, by omega⟩,
                  ishttps)
        | none =>
            let host := strchrPrefix 0x2F (rest.drop 2)
            if hhost : host.length = 0 ∨ 256 ≤ host.length then none
            else
              have hclean : 0x3A ∉ host := fun h =>
                notMem_of_strchrSplit (notMem_zero_of_url hu) hp (strchrPrefix_subset _ _ h)
              some (⟨host, if ishttps then 443 else 80, hclean, by omega, by split <;> decide⟩,
                ishttps)
      else none

/-- The buffer holds the whole key. -/
lemma httpPoolKey_eq (addr : HttpAddr) :
    httpPoolKey addr = addr.host ++ 0x3A :: decimal addr.port := by
  refine List.take_of_length_le ?_
  have hhost := addr.host_length
  have hlt := addr.port_le
  have hport : (decimal addr.port).length ≤ 5 := (length_decimal_le_iff (by norm_num)).mpr (by omega)
  rw [List.length_append, List.length_cons]
  omega

/-- Different addresses have different keys. -/
lemma httpPoolKey_injective : Function.Injective httpPoolKey := by
  intro a b h
  rw [httpPoolKey_eq, httpPoolKey_eq] at h
  have hdigits : 0x3A ∉ decimal a.port := decimal_notMem (by decide) a.port
  obtain ⟨hhost, -, hport⟩ := (List.append_cons_inj_of_notMem a.host_clean hdigits).mp h
  obtain ⟨host, port, _, _, _⟩ := a
  obtain rfl : host = b.host := hhost
  obtain rfl : port = b.port := decimal_injective hport
  rfl

/-! ### Clients and sockets -/

/-- The fields of `CMUTIL_HttpClient_Internal`; the host and the port are `addr`. -/
structure HttpClient where
  addr : HttpAddr
  ishttps : Bool
  verifypeer : Bool
  verifyhost : Bool
  keepalive : Bool
  cafile : List UInt8
  keyfile : List UInt8
  certfile : List UInt8
  deriving DecidableEq

/-- `CMUTIL_HttpClientCreateInternal`. -/
def httpClientCreateInternal (url : CString) : Option HttpClient :=
  (httpClientParseUrl url).map fun r =>
    { addr := r.1
      ishttps := r.2
      verifypeer := false
      verifyhost := true
      keepalive := true
      cafile := []
      keyfile := []
      certfile := [] }

/-- `CMUTIL_HttpClientSetVerify`. -/
def httpClientSetVerify (ih : HttpClient) (verifyhost verifypeer : Bool) : HttpClient :=
  { ih with verifyhost := verifyhost, verifypeer := verifypeer }

/-- A file name for `SetSSLCert`, `none` for `NULL`, fits into its buffer. -/
def httpFileFits (pathMax : ℕ) (file : Option CString) : Bool :=
  file.all fun f => decide (f.1.length < pathMax)

/-- A file name for `SetSSLCert` as it is stored. -/
def httpFileStored (file : Option CString) : List UInt8 := (file.map Subtype.val).getD []

/-- `CMUTIL_HttpClientSetSSLCert`; `pathMax` is `PATH_MAX`. -/
def httpClientSetSSLCert (pathMax : ℕ) (ih : HttpClient) (certfile keyfile cafile : Option CString) :
    HttpClient :=
  if httpFileFits pathMax certfile && httpFileFits pathMax keyfile && httpFileFits pathMax cafile then
    { ih with
      certfile := httpFileStored certfile
      keyfile := httpFileStored keyfile
      cafile := httpFileStored cafile }
  else ih

/-- `CMUTIL_HttpClientSetKeepAlive`. -/
def httpClientSetKeepAlive (ih : HttpClient) (keepalive : Bool) : HttpClient :=
  { ih with keepalive := keepalive }

/-- The arguments of `CMUTIL_SSLSocketConnectInternal` that decide what is verified,
`none` for `NULL`. -/
structure HttpTls where
  cert : Option (List UInt8)
  key : Option (List UInt8)
  ca : Option (List UInt8)
  servername : Option (List UInt8)
  deriving DecidableEq

/-- A connected socket: where to, and with which arguments if it speaks TLS. -/
structure HttpSocket where
  addr : HttpAddr
  tls : Option HttpTls
  deriving DecidableEq

/-- The connect call of `CMUTIL_HttpClientGetSocket`. -/
def httpClientConnect (ih : HttpClient) : HttpSocket where
  addr := ih.addr
  tls :=
    if ih.ishttps then
      some
        { cert := if ih.verifypeer then some ih.certfile else none
          key := if ih.verifypeer then some ih.keyfile else none
          ca := if ih.verifyhost then some ih.cafile else none
          servername := if ih.verifyhost then some ih.addr.host else none }
    else none

/-- The socket was connected to the host and port of the client, under its scheme, and with
its peer verification and its host verification as far as it asks for them. -/
def HttpSocket.Suits (sock : HttpSocket) (ih : HttpClient) : Prop :=
  sock.addr = ih.addr ∧ sock.tls.isSome = ih.ishttps ∧
    ∀ tls, sock.tls = some tls →
      (ih.verifypeer = true → tls.cert = some ih.certfile ∧ tls.key = some ih.keyfile) ∧
      (ih.verifyhost = true → tls.ca = some ih.cafile ∧ tls.servername = some ih.addr.host)

/-- A client's own connection suits it. -/
lemma httpClientConnect_suits (ih : HttpClient) : (httpClientConnect ih).Suits ih := by
  refine ⟨rfl, ?_, fun tls htls => ?_⟩
  · cases h : ih.ishttps <;> simp [httpClientConnect, h]
  · cases h : ih.ishttps with
    | false => simp [httpClientConnect, h] at htls
    | true =>
        simp only [httpClientConnect, h, if_true, Option.some.injEq] at htls
        subst htls
        exact ⟨fun hp => by simp [hp], fun hv => by simp [hv]⟩

/-! ### The pools -/

/-- `socket_pools`: a pool of sockets for each key. -/
abbrev HttpPools := List UInt8 → Option (Pool HttpSocket)

/-- The options of a socket pool: sockets are tested by the ping only, and never created. -/
def httpPoolConf : PoolConf where
  createf := false
  destroyf := true
  testf := true
  testonb := false

/-- `CMUTIL_PoolCheckOut` with no time to wait, of a pool that creates nothing and does not
test what it hands out. -/
def poolCheckOutNow (pool : Pool HttpSocket) : Pool HttpSocket × Option HttpSocket :=
  if 0 < pool.semp then
    match poolTake { pool with semp := pool.semp - 1 } none with
    | (taken, some sock) => (taken, some sock)
    | (taken, none) => ({ taken with semp := taken.semp + 1 }, none)
  else (pool, none)

/-- `CMUTIL_PoolRelease`, with its semaphore. -/
def poolReleaseNow (pool : Pool HttpSocket) (sock : HttpSocket) : Pool HttpSocket :=
  let pool := poolPut pool sock
  { pool with semp := pool.semp + 1 }

/-- `CMUTIL_HttpContextGetSocket`. -/
def httpContextGetSocket (pools : HttpPools) (addr : HttpAddr) : HttpPools × Option HttpSocket :=
  match pools (httpPoolKey addr) with
  | none => (pools, none)
  | some pool =>
      let (pool, sock) := poolCheckOutNow pool
      (Function.update pools (httpPoolKey addr) (some pool), sock)

/-- `CMUTIL_HttpContextPutSocket`. -/
def httpContextPutSocket (pools : HttpPools) (addr : HttpAddr) (sock : HttpSocket) : HttpPools :=
  let pool := (pools (httpPoolKey addr)).getD (poolCreateInternal httpPoolConf 0 5 [])
  Function.update pools (httpPoolKey addr) (some (poolReleaseNow pool sock))

/-- `CMUTIL_HttpClientGetSocket`; `connected` says whether a connect would work. -/
def httpClientGetSocket (pools : HttpPools) (ih : HttpClient) (connected : Bool) :
    HttpPools × Option HttpSocket :=
  match httpContextGetSocket pools ih.addr with
  | (pools, some sock) => (pools, some sock)
  | (pools, none) => (pools, if connected then some (httpClientConnect ih) else none)

/-! ### The system -/

/-- A request under way: the place of its client, its socket, and whether the client
wanted to keep the connection at its beginning. -/
structure HttpExchange where
  client : ℕ
  sock : HttpSocket
  keepalive : Bool
  deriving DecidableEq

/-- The clients, the pools, the sockets the ping has taken out of a pool, and the requests
under way. `pooled` are the sockets ever put into a pool, `handed` those ever handed to a
client, with the client as it was then. -/
structure HttpState where
  clients : List HttpClient
  pools : HttpPools
  pinging : List (List UInt8 × HttpSocket)
  exchanges : List HttpExchange
  pooled : List HttpSocket
  handed : List (HttpClient × HttpSocket)

/-- What happens next. Clients are named by their place. -/
inductive HttpAct where
  | create (url : CString)
  | setVerify (i : ℕ) (verifyhost verifypeer : Bool)
  | setSSLCert (i : ℕ) (certfile keyfile cafile : Option CString)
  | setKeepAlive (i : ℕ) (keepalive : Bool)
  /-- A request begins and gets its socket. -/
  | getSocket (i : ℕ) (connected : Bool)
  /-- Request `k` ends; `keep` is the local variable `keepalive`. -/
  | finish (k : ℕ) (keep : Bool)
  /-- The ping takes a socket out of a pool. -/
  | pingTake (key : List UInt8)
  /-- The ping puts its socket `k` back, or closes it after a failed test. -/
  | pingTest (k : ℕ) (ok : Bool)

/-- Client `i` becomes what `f` makes of it. -/
def HttpState.setup (s : HttpState) (i : ℕ) (f : HttpClient → HttpClient) : HttpState :=
  { s with clients := s.clients.modify i f }

/-- The part of `CMUTIL_HttpClientRequest` that gets a socket. -/
def HttpState.begin (s : HttpState) (i : ℕ) (ih : HttpClient) (connected : Bool) : HttpState :=
  match httpClientGetSocket s.pools ih connected with
  | (pools, none) => { s with pools := pools }
  | (pools, some sock) =>
      { s with
        pools := pools
        exchanges := ⟨i, sock, ih.keepalive⟩ :: s.exchanges
        handed := (ih, sock) :: s.handed }

/-- The end of `CMUTIL_HttpClientRequest`. -/
def HttpState.finish (s : HttpState) (k : ℕ) (ih : HttpClient) (sock : HttpSocket) (keep : Bool) :
    HttpState :=
  if keep then
    { s with
      pools := httpContextPutSocket s.pools ih.addr sock
      exchanges := s.exchanges.eraseIdx k
      pooled := sock :: s.pooled }
  else { s with exchanges := s.exchanges.eraseIdx k }

/-- The ping gives up a socket that failed its test, or puts one back. -/
def httpPingDone (pool : Pool HttpSocket) (sock : HttpSocket) (ok : Bool) : Pool HttpSocket :=
  if ok then poolReleaseNow pool sock
  else
    let pool := poolDrop pool
    { pool with semp := pool.semp + 1 }

/-- One step. A header of the response may turn `keep` off, or back to the setting. -/
def httpStep (pathMax : ℕ) (s : HttpState) : HttpAct → Option HttpState
  | .create url =>
      (httpClientCreateInternal url).map fun ih => { s with clients := s.clients ++ [ih] }
  | .setVerify i verifyhost verifypeer =>
      some (s.setup i fun ih => httpClientSetVerify ih verifyhost verifypeer)
  | .setSSLCert i certfile keyfile cafile =>
      some (s.setup i fun ih => httpClientSetSSLCert pathMax ih certfile keyfile cafile)
  | .setKeepAlive i keepalive => some (s.setup i fun ih => httpClientSetKeepAlive ih keepalive)
  | .getSocket i connected => (s.clients[i]?).map fun ih => s.begin i ih connected
  | .finish k keep => do
      let exchange ← s.exchanges[k]?
      let ih ← s.clients[exchange.client]?
      if keep && !(exchange.keepalive || ih.keepalive) then none
      else some (s.finish k ih exchange.sock keep)
  | .pingTake key => do
      let pool ← s.pools key
      match poolCheckOutNow pool with
      | (_, none) => none
      | (pool, some sock) =>
          some
            { s with
              pools := Function.update s.pools key (some pool)
              pinging := (key, sock) :: s.pinging }
  | .pingTest k ok => do
      let (key, sock) ← s.pinging[k]?
      let pool ← s.pools key
      some
        { s with
          pools := Function.update s.pools key (some (httpPingDone pool sock ok))
          pinging := s.pinging.eraseIdx k }

/-- The clients and the pools, with no client and no pool at first. -/
def httpSystem (pathMax : ℕ) : TransitionSystem HttpState HttpAct where
  init s := s = ⟨[], fun _ => none, [], [], [], []⟩
  step := httpStep pathMax

/-! ### The invariant -/

/-- Every socket in a pool was put there, under the key of its own address. -/
def HttpPoolsOk (pooled : List HttpSocket) (pools : HttpPools) : Prop :=
  ∀ key pool, pools key = some pool → ∀ sock ∈ pool.avail,
    key = httpPoolKey sock.addr ∧ sock ∈ pooled

namespace HttpPoolsOk

variable {pooled : List HttpSocket} {pools : HttpPools} {key : List UInt8} {pool : Pool HttpSocket}

lemma update (h : HttpPoolsOk pooled pools)
    (hpool : ∀ sock ∈ pool.avail, key = httpPoolKey sock.addr ∧ sock ∈ pooled) :
    HttpPoolsOk pooled (Function.update pools key (some pool)) := by
  intro key' pool' hget
  by_cases hkey : key' = key
  · subst hkey
    rw [Function.update_self] at hget
    obtain rfl : pool = pool' := Option.some.inj hget
    exact hpool
  · rw [Function.update_of_ne hkey] at hget
    exact h key' pool' hget

lemma mono (h : HttpPoolsOk pooled pools) (sock : HttpSocket) :
    HttpPoolsOk (sock :: pooled) pools := by
  intro key pool hget x hx
  exact ⟨(h key pool hget x hx).1, List.mem_cons_of_mem _ (h key pool hget x hx).2⟩

end HttpPoolsOk

/-- A checkout takes a socket out of the pool, or leaves it as it is. -/
lemma poolCheckOutNow_spec (pool : Pool HttpSocket) :
    (∀ sock ∈ (poolCheckOutNow pool).1.avail, sock ∈ pool.avail) ∧
      ∀ sock, (poolCheckOutNow pool).2 = some sock → sock ∈ pool.avail := by
  rw [poolCheckOutNow]
  split
  · cases havail : pool.avail with
    | nil => simp [poolTake]
    | cons x avail =>
        simp only [poolTake]
        exact ⟨fun sock hs => List.mem_cons_of_mem _ hs, fun sock hs => by simp_all⟩
  · exact ⟨fun _ h => h, fun _ h => by cases h⟩

lemma mem_poolReleaseNow {pool : Pool HttpSocket} {sock x : HttpSocket} :
    x ∈ (poolReleaseNow pool sock).avail ↔ x ∈ pool.avail ∨ x = sock := by
  simp [poolReleaseNow, poolPut]

/-- The socket a client gets is its own connection or one from the pool of its address. -/
lemma httpClientGetSocket_spec {pooled : List HttpSocket} {pools : HttpPools}
    (h : HttpPoolsOk pooled pools) (ih : HttpClient) (connected : Bool) :
    HttpPoolsOk pooled (httpClientGetSocket pools ih connected).1 ∧
      ∀ sock, (httpClientGetSocket pools ih connected).2 = some sock →
        sock = httpClientConnect ih ∨ sock.addr = ih.addr ∧ sock ∈ pooled := by
  have hfresh : ∀ sock, (if connected then some (httpClientConnect ih) else none) = some sock →
      sock = httpClientConnect ih ∨ sock.addr = ih.addr ∧ sock ∈ pooled := by
    intro sock hs
    split at hs
    · exact .inl (Option.some.inj hs).symm
    · cases hs
  cases hget : pools (httpPoolKey ih.addr) with
  | none =>
      simp only [httpClientGetSocket, httpContextGetSocket, hget]
      exact ⟨h, hfresh⟩
  | some pool =>
      obtain ⟨hrest, htaken⟩ := poolCheckOutNow_spec pool
      have hpools : HttpPoolsOk pooled (Function.update pools (httpPoolKey ih.addr)
          (some (poolCheckOutNow pool).1)) :=
        h.update fun sock hs => h _ pool hget sock (hrest sock hs)
      simp only [httpClientGetSocket, httpContextGetSocket, hget]
      cases hout : (poolCheckOutNow pool).2 with
      | none => exact ⟨hpools, hfresh⟩
      | some sock =>
          refine ⟨hpools, fun x hx => .inr ?_⟩
          obtain rfl : sock = x := Option.some.inj hx
          obtain ⟨hkey, hpooled⟩ := h _ pool hget sock (htaken sock hout)
          exact ⟨(httpPoolKey_injective hkey).symm, hpooled⟩

/-- Where sockets are: in the pool of their address, with the ping, or with a request of a
client for that address. -/
structure HttpInv (s : HttpState) : Prop where
  pools : HttpPoolsOk s.pooled s.pools
  pinging : ∀ key sock, (key, sock) ∈ s.pinging → key = httpPoolKey sock.addr ∧ sock ∈ s.pooled
  exchanges : ∀ exchange ∈ s.exchanges, ∃ ih, s.clients[exchange.client]? = some ih ∧
    exchange.sock.addr = ih.addr
  handed : ∀ ih sock, (ih, sock) ∈ s.handed → sock.addr = ih.addr

namespace HttpInv

variable {s s' : HttpState} {pathMax : ℕ}

/-- The settings of a client change, its address does not. -/
lemma setup (h : HttpInv s) (i : ℕ) {f : HttpClient → HttpClient}
    (hf : ∀ ih, (f ih).addr = ih.addr) : HttpInv (s.setup i f) where
  pools := h.pools
  pinging := h.pinging
  exchanges exchange hex := by
    obtain ⟨ih, hget, haddr⟩ := h.exchanges exchange hex
    refine ⟨if i = exchange.client then f ih else ih, ?_, ?_⟩
    · show (s.clients.modify i f)[exchange.client]? = _
      rw [List.getElem?_modify, hget]
      split <;> rfl
    · split
      · exact haddr.trans (hf ih).symm
      · exact haddr
  handed := h.handed

/-- A new client. -/
lemma create (h : HttpInv s) (ih : HttpClient) :
    HttpInv { s with clients := s.clients ++ [ih] } where
  pools := h.pools
  pinging := h.pinging
  exchanges exchange hex := by
    obtain ⟨x, hget, haddr⟩ := h.exchanges exchange hex
    have hlt := (List.getElem?_eq_some_iff.mp hget).1
    exact ⟨x, (List.getElem?_append_left hlt).trans hget, haddr⟩
  handed := h.handed

/-- A request begins. -/
lemma begin (h : HttpInv s) {i : ℕ} {ih : HttpClient} (hget : s.clients[i]? = some ih)
    (connected : Bool) : HttpInv (s.begin i ih connected) := by
  obtain ⟨hpools, hsock⟩ := httpClientGetSocket_spec h.pools ih connected
  rw [HttpState.begin]
  rcases hr : httpClientGetSocket s.pools ih connected with ⟨pools, _ | sock⟩
  · rw [hr] at hpools
    exact ⟨hpools, h.pinging, h.exchanges, h.handed⟩
  · rw [hr] at hpools hsock
    have haddr : sock.addr = ih.addr := by
      rcases hsock sock rfl with rfl | hs
      · rfl
      · exact hs.1
    refine ⟨hpools, h.pinging, fun exchange hex => ?_, fun x y hxy => ?_⟩
    · rcases List.mem_cons.mp hex with rfl | hex
      · exact ⟨ih, hget, haddr⟩
      · exact h.exchanges exchange hex
    · rcases List.mem_cons.mp hxy with heq | hxy
      · obtain ⟨rfl, rfl⟩ := Prod.mk.inj heq
        exact haddr
      · exact h.handed x y hxy

/-- A request ends. -/
lemma finish (h : HttpInv s) {k : ℕ} {exchange : HttpExchange} {ih : HttpClient}
    (hk : s.exchanges[k]? = some exchange) (hih : s.clients[exchange.client]? = some ih)
    (keep : Bool) : HttpInv (s.finish k ih exchange.sock keep) := by
  have hrest : ∀ x ∈ s.exchanges.eraseIdx k, ∃ ih, s.clients[x.client]? = some ih ∧
      x.sock.addr = ih.addr :=
    fun x hx => h.exchanges x (List.mem_of_mem_eraseIdx hx)
  have haddr : exchange.sock.addr = ih.addr := by
    obtain ⟨x, hx, haddr⟩ := h.exchanges exchange (List.mem_of_getElem? hk)
    obtain rfl : x = ih := Option.some.inj (hx.symm.trans hih)
    exact haddr
  rw [HttpState.finish]
  split
  · have hmono := h.pools.mono exchange.sock
    refine ⟨hmono.update fun x hx => ?_, fun key x hx => ?_, hrest, h.handed⟩
    · rcases mem_poolReleaseNow.mp hx with hx | rfl
      · cases hget : s.pools (httpPoolKey ih.addr) with
        | none => simp [hget, poolCreateInternal, httpPoolConf] at hx
        | some pool =>
            rw [hget] at hx
            exact hmono _ pool hget x hx
      · exact ⟨congrArg httpPoolKey haddr.symm, List.mem_cons_self⟩
    · exact ⟨(h.pinging key x hx).1, List.mem_cons_of_mem _ (h.pinging key x hx).2⟩
  · exact ⟨h.pools, h.pinging, hrest, h.handed⟩

/-- The ping takes a socket. -/
lemma pingTake (h : HttpInv s) {key : List UInt8} {pool : Pool HttpSocket} {sock : HttpSocket}
    (hget : s.pools key = some pool) (hout : (poolCheckOutNow pool).2 = some sock) :
    HttpInv { s with
      pools := Function.update s.pools key (some (poolCheckOutNow pool).1)
      pinging := (key, sock) :: s.pinging } := by
  obtain ⟨hrest, htaken⟩ := poolCheckOutNow_spec pool
  refine ⟨h.pools.update fun x hx => h.pools key pool hget x (hrest x hx), fun x y hxy => ?_,
    h.exchanges, h.handed⟩
  rcases List.mem_cons.mp hxy with heq | hxy
  · obtain ⟨rfl, rfl⟩ := Prod.mk.inj heq
    exact h.pools x pool hget y (htaken y hout)
  · exact h.pinging x y hxy

/-- The ping is done with a socket. -/
lemma pingTest (h : HttpInv s) {k : ℕ} {key : List UInt8} {pool : Pool HttpSocket}
    {sock : HttpSocket} (hk : s.pinging[k]? = some (key, sock)) (hget : s.pools key = some pool)
    (ok : Bool) :
    HttpInv { s with
      pools := Function.update s.pools key (some (httpPingDone pool sock ok))
      pinging := s.pinging.eraseIdx k } := by
  refine ⟨h.pools.update fun x hx => ?_, fun x y hxy => ?_, h.exchanges, h.handed⟩
  · rw [httpPingDone] at hx
    split at hx
    · rcases mem_poolReleaseNow.mp hx with hx | rfl
      · exact h.pools key pool hget x hx
      · exact h.pinging key x (List.mem_of_getElem? hk)
    · exact h.pools key pool hget x hx
  · exact h.pinging x y (List.mem_of_mem_eraseIdx hxy)

/-- Every step keeps the invariant. -/
theorem step (h : HttpInv s) {a : HttpAct} (hs : httpStep pathMax s a = some s') : HttpInv s' := by
  cases a with
  | create url =>
      obtain ⟨ih, -, rfl⟩ := Option.map_eq_some_iff.mp hs
      exact h.create ih
  | setVerify i verifyhost verifypeer =>
      obtain rfl := Option.some.inj hs
      exact h.setup i fun _ => rfl
  | setSSLCert i certfile keyfile cafile =>
      obtain rfl := Option.some.inj hs
      refine h.setup i fun ih => ?_
      rw [httpClientSetSSLCert]
      split <;> rfl
  | setKeepAlive i keepalive =>
      obtain rfl := Option.some.inj hs
      exact h.setup i fun _ => rfl
  | getSocket i connected =>
      obtain ⟨ih, hget, rfl⟩ := Option.map_eq_some_iff.mp hs
      exact h.begin hget connected
  | finish k keep =>
      obtain ⟨exchange, hk, hs⟩ := Option.bind_eq_some_iff.mp hs
      obtain ⟨ih, hih, hs⟩ := Option.bind_eq_some_iff.mp hs
      split at hs
      · cases hs
      · obtain rfl := Option.some.inj hs
        exact h.finish hk hih keep
  | pingTake key =>
      obtain ⟨pool, hget, hs⟩ := Option.bind_eq_some_iff.mp hs
      split at hs
      · cases hs
      · next pool' sock hout =>
        obtain rfl := Option.some.inj hs
        have := h.pingTake hget (congrArg Prod.snd hout)
        rwa [hout] at this
  | pingTest k ok =>
      obtain ⟨⟨key, sock⟩, hk, hs⟩ := Option.bind_eq_some_iff.mp hs
      obtain ⟨pool, hget, hs⟩ := Option.bind_eq_some_iff.mp hs
      obtain rfl := Option.some.inj hs
      exact h.pingTest hk hget ok

end HttpInv

/-! ### What a client is handed -/

/-- When a client asks for a socket, the sockets that were ever put into the pool of its
address suit it. -/
def HttpPooledSuit (s : HttpState) : HttpAct → Prop
  | .getSocket i _ => ∀ ih, s.clients[i]? = some ih →
      ∀ sock ∈ s.pooled, sock.addr = ih.addr → sock.Suits ih
  | _ => True

/-- A client whose own connections are all there is in the pools. -/
lemma httpPooledSuit_own {s : HttpState} {i : ℕ} {ih : HttpClient} {connected : Bool}
    (hget : s.clients[i]? = some ih) (hown : ∀ sock ∈ s.pooled, sock = httpClientConnect ih) :
    HttpPooledSuit s (.getSocket i connected) := by
  intro x hx sock hsock _
  obtain rfl : ih = x := Option.some.inj (hget.symm.trans hx)
  rw [hown sock hsock]
  exact httpClientConnect_suits ih

/-- Every socket handed out suits its client. -/
def HttpAllSuit (s : HttpState) : Prop := ∀ ih sock, (ih, sock) ∈ s.handed → sock.Suits ih

lemma HttpAllSuit.step {pathMax : ℕ} {s s' : HttpState} (h : HttpAllSuit s) (hinv : HttpInv s)
    {a : HttpAct} (hC : HttpPooledSuit s a) (hs : httpStep pathMax s a = some s') :
    HttpAllSuit s' := by
  cases a with
  | getSocket i connected =>
      obtain ⟨ih, hget, rfl⟩ := Option.map_eq_some_iff.mp hs
      obtain ⟨-, hsock⟩ := httpClientGetSocket_spec hinv.pools ih connected
      rw [HttpState.begin]
      rcases hr : httpClientGetSocket s.pools ih connected with ⟨pools, _ | sock⟩
      · exact h
      · rw [hr] at hsock
        intro x y hxy
        rcases List.mem_cons.mp hxy with heq | hxy
        · obtain ⟨rfl, rfl⟩ := Prod.mk.inj heq
          rcases hsock y rfl with rfl | ⟨haddr, hpooled⟩
          · exact httpClientConnect_suits x
          · exact hC x hget y hpooled haddr
        · exact h x y hxy
  | create url =>
      obtain ⟨ih, -, rfl⟩ := Option.map_eq_some_iff.mp hs
      exact h
  | setVerify | setSSLCert | setKeepAlive =>
      obtain rfl := Option.some.inj hs
      exact h
  | finish k keep =>
      obtain ⟨exchange, -, hs⟩ := Option.bind_eq_some_iff.mp hs
      obtain ⟨ih, -, hs⟩ := Option.bind_eq_some_iff.mp hs
      split at hs
      · cases hs
      · obtain rfl := Option.some.inj hs
        rw [HttpState.finish]
        split <;> exact h
  | pingTake key =>
      obtain ⟨pool, -, hs⟩ := Option.bind_eq_some_iff.mp hs
      split at hs
      · cases hs
      · obtain rfl := Option.some.inj hs
        exact h
  | pingTest k ok =>
      obtain ⟨⟨key, sock⟩, -, hs⟩ := Option.bind_eq_some_iff.mp hs
      obtain ⟨pool, -, hs⟩ := Option.bind_eq_some_iff.mp hs
      obtain rfl := Option.some.inj hs
      exact h

/-- **The socket of a client.** In every run a client is handed sockets that were connected
to its own host and port. In the runs in which every socket put into the pool of an address
suits the clients that ask for that address later, every socket handed to a client was also
connected under its scheme and with its verification. -/
theorem http_socket_suits (pathMax : ℕ) (s : HttpState) :
    ((httpSystem pathMax).Reachable s →
      ∀ ih sock, (ih, sock) ∈ s.handed → sock.addr = ih.addr) ∧
    ((httpSystem pathMax).ReachableBy HttpPooledSuit s →
      ∀ ih sock, (ih, sock) ∈ s.handed → sock.Suits ih) := by
  have hstart : HttpInv ⟨[], fun _ => none, [], [], [], []⟩ := by
    constructor
    · intro key pool h
      cases h
    · intro key sock h
      cases h
    · intro exchange h
      cases h
    · intro ih sock h
      cases h
  constructor
  · intro h
    refine (TransitionSystem.Reachable.invariant (P := HttpInv) h ?_ ?_).handed
    · rintro s rfl
      exact hstart
    · intro s a s' hinv hs
      exact hinv.step hs
  · intro h
    refine (TransitionSystem.ReachableBy.invariant (P := fun s => HttpInv s ∧ HttpAllSuit s)
      h ?_ ?_).2
    · rintro s rfl
      refine ⟨hstart, fun ih sock h => ?_⟩
      cases h
    · rintro s a s' ⟨hinv, hsuit⟩ hC hs
      exact ⟨hinv.step hs, hsuit.step hinv hC hs⟩

/-- A socket that was put into an empty pool is handed to the next client of its address,
whatever that client asks for. -/
lemma httpClientGetSocket_put {pools : HttpPools} {ih : HttpClient}
    (h : pools (httpPoolKey ih.addr) = none) (sock : HttpSocket) (connected : Bool) :
    (httpClientGetSocket (httpContextPutSocket pools ih.addr sock) ih connected).2 = some sock := by
  simp [httpClientGetSocket, httpContextGetSocket, httpContextPutSocket, h, poolCheckOutNow,
    poolReleaseNow, poolPut, poolTake, poolCreateInternal, httpPoolConf]

/-- `http://h:443` and `https://h:443`. -/
def httpExampleUrl (https : Bool) : CString :=
  ⟨[0x68, 0x74, 0x74, 0x70] ++ (if https then [0x73] else []) ++
    [0x3A, 0x2F, 0x2F, 0x68, 0x3A, 0x34, 0x34, 0x33], by cases https <;> decide⟩

/-- The client of `httpExampleUrl`. -/
def httpExampleClient (https : Bool) : HttpClient where
  addr := ⟨[0x68], 443, by decide, by decide, by decide⟩
  ishttps := https
  verifypeer := false
  verifyhost := true
  keepalive := true
  cafile := []
  keyfile := []
  certfile := []

lemma httpClientCreateInternal_example : ∀ https,
    httpClientCreateInternal (httpExampleUrl https) = some (httpExampleClient https) := by
  decide

lemma httpStep_example (pathMax : ℕ) (s : HttpState) (https : Bool) :
    (httpSystem pathMax).step s (.create (httpExampleUrl https)) =
      some { s with clients := s.clients ++ [httpExampleClient https] } := by
  show (httpClientCreateInternal (httpExampleUrl https)).map _ = _
  rw [httpClientCreateInternal_example]
  rfl

lemma HttpState.mem_handed_begin {s : HttpState} {ih : HttpClient} {connected : Bool}
    {sock : HttpSocket} (i : ℕ)
    (h : (httpClientGetSocket s.pools ih connected).2 = some sock) :
    (ih, sock) ∈ (s.begin i ih connected).handed := by
  rw [HttpState.begin]
  rcases hr : httpClientGetSocket s.pools ih connected with ⟨pools, _ | x⟩
  · rw [hr] at h
    cases h
  · rw [hr] at h
    obtain rfl : x = sock := Option.some.inj h
    exact List.mem_cons_self

/-- A client that asks again is handed its own connection. -/
theorem http_socket_suits_again :
    ∃ s : HttpState,
      (httpExampleClient true, httpClientConnect (httpExampleClient true)) ∈ s.handed ∧
        ∀ ih sock, (ih, sock) ∈ s.handed → sock.addr = ih.addr ∧ sock.Suits ih := by
  have h : (httpSystem 4096).ReachableBy HttpPooledSuit ⟨[], fun _ => none, [], [], [], []⟩ :=
    .init rfl
  have h := h.step (HttpAct.create (httpExampleUrl true)) trivial (httpStep_example _ _ _)
  have h := h.step (HttpAct.getSocket 0 true) (fun _ _ _ hsock => absurd hsock List.not_mem_nil) rfl
  have h := h.step (HttpAct.finish 0 true) trivial rfl
  have h := h.step (HttpAct.getSocket 0 true)
    (httpPooledSuit_own rfl fun _ hs => List.mem_singleton.mp hs) rfl
  have haddr := (http_socket_suits 4096 _).1 h.reachable
  have hsuits := (http_socket_suits 4096 _).2 h
  exact ⟨_, HttpState.mem_handed_begin 0 (httpClientGetSocket_put rfl _ true),
    fun ih sock hmem => ⟨haddr ih sock hmem, hsuits ih sock hmem⟩⟩

/-- The plaintext connection of an `http` client is handed to an `https` client. -/
theorem http_socket_suits_fails :
    ¬∀ (pathMax : ℕ) (s : HttpState), (httpSystem pathMax).Reachable s →
      ∀ ih sock, (ih, sock) ∈ s.handed →
        sock.addr = ih.addr ∧ sock.tls.isSome = ih.ishttps := by
  intro h
  have hrun : (httpSystem 4096).Reachable ⟨[], fun _ => none, [], [], [], []⟩ := .start rfl
  have hrun := hrun.next (HttpAct.create (httpExampleUrl false)) (httpStep_example _ _ _)
  have hrun := hrun.next (HttpAct.create (httpExampleUrl true)) (httpStep_example _ _ _)
  have hrun := hrun.next (HttpAct.getSocket 0 true) rfl
  have hrun := hrun.next (HttpAct.finish 0 true) rfl
  have hrun := hrun.next (HttpAct.getSocket 1 true) rfl
  have hget : (httpClientGetSocket
      (httpContextPutSocket (fun _ => none) (httpExampleClient true).addr
        (httpClientConnect (httpExampleClient false))) (httpExampleClient true) true).2 =
      some (httpClientConnect (httpExampleClient false)) :=
    httpClientGetSocket_put rfl _ true
  have hmem := h 4096 _ hrun _ _ (HttpState.mem_handed_begin 1 hget)
  exact absurd hmem.2 (by decide)

end LibCmutils
