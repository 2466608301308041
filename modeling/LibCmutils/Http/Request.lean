import LibCmutils.Http.Response
import LibCmutils.Http.SocketPool
import LibCmutils.Lib.OrderedMap

/-!
Writing an HTTP request (`src/http.c`).

* `HttpOut`: what a socket has sent, and how its next writes end. `httpClientWriteLine`,
  `httpWritePairs` and `httpClientWriteRequest`: the part of `CMUTIL_HttpClientRequest` before
  the response is read.
* `HttpRequestArgs`: the arguments of a request. `httpMessage`: lines, an empty line and a body.
* `HttpRequestIs`: the bytes are the request that was asked for.
* `HttpRequestArgs.lines`: the lines that are written; `httpMessage_inj` says that bytes have one
  reading as lines.
* `HttpRequestArgs.Fits`: the requests that are written as they are.

The main result is `httpClientWriteRequest_iff`.
-/

namespace LibCmutils

/-- `"Host"`. -/
def httpHost : List UInt8 := [0x48, 0x6F, 0x73, 0x74]

/-- `"POST"`. -/
def httpPost : List UInt8 := [0x50, 0x4F, 0x53, 0x54]

/-- `"PUT"`. -/
def httpPut : List UInt8 := [0x50, 0x55, 0x54]

/-- `"%s %s HTTP/1.1"`. -/
def httpRequestLine (method uri : List UInt8) : List UInt8 :=
  method ++ [0x20] ++ uri ++ [0x20] ++ httpVersion

/-- `"%s: %s"`. -/
def httpHeaderText (key value : List UInt8) : List UInt8 := key ++ [0x3A, 0x20] ++ value

/-- `snprintf` into a buffer of 4096 bytes. -/
def httpLineBuf (text : List UInt8) : List UInt8 := text.take 4095

/-- The bytes a socket has sent, and whether its next writes succeed. -/
structure HttpOut where
  sent : List UInt8
  answers : List Bool

/-- `Write` of a socket: it sends all bytes, or the request fails. -/
def httpSocketWrite (data : List UInt8) (out : HttpOut) : Option HttpOut :=
  match out.answers with
  | true :: answers => some ⟨out.sent ++ data, answers⟩
  | _ => none

/-- `CMUTIL_HttpClientWriteLine`; the empty line stands for `NULL`, too. -/
def httpClientWriteLine (line : List UInt8) (out : HttpOut) : Option HttpOut :=
  (if line = [] then some out else httpSocketWrite line out).bind (httpSocketWrite [0x0D, 0x0A])

/-- The loop over the pairs: `needHost`, `needLength` and the socket behind it. -/
def httpWritePairs : List (CString × CString) → Bool → Bool → HttpOut →
    Option (Bool × Bool × HttpOut)
  | [], needHost, needLength, out => some (needHost, needLength, out)
  | e :: es, needHost, needLength, out =>
      (httpClientWriteLine (httpLineBuf (httpHeaderText e.1.1 e.2.1)) out).bind
        (httpWritePairs es (if httpSame httpHost e.1.1 then false else needHost)
          (if httpSame httpContentLength e.1.1 then false else needLength))

/-- The client, and the arguments of a request. The keys and values have no line breaks. -/
structure HttpRequestArgs where
  client : HttpClient
  method : CString
  headers : Option (OrderedMap CString CString)
  uri : CString
  body : Option (List UInt8)
  headers_clean : ∀ map ∈ headers, ∀ e ∈ map.entries,
    (0x0D ∉ e.1.1 ∧ 0x0A ∉ e.1.1) ∧ 0x0D ∉ e.2.1 ∧ 0x0A ∉ e.2.1

namespace HttpRequestArgs

variable (req : HttpRequestArgs)

/-- The pairs of the headers. -/
def pairs : List (CString × CString) := (req.headers.map OrderedMap.entries).getD []

/-- The method is `POST` or `PUT`. -/
def hasBody : Bool := httpSame req.method.1 httpPost || httpSame req.method.1 httpPut

/-- The text of the `Host` header that the client adds. -/
def hostText : List UInt8 :=
  httpHeaderText httpHost (req.client.addr.host ++ 0x3A :: decimal req.client.addr.port)

/-- The text of the `Connection` header. -/
def connectionText : List UInt8 :=
  httpHeaderText httpConnection (if req.client.keepalive then httpKeepAlive else httpClose)

end HttpRequestArgs

/-- The text of the `Content-Length` header that the client adds. -/
def httpLengthText (data : List UInt8) : List UInt8 :=
  httpHeaderText httpContentLength (decimal data.length)

/-- The `Host` header, when the caller has given none. -/
def httpWriteHost (req : HttpRequestArgs) (needHost : Bool) (out : HttpOut) : Option HttpOut :=
  if needHost then httpClientWriteLine (httpLineBuf req.hostText) out else some out

/-- The `Content-Length` header, when there is a body and the caller has given none. -/
def httpWriteLength (req : HttpRequestArgs) (needLength : Bool) (out : HttpOut) : Option HttpOut :=
  match req.body with
  | some data =>
      if req.hasBody && needLength then httpClientWriteLine (httpLineBuf (httpLengthText data)) out
      else some out
  | none => some out

/-- The body. Its size is cast to 32 bits. -/
def httpWriteBody (req : HttpRequestArgs) (out : HttpOut) : Option HttpOut :=
  match req.body with
  | some data =>
      if req.hasBody then httpSocketWrite (data.take (data.length % 2 ^ 32)) out else some out
  | none => some out

/-- `CMUTIL_HttpClientRequest` up to the response. -/
def httpClientWriteRequest (req : HttpRequestArgs) (out : HttpOut) : Option HttpOut := do
  let out ← httpClientWriteLine (httpLineBuf (httpRequestLine req.method.1 req.uri.1)) out
  let flags ← httpWritePairs req.pairs true true out
  let out ← httpWriteHost req flags.1 flags.2.2
  let out ← httpClientWriteLine (httpLineBuf req.connectionText) out
  let out ← httpWriteLength req flags.2.1 out
  let out ← httpClientWriteLine [] out
  httpWriteBody req out

/-! ### The request that is meant -/

/-- Lines, an empty line and a body. -/
def httpMessage (lines : List (List UInt8)) (body : List UInt8) : List UInt8 :=
  lines.flatMap (· ++ [0x0D, 0x0A]) ++ [0x0D, 0x0A] ++ body

/-- A line that is read as one. -/
def HttpCleanLine (line : List UInt8) : Prop := line ≠ [] ∧ 0x0D ∉ line ∧ 0x0A ∉ line

/-- A header line with the name `Host`. -/
def isHostLine (line : List UInt8) : Bool := httpSame httpHost (line.takeWhile (· != 0x3A))

namespace HttpRequestArgs

variable (req : HttpRequestArgs)

/-- The caller has given no `Host` header. -/
def needHost : Bool := req.pairs.all fun e => !httpSame httpHost e.1.1

/-- The caller has given no `Content-Length` header. -/
def needLength : Bool := req.pairs.all fun e => !httpSame httpContentLength e.1.1

end HttpRequestArgs

/-- The bytes are one request with the header lines `lines`: its request line has the method and
the URI; the headers of the caller are among its lines, in their order; it has one `Host` header,
which is the address of the client unless the caller has given one; its body is the given one,
with its length unless the caller has given it. -/
structure HttpRequestIs (req : HttpRequestArgs) (lines : List (List UInt8)) (sent : List UInt8) :
    Prop where
  bytes : sent = httpMessage (httpRequestLine req.method.1 req.uri.1 :: lines)
    (if req.hasBody then req.body.getD [] else [])
  clean : ∀ line ∈ httpRequestLine req.method.1 req.uri.1 :: lines, HttpCleanLine line
  headers : (req.pairs.map fun e => httpHeaderText e.1.1 e.2.1).Sublist lines
  host : lines.countP isHostLine = 1
  ownHost : req.needHost = true → req.hostText ∈ lines
  length : req.hasBody = true → req.needLength = true → ∀ data ∈ req.body,
    httpLengthText data ∈ lines

/-- The lines fit into the buffer and have no line breaks; the caller has given at most one `Host`
header, by the very name; the size of the body has 32 bits. -/
structure HttpRequestArgs.Fits (req : HttpRequestArgs) : Prop where
  method : 0x0D ∉ req.method.1 ∧ 0x0A ∉ req.method.1
  uri : 0x0D ∉ req.uri.1 ∧ 0x0A ∉ req.uri.1
  address : req.needHost = true → 0x0D ∉ req.client.addr.host ∧ 0x0A ∉ req.client.addr.host
  line : (httpRequestLine req.method.1 req.uri.1).length ≤ 4095
  header : ∀ e ∈ req.pairs, (httpHeaderText e.1.1 e.2.1).length ≤ 4095
  host : (req.pairs.map fun e => httpHeaderText e.1.1 e.2.1).countP isHostLine =
    if req.needHost then 0 else 1
  body : req.hasBody = true → ∀ data ∈ req.body, data.length < 2 ^ 32

/-! ### What is written -/

section Writing

variable {line : List UInt8} {out out' : HttpOut}

lemma httpSocketWrite_sent {data : List UInt8} (h : httpSocketWrite data out = some out') :
    out'.sent = out.sent ++ data := by
  rw [httpSocketWrite] at h
  split at h
  · obtain rfl := Option.some.inj h
    rfl
  · cases h

lemma httpClientWriteLine_sent (h : httpClientWriteLine line out = some out') :
    out'.sent = out.sent ++ (line ++ [0x0D, 0x0A]) := by
  obtain ⟨mid, hline, hend⟩ := Option.bind_eq_some_iff.mp h
  rw [httpSocketWrite_sent hend]
  split_ifs at hline with hnil
  · obtain rfl := Option.some.inj hline
    rw [hnil, List.nil_append]
  · rw [httpSocketWrite_sent hline, List.append_assoc]

lemma httpWritePairs_sent {es : List (CString × CString)} {needHost needLength host len : Bool}
    (h : httpWritePairs es needHost needLength out = some (host, len, out')) :
    host = (needHost && es.all fun e => !httpSame httpHost e.1.1) ∧
      len = (needLength && es.all fun e => !httpSame httpContentLength e.1.1) ∧
      out'.sent = out.sent ++
        (es.map fun e => httpLineBuf (httpHeaderText e.1.1 e.2.1)).flatMap (· ++ [0x0D, 0x0A]) := by
  induction es generalizing needHost needLength out with
  | nil =>
      obtain ⟨rfl, h'⟩ := Prod.mk.inj (Option.some.inj h)
      obtain ⟨rfl, rfl⟩ := Prod.mk.inj h'
      simp
  | cons e es ih =>
      obtain ⟨mid, hline, hrest⟩ := Option.bind_eq_some_iff.mp h
      obtain ⟨hhost, hlen, hsent⟩ := ih hrest
      refine ⟨?_, ?_, ?_⟩
      · rw [hhost, List.all_cons]
        cases httpSame httpHost e.1.1 <;> simp
      · rw [hlen, List.all_cons]
        cases httpSame httpContentLength e.1.1 <;> simp
      · rw [hsent, httpClientWriteLine_sent hline, List.map_cons, List.flatMap_cons, List.append_assoc]

end Writing

namespace HttpRequestArgs

variable (req : HttpRequestArgs)

/-- The header lines that are written. -/
def lines : List (List UInt8) :=
  (req.pairs.map fun e => httpLineBuf (httpHeaderText e.1.1 e.2.1)) ++
    (if req.needHost then [httpLineBuf req.hostText] else []) ++
    [httpLineBuf req.connectionText] ++
    ((req.body.map fun data =>
      if req.hasBody && req.needLength then [httpLineBuf (httpLengthText data)] else []).getD [])

/-- The body that is written. -/
def sentBody : List UInt8 :=
  (req.body.map fun data =>
    if req.hasBody then data.take (data.length % 2 ^ 32) else []).getD []

end HttpRequestArgs

lemma httpWriteHost_sent {req : HttpRequestArgs} {out out' : HttpOut}
    (h : httpWriteHost req req.needHost out = some out') : out'.sent = out.sent ++
      (if req.needHost then [httpLineBuf req.hostText] else []).flatMap (· ++ [0x0D, 0x0A]) := by
  rw [httpWriteHost] at h
  split_ifs at h ⊢
  · rw [httpClientWriteLine_sent h]
    simp
  · obtain rfl := Option.some.inj h
    simp

lemma httpWriteLength_sent {req : HttpRequestArgs} {out out' : HttpOut}
    (h : httpWriteLength req req.needLength out = some out') : out'.sent = out.sent ++
      ((req.body.map fun data => if req.hasBody && req.needLength then
        [httpLineBuf (httpLengthText data)] else []).getD []).flatMap (· ++ [0x0D, 0x0A]) := by
  rw [httpWriteLength] at h
  cases hbody : req.body with
  | none =>
      rw [hbody] at h
      obtain rfl := Option.some.inj h
      simp
  | some data =>
      rw [hbody] at h
      simp only [Option.map_some, Option.getD_some]
      split_ifs at h ⊢
      · rw [httpClientWriteLine_sent h]
        simp
      · obtain rfl := Option.some.inj h
        simp

lemma httpWriteBody_sent {req : HttpRequestArgs} {out out' : HttpOut}
    (h : httpWriteBody req out = some out') : out'.sent = out.sent ++ req.sentBody := by
  rw [httpWriteBody] at h
  rw [HttpRequestArgs.sentBody]
  cases hbody : req.body with
  | none =>
      rw [hbody] at h
      obtain rfl := Option.some.inj h
      simp
  | some data =>
      rw [hbody] at h
      simp only [Option.map_some, Option.getD_some]
      split_ifs at h ⊢
      · exact httpSocketWrite_sent h
      · obtain rfl := Option.some.inj h
        simp

/-- The bytes of a request that went through. -/
lemma httpClientWriteRequest_sent {req : HttpRequestArgs} {out out' : HttpOut}
    (h : httpClientWriteRequest req out = some out') : out'.sent = out.sent ++
      httpMessage (httpLineBuf (httpRequestLine req.method.1 req.uri.1) :: req.lines) req.sentBody := by
  obtain ⟨out₁, h₁, h⟩ := Option.bind_eq_some_iff.mp h
  obtain ⟨⟨needHost, needLength, out₂⟩, h₂, h⟩ := Option.bind_eq_some_iff.mp h
  obtain ⟨out₃, h₃, h⟩ := Option.bind_eq_some_iff.mp h
  obtain ⟨out₄, h₄, h⟩ := Option.bind_eq_some_iff.mp h
  obtain ⟨out₅, h₅, h⟩ := Option.bind_eq_some_iff.mp h
  obtain ⟨out₆, h₆, h₇⟩ := Option.bind_eq_some_iff.mp h
  obtain ⟨hhost, hlen, hpairs⟩ := httpWritePairs_sent h₂
  rw [Bool.true_and] at hhost hlen
  obtain rfl : needHost = req.needHost := hhost
  obtain rfl : needLength = req.needLength := hlen
  rw [httpWriteBody_sent h₇, httpClientWriteLine_sent h₆, httpWriteLength_sent h₅,
    httpClientWriteLine_sent h₄, httpWriteHost_sent h₃, hpairs, httpClientWriteLine_sent h₁,
    httpMessage, HttpRequestArgs.lines]
  simp [List.append_assoc]

/-! ### Lines -/

/-- **One reading.** Bytes are lines and a body in one way. -/
lemma httpMessage_inj : ∀ {ls ls' : List (List UInt8)} {b b' : List UInt8},
    (∀ l ∈ ls, HttpCleanLine l) → (∀ l ∈ ls', HttpCleanLine l) →
    httpMessage ls b = httpMessage ls' b' → ls = ls' ∧ b = b'
  | [], [], _, _, _, _, h => ⟨rfl, List.append_cancel_left h⟩
  | [], l :: ls', b, b', _, h', h => by
      obtain ⟨hne, hcr, -⟩ := h' l List.mem_cons_self
      obtain ⟨c, k, rfl⟩ := List.exists_cons_of_ne_nil hne
      have hc : (0x0D : UInt8) = c := (List.cons.inj h).1
      exact absurd (by simp [← hc]) hcr
  | l :: ls, [], b, b', h', _, h => by
      obtain ⟨hne, hcr, -⟩ := h' l List.mem_cons_self
      obtain ⟨c, k, rfl⟩ := List.exists_cons_of_ne_nil hne
      have hc : c = (0x0D : UInt8) := (List.cons.inj h).1
      exact absurd (by simp [hc]) hcr
  | l :: ls, l' :: ls', b, b', hl, hl', h => by
      have hcons (k : List UInt8) (ks : List (List UInt8)) (body : List UInt8) :
          httpMessage (k :: ks) body = k ++ 0x0D :: 0x0A :: httpMessage ks body := by
        simp [httpMessage]
      rw [hcons, hcons] at h
      obtain ⟨rfl, hrest⟩ := append_cons_inj (hl l List.mem_cons_self).2.1
        (hl' l' List.mem_cons_self).2.1 h
      obtain ⟨rfl, rfl⟩ := httpMessage_inj (fun k hk => hl k (List.mem_cons_of_mem _ hk))
        (fun k hk => hl' k (List.mem_cons_of_mem _ hk)) (List.cons.inj hrest).2
      exact ⟨rfl, rfl⟩

lemma httpLineBuf_of_le {text : List UInt8} (h : text.length ≤ 4095) : httpLineBuf text = text :=
  List.take_of_length_le h

lemma length_httpLineBuf_le (text : List UInt8) : (httpLineBuf text).length ≤ 4095 :=
  List.length_take_le ..

lemma HttpCleanLine.lineBuf {text : List UInt8} (h : HttpCleanLine text) :
    HttpCleanLine (httpLineBuf text) := by
  obtain ⟨hne, hcr, hlf⟩ := h
  obtain ⟨c, k, rfl⟩ := List.exists_cons_of_ne_nil hne
  exact ⟨by simp [httpLineBuf], fun hmem => hcr (List.mem_of_mem_take hmem),
    fun hmem => hlf (List.mem_of_mem_take hmem)⟩

/-- The digits of a number break no line. -/
lemma decimal_clean (n : ℕ) : 0x0D ∉ decimal n ∧ 0x0A ∉ decimal n := by
  obtain ⟨-, hdigit, -⟩ := decimal_spec n
  exact ⟨fun h => absurd (hdigit _ h).1 (by decide), fun h => absurd (hdigit _ h).1 (by decide)⟩

lemma httpHeaderText_clean {key value : List UInt8} (hk : 0x0D ∉ key ∧ 0x0A ∉ key)
    (hv : 0x0D ∉ value ∧ 0x0A ∉ value) : HttpCleanLine (httpHeaderText key value) := by
  refine ⟨by simp [httpHeaderText], ?_, ?_⟩
  · simp [httpHeaderText, hk.1, hv.1]
  · simp [httpHeaderText, hk.2, hv.2]

lemma httpRequestLine_clean_iff {method uri : List UInt8} :
    HttpCleanLine (httpRequestLine method uri) ↔
      (0x0D ∉ method ∧ 0x0A ∉ method) ∧ 0x0D ∉ uri ∧ 0x0A ∉ uri := by
  simp only [HttpCleanLine, httpRequestLine, httpVersion, List.mem_append, not_or, ne_eq,
    List.append_eq_nil_iff]
  constructor
  · rintro ⟨-, h1, h2⟩
    exact ⟨⟨h1.1.1.1.1, h2.1.1.1.1⟩, h1.1.1.2, h2.1.1.2⟩
  · rintro ⟨⟨h1, h2⟩, h3, h4⟩
    exact ⟨by simp, ⟨⟨⟨⟨h1, by decide⟩, h3⟩, by decide⟩, by decide⟩, ⟨⟨⟨h2, by decide⟩, h4⟩, by decide⟩,
      by decide⟩

namespace HttpRequestArgs

variable (req : HttpRequestArgs)

lemma pairs_clean {e : CString × CString} (he : e ∈ req.pairs) :
    HttpCleanLine (httpHeaderText e.1.1 e.2.1) := by
  rw [pairs] at he
  cases hmap : req.headers with
  | none =>
      rw [hmap] at he
      cases he
  | some map =>
      rw [hmap] at he
      obtain ⟨hk, hv⟩ := req.headers_clean map hmap e he
      exact httpHeaderText_clean hk hv

lemma connectionText_spec : HttpCleanLine req.connectionText ∧
    httpLineBuf req.connectionText = req.connectionText ∧
    isHostLine req.connectionText = false := by
  rw [connectionText]
  cases req.client.keepalive <;> exact ⟨⟨by decide, by decide, by decide⟩, rfl, rfl⟩

lemma hostText_length : req.hostText.length ≤ 4095 := by
  have hhost := req.client.addr.host_length
  have hlt := req.client.addr.port_le
  have hport : (decimal req.client.addr.port).length ≤ 5 :=
    (length_decimal_le_iff (by norm_num)).mpr (by omega)
  simp only [hostText, httpHeaderText, httpHost, List.length_append, List.length_cons,
    List.length_nil]
  omega

lemma hostText_isHostLine : isHostLine req.hostText = true := rfl

lemma hostText_clean (h : 0x0D ∉ req.client.addr.host ∧ 0x0A ∉ req.client.addr.host) :
    HttpCleanLine req.hostText := by
  have hport := decimal_clean req.client.addr.port
  exact httpHeaderText_clean (by decide) (by simp [h, hport])

end HttpRequestArgs

lemma httpLengthText_spec (data : List UInt8) : HttpCleanLine (httpLengthText data) ∧
    isHostLine (httpLineBuf (httpLengthText data)) = false :=
  ⟨httpHeaderText_clean (by decide) (decimal_clean data.length), rfl⟩

lemma httpLineBuf_lengthText {data : List UInt8} (h : data.length < 2 ^ 32) :
    httpLineBuf (httpLengthText data) = httpLengthText data := by
  have hlen : (decimal data.length).length ≤ 10 := (length_decimal_le_iff (by norm_num)).mpr (by omega)
  refine httpLineBuf_of_le ?_
  simp only [httpLengthText, httpHeaderText, httpContentLength, List.length_append, List.length_cons,
    List.length_nil]
  omega

/-! ### Requests -/

section Requests

variable {req : HttpRequestArgs} {lines : List (List UInt8)} {sent : List UInt8}

/-- The lines that are written are read as lines. -/
lemma HttpRequestIs.lines_clean (h : HttpRequestIs req lines sent) :
    ∀ line ∈ httpLineBuf (httpRequestLine req.method.1 req.uri.1) :: req.lines, HttpCleanLine line := by
  intro line hline
  rw [HttpRequestArgs.lines] at hline
  simp only [List.mem_cons, List.mem_append, List.mem_map] at hline
  rcases hline with rfl | ((⟨e, he, rfl⟩ | hline) | hline) | hline
  · exact (h.clean _ List.mem_cons_self).lineBuf
  · exact (req.pairs_clean he).lineBuf
  · split_ifs at hline with hneed
    · obtain rfl := List.mem_singleton.mp hline
      exact (h.clean _ (List.mem_cons_of_mem _ (h.ownHost hneed))).lineBuf
    · cases hline
  · rcases hline with rfl | hline
    · exact req.connectionText_spec.1.lineBuf
    · cases hline
  · cases hbody : req.body with
    | none =>
        rw [hbody] at hline
        cases hline
    | some data =>
        rw [hbody, Option.map_some, Option.getD_some] at hline
        split_ifs at hline
        · obtain rfl := List.mem_singleton.mp hline
          exact (httpLengthText_spec data).1.lineBuf
        · cases hline

/-- The `Host` headers that are written. -/
lemma HttpRequestArgs.countP_lines
    (hfit : ∀ e ∈ req.pairs, (httpHeaderText e.1.1 e.2.1).length ≤ 4095) :
    req.lines.countP isHostLine =
      (req.pairs.map fun e => httpHeaderText e.1.1 e.2.1).countP isHostLine +
        if req.needHost then 1 else 0 := by
  have hpairs : (req.pairs.map fun e => httpLineBuf (httpHeaderText e.1.1 e.2.1)) =
      req.pairs.map fun e => httpHeaderText e.1.1 e.2.1 :=
    List.map_congr_left fun e he => httpLineBuf_of_le (hfit e he)
  have hhost : httpLineBuf req.hostText = req.hostText := httpLineBuf_of_le req.hostText_length
  obtain ⟨-, hconn, hnot⟩ := req.connectionText_spec
  have hlen : ((req.body.map fun data => if req.hasBody && req.needLength then
      [httpLineBuf (httpLengthText data)] else []).getD []).countP isHostLine = 0 := by
    cases req.body with
    | none => rfl
    | some data =>
        rw [Option.map_some, Option.getD_some]
        split_ifs
        · rw [List.countP_singleton, if_neg (by simp [(httpLengthText_spec data).2])]
        · rfl
  have hone : [req.connectionText].countP isHostLine = 0 := by
    rw [List.countP_singleton, hnot]
    rfl
  have hadded : (if req.needHost then [req.hostText] else []).countP isHostLine =
      if req.needHost then 1 else 0 := by
    split_ifs
    · rw [List.countP_singleton, req.hostText_isHostLine]
      rfl
    · rfl
  rw [HttpRequestArgs.lines, hpairs, hhost, hconn, List.countP_append, List.countP_append,
    List.countP_append, hlen, hone, hadded, Nat.add_zero]

/-- A request that is written as it is fits. -/
lemma HttpRequestIs.fits (h : HttpRequestIs req lines sent)
    (hsent : sent = httpMessage (httpLineBuf (httpRequestLine req.method.1 req.uri.1) :: req.lines)
      req.sentBody) : req.Fits := by
  obtain ⟨hlines, hbody⟩ := httpMessage_inj h.lines_clean h.clean (hsent.symm.trans h.bytes)
  obtain ⟨hline, rfl⟩ := List.cons.inj hlines
  obtain ⟨hmethod, huri⟩ := httpRequestLine_clean_iff.mp (h.clean _ List.mem_cons_self)
  have hheader : ∀ e ∈ req.pairs, (httpHeaderText e.1.1 e.2.1).length ≤ 4095 := by
    intro e he
    -- all lines that are written fit the buffer
    have hmem := h.headers.subset (List.mem_map_of_mem (f := fun e => httpHeaderText e.1.1 e.2.1) he)
    have hle : ∀ line ∈ req.lines, line.length ≤ 4095 := by
      intro line hline
      rw [HttpRequestArgs.lines] at hline
      simp only [List.mem_append, List.mem_map] at hline
      rcases hline with ((⟨e', -, rfl⟩ | hline) | hline) | hline
      · exact length_httpLineBuf_le _
      · split_ifs at hline
        · obtain rfl := List.mem_singleton.mp hline
          exact length_httpLineBuf_le _
        · cases hline
      · obtain rfl := List.mem_singleton.mp hline
        exact length_httpLineBuf_le _
      · cases hdata : req.body with
        | none =>
            rw [hdata] at hline
            cases hline
        | some data =>
            rw [hdata, Option.map_some, Option.getD_some] at hline
            split_ifs at hline
            · obtain rfl := List.mem_singleton.mp hline
              exact length_httpLineBuf_le _
            · cases hline
    exact hle _ hmem
  refine ⟨hmethod, huri, fun hneed => ?_, ?_, hheader, ?_, fun hhas data hdata => ?_⟩
  · obtain ⟨-, hcr, hlf⟩ := h.clean _ (List.mem_cons_of_mem _ (h.ownHost hneed))
    simp only [HttpRequestArgs.hostText, httpHeaderText, List.mem_append, List.mem_cons, not_or] at hcr hlf
    exact ⟨hcr.2.1, hlf.2.1⟩
  · rw [← hline]
    exact length_httpLineBuf_le _
  · have hcount := h.host
    rw [HttpRequestArgs.countP_lines hheader] at hcount
    split_ifs at hcount ⊢ <;> omega
  · have hsome : req.body = some data := hdata
    rw [HttpRequestArgs.sentBody, hsome, hhas] at hbody
    have hlen := congrArg List.length hbody
    simp only [Option.map_some, Option.getD_some, if_true, List.length_take] at hlen
    omega

/-- A request that fits is written as it is. -/
lemma HttpRequestArgs.Fits.written (h : req.Fits)
    (hsent : sent = httpMessage (httpLineBuf (httpRequestLine req.method.1 req.uri.1) :: req.lines)
      req.sentBody) : HttpRequestIs req req.lines sent := by
  have hline := httpLineBuf_of_le h.line
  have hpairs : (req.pairs.map fun e => httpLineBuf (httpHeaderText e.1.1 e.2.1)) =
      req.pairs.map fun e => httpHeaderText e.1.1 e.2.1 :=
    List.map_congr_left fun e he => httpLineBuf_of_le (h.header e he)
  have hhost : httpLineBuf req.hostText = req.hostText := httpLineBuf_of_le req.hostText_length
  have hbody : req.sentBody = if req.hasBody then req.body.getD [] else [] := by
    rw [HttpRequestArgs.sentBody]
    cases hdata : req.body with
    | none => simp
    | some data =>
        rw [Option.map_some, Option.getD_some, Option.getD_some]
        split_ifs with hhas
        · rw [Nat.mod_eq_of_lt (h.body hhas data hdata), List.take_length]
        · rfl
  refine ⟨by rw [hsent, hline, hbody], ?_, ?_, ?_, fun hneed => ?_, fun hhas hneed data hdata => ?_⟩
  · intro line hmem
    rcases List.mem_cons.mp hmem with rfl | hmem
    · exact httpRequestLine_clean_iff.mpr ⟨h.method, h.uri⟩
    · rw [HttpRequestArgs.lines] at hmem
      simp only [List.mem_append, List.mem_map] at hmem
      rcases hmem with ((⟨e, he, rfl⟩ | hmem) | hmem) | hmem
      · exact (req.pairs_clean he).lineBuf
      · split_ifs at hmem with hneed
        · obtain rfl := List.mem_singleton.mp hmem
          exact (req.hostText_clean (h.address hneed)).lineBuf
        · cases hmem
      · obtain rfl := List.mem_singleton.mp hmem
        exact req.connectionText_spec.1.lineBuf
      · cases hdata : req.body with
        | none =>
            rw [hdata] at hmem
            cases hmem
        | some data =>
            rw [hdata, Option.map_some, Option.getD_some] at hmem
            split_ifs at hmem
            · obtain rfl := List.mem_singleton.mp hmem
              exact (httpLengthText_spec data).1.lineBuf
            · cases hmem
  · rw [HttpRequestArgs.lines, hpairs, List.append_assoc, List.append_assoc]
    exact List.sublist_append_left _ _
  · rw [HttpRequestArgs.countP_lines h.header, h.host]
    split_ifs <;> rfl
  · rw [HttpRequestArgs.lines, hneed, hhost]
    simp
  · have hsome : req.body = some data := hdata
    rw [HttpRequestArgs.lines, hsome, hhas, hneed, Option.map_some, Option.getD_some,
      httpLineBuf_lengthText (h.body hhas data hdata)]
    simp

end Requests

/-- **Requests.** When all writes went through, the bytes that were sent are the request that was
asked for exactly when its lines fit into the buffer and have no line breaks, its `Host` header is
given once at most, and the size of its body has 32 bits. -/
theorem httpClientWriteRequest_iff {req : HttpRequestArgs} {answers : List Bool} {out : HttpOut}
    (h : httpClientWriteRequest req ⟨[], answers⟩ = some out) :
    (∃ lines, HttpRequestIs req lines out.sent) ↔ req.Fits := by
  have hsent := httpClientWriteRequest_sent h
  rw [List.nil_append] at hsent
  exact ⟨fun ⟨_, hlines⟩ => hlines.fits hsent, fun hfits => ⟨_, hfits.written hsent⟩⟩

/-- `GET` of an URI from `http://h:443`, without headers of the caller. -/
def httpPlainGet (uri : CString) : HttpRequestArgs where
  client := httpExampleClient false
  method := ⟨[0x47, 0x45, 0x54], by decide⟩
  headers := none
  uri := uri
  body := none
  headers_clean := fun _ h => absurd h (Option.not_mem_none _)

/-- A short URI is written as it is. -/
theorem httpClientWriteRequest_short : ∃ out, httpClientWriteRequest
    (httpPlainGet ⟨[0x2F], by decide⟩) ⟨[], List.replicate 9 true⟩ = some out ∧
      ∃ lines, HttpRequestIs (httpPlainGet ⟨[0x2F], by decide⟩) lines out.sent := by
  obtain ⟨out, h⟩ : ∃ out, httpClientWriteRequest (httpPlainGet ⟨[0x2F], by decide⟩)
    ⟨[], List.replicate 9 true⟩ = some out := ⟨_, rfl⟩
  refine ⟨out, h, (httpClientWriteRequest_iff h).mpr ?_⟩
  exact ⟨by decide, by decide, fun _ => by decide, by decide,
    fun e he => absurd he List.not_mem_nil, rfl, fun hbody => absurd hbody (by decide)⟩

/-- The end of a URI of 4083 bytes is not written. -/
theorem httpClientWriteRequest_fails : ∃ uri : CString, uri.1.length = 4083 ∧ ∃ out,
    httpClientWriteRequest (httpPlainGet uri) ⟨[], List.replicate 9 true⟩ = some out ∧
      ¬ ∃ lines, HttpRequestIs (httpPlainGet uri) lines out.sent := by
  have hzero : (0 : UInt8) ∉ List.replicate 4083 (0x61 : UInt8) := fun h =>
    absurd (List.eq_of_mem_replicate h) (by decide)
  refine ⟨⟨List.replicate 4083 0x61, hzero⟩, List.length_replicate, ?_⟩
  obtain ⟨out, h⟩ : ∃ out, httpClientWriteRequest (httpPlainGet ⟨List.replicate 4083 0x61, hzero⟩)
    ⟨[], List.replicate 9 true⟩ = some out := ⟨_, rfl⟩
  refine ⟨out, h, ?_⟩
  rintro ⟨lines, hlines⟩
  have hline := (hlines.fits (httpClientWriteRequest_sent h)).line
  simp only [httpPlainGet, httpRequestLine, httpVersion, List.length_append, List.length_replicate,
    List.length_cons, List.length_nil] at hline
  omega

end LibCmutils
