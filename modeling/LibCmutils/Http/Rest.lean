import LibCmutils.Http.Framing
import LibCmutils.Http.Request
import LibCmutils.Json.RoundTrip

/-!
REST clients (`src/http.c`): calls of a service by JSON over HTTP.

* `restClientHeaders`, `restRequest`, `restClientExchange`: one exchange of a REST client, over a
  connection to a server. The server is any function of the bytes it gets, with a state.
* `restCall`: `Get`, `Post`, `Put` and `Delete`. `restRun`: calls one after the other, over a
  connection that is kept or opened again.
* `RestMessage`, `RestAnswer`: what requests and answers are. `RestMessage.unique`: a request has
  one reading. `RestImplements`: a server that answers as a service does. `serviceRun`: the same
  calls, made directly.
* `HttpBlock.read`, `httpClientRequest_answer`: an answer is read as what it is, and nothing of
  it is left in the connection.

The main result is `restRun_serves`.
-/

namespace LibCmutils

/-! ### The client -/

/-- `g_cmutil_rest_json_type`, `"application/json"`. -/
def restJsonType : CString :=
  ⟨[0x61, 0x70, 0x70, 0x6C, 0x69, 0x63, 0x61, 0x74, 0x69, 0x6F, 0x6E, 0x2F, 0x6A, 0x73, 0x6F, 0x6E],
    by decide⟩

/-- `"Accept"`. -/
def restAccept : CString := ⟨[0x41, 0x63, 0x63, 0x65, 0x70, 0x74], by decide⟩

/-- `"Content-Type"`. -/
def restContentType : CString :=
  ⟨[0x43, 0x6F, 0x6E, 0x74, 0x65, 0x6E, 0x74, 0x2D, 0x54, 0x79, 0x70, 0x65], by decide⟩

/-- The pairs of the headers of a caller. -/
def restPairs (headers : Option (OrderedMap CString CString)) : List (CString × CString) :=
  (headers.map OrderedMap.entries).getD []

/-- `CMUTIL_RestClientHasHeader`. -/
def restClientHasHeader (headers : Option (OrderedMap CString CString)) (name : CString) : Bool :=
  (restPairs headers).any fun e => httpSame e.1.1 name.1

/-- `CMUTIL_RestClientHeaders`. -/
def restClientHeaders (headers : Option (OrderedMap CString CString)) (hasbody : Bool) :
    OrderedMap CString CString :=
  let res := OrderedMap.empty.putAll (restPairs headers)
  let res :=
    if !restClientHasHeader headers restAccept then res.put restAccept restJsonType else res
  if hasbody && !restClientHasHeader headers restContentType then
    res.put restContentType restJsonType
  else res

/-- The keys and values have no line breaks. -/
def RestCleanPairs (pairs : List (CString × CString)) : Prop :=
  ∀ e ∈ pairs, (0x0D ∉ e.1.1 ∧ 0x0A ∉ e.1.1) ∧ 0x0D ∉ e.2.1 ∧ 0x0A ∉ e.2.1

/-- The methods of a REST client, with the data they send. -/
inductive RestVerb where
  | get
  | post (data : Option Json)
  | put (data : Option Json)
  | delete

/-- `"GET"`. -/
def restGet : List UInt8 := [0x47, 0x45, 0x54]

/-- The name of a method. -/
def RestVerb.method : RestVerb → CString
  | .get => ⟨restGet, by decide⟩
  | .post _ => ⟨httpPost, by decide⟩
  | .put _ => ⟨httpPut, by decide⟩
  | .delete => ⟨[0x44, 0x45, 0x4C, 0x45, 0x54, 0x45], by decide⟩

/-- The data that is sent. -/
def RestVerb.data : RestVerb → Option Json
  | .get | .delete => none
  | .post data | .put data => data

/-- A call of a REST client. -/
structure RestCall where
  verb : RestVerb
  headers : Option (OrderedMap CString CString)
  uri : CString
  headers_clean : RestCleanPairs (restPairs headers)

/-- The body for some data. The length of the text is cast to 32 bits. -/
def restBody (data : Json) : List UInt8 :=
  let text := jsonToString data false
  text.take (text.length % 2 ^ 32)

/-- A header that is put where there is none is the last one. -/
lemma entries_put_default {m : OrderedMap CString CString} {need : Bool} {name value : CString}
    (h : need = true → ∀ e ∈ m.entries, e.1 ≠ name) :
    (if need then m.put name value else m).entries =
      m.entries ++ if need then [(name, value)] else [] := by
  split_ifs with hneed
  · rw [OrderedMap.entries_put, List.filter_eq_self.mpr fun e he => by simpa using h hneed e he]
  · rw [List.append_nil]

lemma restPairs_fresh {headers : Option (OrderedMap CString CString)} {name : CString}
    (h : restClientHasHeader headers name = false) : ∀ e ∈ restPairs headers, e.1 ≠ name := by
  rintro e he rfl
  have hsame := List.any_eq_false.mp h e he
  simp [httpSame] at hsame

/-- The headers that are sent are those of the caller, and the defaults after them. -/
lemma entries_restClientHeaders (headers : Option (OrderedMap CString CString)) (hasbody : Bool) :
    (restClientHeaders headers hasbody).entries = restPairs headers ++
      (if !restClientHasHeader headers restAccept then [(restAccept, restJsonType)] else []) ++
      (if hasbody && !restClientHasHeader headers restContentType then
        [(restContentType, restJsonType)] else []) := by
  have hcaller : (OrderedMap.empty.putAll (restPairs headers)).entries = restPairs headers := by
    cases headers with
    | none => rfl
    | some map => exact congrArg OrderedMap.entries (OrderedMap.putAll_empty map)
  have haccept : (if !restClientHasHeader headers restAccept then
      (OrderedMap.empty.putAll (restPairs headers)).put restAccept restJsonType
      else OrderedMap.empty.putAll (restPairs headers)).entries = restPairs headers ++
        if !restClientHasHeader headers restAccept then [(restAccept, restJsonType)] else [] := by
    rw [entries_put_default, hcaller]
    rw [hcaller]
    exact fun hneed => restPairs_fresh (by simpa using hneed)
  rw [restClientHeaders, entries_put_default, haccept]
  intro hneed e he
  rw [haccept] at he
  rcases List.mem_append.mp he with he | he
  · exact restPairs_fresh (by simpa using (Bool.and_eq_true_iff.mp hneed).2) e he
  · split_ifs at he
    · obtain rfl := List.mem_singleton.mp he
      exact fun heq => absurd (congrArg Subtype.val heq) (by decide)
    · cases he

/-- The defaults break no line. -/
lemma restClientHeaders_clean {headers : Option (OrderedMap CString CString)}
    (h : RestCleanPairs (restPairs headers)) (hasbody : Bool) :
    RestCleanPairs (restClientHeaders headers hasbody).entries := by
  intro e he
  rw [entries_restClientHeaders, List.mem_append, List.mem_append] at he
  rcases he with (he | he) | he
  · exact h e he
  · split_ifs at he
    · obtain rfl := List.mem_singleton.mp he
      exact ⟨⟨by decide, by decide⟩, by decide, by decide⟩
    · cases he
  · split_ifs at he
    · obtain rfl := List.mem_singleton.mp he
      exact ⟨⟨by decide, by decide⟩, by decide, by decide⟩
    · cases he

/-- The request of a call. -/
def restRequest (http : HttpClient) (call : RestCall) : HttpRequestArgs where
  client := http
  method := call.verb.method
  headers := some (restClientHeaders call.headers call.verb.data.isSome)
  uri := call.uri
  body := call.verb.data.map restBody
  headers_clean := by
    intro map hmap
    obtain rfl := Option.some.inj hmap
    exact restClientHeaders_clean call.headers_clean _

/-- The fields of `CMUTIL_RestClient_Internal` besides its timeout. -/
structure RestClient where
  http : HttpClient
  status : ℤ

/-- A client, its server, and the bytes of the server that are still to be read from the
connection. -/
structure RestWorld (σ : Type) where
  client : RestClient
  server : σ
  pending : List UInt8

/-- `CMUTIL_RestClientExchange`. `answers` says how the writes end; `serve` is what the server
does with the bytes of a request. -/
def restClientExchange {σ : Type} (cd : CDouble) (serve : σ → List UInt8 → σ × List UInt8)
    (w : RestWorld σ) (call : RestCall) (answers : List Bool) : RestWorld σ × Option Json :=
  match httpClientWriteRequest (restRequest w.client.http call) ⟨[], answers⟩ with
  | none => ({ w with client := { w.client with status := 0 }, pending := [] }, none)
  | some out =>
      let served := serve w.server out.sent
      let outcome := httpClientRequest w.client.http.keepalive true (w.pending ++ served.2)
      ({ client := { w.client with status := outcome.status.getD 0 }
         server := served.1
         pending :=
          match outcome.socket with
          | .pooled => (outcome.res.map Prod.snd).getD []
          -- the next request opens a connection
          | .closed => [] },
        match outcome.res with
        | none => none
        | some r => if r.1 = [] then none else (jsonParse cd r.1).getD none)

/-- What a call returns. -/
inductive RestResult where
  | json (res : Option Json)
  | put (ok : Bool)
  | deleted

/-- What a call returns for an answer with a status. -/
def RestVerb.result : RestVerb → ℤ → Option Json → RestResult
  | .get, _, res | .post _, _, res => .json res
  | .put _, status, _ => .put (decide (200 ≤ status ∧ status < 300))
  | .delete, _, _ => .deleted

/-- `CMUTIL_RestClientGet`, `CMUTIL_RestClientPost`, `CMUTIL_RestClientPut` and
`CMUTIL_RestClientDelete`, and what `CMUTIL_RestClientGetStatus` returns after it. -/
def restCall {σ : Type} (cd : CDouble) (serve : σ → List UInt8 → σ × List UInt8) (w : RestWorld σ)
    (call : RestCall) (answers : List Bool) : RestWorld σ × RestResult × ℤ :=
  let r := restClientExchange cd serve w call answers
  (r.1, call.verb.result r.1.client.status r.2, r.1.client.status)

/-- Calls, one after the other, with the ends of their writes. -/
def restRun {σ : Type} (cd : CDouble) (serve : σ → List UInt8 → σ × List UInt8) :
    RestWorld σ → List (RestCall × List Bool) → RestWorld σ × List (RestResult × ℤ)
  | w, [] => (w, [])
  | w, (call, answers) :: calls =>
      let r := restCall cd serve w call answers
      let rest := restRun cd serve r.1 calls
      (rest.1, r.2 :: rest.2)

/-! ### Services -/

/-- The header line has the name. -/
def isHeaderLine (name line : List UInt8) : Bool := httpSame name (line.takeWhile (· != 0x3A))

/-- The bytes are the data as JSON. No data is no bytes. -/
def RestData (cd : CDouble) : Option Json → List UInt8 → Prop
  | none, body => body = []
  | some data, body => body ≠ [] ∧ jsonParse cd body = some (some data)

/-- The bytes are one request with the method, the URI and the data. The data is counted by the
one `Content-Length` header. -/
def RestMessage (cd : CDouble) (method uri : List UInt8) (data : Option Json)
    (bytes : List UInt8) : Prop :=
  ∃ lines body, bytes = httpMessage (httpRequestLine method uri :: lines) body ∧
    (∀ line ∈ httpRequestLine method uri :: lines, HttpCleanLine line) ∧
    (0x20 ∉ method ∧ 0x20 ∉ uri) ∧ lines.countP isHostLine = 1 ∧
    lines.filter (isHeaderLine httpContentLength) =
      (if data.isSome then [httpLengthText body] else []) ∧
    lines.filter (isHeaderLine httpTransferEncoding) = [] ∧ RestData cd data body

/-- The bytes are one answer with the status and the data: a status line, headers, and the data
with its length. -/
def RestAnswer (cd : CDouble) (status : ℤ) (data : Option Json) (bytes : List UInt8) : Prop :=
  ∃ l text current h texts hdr body, bytes = l ++ (h ++ body) ∧ HttpLine l text ∧
    httpStatusLine (CString.ofBytes text).1 = some (status, current) ∧ HttpBlock h texts ∧
    httpHeaders true ⟨true, 0, []⟩ texts = some hdr ∧ hdr.len = body.length ∧ ¬ hdr.chunked ∧
    RestData cd data body

/-- What a service answers. -/
structure RestReply (σ : Type) where
  state : σ
  status : ℤ
  data : Option Json

/-- The server answers each request as the service answers the call. -/
def RestImplements {σ : Type} (cd : CDouble) (serve : σ → List UInt8 → σ × List UInt8)
    (service : σ → List UInt8 → List UInt8 → Option Json → RestReply σ) : Prop :=
  ∀ s method uri data bytes, RestMessage cd method uri data bytes →
    (serve s bytes).1 = (service s method uri data).state ∧
      RestAnswer cd (service s method uri data).status (service s method uri data).data
        (serve s bytes).2

/-- The calls, made directly. -/
def serviceRun {σ : Type} (service : σ → List UInt8 → List UInt8 → Option Json → RestReply σ) :
    σ → List RestCall → σ × List (RestResult × ℤ)
  | s, [] => (s, [])
  | s, call :: calls =>
      let reply := service s call.verb.method.1 call.uri.1 call.verb.data
      let rest := serviceRun service reply.state calls
      (rest.1, (call.verb.result reply.status reply.data, reply.status) :: rest.2)

/-- The call can be sent: it fits into the buffer of a line, its URI has no blank, the caller has
given no header that counts the body, and the data has been built by the interface, with a text
of 32 bits and not too deep for the parser. -/
structure RestCall.Fits (http : HttpClient) (call : RestCall) : Prop where
  request : (restRequest http call).Fits
  uri : 0x20 ∉ call.uri.1
  length : ((restPairs call.headers).map fun e => httpHeaderText e.1.1 e.2.1).countP
    (isHeaderLine httpContentLength) = 0
  transfer : ((restPairs call.headers).map fun e => httpHeaderText e.1.1 e.2.1).countP
    (isHeaderLine httpTransferEncoding) = 0
  data : ∀ data ∈ call.verb.data, JsonBuilt data ∧ data.height ≤ 512 ∧
    (jsonToString data false).length < 2 ^ 32

/-! ### Answers -/

section Answers

variable {cd : CDouble} {data : Option Json} {body : List UInt8}

/-- Header lines are read as what they are. -/
lemma HttpBlock.read {h : List UInt8} {texts : List (List UInt8)} (hblock : HttpBlock h texts)
    (keepalive : Bool) (hdr : HttpHeaders) (s : List UInt8) :
    httpReadHeaders keepalive hdr (h ++ s) =
      (httpHeaders keepalive hdr texts).map fun hdr => (hdr, s) := by
  induction hblock generalizing hdr with
  | nil hl =>
      have hempty := hl.empty s
      rw [httpReadHeaders_end _ hempty.text, hl.read]
      rfl
  | @cons l text b texts hl hfield _ ih =>
      rw [List.append_assoc]
      have hread := hl.read (b ++ s)
      have htext : (httpClientReadLine (l ++ (b ++ s))).text ≠ [] := by
        rw [hread]
        exact httpField_iff.mp hfield
      rw [httpReadHeaders_line _ (by rw [hread]) htext, hread, httpHeaders, List.foldlM_cons]
      cases hline : httpHeaderLine keepalive hdr (CString.ofBytes text).1 with
      | none =>
          have hnone :
              httpHeaderLine keepalive hdr (HttpLineRead.text ⟨true, text, b ++ s⟩) = none :=
            hline
          rw [hnone]
          rfl
      | some hdr' =>
          have hsome : httpHeaderLine keepalive hdr (HttpLineRead.text ⟨true, text, b ++ s⟩) =
              some hdr' := hline
          rw [hsome]
          exact ih hdr'

/-- Whether the connection is kept decides nothing else about header lines. -/
lemma httpHeaders_keepalive (keepalive k : Bool) (hdr : HttpHeaders) (texts : List (List UInt8)) :
    ∃ k', httpHeaders keepalive { hdr with keepalive := k } texts =
      (httpHeaders true hdr texts).map fun hdr => { hdr with keepalive := k' } := by
  induction texts generalizing hdr k with
  | nil => exact ⟨k, rfl⟩
  | cons text texts ih =>
      obtain ⟨k₁, hline⟩ := httpHeaderLine_keepalive keepalive k hdr (CString.ofBytes text).1
      rw [httpHeaders, httpHeaders, List.foldlM_cons, List.foldlM_cons, hline]
      cases httpHeaderLine true hdr (CString.ofBytes text).1 with
      | none => exact ⟨k, rfl⟩
      | some hdr' => exact ih k₁ hdr'

/-- An answer is read as what it is. What follows it is left. -/
lemma httpClientRequest_answer {status : ℤ} {bytes : List UInt8}
    (h : RestAnswer cd status data bytes) (keepalive : Bool) (s : List UInt8) :
    ∃ (body : List UInt8) (k : Bool), RestData cd data body ∧
      httpClientRequest keepalive true (bytes ++ s) =
        ⟨some (body, s), some status, if k then .pooled else .closed⟩ := by
  obtain ⟨l, text, current, h, texts, hdr, body, rfl, hl, hstatus, hblock, hhdr, hlen, hchunked,
    hdata⟩ := h
  obtain ⟨k, hk⟩ := httpHeaders_keepalive keepalive (keepalive && current) ⟨true, 0, []⟩ texts
  rw [hhdr, Option.map_some] at hk
  refine ⟨body, k, hdata, ?_⟩
  have hread : httpClientReadLine (l ++ (h ++ body) ++ s) = ⟨true, text, h ++ (body ++ s)⟩ := by
    rw [List.append_assoc, List.append_assoc]
    exact hl.read _
  have hbody : httpReadBody { hdr with keepalive := k } (body ++ s) = some (body, s) := by
    rw [httpReadBody]
    split_ifs with hpos hlt hchunk
    · simp only [hlen, List.take_left, List.drop_left]
    · exact absurd (by simp only [hlen, List.length_append]; omega) hlt
    · exact absurd hchunk hchunked
    · have hnil : body = [] := List.length_eq_zero_iff.mp (by
        rw [← hlen]
        exact Nat.eq_zero_of_not_pos hpos)
      rw [hnil, List.nil_append]
  have hstatus' : httpStatusLine (HttpLineRead.text ⟨true, text, h ++ (body ++ s)⟩) =
      some (status, current) := hstatus
  have hheaders : httpReadHeaders keepalive ⟨keepalive && current, 0, []⟩ (h ++ (body ++ s)) =
      some ({ hdr with keepalive := k }, body ++ s) := by
    rw [hblock.read, hk, Option.map_some]
  simp only [httpClientRequest, hread, hstatus', hheaders, hbody, Bool.and_self, Bool.not_true,
    Bool.false_eq_true, if_false]

/-- Data is read back from its bytes. -/
lemma RestData.parse (h : RestData cd data body) :
    (if body = [] then none else (jsonParse cd body).getD none) = data := by
  cases data with
  | none => exact if_pos h
  | some data => rw [if_neg h.1, h.2, Option.getD_some]

end Answers

/-! ### Requests -/

section Requests

variable {cd : CDouble} {http : HttpClient} {call : RestCall}

/-- A header with the name is a line with the name. -/
lemma isHeaderLine_of_same {name key : List UInt8} (hname : 0x3A ∉ name.map tolower)
    (h : httpSame name key = true) (value : List UInt8) :
    isHeaderLine name (httpHeaderText key value) = true := by
  have hmap : name.map tolower = key.map tolower := by simpa [httpSame] using h
  have hcolon : ∀ b ∈ key, (b != 0x3A) = true := by
    intro b hb
    rw [bne_iff_ne]
    rintro rfl
    exact hname (hmap ▸ List.mem_map.mpr ⟨0x3A, hb, rfl⟩)
  have htake : (httpHeaderText key value).takeWhile (· != 0x3A) = key := by
    rw [httpHeaderText, List.append_assoc, List.takeWhile_append_of_pos hcolon]
    simp
  rw [isHeaderLine, htake]
  exact h

/-- Where no header is of the name, the count of the body is the only line that may be. -/
lemma HttpRequestArgs.filter_lines {req : HttpRequestArgs} {name : List UInt8}
    (hfit : ∀ e ∈ req.pairs, (httpHeaderText e.1.1 e.2.1).length ≤ 4095)
    (hpairs : ∀ e ∈ req.pairs, isHeaderLine name (httpHeaderText e.1.1 e.2.1) = false)
    (hhost : isHeaderLine name req.hostText = false)
    (hconnection : isHeaderLine name req.connectionText = false) :
    req.lines.filter (isHeaderLine name) =
      ((req.body.map fun data => if req.hasBody && req.needLength then
        [httpLineBuf (httpLengthText data)] else []).getD []).filter (isHeaderLine name) := by
  have hcallers : (req.pairs.map fun e => httpLineBuf (httpHeaderText e.1.1 e.2.1)).filter
      (isHeaderLine name) = [] := by
    rw [List.filter_eq_nil_iff]
    intro line hline
    obtain ⟨e, he, rfl⟩ := List.mem_map.mp hline
    rw [httpLineBuf_of_le (hfit e he), hpairs e he]
    exact Bool.false_ne_true
  have hown : (if req.needHost then [httpLineBuf req.hostText] else []).filter
      (isHeaderLine name) = [] := by
    rw [httpLineBuf_of_le req.hostText_length]
    split_ifs
    · simp [hhost]
    · rfl
  have hone : [httpLineBuf req.connectionText].filter (isHeaderLine name) = [] := by
    rw [req.connectionText_spec.2.1]
    simp [hconnection]
  rw [HttpRequestArgs.lines, List.filter_append, List.filter_append, List.filter_append, hcallers,
    hown, hone, List.nil_append, List.nil_append, List.nil_append]

/-- The headers of a call that are not of a name. -/
lemma restRequest_pairs {name : List UInt8}
    (hcaller : ((restPairs call.headers).map fun e => httpHeaderText e.1.1 e.2.1).countP
      (isHeaderLine name) = 0)
    (haccept : isHeaderLine name (httpHeaderText restAccept.1 restJsonType.1) = false)
    (htype : isHeaderLine name (httpHeaderText restContentType.1 restJsonType.1) = false) :
    ∀ e ∈ (restRequest http call).pairs,
      isHeaderLine name (httpHeaderText e.1.1 e.2.1) = false := by
  intro e he
  have hentries : (restRequest http call).pairs = _ :=
    entries_restClientHeaders call.headers call.verb.data.isSome
  rw [hentries, List.mem_append, List.mem_append] at he
  rcases he with (he | he) | he
  · exact Bool.eq_false_iff.mpr (List.countP_eq_zero.mp hcaller _ (List.mem_map.mpr ⟨e, he, rfl⟩))
  · split_ifs at he
    · obtain rfl := List.mem_singleton.mp he
      exact haccept
    · cases he
  · split_ifs at he
    · obtain rfl := List.mem_singleton.mp he
      exact htype
    · cases he

/-- The text of data that has been built is read as the data. -/
lemma restData_restBody {data : Json} (hbuilt : JsonBuilt data) (hheight : data.height ≤ 512)
    (hlen : (jsonToString data false).length < 2 ^ 32) :
    RestData cd (some data) (restBody data) := by
  have hbody : restBody data = jsonToString data false := by
    rw [restBody, Nat.mod_eq_of_lt hlen, List.take_length]
  obtain ⟨q, hv, -⟩ := hbuilt.wellFormed.prints cd false 0 [] [] (by omega) (by simp [Pad])
    (by simp [Stop])
  rw [List.append_nil, List.append_nil] at hv
  have hparse : jsonParse cd (jsonToString data false) = some (some data) :=
    jsonParse_eq_some_iff.mpr ⟨_, q, .nil _, hv.mono true⟩
  rw [RestData, hbody]
  refine ⟨fun hnil => ?_, hparse⟩
  rw [hnil] at hparse
  cases hparse

lemma restRequest_hasBody {data : Json} (hdata : call.verb.data = some data) :
    (restRequest http call).hasBody = true := by
  have hmethod : (restRequest http call).hasBody =
      (httpSame call.verb.method.1 httpPost || httpSame call.verb.method.1 httpPut) := rfl
  rw [hmethod]
  cases hverb : call.verb with
  | get | delete =>
      rw [hverb] at hdata
      cases hdata
  | post | put => rfl

/-- The bytes of a call that fits are one request, that call. -/
lemma RestCall.Fits.message (h : call.Fits http) {answers : List Bool} {out : HttpOut}
    (hout : httpClientWriteRequest (restRequest http call) ⟨[], answers⟩ = some out) :
    RestMessage cd call.verb.method.1 call.uri.1 call.verb.data out.sent := by
  have hsent := httpClientWriteRequest_sent hout
  rw [List.nil_append] at hsent
  have his := h.request.written hsent
  have hmethod : 0x20 ∉ call.verb.method.1 := by
    cases call.verb <;> simp [RestVerb.method, restGet, httpPost, httpPut]
  have hneed : (restRequest http call).needLength = true := by
    refine List.all_eq_true.mpr fun e he => ?_
    have hline : isHeaderLine _ (httpHeaderText e.1.1 e.2.1) = false :=
      restRequest_pairs h.length rfl rfl e he
    rw [Bool.not_eq_true', Bool.eq_false_iff]
    intro hsame
    rw [isHeaderLine_of_same (by decide) hsame] at hline
    cases hline
  have hlength := HttpRequestArgs.filter_lines h.request.header
    (restRequest_pairs h.length rfl rfl) rfl rfl
  have htransfer := HttpRequestArgs.filter_lines h.request.header
    (restRequest_pairs h.transfer rfl rfl) rfl rfl
  have hbytes := his.bytes
  rw [hneed, Bool.and_true] at hlength htransfer
  cases hdata : call.verb.data with
  | none =>
      have hbody : (restRequest http call).body = none := congrArg (Option.map restBody) hdata
      rw [hbody, Option.getD_none, ite_self] at hbytes
      rw [hbody] at hlength htransfer
      exact ⟨_, _, hbytes, his.clean, ⟨hmethod, h.uri⟩, his.host, hlength, htransfer, rfl⟩
  | some data =>
      obtain ⟨hbuilt, hheight, hlen⟩ := h.data data hdata
      have hbody : (restRequest http call).body = some (restBody data) :=
        congrArg (Option.map restBody) hdata
      have hline : httpLineBuf (httpLengthText (restBody data)) = httpLengthText (restBody data) :=
        httpLineBuf_lengthText ((List.length_take_le ..).trans_lt (Nat.mod_lt _ (by norm_num)))
      rw [hbody, restRequest_hasBody hdata, if_pos rfl, Option.getD_some] at hbytes
      rw [hbody, Option.map_some, Option.getD_some, restRequest_hasBody hdata, if_pos rfl, hline]
        at hlength htransfer
      exact ⟨_, _, hbytes, his.clean, ⟨hmethod, h.uri⟩, his.host, hlength, htransfer,
        restData_restBody hbuilt hheight hlen⟩

/-! ### One reading -/

lemma RestData.unique {data data' : Option Json} {body : List UInt8} (h : RestData cd data body)
    (h' : RestData cd data' body) : data = data' := h.parse.symm.trans h'.parse

/-- **One reading.** The bytes of a request have one method, one URI and one data. -/
lemma RestMessage.unique {method method' uri uri' bytes : List UInt8} {data data' : Option Json}
    (h : RestMessage cd method uri data bytes) (h' : RestMessage cd method' uri' data' bytes) :
    method = method' ∧ uri = uri' ∧ data = data' := by
  obtain ⟨lines, body, rfl, hclean, ⟨hmethod, huri⟩, -, -, -, hdata⟩ := h
  obtain ⟨lines', body', hbytes, hclean', ⟨hmethod', huri'⟩, -, -, -, hdata'⟩ := h'
  obtain ⟨hlines, rfl⟩ := httpMessage_inj hclean hclean' hbytes
  obtain ⟨hfirst, -⟩ := List.cons.inj hlines
  have hsplit : method ++ 0x20 :: (uri ++ 0x20 :: httpVersion) =
      method' ++ 0x20 :: (uri' ++ 0x20 :: httpVersion) := by
    simpa [httpRequestLine] using hfirst
  obtain ⟨rfl, hrest⟩ := append_cons_inj hmethod hmethod' hsplit
  obtain ⟨rfl, -⟩ := append_cons_inj huri huri' hrest
  exact ⟨rfl, rfl, hdata.unique hdata'⟩

end Requests

/-! ### Runs -/

section Runs

variable {σ : Type} {cd : CDouble} {serve : σ → List UInt8 → σ × List UInt8}
  {service : σ → List UInt8 → List UInt8 → Option Json → RestReply σ}

/-- **One call.** Over a connection with nothing left to read, the call returns what the service
answers, and leaves nothing to read. -/
lemma restCall_serves (himplements : RestImplements cd serve service) {w : RestWorld σ}
    (hpending : w.pending = []) {call : RestCall} {answers : List Bool}
    (hfits : call.Fits w.client.http)
    (hsent : (httpClientWriteRequest (restRequest w.client.http call) ⟨[], answers⟩).isSome) :
    restCall cd serve w call answers =
      let reply := service w.server call.verb.method.1 call.uri.1 call.verb.data
      (⟨{ w.client with status := reply.status }, reply.state, []⟩,
        call.verb.result reply.status reply.data, reply.status) := by
  obtain ⟨out, hout⟩ := Option.isSome_iff_exists.mp hsent
  obtain ⟨hstate, hanswer⟩ := himplements w.server _ _ _ _ (hfits.message hout)
  obtain ⟨body, k, hdata, houtcome⟩ :=
    httpClientRequest_answer hanswer w.client.http.keepalive []
  rw [List.append_nil] at houtcome
  rw [restCall, restClientExchange]
  simp only [hout, hpending, List.nil_append, houtcome, hstate]
  cases k <;> simp [hdata.parse]

/-- **A service over HTTP.** For a server that answers each request as a service does, and a
client whose calls fit and are sent, the calls return what the same calls of the service return,
one after the other, with their states; and the server has the state of the service. -/
theorem restRun_serves (himplements : RestImplements cd serve service)
    {calls : List (RestCall × List Bool)} (client : RestClient) (s : σ)
    (hcalls : ∀ c ∈ calls, c.1.Fits client.http ∧
      (httpClientWriteRequest (restRequest client.http c.1) ⟨[], c.2⟩).isSome) :
    (restRun cd serve ⟨client, s, []⟩ calls).2 = (serviceRun service s (calls.map Prod.fst)).2 ∧
      (restRun cd serve ⟨client, s, []⟩ calls).1.server =
        (serviceRun service s (calls.map Prod.fst)).1 ∧
      (restRun cd serve ⟨client, s, []⟩ calls).1.pending = [] := by
  induction calls generalizing client s with
  | nil => exact ⟨rfl, rfl, rfl⟩
  | cons c calls ih =>
      obtain ⟨call, answers⟩ := c
      obtain ⟨hfits, hsent⟩ := hcalls _ List.mem_cons_self
      have hcall := restCall_serves (w := ⟨client, s, []⟩) himplements rfl hfits hsent
      obtain ⟨hresults, hserver, hpending⟩ := ih
        { client with status := (service s call.verb.method.1 call.uri.1 call.verb.data).status }
        (service s call.verb.method.1 call.uri.1 call.verb.data).state
        fun c hc => hcalls c (List.mem_cons_of_mem _ hc)
      rw [restRun, hcall, List.map_cons, serviceRun]
      exact ⟨congrArg _ hresults, hserver, hpending⟩

/-- There is a server for each service whose answers can be written. -/
lemma exists_restImplements (cd : CDouble)
    (service : σ → List UInt8 → List UInt8 → Option Json → RestReply σ)
    (hanswers : ∀ s method uri data, ∃ bytes, RestAnswer cd (service s method uri data).status
      (service s method uri data).data bytes) :
    ∃ serve : σ → List UInt8 → σ × List UInt8, RestImplements cd serve service := by
  have hserve : ∀ s bytes, ∃ r : σ × List UInt8, ∀ method uri data,
      RestMessage cd method uri data bytes → r.1 = (service s method uri data).state ∧
        RestAnswer cd (service s method uri data).status (service s method uri data).data r.2 := by
    intro s bytes
    by_cases hmessage : ∃ method uri data, RestMessage cd method uri data bytes
    · obtain ⟨method, uri, data, h⟩ := hmessage
      obtain ⟨answer, hanswer⟩ := hanswers s method uri data
      refine ⟨((service s method uri data).state, answer), fun method' uri' data' h' => ?_⟩
      obtain ⟨rfl, rfl, rfl⟩ := h.unique h'
      exact ⟨rfl, hanswer⟩
    · exact ⟨(s, []), fun method uri data h => absurd ⟨method, uri, data, h⟩ hmessage⟩
  choose serve hserve using hserve
  exact ⟨serve, fun s method uri data bytes h => hserve s bytes method uri data h⟩

end Runs

/-- `GET /` without headers of the caller. -/
def restPlainGet : RestCall where
  verb := .get
  headers := none
  uri := ⟨[0x2F], by decide⟩
  headers_clean := fun _ h => absurd h List.not_mem_nil

/-- `HTTP/1.1 200 OK`, `Content-Length: 4` and `true`. -/
def restPlainAnswer : List UInt8 :=
  (httpVersion ++ [0x20, 0x32, 0x30, 0x30, 0x20, 0x4F, 0x4B, 0x0D, 0x0A]) ++
    ((httpLengthText trueText ++ [0x0D, 0x0A]) ++ [0x0D, 0x0A] ++ trueText)

/-- No doubles. -/
def restPlainDouble : CDouble := ⟨Unit, fun _ => none, fun _ => CString.ofBytes []⟩

lemma restPlainAnswer_answer :
    RestAnswer restPlainDouble 200 (some (jsonValueSetBoolean true)) restPlainAnswer := by
  refine ⟨_, httpVersion ++ [0x20, 0x32, 0x30, 0x30, 0x20, 0x4F, 0x4B], true, _,
    [httpLengthText trueText], ⟨true, 4, []⟩, trueText, rfl,
    ⟨httpVersion ++ [0x20, 0x32, 0x30, 0x30, 0x20, 0x4F, 0x4B, 0x0D], rfl, ?_, ?_, ?_⟩, ?_, ?_, ?_,
    rfl, by decide, ?_⟩
  · decide
  · decide
  · decide
  · decide
  · exact .cons ⟨httpLengthText trueText ++ [0x0D], rfl, by decide, by decide, by decide⟩
      ⟨by decide, by decide⟩ (.nil ⟨[0x0D], rfl, by decide, by decide, by decide⟩)
  · decide
  · exact restData_restBody (.setBoolean true) (by decide) (by decide)

/-- A service that counts its calls. -/
theorem restRun_serves_get :
    let calls := [(restPlainGet, List.replicate 9 true), (restPlainGet, List.replicate 9 true)]
    let serve : ℕ → List UInt8 → ℕ × List UInt8 := fun s _ => (s + 1, restPlainAnswer)
    let service : ℕ → List UInt8 → List UInt8 → Option Json → RestReply ℕ :=
      fun s _ _ _ => ⟨s + 1, 200, some (jsonValueSetBoolean true)⟩
    let r := restRun restPlainDouble serve ⟨⟨httpExampleClient false, 0⟩, 0, []⟩ calls
    r.2 = (serviceRun service 0 (calls.map Prod.fst)).2 ∧
      r.1.server = (serviceRun service 0 (calls.map Prod.fst)).1 ∧ r.1.pending = [] := by
  refine restRun_serves (fun s _ _ _ _ _ => ⟨rfl, restPlainAnswer_answer⟩) _ 0 ?_
  have hfits : restPlainGet.Fits (httpExampleClient false) := by
    refine ⟨⟨by decide, by decide, fun _ => by decide, by decide, by decide, rfl,
      fun hbody => absurd hbody (by decide)⟩, by decide, rfl, rfl, nofun⟩
  intro c hc
  have hcall : c = (restPlainGet, List.replicate 9 true) := by simpa using hc
  rw [hcall]
  exact ⟨hfits, rfl⟩

end LibCmutils
