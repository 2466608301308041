import LibCmutils.Lib.CNumber
import LibCmutils.String.Basic
import Mathlib.Data.List.Infix

/-!
Reading an HTTP response (`src/http.c`), and what a response is.

* `httpClientReadLine`: one line of what the socket delivers. A socket is the list of
  the bytes that arrive before it fails or times out; after that every read fails.
* `httpReadHeaders`, `httpReadChunks`, `httpReadBody`, `httpClientRequest`: the parts of
  `CMUTIL_HttpClientRequest` that follow the request, and all of it.
* `HttpLine`, `HttpBlock`, `HttpChunked`, `HttpResponse`: the bytes of a response, in
  the words of the protocol. Header lines are read by `httpHeaderLine`.
* `HttpFramed`: what a caller may expect of a request.
-/

namespace LibCmutils

/-! ### Names -/

/-- `"Connection"`. -/
def httpConnection : List UInt8 := [0x43, 0x6F, 0x6E, 0x6E, 0x65, 0x63, 0x74, 0x69, 0x6F, 0x6E]

/-- `"Content-Length"`. -/
def httpContentLength : List UInt8 :=
  [0x43, 0x6F, 0x6E, 0x74, 0x65, 0x6E, 0x74, 0x2D, 0x4C, 0x65, 0x6E, 0x67, 0x74, 0x68]

/-- `"Transfer-Encoding"`. -/
def httpTransferEncoding : List UInt8 :=
  [0x54, 0x72, 0x61, 0x6E, 0x73, 0x66, 0x65, 0x72, 0x2D, 0x45, 0x6E, 0x63, 0x6F, 0x64, 0x69, 0x6E,
    0x67]

/-- `"close"`. -/
def httpClose : List UInt8 := [0x63, 0x6C, 0x6F, 0x73, 0x65]

/-- `"keep-alive"`. -/
def httpKeepAlive : List UInt8 := [0x6B, 0x65, 0x65, 0x70, 0x2D, 0x61, 0x6C, 0x69, 0x76, 0x65]

/-- `"chunked"`. -/
def httpChunkedName : List UInt8 := [0x63, 0x68, 0x75, 0x6E, 0x6B, 0x65, 0x64]

/-- `"HTTP/1.1"`. -/
def httpVersion : List UInt8 := [0x48, 0x54, 0x54, 0x50, 0x2F, 0x31, 0x2E, 0x31]

/-- `CMUTIL_HTTP_MAX_BODY`. -/
def httpMaxBody : ℤ := 1024 * 1024 * 1024

/-- `strcasecmp` finds two strings equal. -/
def httpSame (a b : List UInt8) : Bool := a.map tolower == b.map tolower

/-! ### Lines -/

/-- What `CMUTIL_HttpClientReadLine` returns, what is in its buffer before the NUL it puts
there, and what is left of the stream. -/
structure HttpLineRead where
  ok : Bool
  buf : List UInt8
  rest : List UInt8
  deriving DecidableEq

/-- The loop of `CMUTIL_HttpClientReadLine`, with room for `room` more bytes. -/
def httpReadLineLoop : ℕ → List UInt8 → HttpLineRead
  | _, [] => ⟨false, [], []⟩
  | room, b :: s =>
      if room = 0 then ⟨false, [], b :: s⟩
      else if b = 0x0A then ⟨true, [], s⟩
      else if b = 0x0D then httpReadLineLoop room s
      else
        let line := httpReadLineLoop (room - 1) s
        { line with buf := b :: line.buf }

/-- `CMUTIL_HttpClientReadLine` with a buffer of 4096 bytes. -/
def httpClientReadLine (s : List UInt8) : HttpLineRead := httpReadLineLoop 4095 s

/-- The C string in the buffer. -/
def HttpLineRead.text (line : HttpLineRead) : List UInt8 := (CString.ofBytes line.buf).1

lemma length_httpReadLineLoop_le (room : ℕ) (s : List UInt8) :
    (httpReadLineLoop room s).rest.length ≤ s.length := by
  induction s generalizing room with
  | nil => exact le_rfl
  | cons b s ih =>
      rw [httpReadLineLoop]
      split_ifs
      · exact le_rfl
      · exact Nat.le_succ _
      · exact (ih room).trans (Nat.le_succ _)
      · exact (ih (room - 1)).trans (Nat.le_succ _)

lemma length_httpReadLineLoop_lt {room : ℕ} {s : List UInt8}
    (h : (httpReadLineLoop room s).ok = true) :
    (httpReadLineLoop room s).rest.length < s.length := by
  induction s generalizing room with
  | nil => cases h
  | cons b s ih =>
      rw [httpReadLineLoop] at h ⊢
      split_ifs at h ⊢
      · exact Nat.lt_succ_self _
      · exact (ih h).trans (Nat.lt_succ_self _)
      · exact Nat.lt_succ_of_le (length_httpReadLineLoop_le _ s)

/-- A line that was read took at least its end. -/
lemma length_httpClientReadLine_lt {s : List UInt8} (h : (httpClientReadLine s).ok = true) :
    (httpClientReadLine s).rest.length < s.length := length_httpReadLineLoop_lt h

lemma length_httpClientReadLine_le (s : List UInt8) :
    (httpClientReadLine s).rest.length ≤ s.length := length_httpReadLineLoop_le 4095 s

/-- `CMUTIL_HttpClientLineValue`. -/
def httpClientLineValue (buf header : List UInt8) : Option (List UInt8) :=
  match strchrSplit 0x3A buf with
  | none => none
  | some (name, value) =>
      if 128 ≤ name.length then none
      else if httpSame (strTrim name) header then some (strTrim value) else none

/-! ### The response as it is read -/

/-- `CMUTIL_HttpClientRequest` on the status line: the status, and whether the version is
`HTTP/1.1`. -/
def httpStatusLine (buf : List UInt8) : Option (ℤ × Bool) :=
  (strchrSplit 0x20 buf).map fun p => (intStrtol (strchrPrefix 0x20 p.2), p.1 == httpVersion)

/-- The local variables `keepalive`, `len` and `transfer`. The buffer of `transfer` holds 1023
bytes of the value, which are what `strstr` looks at. -/
structure HttpHeaders where
  keepalive : Bool
  len : ℕ
  transfer : List UInt8
  deriving DecidableEq

/-- A number from a header or a chunk, `none` where it is not accepted. -/
def httpLength (base : ℕ) (p : List UInt8) : Option ℕ :=
  match strtoll base p with
  | none => none
  | some (clen, _) => if clen < 0 ∨ httpMaxBody < clen then none else some clen.toNat

/-- The loop over the headers, for one line, `none` for `FAILED`. The value of
`Content-Encoding` is stored and not used. -/
def httpHeaderLine (keepalive : Bool) (hdr : HttpHeaders) (buf : List UInt8) :
    Option HttpHeaders :=
  match httpClientLineValue buf httpConnection with
  | some p =>
      if httpSame p httpClose then some { hdr with keepalive := false }
      else if httpSame p httpKeepAlive then some { hdr with keepalive := keepalive }
      else some hdr
  | none =>
      match httpClientLineValue buf httpContentLength with
      | some p => (httpLength 10 p).map fun len => { hdr with len := len }
      | none =>
          match httpClientLineValue buf httpTransferEncoding with
          | some p => some { hdr with transfer := p }
          | none => some hdr

/-- The loop over the headers. It ends with an empty buffer, also where no line was read. -/
def httpReadHeaders (keepalive : Bool) (hdr : HttpHeaders) (s : List UInt8) :
    Option (HttpHeaders × List UInt8) :=
  let line := httpClientReadLine s
  if line.text = [] then some (hdr, line.rest)
  else if line.ok = true then
    match httpHeaderLine keepalive hdr line.text with
    | none => none
    | some hdr => httpReadHeaders keepalive hdr line.rest
  else none
termination_by s.length
decreasing_by exact length_httpClientReadLine_lt (by assumption)

/-- The loop over the chunks: the body, and what is left of the stream. -/
def httpReadChunks (s : List UInt8) : Option (List UInt8 × List UInt8) :=
  let line := httpClientReadLine s
  if line.ok = true then
    if line.text = [] then some ([], line.rest)
    else
      match httpLength 16 line.text with
      | none => none
      -- the line after the last chunk is not looked at
      | some 0 => some ([], (httpClientReadLine line.rest).rest)
      | some (n + 1) =>
          if n + 1 ≤ line.rest.length then
            -- nor is the line after a chunk
            (httpReadChunks (httpClientReadLine (line.rest.drop (n + 1))).rest).map fun r =>
              (line.rest.take (n + 1) ++ r.1, r.2)
          else none
  else some ([], line.rest)
termination_by s.length
decreasing_by
  refine (length_httpClientReadLine_le _).trans_lt ?_
  rw [List.length_drop]
  exact (Nat.sub_le _ _).trans_lt (length_httpClientReadLine_lt (by assumption))

/-- The `transfer` buffer names the chunked coding. -/
def HttpHeaders.chunked (hdr : HttpHeaders) : Prop := httpChunkedName <:+: hdr.transfer.take 1023

instance (hdr : HttpHeaders) : Decidable hdr.chunked :=
  inferInstanceAs (Decidable (httpChunkedName <:+: hdr.transfer.take 1023))

/-- The body. -/
def httpReadBody (hdr : HttpHeaders) (s : List UInt8) : Option (List UInt8 × List UInt8) :=
  if 0 < hdr.len then
    if hdr.len ≤ s.length then some (s.take hdr.len, s.drop hdr.len) else none
  else if hdr.chunked then httpReadChunks s
  else some ([], s)

/-- What becomes of the socket of a request. -/
inductive HttpSocketEnd where
  | closed
  | pooled
  deriving DecidableEq

/-- What a request returns: the body, with what it left of the stream, the status if it was
set, and what it did with the socket. -/
structure HttpOutcome where
  res : Option (List UInt8 × List UInt8)
  status : Option ℤ
  socket : HttpSocketEnd
  deriving DecidableEq

/-- `CMUTIL_HttpClientRequest` with a socket that delivers the bytes `s`. `sent` says that
all writes of the request went through. -/
def httpClientRequest (keepalive sent : Bool) (s : List UInt8) : HttpOutcome :=
  let line := httpClientReadLine s
  if !(sent && line.ok) then ⟨none, none, .closed⟩
  else
    match httpStatusLine line.text with
    | none => ⟨none, none, .closed⟩
    | some (status, current) =>
        match httpReadHeaders keepalive ⟨keepalive && current, 0, []⟩ line.rest with
        | none => ⟨none, some status, .closed⟩
        | some (hdr, rest) =>
            match httpReadBody hdr rest with
            | none => ⟨none, some status, .closed⟩
            | some r => ⟨some r, some status, if hdr.keepalive then .pooled else .closed⟩

/-! ### Responses -/

/-- The bytes `l` are one line with the text `text`: they end with their only LF, CRs do not
count, and the text fits into a buffer of 4096 bytes with its LF and a NUL. -/
def HttpLine (l text : List UInt8) : Prop :=
  ∃ u, l = u ++ [0x0A] ∧ 0x0A ∉ u ∧ text = u.filter (· != 0x0D) ∧ text.length < 4095

/-- The text of a header or trailer line. -/
def HttpField (text : List UInt8) : Prop := text ≠ [] ∧ text.head? ≠ some 0

/-- Header or trailer lines with the texts `texts`, through their empty line. -/
inductive HttpBlock : List UInt8 → List (List UInt8) → Prop where
  | nil {l : List UInt8} : HttpLine l [] → HttpBlock l []
  | cons {l text b : List UInt8} {texts : List (List UInt8)} :
      HttpLine l text → HttpField text → HttpBlock b texts → HttpBlock (l ++ b) (text :: texts)

/-- The size of a chunk. -/
def httpChunkSize (text : List UInt8) : Option ℕ := httpLength 16 (CString.ofBytes text).1

/-- All chunks of `body`, through the zero chunk and the empty line of its trailer section. -/
inductive HttpChunked : List UInt8 → List UInt8 → Prop where
  | last {l text b : List UInt8} {texts : List (List UInt8)} :
      HttpLine l text → httpChunkSize text = some 0 → HttpBlock b texts → HttpChunked (l ++ b) []
  | chunk {l text data e c body : List UInt8} :
      HttpLine l text → httpChunkSize text = some data.length → data ≠ [] → HttpLine e [] →
        HttpChunked c body → HttpChunked (l ++ (data ++ (e ++ c))) (data ++ body)

/-- The transfer coding is chunked; its name is in any case. -/
def HttpHeaders.asksChunked (hdr : HttpHeaders) : Prop :=
  httpChunkedName <:+: hdr.transfer.map tolower

/-- The bytes `b` are the body that the headers ask for. -/
def HttpBody (hdr : HttpHeaders) (b body : List UInt8) : Prop :=
  (0 < hdr.len ∧ b = body ∧ body.length = hdr.len) ∨
  (hdr.len = 0 ∧ hdr.asksChunked ∧ HttpChunked b body) ∨
  (hdr.len = 0 ∧ ¬hdr.asksChunked ∧ b = [] ∧ body = [])

/-- What the header lines say. -/
def httpHeaders (keepalive : Bool) (hdr : HttpHeaders) (texts : List (List UInt8)) :
    Option HttpHeaders :=
  texts.foldlM (fun hdr text => httpHeaderLine keepalive hdr (CString.ofBytes text).1) hdr

/-- One complete response with the given body. -/
def HttpResponse (response body : List UInt8) : Prop :=
  ∃ l text h texts hdr b, response = l ++ (h ++ b) ∧ HttpLine l text ∧
    0x20 ∈ (CString.ofBytes text).1 ∧ HttpBlock h texts ∧
    httpHeaders true ⟨true, 0, []⟩ texts = some hdr ∧ HttpBody hdr b body

/-- What a caller may expect of a request on the stream `s`: a result is the body of one
complete response, which is what was read of the stream; without a response in the stream
there is none; and without a result the socket is closed. -/
structure HttpFramed (s : List UInt8) (out : HttpOutcome) : Prop where
  result : ∀ body rest, out.res = some (body, rest) →
    ∃ response, s = response ++ rest ∧ HttpResponse response body
  none_of_short : (∀ response body, response <+: s → ¬HttpResponse response body) → out.res = none
  closed : out.res = none → out.socket = .closed

end LibCmutils
