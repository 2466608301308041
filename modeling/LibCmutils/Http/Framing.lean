import LibCmutils.Http.Response

/-!
When a request reads exactly one response.

* `HttpLine.read`, `httpClientReadLine_line`: a line of the grammar is a line that
  `CMUTIL_HttpClientReadLine` reads.
* `HttpChunkSlip`, `HttpBodySlip`, `HttpHeadSlip`, `HttpSlip`: the streams on which a
  request takes something for the end of a part that is not its end, and still comes
  to a result.
* `httpReadChunks_sound`, `httpReadBody_sound`, `httpReadRest_sound`: without a slip the
  result is that of a response. `HttpChunkSlip.spec`, `HttpBodySlip.spec`,
  `HttpHeadSlip.spec`: with a slip it is not.

The main result is `httpFramed_iff`.
-/

namespace LibCmutils

/-! ### Lines -/

lemma httpReadLineLoop_append {u : List UInt8} (hu : 0x0A ∉ u) (s : List UInt8) :
    ∀ room, (u.filter (· != 0x0D)).length < room →
      httpReadLineLoop room (u ++ 0x0A :: s) = ⟨true, u.filter (· != 0x0D), s⟩ := by
  induction u with
  | nil =>
      intro room hroom
      rw [List.nil_append, httpReadLineLoop, if_neg (by omega), if_pos rfl]
      rfl
  | cons b u ih =>
      intro room hroom
      have hb : b ≠ 0x0A := fun h => hu (by simp [h])
      have hu' : 0x0A ∉ u := fun h => hu (List.mem_cons_of_mem b h)
      rw [List.cons_append, httpReadLineLoop, if_neg (by omega), if_neg hb]
      by_cases hcr : b = 0x0D
      · rw [if_pos hcr, List.filter_cons_of_neg (by simp [hcr])]
        rw [List.filter_cons_of_neg (by simp [hcr])] at hroom
        exact ih hu' room hroom
      · rw [List.filter_cons_of_pos (by simp [hcr]), List.length_cons] at hroom
        rw [if_neg hcr, List.filter_cons_of_pos (by simp [hcr]), ih hu' (room - 1) (by omega)]

lemma httpReadLineLoop_eq : ∀ (s : List UInt8) (room : ℕ), (httpReadLineLoop room s).ok = true →
    ∃ u, s = u ++ 0x0A :: (httpReadLineLoop room s).rest ∧ 0x0A ∉ u ∧
      (httpReadLineLoop room s).buf = u.filter (· != 0x0D) ∧
      (u.filter (· != 0x0D)).length < room
  | [], _, h => by cases h
  | b :: s, room, h => by
      rw [httpReadLineLoop] at h ⊢
      split_ifs at h ⊢ with hroom hlf hcr
      · exact ⟨[], by rw [hlf]; rfl, List.not_mem_nil, rfl, Nat.pos_of_ne_zero hroom⟩
      · obtain ⟨u, hs, hu, hbuf, hlen⟩ := httpReadLineLoop_eq s room h
        refine ⟨b :: u, ?_, ?_, ?_, ?_⟩
        · rw [List.cons_append, ← hs]
        · simp [hu, Ne.symm hlf]
        · rw [hbuf, List.filter_cons_of_neg (by simp [hcr])]
        · rwa [List.filter_cons_of_neg (by simp [hcr])]
      · obtain ⟨u, hs, hu, hbuf, hlen⟩ := httpReadLineLoop_eq s (room - 1) h
        refine ⟨b :: u, ?_, ?_, ?_, ?_⟩
        · rw [List.cons_append, ← hs]
        · simp [hu, Ne.symm hlf]
        · rw [List.filter_cons_of_pos (by simp [hcr]), ← hbuf]
        · rw [List.filter_cons_of_pos (by simp [hcr]), List.length_cons]
          omega

/-- A line is read as what it is. -/
lemma HttpLine.read {l text : List UInt8} (h : HttpLine l text) (s : List UInt8) :
    httpClientReadLine (l ++ s) = ⟨true, text, s⟩ := by
  obtain ⟨u, rfl, hu, rfl, hlen⟩ := h
  rw [List.append_assoc]
  exact httpReadLineLoop_append hu s 4095 hlen

/-- What was read is a line. -/
lemma httpClientReadLine_line {s : List UInt8} (h : (httpClientReadLine s).ok = true) :
    ∃ l, s = l ++ (httpClientReadLine s).rest ∧ HttpLine l (httpClientReadLine s).buf := by
  obtain ⟨u, hs, hu, hbuf, hlen⟩ := httpReadLineLoop_eq s 4095 h
  refine ⟨u ++ [0x0A], ?_, u, rfl, hu, hbuf, ?_⟩
  · rw [List.append_assoc]
    exact hs
  · rw [httpClientReadLine, hbuf]
    exact hlen

lemma HttpLine.ne_nil {l text : List UInt8} (h : HttpLine l text) : l ≠ [] := by
  obtain ⟨u, rfl, -⟩ := h
  simp

lemma HttpBlock.ne_nil {b : List UInt8} {texts : List (List UInt8)} (h : HttpBlock b texts) :
    b ≠ [] := by
  cases h with
  | nil hl => exact hl.ne_nil
  | cons hl _ _ => simp [hl.ne_nil]

/-- A field is a text that the buffer holds as a nonempty string. -/
lemma httpField_iff {text : List UInt8} : HttpField text ↔ (CString.ofBytes text).1 ≠ [] := by
  cases text with
  | nil => simp [HttpField, CString.ofBytes]
  | cons b text =>
      by_cases hb : b = 0
      · simp [HttpField, CString.ofBytes, hb]
      · simp [HttpField, CString.ofBytes, hb]

/-- An empty line was read. -/
def HttpLineRead.Empty (line : HttpLineRead) : Prop := line.ok = true ∧ line.buf = []

lemma HttpLineRead.Empty.line {s : List UInt8} (h : (httpClientReadLine s).Empty) :
    ∃ l, s = l ++ (httpClientReadLine s).rest ∧ HttpLine l [] := by
  obtain ⟨l, hs, hl⟩ := httpClientReadLine_line h.1
  exact ⟨l, hs, h.2 ▸ hl⟩

lemma HttpLine.empty {l : List UInt8} (h : HttpLine l []) (s : List UInt8) :
    (httpClientReadLine (l ++ s)).Empty := by
  rw [h.read]
  exact ⟨rfl, rfl⟩

/-! ### Chunks -/

/-- The client comes to what it takes for the end of the chunks. -/
inductive HttpChunksEnd : List UInt8 → Prop where
  | cut {s : List UInt8} : (httpClientReadLine s).ok = false → HttpChunksEnd s
  | blank {s : List UInt8} : (httpClientReadLine s).ok = true → (httpClientReadLine s).text = [] →
      HttpChunksEnd s
  | zero {s : List UInt8} : (httpClientReadLine s).ok = true →
      httpLength 16 (httpClientReadLine s).text = some 0 → HttpChunksEnd s
  | chunk {s : List UInt8} {n : ℕ} : (httpClientReadLine s).ok = true →
      httpLength 16 (httpClientReadLine s).text = some (n + 1) →
      n + 1 ≤ (httpClientReadLine s).rest.length →
      HttpChunksEnd (httpClientReadLine ((httpClientReadLine s).rest.drop (n + 1))).rest →
      HttpChunksEnd s

/-- The client takes something for the end of the chunks that is not. -/
inductive HttpChunkSlip : List UInt8 → Prop where
  /-- There is no size line. -/
  | cut {s : List UInt8} : (httpClientReadLine s).ok = false → HttpChunkSlip s
  /-- The size line is empty. -/
  | blank {s : List UInt8} : (httpClientReadLine s).ok = true → (httpClientReadLine s).text = [] →
      HttpChunkSlip s
  /-- The line after the zero chunk is not the empty line. -/
  | trailer {s : List UInt8} : (httpClientReadLine s).ok = true →
      httpLength 16 (httpClientReadLine s).text = some 0 →
      ¬(httpClientReadLine (httpClientReadLine s).rest).Empty → HttpChunkSlip s
  /-- The line after a chunk is not empty, and the client comes to an end after it. -/
  | chunkEnd {s : List UInt8} {n : ℕ} : (httpClientReadLine s).ok = true →
      httpLength 16 (httpClientReadLine s).text = some (n + 1) →
      n + 1 ≤ (httpClientReadLine s).rest.length →
      ¬(httpClientReadLine ((httpClientReadLine s).rest.drop (n + 1))).Empty →
      HttpChunksEnd (httpClientReadLine ((httpClientReadLine s).rest.drop (n + 1))).rest →
      HttpChunkSlip s
  /-- It happens after a whole chunk. -/
  | later {s : List UInt8} {n : ℕ} : (httpClientReadLine s).ok = true →
      httpLength 16 (httpClientReadLine s).text = some (n + 1) →
      n + 1 ≤ (httpClientReadLine s).rest.length →
      (httpClientReadLine ((httpClientReadLine s).rest.drop (n + 1))).Empty →
      HttpChunkSlip (httpClientReadLine ((httpClientReadLine s).rest.drop (n + 1))).rest →
      HttpChunkSlip s

section Chunks

variable {s : List UInt8} {n : ℕ}

lemma text_ne_nil_of_length {base n : ℕ} {text : List UInt8} (h : httpLength base text = some n) :
    text ≠ [] := by
  rintro rfl
  simp [httpLength, strtoll, scanInt, scanSign, scanDigits, dropHexPrefix] at h

lemma httpReadChunks_cut (h : (httpClientReadLine s).ok = false) :
    httpReadChunks s = some ([], (httpClientReadLine s).rest) := by
  rw [httpReadChunks]
  simp [h]

lemma httpReadChunks_blank (h : (httpClientReadLine s).ok = true)
    (htext : (httpClientReadLine s).text = []) :
    httpReadChunks s = some ([], (httpClientReadLine s).rest) := by
  rw [httpReadChunks]
  simp [h, htext]

lemma httpReadChunks_zero (h : (httpClientReadLine s).ok = true)
    (hsize : httpLength 16 (httpClientReadLine s).text = some 0) :
    httpReadChunks s = some ([], (httpClientReadLine (httpClientReadLine s).rest).rest) := by
  rw [httpReadChunks]
  simp [h, hsize, text_ne_nil_of_length hsize]

lemma httpReadChunks_chunk (h : (httpClientReadLine s).ok = true)
    (hsize : httpLength 16 (httpClientReadLine s).text = some (n + 1))
    (hle : n + 1 ≤ (httpClientReadLine s).rest.length) :
    httpReadChunks s =
      (httpReadChunks (httpClientReadLine ((httpClientReadLine s).rest.drop (n + 1))).rest).map
        fun r => ((httpClientReadLine s).rest.take (n + 1) ++ r.1, r.2) := by
  rw [httpReadChunks]
  simp [h, hsize, text_ne_nil_of_length hsize, hle]

/-- How a run over the chunks that comes to an end begins. -/
lemma httpReadChunks_cases {r : List UInt8 × List UInt8} (h : httpReadChunks s = some r) :
    (httpClientReadLine s).ok = false ∨ (httpClientReadLine s).ok = true ∧
      ((httpClientReadLine s).text = [] ∨
        httpLength 16 (httpClientReadLine s).text = some 0 ∨
        ∃ n, httpLength 16 (httpClientReadLine s).text = some (n + 1) ∧
          n + 1 ≤ (httpClientReadLine s).rest.length) := by
  cases hok : (httpClientReadLine s).ok with
  | false => exact .inl rfl
  | true =>
      refine .inr ⟨rfl, ?_⟩
      by_cases htext : (httpClientReadLine s).text = []
      · exact .inl htext
      · rw [httpReadChunks] at h
        simp only [hok, htext, if_true, if_false] at h
        split at h
        · cases h
        · next hsize => exact .inr (.inl hsize)
        · next n hsize =>
          split at h
          · next hle => exact .inr (.inr ⟨n, hsize, hle⟩)
          · cases h

/-- A run that comes to an end is one of the streams of `HttpChunksEnd`. -/
lemma httpChunksEnd_iff : ∀ s : List UInt8, HttpChunksEnd s ↔ (httpReadChunks s).isSome := by
  intro s
  constructor
  · intro h
    induction h with
    | cut hok => rw [httpReadChunks_cut hok]; rfl
    | blank hok htext => rw [httpReadChunks_blank hok htext]; rfl
    | zero hok hsize => rw [httpReadChunks_zero hok hsize]; rfl
    | chunk hok hsize hle _ ih => rwa [httpReadChunks_chunk hok hsize hle, Option.isSome_map]
  · intro h
    induction hn : s.length using Nat.strong_induction_on generalizing s with
    | _ m ih =>
      obtain ⟨r, hr⟩ := Option.isSome_iff_exists.mp h
      rcases httpReadChunks_cases hr with hok | ⟨hok, htext | hsize | ⟨n, hsize, hle⟩⟩
      · exact .cut hok
      · exact .blank hok htext
      · exact .zero hok hsize
      · rw [httpReadChunks_chunk hok hsize hle, Option.isSome_map] at h
        refine .chunk hok hsize hle (ih _ ?_ _ h rfl)
        have hlt := length_httpClientReadLine_lt hok
        have hdrop := length_httpClientReadLine_le ((httpClientReadLine s).rest.drop (n + 1))
        rw [List.length_drop] at hdrop
        omega

/-- Without a slip, what was read is all chunks of the body. -/
theorem httpReadChunks_sound {body rest : List UInt8} (hr : httpReadChunks s = some (body, rest))
    (hno : ¬HttpChunkSlip s) : ∃ c, s = c ++ rest ∧ HttpChunked c body := by
  induction hn : s.length using Nat.strong_induction_on generalizing s body with
  | _ m ih =>
    rcases httpReadChunks_cases hr with hok | ⟨hok, htext | hsize | ⟨n, hsize, hle⟩⟩
    · exact absurd (.cut hok) hno
    · exact absurd (.blank hok htext) hno
    · have hempty : (httpClientReadLine (httpClientReadLine s).rest).Empty := by
        by_contra hne
        exact hno (.trailer hok hsize hne)
      rw [httpReadChunks_zero hok hsize] at hr
      obtain ⟨rfl, rfl⟩ := Prod.mk.inj (Option.some.inj hr)
      obtain ⟨l, hs, hl⟩ := httpClientReadLine_line hok
      obtain ⟨e, hrest, he⟩ := hempty.line
      refine ⟨l ++ e, ?_, .last hl hsize (.nil he)⟩
      rw [List.append_assoc, ← hrest, ← hs]
    · rw [httpReadChunks_chunk hok hsize hle] at hr
      obtain ⟨⟨body', rest'⟩, hr', heq⟩ := Option.map_eq_some_iff.mp hr
      obtain ⟨rfl, rfl⟩ := Prod.mk.inj heq
      have hempty : (httpClientReadLine ((httpClientReadLine s).rest.drop (n + 1))).Empty := by
        by_contra hne
        refine hno (.chunkEnd hok hsize hle hne ((httpChunksEnd_iff _).mpr ?_))
        rw [hr']
        rfl
      have hlt := length_httpClientReadLine_lt hok
      have hdrop := length_httpClientReadLine_le ((httpClientReadLine s).rest.drop (n + 1))
      rw [List.length_drop] at hdrop
      obtain ⟨c, hc, hchunked⟩ := ih _ (by omega) hr'
        (fun hslip => hno (.later hok hsize hle hempty hslip)) rfl
      obtain ⟨l, hs, hl⟩ := httpClientReadLine_line hok
      obtain ⟨e, hrest, he⟩ := hempty.line
      have hlen : ((httpClientReadLine s).rest.take (n + 1)).length = n + 1 :=
        List.length_take_of_le hle
      refine ⟨l ++ ((httpClientReadLine s).rest.take (n + 1) ++ (e ++ c)), ?_,
        .chunk hl ?_ ?_ he hchunked⟩
      · simp only [List.append_assoc]
        rw [← hc, ← hrest, List.take_append_drop, ← hs]
      · rw [hlen]
        exact hsize
      · intro hnil
        rw [hnil] at hlen
        cases hlen

/-- With a slip there is a result, and it is not that of all chunks of a body. -/
theorem HttpChunkSlip.spec (h : HttpChunkSlip s) : (httpReadChunks s).isSome ∧
    ∀ c body rest, s = c ++ rest → HttpChunked c body →
      httpReadChunks s ≠ some (body, rest) := by
  induction h with
  | cut hok =>
      refine ⟨by rw [httpReadChunks_cut hok]; rfl, ?_⟩
      rintro c body rest rfl hc -
      cases hc with
      | last hl | chunk hl =>
          rw [List.append_assoc, hl.read] at hok
          cases hok
  | blank hok htext =>
      refine ⟨by rw [httpReadChunks_blank hok htext]; rfl, ?_⟩
      rintro c body rest rfl hc -
      cases hc with
      | last hl hsize | chunk hl hsize =>
          rw [List.append_assoc, hl.read] at htext
          exact text_ne_nil_of_length hsize htext
  | trailer hok hsize hne =>
      refine ⟨by rw [httpReadChunks_zero hok hsize]; rfl, ?_⟩
      rintro c body rest rfl hc heq
      rw [httpReadChunks_zero hok hsize] at heq
      cases hc with
      | last hl hsize' hb =>
          rw [List.append_assoc, hl.read] at hne heq
          cases hb with
          | nil he => exact hne (he.empty rest)
          | cons hl' hfield hb' =>
              rw [List.append_assoc, hl'.read] at heq
              have hrest := congrArg Prod.snd (Option.some.inj heq)
              exact hb'.ne_nil (List.append_left_eq_self.mp hrest)
      | chunk hl hsize' hdata =>
          rw [List.append_assoc, hl.read] at hsize
          have hlen := Option.some.inj (hsize'.symm.trans hsize)
          exact hdata (List.length_eq_zero_iff.mp hlen)
  | chunkEnd hok hsize hle hne hend =>
      refine ⟨?_, ?_⟩
      · rw [httpReadChunks_chunk hok hsize hle, Option.isSome_map]
        exact (httpChunksEnd_iff _).mp hend
      · rintro c body rest rfl hc -
        cases hc with
        | last hl hsize' =>
            rw [List.append_assoc, hl.read] at hsize
            exact absurd (hsize'.symm.trans hsize) (by simp)
        | chunk hl hsize' hdata he hc' =>
            rw [List.append_assoc, hl.read] at hsize hne
            have hlen := Option.some.inj (hsize'.symm.trans hsize)
            refine hne ?_
            rw [List.append_assoc, List.drop_left' hlen, List.append_assoc]
            exact he.empty _
  | later hok hsize hle hempty _ ih =>
      refine ⟨?_, ?_⟩
      · rw [httpReadChunks_chunk hok hsize hle, Option.isSome_map]
        exact ih.1
      · rintro c body rest rfl hc heq
        rw [httpReadChunks_chunk hok hsize hle] at heq
        obtain ⟨⟨body', rest'⟩, hr', hpair⟩ := Option.map_eq_some_iff.mp heq
        cases hc with
        | last hl hsize' =>
            rw [List.append_assoc, hl.read] at hsize
            exact absurd (hsize'.symm.trans hsize) (by simp)
        | chunk hl hsize' hdata he hc' =>
            rw [List.append_assoc, hl.read] at hsize hr' hpair ih
            have hlen := Option.some.inj (hsize'.symm.trans hsize)
            simp only [List.append_assoc, List.drop_left' hlen, List.take_left' hlen, he.read]
              at hr' hpair ih
            obtain ⟨hbody, hrest⟩ := Prod.mk.inj hpair
            refine ih.2 _ _ _ rfl hc' ?_
            rw [hr', List.append_cancel_left hbody, hrest]

end Chunks

/-! ### Bodies -/

section Bodies

variable {hdr : HttpHeaders} {s : List UInt8}

/-- What `strstr` finds, a response asks for. -/
lemma HttpHeaders.chunked.asks (h : hdr.chunked) : hdr.asksChunked :=
  (h.map tolower).trans (List.IsInfix.map tolower (List.take_prefix 1023 _).isInfix)

lemma HttpChunked.ne_nil {b body : List UInt8} (h : HttpChunked b body) : b ≠ [] := by
  cases h with
  | last hl | chunk hl => simp [hl.ne_nil]

/-- The client comes to an end of the body. -/
def HttpBodyEnd (hdr : HttpHeaders) (s : List UInt8) : Prop :=
  if 0 < hdr.len then hdr.len ≤ s.length else hdr.chunked → HttpChunksEnd s

/-- The client takes something for the body that is not. -/
def HttpBodySlip (hdr : HttpHeaders) (s : List UInt8) : Prop :=
  hdr.len = 0 ∧ (if hdr.chunked then HttpChunkSlip s else hdr.asksChunked)

lemma httpBodyEnd_iff (hdr : HttpHeaders) (s : List UInt8) :
    HttpBodyEnd hdr s ↔ (httpReadBody hdr s).isSome := by
  unfold HttpBodyEnd httpReadBody
  split_ifs with hlen hle hchunked
  · simp [hle]
  · simp [hle]
  · simpa [hchunked] using httpChunksEnd_iff s
  · simp [hchunked]

/-- Without a slip, what was read is the body. -/
lemma httpReadBody_sound {body rest : List UInt8} (hr : httpReadBody hdr s = some (body, rest))
    (hno : ¬HttpBodySlip hdr s) : ∃ b, s = b ++ rest ∧ HttpBody hdr b body := by
  unfold httpReadBody at hr
  split_ifs at hr with hlen hle hchunked
  · obtain ⟨rfl, rfl⟩ := Prod.mk.inj (Option.some.inj hr)
    refine ⟨s.take hdr.len, (List.take_append_drop _ _).symm, .inl ⟨hlen, rfl, ?_⟩⟩
    exact List.length_take_of_le hle
  · have hzero : hdr.len = 0 := Nat.eq_zero_of_not_pos hlen
    obtain ⟨c, hs, hc⟩ := httpReadChunks_sound hr
      (fun hslip => hno ⟨hzero, by rwa [if_pos hchunked]⟩)
    exact ⟨c, hs, .inr (.inl ⟨hzero, hchunked.asks, hc⟩)⟩
  · have hzero : hdr.len = 0 := Nat.eq_zero_of_not_pos hlen
    obtain ⟨rfl, rfl⟩ := Prod.mk.inj (Option.some.inj hr)
    refine ⟨[], rfl, .inr (.inr ⟨hzero, fun hasks => hno ⟨hzero, ?_⟩, rfl, rfl⟩)⟩
    rwa [if_neg hchunked]

/-- With a slip there is a result, and it is not that of a body. -/
lemma HttpBodySlip.spec (h : HttpBodySlip hdr s) : (httpReadBody hdr s).isSome ∧
    ∀ b body rest, s = b ++ rest → HttpBody hdr b body →
      httpReadBody hdr s ≠ some (body, rest) := by
  obtain ⟨hzero, h⟩ := h
  have hlen : ¬0 < hdr.len := by omega
  unfold httpReadBody
  rw [if_neg hlen]
  split_ifs at h ⊢ with hchunked
  · refine ⟨h.spec.1, fun b body rest hs hb => ?_⟩
    obtain ⟨hpos, -⟩ | ⟨-, -, hc⟩ | ⟨-, hasks, -⟩ := hb
    · exact absurd hpos hlen
    · exact h.spec.2 b body rest hs hc
    · exact absurd hchunked.asks hasks
  · refine ⟨rfl, fun b body rest hs hb heq => ?_⟩
    obtain ⟨-, rfl⟩ := Prod.mk.inj (Option.some.inj heq)
    obtain ⟨hpos, -⟩ | ⟨-, -, hc⟩ | ⟨-, hasks, -⟩ := hb
    · exact absurd hpos hlen
    · exact hc.ne_nil (List.append_left_eq_self.mp hs.symm)
    · exact absurd h hasks

end Bodies

/-! ### Headers -/

section Headers

variable {hdr hdr' : HttpHeaders} {s : List UInt8}

/-- The headers and the body, for a request that asks to keep the connection. -/
def httpReadRest (hdr : HttpHeaders) (s : List UInt8) : Option (List UInt8 × List UInt8) :=
  (httpReadHeaders true hdr s).bind fun p => httpReadBody p.1 p.2

lemma httpReadHeaders_end (keepalive : Bool) (htext : (httpClientReadLine s).text = []) :
    httpReadHeaders keepalive hdr s = some (hdr, (httpClientReadLine s).rest) := by
  rw [httpReadHeaders]
  simp [htext]

lemma httpReadHeaders_fail (keepalive : Bool) (hok : (httpClientReadLine s).ok = false)
    (htext : (httpClientReadLine s).text ≠ []) : httpReadHeaders keepalive hdr s = none := by
  rw [httpReadHeaders]
  simp [htext, hok]

lemma httpReadHeaders_line (keepalive : Bool) (hok : (httpClientReadLine s).ok = true)
    (htext : (httpClientReadLine s).text ≠ []) :
    httpReadHeaders keepalive hdr s =
      (httpHeaderLine keepalive hdr (httpClientReadLine s).text).bind fun hdr =>
        httpReadHeaders keepalive hdr (httpClientReadLine s).rest := by
  rw [httpReadHeaders]
  simp only [htext, hok, if_true, if_false]
  cases httpHeaderLine keepalive hdr (httpClientReadLine s).text <;> rfl

/-- Whether the connection is kept decides nothing else about a header line. -/
lemma httpHeaderLine_keepalive (keepalive k : Bool) (hdr : HttpHeaders) (buf : List UInt8) :
    ∃ k', httpHeaderLine keepalive { hdr with keepalive := k } buf =
      (httpHeaderLine true hdr buf).map fun hdr => { hdr with keepalive := k' } := by
  unfold httpHeaderLine
  split
  · split_ifs
    exacts [⟨_, rfl⟩, ⟨_, rfl⟩, ⟨_, rfl⟩]
  · split
    · next p _ => exact ⟨k, by cases httpLength 10 p <;> rfl⟩
    · split
      exacts [⟨_, rfl⟩, ⟨_, rfl⟩]

/-- Nor about the header block. -/
lemma httpReadHeaders_keepalive (keepalive k : Bool) (hdr : HttpHeaders) (s : List UInt8) :
    ∃ k', httpReadHeaders keepalive { hdr with keepalive := k } s =
      (httpReadHeaders true hdr s).map fun p => ({ p.1 with keepalive := k' }, p.2) := by
  induction hn : s.length using Nat.strong_induction_on generalizing s hdr k with
  | _ m ih =>
    by_cases htext : (httpClientReadLine s).text = []
    · exact ⟨k, by rw [httpReadHeaders_end _ htext, httpReadHeaders_end _ htext]; rfl⟩
    · cases hok : (httpClientReadLine s).ok with
      | false =>
          refine ⟨k, ?_⟩
          rw [httpReadHeaders_fail _ hok htext, httpReadHeaders_fail _ hok htext]
          rfl
      | true =>
          obtain ⟨k₁, hline⟩ := httpHeaderLine_keepalive keepalive k hdr (httpClientReadLine s).text
          rw [httpReadHeaders_line _ hok htext, httpReadHeaders_line _ hok htext, hline]
          cases httpHeaderLine true hdr (httpClientReadLine s).text with
          | none => exact ⟨k, rfl⟩
          | some hdr₁ =>
              exact ih _ (hn ▸ length_httpClientReadLine_lt hok) k₁ hdr₁ _ rfl

/-- The client takes something for the end of the headers or of the body that is not. -/
inductive HttpHeadSlip : HttpHeaders → List UInt8 → Prop where
  /-- The line that ends the headers is not empty, or is not there. -/
  | headEnd {hdr : HttpHeaders} {s : List UInt8} : (httpClientReadLine s).text = [] →
      ¬(httpClientReadLine s).Empty → HttpBodyEnd hdr (httpClientReadLine s).rest →
      HttpHeadSlip hdr s
  /-- It happens in the body. -/
  | body {hdr : HttpHeaders} {s : List UInt8} : (httpClientReadLine s).Empty →
      HttpBodySlip hdr (httpClientReadLine s).rest → HttpHeadSlip hdr s
  /-- It happens after a whole header line. -/
  | later {hdr hdr' : HttpHeaders} {s : List UInt8} : (httpClientReadLine s).ok = true →
      (httpClientReadLine s).text ≠ [] →
      httpHeaderLine true hdr (httpClientReadLine s).text = some hdr' →
      HttpHeadSlip hdr' (httpClientReadLine s).rest → HttpHeadSlip hdr s

lemma HttpLineRead.Empty.text {line : HttpLineRead} (h : line.Empty) : line.text = [] := by
  rw [HttpLineRead.text, h.2]
  rfl

/-- Without a slip, what was read is the headers and the body. -/
theorem httpReadRest_sound {body rest : List UInt8} (hr : httpReadRest hdr s = some (body, rest))
    (hno : ¬HttpHeadSlip hdr s) : ∃ h texts hdr' b, s = h ++ (b ++ rest) ∧ HttpBlock h texts ∧
      httpHeaders true hdr texts = some hdr' ∧ HttpBody hdr' b body := by
  induction hn : s.length using Nat.strong_induction_on generalizing s hdr with
  | _ m ih =>
    unfold httpReadRest at hr
    by_cases htext : (httpClientReadLine s).text = []
    · rw [httpReadHeaders_end _ htext, Option.bind_some] at hr
      have hempty : (httpClientReadLine s).Empty := by
        by_contra hne
        refine hno (.headEnd htext hne ((httpBodyEnd_iff _ _).mpr ?_))
        rw [hr]
        rfl
      obtain ⟨l, hs, hl⟩ := hempty.line
      obtain ⟨b, hb, hbody⟩ := httpReadBody_sound hr (fun hslip => hno (.body hempty hslip))
      refine ⟨l, [], hdr, b, ?_, .nil hl, rfl, hbody⟩
      rw [← hb, ← hs]
    · cases hok : (httpClientReadLine s).ok with
      | false =>
          rw [httpReadHeaders_fail _ hok htext] at hr
          cases hr
      | true =>
          rw [httpReadHeaders_line _ hok htext] at hr
          cases hline : httpHeaderLine true hdr (httpClientReadLine s).text with
          | none =>
              rw [hline] at hr
              cases hr
          | some hdr₁ =>
              rw [hline] at hr
              obtain ⟨h, texts, hdr', b, hrest, hblock, hhdr, hbody⟩ :=
                ih _ (hn ▸ length_httpClientReadLine_lt hok) hr
                  (fun hslip => hno (.later hok htext hline hslip)) rfl
              obtain ⟨l, hs, hl⟩ := httpClientReadLine_line hok
              refine ⟨l ++ h, (httpClientReadLine s).buf :: texts, hdr', b, ?_,
                .cons hl (httpField_iff.mpr htext) hblock, ?_, hbody⟩
              · rw [List.append_assoc, ← hrest, ← hs]
              · rw [httpHeaders, List.foldlM_cons]
                exact (congrArg (· >>= _) hline).trans hhdr

/-- With a slip there is a result, and it is not that of headers and a body. -/
theorem HttpHeadSlip.spec (h : HttpHeadSlip hdr s) : (httpReadRest hdr s).isSome ∧
    ∀ h texts hdr' b body rest, s = h ++ (b ++ rest) → HttpBlock h texts →
      httpHeaders true hdr texts = some hdr' → HttpBody hdr' b body →
      httpReadRest hdr s ≠ some (body, rest) := by
  induction h with
  | headEnd htext hne hend =>
      refine ⟨?_, ?_⟩
      · rw [httpReadRest, httpReadHeaders_end _ htext]
        exact (httpBodyEnd_iff _ _).mp hend
      · rintro h texts hdr' b body rest rfl hblock - - -
        cases hblock with
        | nil hl => exact hne (hl.empty _)
        | cons hl hfield _ =>
            rw [List.append_assoc, hl.read] at htext
            exact httpField_iff.mp hfield htext
  | body hempty hslip =>
      refine ⟨?_, ?_⟩
      · rw [httpReadRest, httpReadHeaders_end _ hempty.text]
        exact hslip.spec.1
      · rintro h texts hdr' b body rest rfl hblock hhdr hbody
        rw [httpReadRest, httpReadHeaders_end _ hempty.text]
        cases hblock with
        | nil hl =>
            cases hhdr
            exact hslip.spec.2 b body rest (by rw [hl.read]) hbody
        | cons hl hfield _ =>
            have htext := hempty.text
            rw [List.append_assoc, hl.read] at htext
            exact absurd htext (httpField_iff.mp hfield)
  | later hok htext hline _ ih =>
      refine ⟨?_, ?_⟩
      · rw [httpReadRest, httpReadHeaders_line _ hok htext, hline]
        exact ih.1
      · rintro h texts hdr' b body rest rfl hblock hhdr hbody
        rw [httpReadRest, httpReadHeaders_line _ hok htext, hline]
        cases hblock with
        | nil hl => exact absurd (hl.empty _).text htext
        | cons hl hfield hblock' =>
            rw [httpHeaders, List.foldlM_cons] at hhdr
            rw [List.append_assoc, hl.read] at hline ih ⊢
            refine ih.2 _ _ _ b body rest rfl hblock' ?_ hbody
            exact (congrArg (· >>= _) hline).symm.trans hhdr

end Headers

/-! ### Requests -/

section Requests

/-- The client takes something for the end of a part of the response that is not. -/
def HttpSlip (s : List UInt8) : Prop :=
  (httpClientReadLine s).ok = true ∧ 0x20 ∈ (httpClientReadLine s).text ∧
    HttpHeadSlip ⟨true, 0, []⟩ (httpClientReadLine s).rest

lemma httpStatusLine_eq_none {line : HttpLineRead} :
    httpStatusLine line.text = none ↔ 0x20 ∉ line.text := by
  rw [httpStatusLine, Option.map_eq_none_iff]
  exact ⟨notMem_of_strchrSplit (CString.ofBytes line.buf).2, strchrSplit_none⟩

/-- The result of a request, without the status and the socket. -/
lemma res_httpClientRequest (keepalive sent : Bool) (s : List UInt8) :
    (httpClientRequest keepalive sent s).res =
      if sent = true ∧ (httpClientReadLine s).ok = true ∧ 0x20 ∈ (httpClientReadLine s).text then
        httpReadRest ⟨true, 0, []⟩ (httpClientReadLine s).rest
      else none := by
  dsimp only [httpClientRequest]
  split
  · next h =>
    rw [if_neg]
    rintro ⟨hsent, hok, -⟩
    simp [hsent, hok] at h
  · next h =>
    obtain ⟨hsent, hok⟩ : sent = true ∧ (httpClientReadLine s).ok = true := by simpa using h
    split
    · next hstatus =>
      rw [if_neg (fun h => httpStatusLine_eq_none.mp hstatus h.2.2)]
    · next status current hstatus =>
      have hspace : 0x20 ∈ (httpClientReadLine s).text := by
        by_contra hspace
        rw [httpStatusLine_eq_none.mpr hspace] at hstatus
        cases hstatus
      rw [if_pos ⟨hsent, hok, hspace⟩, httpReadRest]
      obtain ⟨k, hk⟩ := httpReadHeaders_keepalive keepalive (keepalive && current) ⟨true, 0, []⟩
        (httpClientReadLine s).rest
      rw [hk]
      cases httpReadHeaders true ⟨true, 0, []⟩ (httpClientReadLine s).rest with
      | none => rfl
      | some p =>
          obtain ⟨hdr, rest⟩ := p
          have hbody : httpReadBody { hdr with keepalive := k } rest = httpReadBody hdr rest := rfl
          simp only [Option.map_some, Option.bind_some, hbody]
          cases httpReadBody hdr rest <;> rfl

/-- A request without a result closes its socket. -/
lemma httpClientRequest_closed {keepalive sent : Bool} {s : List UInt8}
    (h : (httpClientRequest keepalive sent s).res = none) :
    (httpClientRequest keepalive sent s).socket = .closed := by
  revert h
  dsimp only [httpClientRequest]
  split
  · exact fun _ => rfl
  · split
    · exact fun _ => rfl
    · split
      · exact fun _ => rfl
      · split
        · exact fun _ => rfl
        · rintro ⟨⟩

/-- **Response framing.** A request whose writes went through reads exactly one response if
and only if it does not take something for the end of the headers, of the chunks or of the
body that is not. -/
theorem httpFramed_iff (keepalive sent : Bool) (s : List UInt8) :
    HttpFramed s (httpClientRequest keepalive sent s) ↔ (sent = true → ¬HttpSlip s) := by
  constructor
  · rintro hframed hsent ⟨hok, hspace, hslip⟩
    have hres := res_httpClientRequest keepalive sent s
    rw [if_pos ⟨hsent, hok, hspace⟩] at hres
    obtain ⟨⟨body, rest⟩, hr⟩ := Option.isSome_iff_exists.mp hslip.spec.1
    obtain ⟨response, hs, l, text, h, texts, hdr, b, rfl, hl, -, hblock, hhdr, hbody⟩ :=
      hframed.result body rest (hres.trans hr)
    refine hslip.spec.2 h texts hdr b body rest ?_ hblock hhdr hbody hr
    rw [hs, List.append_assoc, hl.read, List.append_assoc]
  · intro hno
    have hsound : ∀ body rest, (httpClientRequest keepalive sent s).res = some (body, rest) →
        ∃ response, s = response ++ rest ∧ HttpResponse response body := by
      intro body rest hr
      rw [res_httpClientRequest] at hr
      split_ifs at hr with hif
      obtain ⟨hsent, hok, hspace⟩ := hif
      obtain ⟨h, texts, hdr, b, hrest, hblock, hhdr, hbody⟩ :=
        httpReadRest_sound hr (fun hslip => hno hsent ⟨hok, hspace, hslip⟩)
      obtain ⟨l, hs, hl⟩ := httpClientReadLine_line hok
      refine ⟨l ++ (h ++ b), ?_, l, _, h, texts, hdr, b, rfl, hl, hspace, hblock, hhdr, hbody⟩
      rw [List.append_assoc, List.append_assoc, ← hrest, ← hs]
    refine ⟨hsound, fun hshort => ?_, httpClientRequest_closed⟩
    by_contra hsome
    obtain ⟨⟨body, rest⟩, hr⟩ := Option.ne_none_iff_exists'.mp hsome
    obtain ⟨response, hs, hresponse⟩ := hsound body rest hr
    exact hshort response body ⟨rest, hs.symm⟩ hresponse

/-- The stream ends after the status line `HTTP/1.1 200 OK`. The request returns an empty
body and keeps the socket, and there is no response. -/
theorem httpFramed_fails : ¬∀ keepalive sent s,
    HttpFramed s (httpClientRequest keepalive sent s) := by
  intro hall
  let s : List UInt8 := httpVersion ++ [0x20, 0x32, 0x30, 0x30, 0x20, 0x4F, 0x4B, 0x0D, 0x0A]
  have hline : httpClientReadLine s =
      ⟨true, httpVersion ++ [0x20, 0x32, 0x30, 0x30, 0x20, 0x4F, 0x4B], []⟩ := by decide
  have hend : (httpClientReadLine []).text = [] := rfl
  have hres : (httpClientRequest true true s).res = some ([], []) := by
    rw [res_httpClientRequest, hline, if_pos (by decide), httpReadRest,
      httpReadHeaders_end _ hend]
    decide
  obtain ⟨response, hs, l, text, h, texts, hdr, b, rfl, hl, -, hblock, -⟩ :=
    (hall true true s).result [] [] hres
  rw [hs, List.append_nil, hl.read] at hline
  have hnil : h ++ b = [] := congrArg HttpLineRead.rest hline
  exact hblock.ne_nil (List.append_eq_nil_iff.mp hnil).1

end Requests

end LibCmutils
