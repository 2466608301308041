import LibCmutils.Http.SocketPool

/-!
The URLs of the HTTP clients (`src/http.c`).

* `HttpUrl`: a scheme of letters, a host, the text of a port and a path, as a URL is meant.
  `HttpUrl.text` writes it, `HttpUrl.address` is the address that it names.
* `HttpPort`: the decimal numbers that a port may be. `HttpPortLax`: the texts that `strtol`
  and the cast to `int` make a port of.
* `HttpUrl.Strict`: the URLs that are read as they are meant.

The main result is `httpClientParseUrl_address_iff`.
-/

namespace LibCmutils

/-- An ASCII letter. -/
def isalpha (c : UInt8) : Bool := (0x41 ≤ c && c ≤ 0x5A) || (0x61 ≤ c && c ≤ 0x7A)

/-- A URL in its parts. The text of the port is what stands between a colon and the path. -/
structure HttpUrl where
  scheme : List UInt8
  host : List UInt8
  port : Option (List UInt8)
  path : List UInt8
  scheme_letters : ∀ c ∈ scheme, isalpha c = true
  host_clean : 0x3A ∉ host ∧ 0x2F ∉ host ∧ 0 ∉ host
  host_length : 1 ≤ host.length ∧ host.length ≤ 255
  port_clean : ∀ t ∈ port, 0x2F ∉ t ∧ 0 ∉ t
  path_start : path = [] ∨ path.head? = some 0x2F
  path_clean : 0 ∉ path

/-- The digits of a number from 1 to 65535. -/
def HttpPort (t : List UInt8) : Prop :=
  (∀ c ∈ t, isDigit 10 c = true) ∧ 1 ≤ digitsValue 10 t ∧ digitsValue 10 t ≤ 65535

instance (t : List UInt8) : Decidable (HttpPort t) :=
  inferInstanceAs (Decidable (_ ∧ _))

/-- A text that begins with a number of 64 bits whose last 32 bits are a port. -/
def HttpPortLax (t : List UInt8) : Prop :=
  ∃ n : ℤ, Numeral t n ∧ -2 ^ 63 ≤ n ∧ n < 2 ^ 63 ∧ 1 ≤ n % 2 ^ 32 ∧ n % 2 ^ 32 ≤ 65535

set_option maxRecDepth 8000 in
lemma isalpha_spec : ∀ c : UInt8, isalpha c = true → c ≠ 0x3A ∧ c ≠ 0 := by
  decide

/-! ### Ports -/

section Ports

variable {t : List UInt8}

/-- The clamped values end in 32 bits that are no port. -/
lemma bmod_clampInt64_iff (n : ℤ) :
    (0 < (clampInt64 n).bmod (2 ^ 32) ∧ (clampInt64 n).bmod (2 ^ 32) ≤ 65535) ↔
      -2 ^ 63 ≤ n ∧ n < 2 ^ 63 ∧ 1 ≤ n % 2 ^ 32 ∧ n % 2 ^ 32 ≤ 65535 := by
  rw [Int.bmod_def, clampInt64]
  constructor
  · intro h
    split_ifs at h <;> omega
  · intro h
    split_ifs <;> omega

lemma intStrtol_iff : (0 < intStrtol t ∧ intStrtol t ≤ 65535) ↔ HttpPortLax t := by
  constructor
  · intro h
    cases hscan : scanInt 10 t with
    | none =>
        rw [intStrtol, strtoll, hscan] at h
        exact absurd h (by decide)
    | some q =>
        obtain ⟨n, r⟩ := q
        rw [intStrtol_of_scan hscan, bmod_clampInt64_iff] at h
        exact ⟨n, scanInt_ten_iff.mp ⟨r, hscan⟩, h⟩
  · rintro ⟨n, hn, h⟩
    obtain ⟨r, hscan⟩ := scanInt_ten_iff.mpr hn
    rw [intStrtol_of_scan hscan, bmod_clampInt64_iff]
    exact h

lemma HttpPort.ne_nil (h : HttpPort t) : t ≠ [] := by
  rintro rfl
  exact absurd h.2.1 (by decide)

/-- A port is read as its value. -/
lemma HttpPort.intStrtol (h : HttpPort t) : intStrtol t = digitsValue 10 t := by
  have hn : Numeral ([] ++ [] ++ t ++ []) (digitsValue 10 t) :=
    .mk (by simp) h.ne_nil h.1 (by simp) (.inr ⟨.inl rfl, rfl⟩)
  rw [List.append_nil, List.nil_append, List.nil_append] at hn
  obtain ⟨r, hscan⟩ := scanInt_ten_iff.mpr hn
  obtain ⟨-, hlow, hhigh⟩ := h
  rw [intStrtol_of_scan hscan, clampInt64, Int.bmod_def]
  split_ifs <;> omega

end Ports

/-! ### What a URL is read as -/

/-- The host, the port and `ishttps` of a client. -/
def httpUrlFields (r : HttpAddr × Bool) : List UInt8 × ℕ × Bool := (r.1.host, r.1.port, r.2)

section Reading

variable {url : CString} {scheme rest host q : List UInt8}

/-- What is read behind the scheme and two slashes. -/
lemma httpClientParseUrl_rest (hu : strchrSplit 0x3A url.1 = some (scheme, 0x2F :: 0x2F :: rest)) :
    (httpClientParseUrl url).map httpUrlFields =
      match strchrSplit 0x3A rest with
      | some (host, q) =>
          if host.length = 0 ∨ 256 ≤ host.length then none
          else if (strchrPrefix 0x2F q).length = 0 ∨ 256 ≤ (strchrPrefix 0x2F q).length then none
          else if intStrtol (strchrPrefix 0x2F q) ≤ 0 ∨ 65535 < intStrtol (strchrPrefix 0x2F q) then
            none
          else some (host, (intStrtol (strchrPrefix 0x2F q)).toNat, scheme == httpsScheme)
      | none =>
          if (strchrPrefix 0x2F rest).length = 0 ∨ 256 ≤ (strchrPrefix 0x2F rest).length then none
          else some (strchrPrefix 0x2F rest, if scheme == httpsScheme then 443 else 80,
            scheme == httpsScheme) := by
  rw [httpClientParseUrl]
  split
  next hnone => exact absurd (hu.symm.trans hnone) (by simp)
  next scheme' rest' hu' =>
    obtain ⟨rfl, rfl⟩ := Prod.mk.inj (Option.some.inj (hu.symm.trans hu'))
    have hrest : (0x2F :: 0x2F :: rest).drop 2 = rest := rfl
    rw [if_pos (show (0x2F :: 0x2F :: rest).take 2 = [0x2F, 0x2F] from rfl)]
    split
    next host q hp =>
      rw [hrest] at hp
      rw [hp]
      dsimp only
      split_ifs <;> rfl
    next hp =>
      rw [hrest] at hp
      rw [hp]
      change _ = if (strchrPrefix 0x2F ((0x2F :: 0x2F :: rest).drop 2)).length = 0 ∨
          256 ≤ (strchrPrefix 0x2F ((0x2F :: 0x2F :: rest).drop 2)).length then none
        else some (strchrPrefix 0x2F ((0x2F :: 0x2F :: rest).drop 2), _, _)
      dsimp only
      split_ifs <;> rfl

/-- A URL with a colon behind the scheme. -/
lemma httpClientParseUrl_colon (hu : strchrSplit 0x3A url.1 = some (scheme, 0x2F :: 0x2F :: rest))
    (hp : strchrSplit 0x3A rest = some (host, q)) :
    (httpClientParseUrl url).map httpUrlFields =
      if host.length = 0 ∨ 256 ≤ host.length then none
      else if (strchrPrefix 0x2F q).length = 0 ∨ 256 ≤ (strchrPrefix 0x2F q).length then none
      else if intStrtol (strchrPrefix 0x2F q) ≤ 0 ∨ 65535 < intStrtol (strchrPrefix 0x2F q) then none
      else some (host, (intStrtol (strchrPrefix 0x2F q)).toNat, scheme == httpsScheme) := by
  rw [httpClientParseUrl_rest hu, hp]

/-- A URL without a colon behind the scheme. -/
lemma httpClientParseUrl_plain (hu : strchrSplit 0x3A url.1 = some (scheme, 0x2F :: 0x2F :: rest))
    (hp : strchrSplit 0x3A rest = none) :
    (httpClientParseUrl url).map httpUrlFields =
      if (strchrPrefix 0x2F rest).length = 0 ∨ 256 ≤ (strchrPrefix 0x2F rest).length then none
      else some (strchrPrefix 0x2F rest, if scheme == httpsScheme then 443 else 80,
        scheme == httpsScheme) := by
  rw [httpClientParseUrl_rest hu, hp]

end Reading

/-- The part before the path. -/
lemma strchrPrefix_path {s path : List UInt8} (hs : 0x2F ∉ s) (h0 : 0 ∉ s)
    (hpath : path = [] ∨ path.head? = some 0x2F) : strchrPrefix 0x2F (s ++ path) = s := by
  rw [strchrPrefix]
  rcases hpath with rfl | hpath
  · rw [List.append_nil, strchrSplit_none hs]
    rfl
  · obtain ⟨path', rfl⟩ := List.head?_eq_some_iff.mp hpath
    rw [strchrSplit_append hs h0]
    rfl

namespace HttpUrl

/-- `scheme://host[:port][/path]`. -/
def text (u : HttpUrl) : CString where
  val := u.scheme ++ 0x3A :: 0x2F :: 0x2F ::
    (u.host ++ ((u.port.map (0x3A :: ·)).getD [] ++ u.path))
  property := by
    intro h
    simp only [List.mem_append, List.mem_cons] at h
    rcases h with h | h | h | h | h | h | h
    · exact (isalpha_spec 0 (u.scheme_letters 0 h)).2 rfl
    · exact absurd h (by decide)
    · exact absurd h (by decide)
    · exact absurd h (by decide)
    · exact u.host_clean.2.2 h
    · cases hport : u.port with
      | none => rw [hport] at h; cases h
      | some t =>
          rw [hport] at h
          rcases List.mem_cons.mp h with h | h
          · exact absurd h (by decide)
          · exact (u.port_clean t hport).2 h
    · exact u.path_clean h

/-- The address a URL names, when it names one. -/
def address (u : HttpUrl) : Option (List UInt8 × ℕ × Bool) :=
  match u.port with
  | none => some (u.host, if u.scheme == httpsScheme then 443 else 80, u.scheme == httpsScheme)
  | some t => if HttpPort t then some (u.host, digitsValue 10 t, u.scheme == httpsScheme) else none

/-- A URL without a port has no colon in its path. A number is short enough for the buffer, and
another text does not begin with a number that passes for a port. -/
def Strict (u : HttpUrl) : Prop :=
  match u.port with
  | none => 0x3A ∉ u.path
  | some t => if HttpPort t then t.length < 256 else t.length < 256 → ¬ HttpPortLax t

variable (u : HttpUrl)

lemma split_scheme : strchrSplit 0x3A u.text.1 = some (u.scheme, 0x2F :: 0x2F ::
    (u.host ++ ((u.port.map (0x3A :: ·)).getD [] ++ u.path))) :=
  strchrSplit_append (fun h => (isalpha_spec _ (u.scheme_letters _ h)).1 rfl)
    (fun h => (isalpha_spec _ (u.scheme_letters _ h)).2 rfl) _

/-- A URL without a port. -/
lemma parse_of_none (hport : u.port = none) :
    (httpClientParseUrl u.text).map httpUrlFields = u.address ↔ 0x3A ∉ u.path := by
  obtain ⟨hcolon, hslash, hzero⟩ := u.host_clean
  have hlen := u.host_length
  have hu := u.split_scheme
  simp only [hport, Option.map_none, Option.getD_none, List.nil_append] at hu
  simp only [address, hport]
  by_cases hmem : 0x3A ∈ u.path
  · refine iff_of_false ?_ (not_not_intro hmem)
    -- the host that is read goes on into the path
    obtain ⟨v, w, hpath, hv⟩ := List.eq_append_cons_of_mem hmem
    have hv0 : (0 : UInt8) ∉ u.host ++ v := by
      have := u.path_clean
      rw [hpath] at this
      simp_all
    have hp : strchrSplit 0x3A (u.host ++ u.path) = some (u.host ++ v, w) := by
      rw [hpath, ← List.append_assoc]
      exact strchrSplit_append (by simp [hcolon, hv]) hv0 w
    have hne : u.host ++ v ≠ u.host := by
      intro h
      obtain rfl := List.append_right_eq_self.mp h
      rcases u.path_start with h | h
      · rw [h] at hmem
        cases hmem
      · rw [hpath] at h
        exact absurd (Option.some.inj h) (by decide)
    rw [httpClientParseUrl_colon hu hp]
    split_ifs
    all_goals simp [hne]
  · refine iff_of_true ?_ hmem
    have hp : strchrSplit 0x3A (u.host ++ u.path) = none := strchrSplit_none (by simp [hcolon, hmem])
    rw [httpClientParseUrl_plain hu hp, strchrPrefix_path hslash hzero u.path_start,
      if_neg (by omega)]

/-- A URL with the text of a port. -/
lemma parse_of_some {t : List UInt8} (hport : u.port = some t) :
    (httpClientParseUrl u.text).map httpUrlFields =
      if t.length < 256 ∧ 0 < intStrtol t ∧ intStrtol t ≤ 65535 then
        some (u.host, (intStrtol t).toNat, u.scheme == httpsScheme)
      else none := by
  obtain ⟨hcolon, hslash, hzero⟩ := u.host_clean
  obtain ⟨htslash, htzero⟩ := u.port_clean t hport
  have hlen := u.host_length
  have hu := u.split_scheme
  simp only [hport, Option.map_some, Option.getD_some] at hu
  have hp : strchrSplit 0x3A (u.host ++ (0x3A :: t ++ u.path)) = some (u.host, t ++ u.path) :=
    strchrSplit_append hcolon hzero _
  rw [httpClientParseUrl_colon hu hp, strchrPrefix_path htslash htzero u.path_start,
    if_neg (by omega)]
  by_cases hlax : 0 < intStrtol t ∧ intStrtol t ≤ 65535
  · have hne : t.length ≠ 0 := by
      intro h
      rw [List.length_eq_zero_iff.mp h] at hlax
      exact absurd hlax.1 (by decide)
    by_cases hshort : t.length < 256
    · rw [if_neg (by omega), if_neg (by omega), if_pos ⟨hshort, hlax⟩]
    · rw [if_pos (by omega), if_neg (by omega)]
  · have hbad : intStrtol t ≤ 0 ∨ 65535 < intStrtol t := by omega
    rw [if_pos hbad, ite_self, if_neg fun h => hlax h.2]

end HttpUrl

/-- **URLs.** A URL is accepted exactly when its port is absent or a number from 1 to 65535, and
gives its host, port and scheme, if and only if no colon of a path without a port, no number
of 256 digits and no text that only begins with a port is in it. -/
theorem httpClientParseUrl_address_iff (u : HttpUrl) :
    (httpClientParseUrl u.text).map httpUrlFields = u.address ↔ u.Strict := by
  cases hport : u.port with
  | none =>
      rw [u.parse_of_none hport, HttpUrl.Strict, hport]
  | some t =>
      rw [u.parse_of_some hport, HttpUrl.Strict, HttpUrl.address, hport]
      by_cases hnum : HttpPort t
      · have hval := hnum.intStrtol
        obtain ⟨-, hlow, hhigh⟩ := id hnum
        simp only [if_pos hnum, hval, Int.toNat_natCast]
        split_ifs with hlen
        · exact iff_of_true rfl hlen.1
        · exact iff_of_false (by simp) fun hshort => hlen ⟨hshort, by omega, by omega⟩
      · simp only [if_neg hnum]
        split_ifs with h
        · exact iff_of_false (by simp) fun hn => hn h.1 (intStrtol_iff.mp h.2)
        · exact iff_of_true rfl fun hlen hlax => h ⟨hlen, intStrtol_iff.mpr hlax⟩

/-- `http://h/a:80`. -/
def httpColonUrl : HttpUrl where
  scheme := [0x68, 0x74, 0x74, 0x70]
  host := [0x68]
  port := none
  path := [0x2F, 0x61, 0x3A, 0x38, 0x30]
  scheme_letters := List.all_eq_true.mp rfl
  host_clean := by decide
  host_length := by decide
  port_clean := by simp
  path_start := .inr rfl
  path_clean := by decide

/-- The host that is read is `h/a`. -/
theorem httpClientParseUrl_address_fails :
    (httpClientParseUrl httpColonUrl.text).map httpUrlFields ≠ httpColonUrl.address := by
  have hu : strchrSplit 0x3A httpColonUrl.text.1 =
      some ([0x68, 0x74, 0x74, 0x70], [0x2F, 0x2F, 0x68, 0x2F, 0x61, 0x3A, 0x38, 0x30]) := rfl
  have hp : strchrSplit 0x3A [0x68, 0x2F, 0x61, 0x3A, 0x38, 0x30] =
      some ([0x68, 0x2F, 0x61], [0x38, 0x30]) := rfl
  rw [httpClientParseUrl_colon hu hp]
  decide

end LibCmutils
