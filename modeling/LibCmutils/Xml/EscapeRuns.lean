import LibCmutils.Xml.Escape

/-!
Escaping by runs (`CMUTIL_XmlEscape`, `src/nanoxml.c`).

* `xmlEscapeTo`: the loop that copies the bytes between two escapes at once. The length of such
  a run is a number of 32 bits.
* `cutRuns`: what is left of a text when its runs are cut like that. `xmlEscapeLoop_eq` says
  that the loop escapes what is left.

The main result is `xmlUnescape_escapeTo_iff`, when unescaping undoes it.
-/

namespace LibCmutils

/-- `AddNString` of the bytes from `stpos` to `p`. -/
def cutRun (run : List UInt8) : List UInt8 := run.take (run.length % 2 ^ 32)

/-- The loop of `CMUTIL_XmlEscape`; `run` are the bytes from `stpos` to `p`. -/
def xmlEscapeLoop : List UInt8 → List UInt8 → List UInt8 → List UInt8
  | [], run, dest => dest ++ cutRun run
  | c :: p, run, dest =>
      if c = 0 then dest ++ cutRun run
      else
        match xmlEscapeStr c with
        | some q => xmlEscapeLoop p [] (dest ++ cutRun run ++ q)
        | none => xmlEscapeLoop p (run ++ [c]) dest

/-- `CMUTIL_XmlEscape`: what `dest` holds afterwards. -/
def xmlEscapeTo (dest src : List UInt8) : List UInt8 := xmlEscapeLoop src [] dest

/-- A text with its runs cut; `run` has been read. -/
def cutRuns : List UInt8 → List UInt8 → List UInt8
  | [], run => cutRun run
  | c :: p, run =>
      match xmlEscapeStr c with
      | some _ => cutRun run ++ c :: cutRuns p []
      | none => cutRuns p (run ++ [c])

/-- A byte that is copied as it is. -/
def XmlUnescaped (c : UInt8) : Prop := xmlEscapeStr c = none

lemma cutRun_isPrefix (run : List UInt8) : cutRun run <+: run := List.take_prefix _ run

lemma cutRun_eq_iff {run : List UInt8} : cutRun run = run ↔ run.length < 2 ^ 32 := by
  rw [cutRun, List.take_eq_self_iff]
  constructor
  · intro h
    exact lt_of_le_of_lt h (Nat.mod_lt _ (by norm_num))
  · intro h
    rw [Nat.mod_eq_of_lt h]

lemma cutRuns_length (s run : List UInt8) : (cutRuns s run).length ≤ run.length + s.length := by
  induction s generalizing run with
  | nil => exact (cutRun_isPrefix run).length_le
  | cons c s ih =>
      rw [cutRuns]
      split
      · have hrun := (cutRun_isPrefix run).length_le
        have hs := ih []
        simp only [List.length_append, List.length_cons, List.length_nil] at hs ⊢
        omega
      · have hs := ih (run ++ [c])
        simp only [List.length_append, List.length_cons, List.length_nil] at hs ⊢
        omega

lemma cutRuns_subset (s run : List UInt8) : cutRuns s run ⊆ run ++ s := by
  induction s generalizing run with
  | nil =>
      rw [List.append_nil]
      exact (cutRun_isPrefix run).subset
  | cons c s ih =>
      rw [cutRuns]
      split
      · intro b hb
        rcases List.mem_append.mp hb with hb | hb
        · exact List.mem_append_left _ ((cutRun_isPrefix run).subset hb)
        · rcases List.mem_cons.mp hb with rfl | hb
          · simp
          · simpa using .inr (.inr (ih [] hb))
      · have hs := ih (run ++ [c])
        rwa [List.append_assoc, List.singleton_append] at hs

/-- The loop escapes what is left of the text. -/
lemma xmlEscapeLoop_eq {s : List UInt8} (h0 : (0 : UInt8) ∉ s) {run : List UInt8}
    (hrun0 : (0 : UInt8) ∉ run) (hrun : ∀ c ∈ run, XmlUnescaped c) (dest : List UInt8) :
    xmlEscapeLoop s run dest = dest ++ xmlEscape (cutRuns s run) := by
  have hcut : ∀ {run rest : List UInt8}, (0 : UInt8) ∉ run → (∀ c ∈ run, XmlUnescaped c) →
      xmlEscape (cutRun run ++ rest) = cutRun run ++ xmlEscape rest := fun hrun0 hrun =>
    xmlEscape_plain (fun h => hrun0 ((cutRun_isPrefix _).subset h))
      (fun c hc => hrun c ((cutRun_isPrefix _).subset hc)) _
  induction s generalizing run dest with
  | nil =>
      have h := @hcut run [] hrun0 hrun
      rw [List.append_nil] at h
      rw [xmlEscapeLoop, cutRuns, h]
      simp [xmlEscape]
  | cons c s ih =>
      have hc0 : c ≠ 0 := fun h => h0 (by simp [h])
      have hs0 : (0 : UInt8) ∉ s := fun h => h0 (by simp [h])
      rw [xmlEscapeLoop, if_neg hc0, cutRuns]
      cases hc : xmlEscapeStr c with
      | some q =>
          simp only
          rw [ih hs0 List.not_mem_nil (by simp), hcut hrun0 hrun, xmlEscape, if_neg hc0, xmlEscapeByte,
            hc]
          simp
      | none =>
          simp only
          refine ih hs0 (by simp [hrun0, hc0.symm]) (fun b hb => ?_) dest
          rcases List.mem_append.mp hb with hb | hb
          · exact hrun b hb
          · rwa [List.mem_singleton.mp hb]

/-- Consecutive bytes without `c` lie on one side of it. -/
lemma infix_of_notMem {a b u : List UInt8} {c : UInt8} (hc : c ∉ u) (h : u <:+: a ++ c :: b) :
    u <:+: a ∨ u <:+: b := by
  obtain ⟨x, y, hxy⟩ := h
  rw [List.append_assoc] at hxy
  rcases List.append_eq_append_iff.mp hxy with ⟨t, rfl, ht⟩ | ⟨t, rfl, ht⟩
  · rcases List.append_eq_append_iff.mp ht with ⟨w, rfl, -⟩ | ⟨w, rfl, hw⟩
    · exact .inl ⟨x, w, by rw [List.append_assoc]⟩
    · cases w with
      | nil => exact .inl ⟨x, [], by simp⟩
      | cons d w =>
          obtain rfl : c = d := (List.cons.inj hw).1
          exact absurd (by simp) hc
  · cases t with
    | nil =>
        cases u with
        | nil => exact .inl (List.nil_infix)
        | cons d u =>
            obtain rfl : c = d := (List.cons.inj ht).1
            exact absurd (by simp) hc
    | cons d t =>
        rw [List.cons_append] at ht
        exact .inr ⟨t, y, by rw [List.append_assoc, (List.cons.inj ht).2]⟩

/-- Nothing is cut when no `2 ^ 32` bytes in a row are plain, and only then. -/
lemma cutRuns_eq_iff (s run : List UInt8) (hrun : ∀ c ∈ run, XmlUnescaped c) :
    cutRuns s run = run ++ s ↔
      ∀ u, u <:+: run ++ s → (∀ c ∈ u, XmlUnescaped c) → u.length < 2 ^ 32 := by
  induction s generalizing run with
  | nil =>
      rw [List.append_nil, cutRuns, cutRun_eq_iff]
      exact ⟨fun h u hu _ => lt_of_le_of_lt hu.length_le h, fun h => h run List.infix_rfl hrun⟩
  | cons c s ih =>
      rw [cutRuns]
      cases hc : xmlEscapeStr c with
      | none =>
          simp only
          have hrun' : ∀ b ∈ run ++ [c], XmlUnescaped b := fun b hb => by
            rcases List.mem_append.mp hb with hb | hb
            · exact hrun b hb
            · rwa [List.mem_singleton.mp hb]
          have h := ih (run ++ [c]) hrun'
          rwa [List.append_assoc, List.singleton_append] at h
      | some q =>
          simp only
          have hsplit : cutRun run ++ c :: cutRuns s [] = run ++ c :: s ↔
              cutRun run = run ∧ cutRuns s [] = s := by
            refine ⟨fun h => ?_, fun ⟨h, h'⟩ => by rw [h, h']⟩
            have hlen := congrArg List.length h
            have hle := (cutRun_isPrefix run).length_le
            have hle' := cutRuns_length s []
            simp only [List.length_append, List.length_cons, List.length_nil] at hlen hle'
            obtain ⟨h1, h2⟩ := List.append_inj h (by omega)
            exact ⟨h1, (List.cons.inj h2).2⟩
          have ih' := ih [] nofun
          rw [List.nil_append] at ih'
          rw [hsplit, cutRun_eq_iff, ih']
          constructor
          · rintro ⟨hrunlen, hs⟩ u hu hplain
            have hcu : c ∉ u := fun hmem => by
              have hcplain := hplain c hmem
              rw [XmlUnescaped, hc] at hcplain
              exact absurd hcplain nofun
            rcases infix_of_notMem hcu hu with hu | hu
            · exact lt_of_le_of_lt hu.length_le hrunlen
            · exact hs u hu hplain
          · intro h
            exact ⟨h run (List.prefix_append run _).isInfix hrun, fun u hu =>
              h u (hu.trans ⟨run ++ [c], [], by simp⟩)⟩

/-- **Unescaping undoes escaping** exactly on the texts without `2 ^ 32` bytes in a row that need
no escape. -/
theorem xmlUnescape_escapeTo_iff {s : List UInt8} (h0 : (0 : UInt8) ∉ s) (dest : List UInt8) :
    xmlUnescape dest (xmlEscapeTo [] s) none = .ok (dest ++ s) ↔
      ∀ u, u <:+: s → (∀ c ∈ u, XmlUnescaped c) → u.length < 2 ^ 32 := by
  have h0' : (0 : UInt8) ∉ cutRuns s [] := fun h => h0 (by simpa using cutRuns_subset s [] h)
  have hcut := cutRuns_eq_iff s [] (by simp)
  rw [List.nil_append] at hcut
  rw [xmlEscapeTo, xmlEscapeLoop_eq h0 List.not_mem_nil (by simp), List.nil_append,
    xmlUnescape_escaped dest h0', ← hcut]
  constructor
  · intro h
    exact List.append_cancel_left (Except.ok.inj h)
  · intro h
    rw [h]

/-- A text with two escapes. -/
theorem xmlUnescape_escapeTo_iff_tag :
    xmlUnescape [0x3A] (xmlEscapeTo [] [0x3C, 0x61, 0x62, 0x3E]) none =
      .ok ([0x3A] ++ [0x3C, 0x61, 0x62, 0x3E]) :=
  (xmlUnescape_escapeTo_iff (by decide) [0x3A]).mpr fun _ hu _ =>
    lt_of_le_of_lt hu.length_le (by norm_num)

/-- Of `2 ^ 32` plain bytes nothing is copied. -/
theorem xmlUnescape_escapeTo_fails :
    ∃ s, s = List.replicate (2 ^ 32) 0x61 ∧ (0 : UInt8) ∉ s ∧
      xmlUnescape [] (xmlEscapeTo [] s) none ≠ .ok s := by
  obtain ⟨s, hs⟩ : ∃ s : List UInt8, s = List.replicate (2 ^ 32) 0x61 := ⟨_, rfl⟩
  have h0 : (0 : UInt8) ∉ s := by
    rw [hs, List.mem_replicate]
    decide
  have hplain : ∀ c ∈ s, XmlUnescaped c := fun c hc => by
    rw [hs] at hc
    rw [List.eq_of_mem_replicate hc]
    rfl
  have h0' : (0 : UInt8) ∉ cutRuns s [] := fun h => h0 (by simpa using cutRuns_subset s [] h)
  refine ⟨s, hs, h0, fun h => ?_⟩
  rw [xmlEscapeTo, xmlEscapeLoop_eq h0 List.not_mem_nil (by simp), List.nil_append,
    xmlUnescape_escaped [] h0', List.nil_append] at h
  have hlt := (cutRuns_eq_iff s [] (by simp)).mp (Except.ok.inj h) s List.infix_rfl hplain
  rw [hs, List.length_replicate] at hlt
  exact absurd hlt (lt_irrefl _)

end LibCmutils
