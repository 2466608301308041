import Mathlib.Data.List.Basic

/-!
A stream between a writer and a reader, which transfer it in pieces of any size.

* `Transfers`: what is in the stream, the calls that are over with their results, and those that
  run.
* `startPut`, `putSome`, `endPut`, `startTake`, `takeSome`, `endTake`: what calls do.
* `Transfers.Sound`: what was got and what is in the stream is what was taken of the writers,
  and a call with success has transferred all. One rule for each operation.
* `prefix_of_flatten_prefix`: blocks of the same lengths in two texts, one a beginning of the
  other. `Transfers.Sound.framed`: the messages are read as they were written.
-/

namespace LibCmutils

universe u v
variable {α : Type u} {ρ : Type v}

/-- A call of the writer: what was to be written, and what the stream took. -/
structure Put (α : Type u) (ρ : Type v) where
  asked : List α
  taken : List α
  result : ρ

/-- A call of the reader: how much was wanted, and what it got. -/
structure Take (α : Type u) (ρ : Type v) where
  wanted : ℕ
  got : List α
  result : ρ

/-- A stream, with the calls that are over and those that run. -/
structure Transfers (α : Type u) (ρ : Type v) where
  queue : List α
  puts : List (Put α ρ)
  put : Option (Put α Unit)
  takes : List (Take α ρ)
  take : Option (Take α Unit)

namespace Transfers

variable (t : Transfers α ρ)

/-- No call was made. -/
def start : Transfers α ρ := ⟨[], [], none, [], none⟩

/-- A call to write. -/
def startPut (asked : List α) : Transfers α ρ := { t with put := some ⟨asked, [], ()⟩ }

/-- A piece enters the stream. -/
def putSome (piece : List α) : Transfers α ρ :=
  { t with
    queue := t.queue ++ piece
    put := t.put.map fun p => { p with taken := p.taken ++ piece } }

/-- The call to write is over. -/
def endPut (result : ρ) : Transfers α ρ :=
  { t with
    puts := t.puts ++ (t.put.map fun p => ⟨p.asked, p.taken, result⟩).toList
    put := none }

/-- A call to read. -/
def startTake (wanted : ℕ) : Transfers α ρ := { t with take := some ⟨wanted, [], ()⟩ }

/-- A piece leaves the stream. -/
def takeSome (n : ℕ) : Transfers α ρ :=
  { t with
    queue := t.queue.drop n
    take := t.take.map fun g => { g with got := g.got ++ t.queue.take n } }

/-- The call to read is over. -/
def endTake (result : ρ) : Transfers α ρ :=
  { t with
    takes := t.takes ++ (t.take.map fun g => ⟨g.wanted, g.got, result⟩).toList
    take := none }

/-- What was to be written so far, one text a call. -/
def messages : List (List α) := t.puts.map Put.asked ++ (t.put.map Put.asked).toList

/-- How much was wanted so far, one number a call. -/
def wants : List ℕ := t.takes.map Take.wanted ++ (t.take.map Take.wanted).toList

/-- What entered the stream. -/
def sent : List α := (t.puts.map Put.taken).flatten ++ (t.put.map Put.taken).getD []

/-- What left the stream. -/
def received : List α := (t.takes.map Take.got).flatten ++ (t.take.map Take.got).getD []

@[simp] lemma messages_putSome (piece : List α) : (t.putSome piece).messages = t.messages := by
  simp [messages, putSome, Function.comp_def]

@[simp] lemma messages_endPut (result : ρ) : (t.endPut result).messages = t.messages := by
  cases h : t.put <;> simp [messages, endPut, h]

@[simp] lemma wants_takeSome (n : ℕ) : (t.takeSome n).wants = t.wants := by
  simp [wants, takeSome, Function.comp_def]

@[simp] lemma wants_endTake (result : ρ) : (t.endTake result).wants = t.wants := by
  cases h : t.take <;> simp [wants, endTake, h]

@[simp] lemma received_endPut (result : ρ) : (t.endPut result).received = t.received := rfl

@[simp] lemma sent_takeSome (n : ℕ) : (t.takeSome n).sent = t.sent := rfl

@[simp] lemma sent_endTake (result : ρ) : (t.endTake result).sent = t.sent := rfl

/-- **The calls agree with the stream.** -/
structure Sound (success : ρ) (t : Transfers α ρ) : Prop where
  conserved : t.received ++ t.queue = t.sent
  puts : ∀ p ∈ t.puts, p.taken <+: p.asked ∧ (p.result = success → p.taken = p.asked)
  put : ∀ p ∈ t.put, p.taken <+: p.asked
  takes : ∀ g ∈ t.takes, g.got.length ≤ g.wanted ∧ (g.result = success → g.got.length = g.wanted)
  take : ∀ g ∈ t.take, g.got.length ≤ g.wanted

namespace Sound

variable {t} {success : ρ}

lemma start : (start : Transfers α ρ).Sound success :=
  ⟨rfl, by simp [Transfers.start], by simp [Transfers.start], by simp [Transfers.start],
    by simp [Transfers.start]⟩

lemma startPut (h : t.Sound success) (hput : t.put = none) (asked : List α) :
    (t.startPut asked).Sound success := by
  refine ⟨?_, h.puts, fun p hp => ?_, h.takes, h.take⟩
  · have hconserved := h.conserved
    simp only [sent, hput] at hconserved
    exact hconserved
  · obtain rfl := Option.some.inj hp
    exact List.nil_prefix

lemma putSome (h : t.Sound success) {p : Put α Unit} (hput : t.put = some p) {piece : List α}
    (hpiece : p.taken ++ piece <+: p.asked) : (t.putSome piece).Sound success := by
  refine ⟨?_, h.puts, fun p' hp' => ?_, h.takes, h.take⟩
  · have hconserved := h.conserved
    simp only [sent, hput, Option.map_some, Option.getD_some] at hconserved
    simp only [sent, received, Transfers.putSome, hput, Option.map_some, Option.getD_some,
      ← List.append_assoc]
    rw [← received, hconserved]
  · simp only [Transfers.putSome, hput, Option.map_some, Option.mem_some_iff] at hp'
    rwa [← hp']

lemma endPut (h : t.Sound success) {p : Put α Unit} (hput : t.put = some p) {result : ρ}
    (hresult : result = success → p.taken = p.asked) : (t.endPut result).Sound success := by
  refine ⟨?_, fun p' hp' => ?_, by simp [Transfers.endPut], h.takes, h.take⟩
  · have hconserved := h.conserved
    simp only [sent, hput, Option.map_some, Option.getD_some] at hconserved
    rw [received_endPut]
    simpa [sent, Transfers.endPut, hput] using hconserved
  · simp only [Transfers.endPut, hput, Option.map_some, Option.toList_some, List.mem_append,
      List.mem_singleton] at hp'
    rcases hp' with hp' | rfl
    · exact h.puts p' hp'
    · exact ⟨h.put p hput, hresult⟩

lemma startTake (h : t.Sound success) (htake : t.take = none) (wanted : ℕ) :
    (t.startTake wanted).Sound success := by
  refine ⟨?_, h.puts, h.put, h.takes, fun g hg => ?_⟩
  · have hconserved := h.conserved
    simp only [received, htake] at hconserved
    exact hconserved
  · obtain rfl := Option.some.inj hg
    exact Nat.zero_le _

lemma takeSome (h : t.Sound success) {g : Take α Unit} (htake : t.take = some g) {n : ℕ}
    (hn : g.got.length + n ≤ g.wanted) : (t.takeSome n).Sound success := by
  refine ⟨?_, h.puts, h.put, h.takes, fun g' hg' => ?_⟩
  · have hconserved := h.conserved
    simp only [received, htake, Option.map_some, Option.getD_some] at hconserved
    rw [sent_takeSome]
    simpa [received, Transfers.takeSome, htake] using hconserved
  · simp only [Transfers.takeSome, htake, Option.map_some, Option.mem_some_iff] at hg'
    rw [← hg', List.length_append, List.length_take]
    exact Nat.le_trans (Nat.add_le_add_left (Nat.min_le_left _ _) _) hn

lemma endTake (h : t.Sound success) {g : Take α Unit} (htake : t.take = some g) {result : ρ}
    (hresult : result = success → g.got.length = g.wanted) : (t.endTake result).Sound success := by
  refine ⟨?_, h.puts, h.put, fun g' hg' => ?_, by simp [Transfers.endTake]⟩
  · have hconserved := h.conserved
    simp only [received, htake, Option.map_some, Option.getD_some] at hconserved
    rw [sent_endTake]
    simpa [received, Transfers.endTake, htake] using hconserved
  · simp only [Transfers.endTake, htake, Option.map_some, Option.toList_some, List.mem_append,
      List.mem_singleton] at hg'
    rcases hg' with hg' | rfl
    · exact h.takes g' hg'
    · exact ⟨h.take g htake, hresult⟩

end Sound

end Transfers

/-! ### Messages -/

/-- Blocks of the same lengths, when one text is a beginning of the other. -/
lemma prefix_of_flatten_prefix {xss yss : List (List α)} (h : xss.flatten <+: yss.flatten)
    (hlen : xss.map List.length <+: yss.map List.length) : xss <+: yss := by
  induction xss generalizing yss with
  | nil => exact List.nil_prefix
  | cons xs xss ih =>
      cases yss with
      | nil => simp at hlen
      | cons ys yss =>
          rw [List.map_cons, List.map_cons, List.cons_prefix_cons] at hlen
          rw [List.flatten_cons, List.flatten_cons] at h
          have hxs : xs = ys := by
            have hx : xs <+: ys ++ yss.flatten := (List.prefix_append _ _).trans h
            exact (List.prefix_of_prefix_length_le hx (List.prefix_append _ _)
              (Nat.le_of_eq hlen.1)).eq_of_length hlen.1
          subst hxs
          rw [List.prefix_append_right_inj] at h
          exact List.cons_prefix_cons.mpr ⟨rfl, ih h hlen.2⟩

namespace Transfers

variable {t : Transfers α ρ} {success : ρ}

/-- With success only, all that entered the stream is a beginning of the messages. -/
lemma Sound.sent_prefix (h : t.Sound success) (hputs : ∀ p ∈ t.puts, p.result = success) :
    t.sent <+: t.messages.flatten := by
  have hover : (t.puts.map Put.taken).flatten = (t.puts.map Put.asked).flatten := by
    congr 1
    exact List.map_congr_left fun p hp => (h.puts p hp).2 (hputs p hp)
  rw [sent, messages, List.flatten_append, hover, List.prefix_append_right_inj]
  cases hput : t.put with
  | none => exact List.nil_prefix
  | some p => simpa using h.put p hput

/-- **Messages.** When the calls that are over had success and the reader asks for the lengths
of the messages, it gets the messages. -/
theorem Sound.framed (h : t.Sound success) (hputs : ∀ p ∈ t.puts, p.result = success)
    (htakes : ∀ g ∈ t.takes, g.result = success)
    (hlen : t.takes.map Take.wanted <+: t.messages.map List.length) :
    t.takes.map Take.got <+: t.messages := by
  refine prefix_of_flatten_prefix ?_ ?_
  · have hgot : (t.takes.map Take.got).flatten <+: t.received := List.prefix_append _ _
    have hsent : t.received <+: t.sent := h.conserved ▸ List.prefix_append _ _
    exact (hgot.trans hsent).trans (h.sent_prefix hputs)
  · have hwanted : (t.takes.map Take.got).map List.length = t.takes.map Take.wanted := by
      rw [List.map_map]
      exact List.map_congr_left fun g hg => (h.takes g hg).2 (htakes g hg)
    rwa [hwanted]

end Transfers

end LibCmutils
