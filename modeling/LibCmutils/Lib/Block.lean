import Mathlib.Tactic

/-!
Blocks of memory cells as lists, and the two shifts an array makes in its block.

* `memmove`: `n` cells are copied from offset `src` to offset `dst`, the source
  and the target may overlap.
* `memmove_up_set`: shifting a segment up by one cell and writing the freed cell
  inserts an item.
* `memmove_down`: shifting a segment down by one cell removes the cell before
  it.
* `blockWrite`, `blockRead`, `blockMove`: writing into a block, reading from it and moving
  inside it, which fail outside the block.
* `range_map_getElem?`, `mapM_eq_some`: the loop that reads a block cell by cell.
* `growCap`: the doubling loop that chooses a new capacity.
-/

namespace LibCmutils

universe u
variable {β : Type u}

/-- `memmove` of `n` cells from offset `src` to offset `dst` of one block. -/
def memmove (block : List β) (dst src n : ℕ) : List β :=
  block.take dst ++ (block.drop src).take n ++ block.drop (dst + n)

/-- The shift before an insertion: `post` moves up by one cell, and `x` is
written where it began. -/
lemma memmove_up_set (pre post rest : List β) (c x : β) :
    (memmove (pre ++ post ++ c :: rest) (pre.length + 1) pre.length post.length).set
      pre.length x = pre ++ x :: post ++ rest := by
  have hdrop : (pre ++ post ++ c :: rest).drop (pre.length + 1 + post.length) = rest := by
    rw [show pre.length + 1 + post.length = (pre ++ post ++ [c]).length by simp; omega,
      show pre ++ post ++ c :: rest = (pre ++ post ++ [c]) ++ rest by simp, List.drop_left]
  rw [memmove, hdrop]
  cases post with
  | nil => simp [List.take_append]
  | cons y ys => simp [List.take_append]

/-- The shift of a removal: `post` moves down over `y`. -/
lemma memmove_down (pre post rest : List β) (y : β) :
    pre ++ post <+: memmove (pre ++ y :: post ++ rest) pre.length (pre.length + 1) post.length := by
  refine ⟨(y :: post ++ rest).drop post.length, ?_⟩
  have hdrop : (pre ++ y :: post ++ rest).drop (pre.length + post.length)
      = (y :: post ++ rest).drop post.length := by
    simp [List.drop_append]
  have hseg : (pre ++ y :: post ++ rest).drop (pre.length + 1) = post ++ rest := by
    rw [show pre.length + 1 = (pre ++ [y]).length by simp,
      show pre ++ y :: post ++ rest = (pre ++ [y]) ++ (post ++ rest) by simp, List.drop_left]
  rw [memmove, hdrop, hseg]
  simp

/-- `memcpy` of `bytes` to offset `off` of a block. -/
def blockWrite (block : List β) (off : ℕ) (bytes : List β) : Option (List β) :=
  if off + bytes.length ≤ block.length then
    some (block.take off ++ bytes ++ block.drop (off + bytes.length))
  else none

/-- The source of a `memcpy`: `n` cells from offset `off` on. -/
def blockRead (block : List β) (off n : ℕ) : Option (List β) :=
  if off + n ≤ block.length then some ((block.drop off).take n) else none

/-- `memmove` inside a block. -/
def blockMove (block : List β) (dst src n : ℕ) : Option (List β) :=
  if src + n ≤ block.length ∧ dst + n ≤ block.length then some (memmove block dst src n) else none

lemma blockWrite_append (pre mid post bytes : List β) (hlen : mid.length = bytes.length) :
    blockWrite (pre ++ (mid ++ post)) pre.length bytes = some (pre ++ (bytes ++ post)) := by
  rw [blockWrite, if_pos (by simp [hlen])]
  simp [← hlen]

/-- Making room: what begins at `pre` moves up by `n` cells, and `bytes` fill the room. -/
lemma blockMove_write (pre seg : List β) {rest bytes : List β} (hroom : bytes.length ≤ rest.length) :
    (blockMove (pre ++ (seg ++ rest)) (pre.length + bytes.length) pre.length seg.length).bind
      (blockWrite · pre.length bytes) = some (pre ++ (bytes ++ (seg ++ rest.drop bytes.length))) := by
  have hmove : memmove (pre ++ (seg ++ rest)) (pre.length + bytes.length) pre.length seg.length =
      pre ++ ((seg ++ rest).take bytes.length ++ (seg ++ rest.drop bytes.length)) := by
    have hdrop : (pre ++ (seg ++ rest)).drop (pre.length + bytes.length + seg.length) =
        rest.drop bytes.length := by
      rw [show pre.length + bytes.length + seg.length = pre.length + (seg.length + bytes.length) by
        omega, ← List.drop_drop, List.drop_left, ← List.drop_drop, List.drop_left]
    rw [memmove, hdrop, List.drop_left, List.take_left, List.take_length_add_append]
    simp
  rw [blockMove, if_pos ⟨by simp, by simp; omega⟩, Option.bind_some, hmove]
  exact blockWrite_append _ _ _ _ (by simp; omega)

/-- Reading a list at all its indices. -/
lemma range_map_getElem? (l : List β) : (List.range l.length).map (l[·]?) = l.map some := by
  refine List.ext_getElem (by simp) fun i hi _ => ?_
  have hlt : i < l.length := by simpa using hi
  simp [hlt]

/-- A loop whose steps all succeed collects their results. -/
lemma mapM_eq_some {γ : Type*} {f : γ → Option β} :
    ∀ {xs : List γ} {ys : List β}, xs.map f = ys.map some → xs.mapM f = some ys
  | [], [], _ => rfl
  | [], y :: ys, h => by simp at h
  | x :: xs, [], h => by simp at h
  | x :: xs, y :: ys, h => by
      obtain ⟨hx, hxs⟩ := List.cons.inj h
      rw [List.mapM_cons, mapM_eq_some hxs, hx]
      rfl

/-- The loop that doubles a capacity until it covers `reqsz`, run for at most
`fuel` rounds. -/
def growCap (reqsz : ℕ) : ℕ → ℕ → ℕ
  | 0, cap => cap
  | fuel + 1, cap => if cap < reqsz then growCap reqsz fuel (cap * 2) else cap

/-- The loop ends: a positive capacity gains at least one cell each round. -/
lemma le_growCap {reqsz fuel cap : ℕ} (hcap : 0 < cap) (hfuel : reqsz ≤ cap + fuel) :
    reqsz ≤ growCap reqsz fuel cap := by
  induction fuel generalizing cap with
  | zero => rw [growCap]; omega
  | succ fuel ih =>
      rw [growCap]
      split
      · exact ih (by omega) (by omega)
      · omega

end LibCmutils
