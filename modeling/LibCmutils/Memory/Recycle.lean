import LibCmutils.Lib.Transition
import LibCmutils.Lib.Linked
import Mathlib.Algebra.Group.Nat.Defs
import Mathlib.Data.Nat.Log
import Mathlib.Data.List.Sort
import Mathlib.Logic.Function.Basic

/-!
The recycling allocator (`src/memdebug.c`): blocks of `2 ^ i` bytes that go back to
a free list of their class.

* `MemNode`: a block, its header and the bytes behind it. `MemRcyList`: a class, with
  the sorted array of the blocks in use and the head of the free list. `MemRcy`: all
  classes and what `malloc` returned so far.
* `memRcyAlloc`, `memRcyCalloc`, `memRcyRealloc`, `memRcyStrdup`, `memRcyFree`: the
  interface. The argument `fresh` is the answer of `malloc`, an address and the bytes
  found there.
* `MemRcySystem`: the calls of a program, which also writes to the blocks it holds.
  `live` remembers the size it asked for.

The array of blocks in use is the increasing list of its addresses, as sorted arrays
are. The stack texts that the debug mode keeps with a block are left out.
-/

namespace LibCmutils

/-- `MEM_BLOCK_SZ`. -/
def memBlockSz : ℕ := 45

/-- `SIZE_MAX`. -/
def sizeMax : ℕ := 2 ^ 64 - 1

/-- `CMUTIL_MemNode` and the bytes behind it. -/
structure MemNode where
  size : ℕ
  next : Option ℕ
  index : ℕ
  flag : UInt8
  data : List UInt8
  deriving DecidableEq

/-- `CMUTIL_MemRcyList`. -/
structure MemRcyList where
  cnt : ℤ
  avlcnt : ℤ
  head : Option ℕ
  used : List ℕ
  usedsize : UInt64
  deriving DecidableEq

/-- `g_cmutil_memrcyblocks`, and the blocks that `malloc` made. -/
structure MemRcy where
  blocks : ℕ → MemRcyList
  heap : ℕ → Option MemNode

/-- `CMUTIL_MemRcyInit`. -/
def memRcyInit : MemRcy where
  blocks := fun _ => { cnt := 0, avlcnt := 0, head := none, used := [], usedsize := 0 }
  heap := fun _ => none

/-- The header and the bytes of a block are written. -/
def MemRcy.setNode (s : MemRcy) (p : ℕ) (node : MemNode) : MemRcy :=
  { s with heap := Function.update s.heap p (some node) }

/-- The bytes of a block are written. -/
def MemRcy.mapNode (s : MemRcy) (p : ℕ) (f : MemNode → MemNode) : MemRcy :=
  { s with heap := Function.update s.heap p ((s.heap p).map f) }

/-- The record of a class is written. -/
def MemRcy.setList (s : MemRcy) (idx : ℕ) (list : MemRcyList) : MemRcy :=
  { s with blocks := Function.update s.blocks idx list }

/-- `CMUTIL_MemRcyIndex`, the least class that has room: `ceil (log2 size)`, and `0`
for no bytes at all. -/
def memRcyIndex (size : ℕ) : ℕ := Nat.clog 2 size

/-- `Add` of a block to the sorted array of a class. -/
def memUsedAdd (used : List ℕ) (node : ℕ) : List ℕ :=
  if node ∈ used then used else used.orderedInsert (· ≤ ·) node

/-- The header of a block that is handed out, and its guard bytes. -/
def MemNode.handOut (node : MemNode) (size : ℕ) : MemNode :=
  { node with size := size, next := none, flag := 0xFF, data := node.data.set size 0xFF }

/-- The end of `CMUTIL_MemRcyAlloc`: the block `node` of class `idx` is in use from
now on. -/
def MemRcy.handOut (s : MemRcy) (idx node : ℕ) (list : MemRcyList) (size : ℕ) : MemRcy :=
  (s.setList idx { list with
    used := memUsedAdd list.used node
    usedsize := list.usedsize + UInt64.ofNat size }).mapNode node fun n => n.handOut size

/-- `CMUTIL_MemRcyAlloc`. -/
def memRcyAlloc (s : MemRcy) (fresh : Option (ℕ × List UInt8)) (size : ℕ) : MemRcy × Option ℕ :=
  let idx := memRcyIndex size
  if memBlockSz ≤ idx then (s, none)
  else
    let list := s.blocks idx
    match list.head with
    | some node =>
        let next := (s.heap node).bind MemNode.next
        (s.handOut idx node { list with head := next, avlcnt := list.avlcnt - 1 } size, some node)
    | none =>
        match fresh with
        | none => (s, none)
        | some (node, data) =>
            let s := s.setNode node { size := 0, next := none, index := idx, flag := 0, data := data }
            (s.handOut idx node { list with cnt := list.cnt + 1 } size, some node)

/-- `memcpy` and `memset` to the beginning of a block. -/
def MemRcy.fill (s : MemRcy) (p : ℕ) (bytes : List UInt8) : MemRcy :=
  s.mapNode p fun n => { n with data := bytes ++ n.data.drop bytes.length }

/-- `CMUTIL_MemRcyCalloc`. -/
def memRcyCalloc (s : MemRcy) (fresh : Option (ℕ × List UInt8)) (nmem size : ℕ) :
    MemRcy × Option ℕ :=
  if nmem ≠ 0 ∧ sizeMax / nmem < size then (s, none)
  else
    match memRcyAlloc s fresh (nmem * size) with
    | (s, none) => (s, none)
    | (s, some res) => (s.fill res (List.replicate (nmem * size) 0), some res)

/-- `CMUTIL_MemCheckFlow`. -/
def memCheckFlow (node : MemNode) : Bool :=
  node.flag == 0xFF && node.data[node.size]? == some 0xFF

/-- `CMUTIL_MemRcyFree`. Behind a pointer that never was a block there is no header
to read. -/
def memRcyFree (s : MemRcy) (ptr : Option ℕ) : MemRcy :=
  match ptr with
  | none => s
  | some p =>
      match s.heap p with
      | none => s
      | some node =>
          if memBlockSz ≤ node.index then s
          else
            let list := s.blocks node.index
            if p ∉ list.used then s
            else
              let list := { list with used := list.used.erase p }
              if !memCheckFlow node then s.setList node.index list
              else
                (s.setNode p { node with next := list.head }).setList node.index
                  { list with head := some p, avlcnt := list.avlcnt + 1 }

/-- `CMUTIL_MemRcyRealloc`. -/
def memRcyRealloc (s : MemRcy) (fresh : Option (ℕ × List UInt8)) (ptr : Option ℕ) (size : ℕ) :
    MemRcy × Option ℕ :=
  let nidx := memRcyIndex size
  match ptr with
  | none => memRcyAlloc s fresh size
  | some p =>
      match s.heap p with
      | none => (s, none)
      | some node =>
          if memBlockSz ≤ node.index then (s, none)
          else if !memCheckFlow node then (s, none)
          else if memBlockSz ≤ nidx then (s, none)
          else if node.index = nidx then
            let list := s.blocks nidx
            let usedsize := list.usedsize + (UInt64.ofNat size - UInt64.ofNat node.size)
            ((s.setList nidx { list with usedsize := usedsize }).setNode p
              { node with size := size, data := node.data.set size 0xFF }, some p)
          else
            match memRcyAlloc s fresh size with
            | (s, none) => (s, none)
            | (s, some res) =>
                -- copy only what fits in both blocks
                let bytes := (s.heap p).elim [] fun n => n.data.take (min size n.size)
                (memRcyFree (s.fill res bytes) (some p), some res)

/-- `CMUTIL_MemRcyStrdup` of a C string, given without its terminator. -/
def memRcyStrdup (s : MemRcy) (fresh : Option (ℕ × List UInt8)) (str : Option (List UInt8)) :
    MemRcy × Option ℕ :=
  match str with
  | none => (s, none)
  | some str =>
      match memRcyAlloc s fresh (str.length + 1) with
      | (s, none) => (s, none)
      | (s, some res) => (s.fill res (str ++ [0]), some res)

/-! ### Programs that use the allocator -/

/-- A call of a program, or a byte it writes. -/
inductive MemRcyAct where
  | alloc (size : ℕ) (fresh : Option (ℕ × List UInt8))
  | calloc (nmem size : ℕ) (fresh : Option (ℕ × List UInt8))
  | realloc (ptr : Option ℕ) (size : ℕ) (fresh : Option (ℕ × List UInt8))
  | strdup (str : Option (List UInt8)) (fresh : Option (ℕ × List UInt8))
  | free (ptr : Option ℕ)
  | write (ptr offset : ℕ) (byte : UInt8)

/-- The allocator, and the sizes of the blocks the program holds. -/
structure MemRcyState where
  mem : MemRcy
  live : ℕ → Option ℕ

/-- What `malloc` answers for a block of the class of `size`: nothing, or bytes at an
address where there was no block. -/
def MallocOk (s : MemRcy) (size : ℕ) (fresh : Option (ℕ × List UInt8)) : Prop :=
  ∀ r, fresh = some r → s.heap r.1 = none ∧ r.2.length = 2 ^ memRcyIndex size + 1

instance (s : MemRcy) (size : ℕ) (fresh : Option (ℕ × List UInt8)) :
    Decidable (MallocOk s size fresh) :=
  match fresh with
  | none => .isTrue fun _ h => nomatch h
  | some r => decidable_of_iff (s.heap r.1 = none ∧ r.2.length = 2 ^ memRcyIndex size + 1)
      ⟨fun h _ hr => Option.some.inj hr ▸ h, fun h => h r rfl⟩

/-- The program gets the block `res` of `size` bytes, or `NULL`. -/
def MemRcyState.gain (s : MemRcyState) (r : MemRcy × Option ℕ) (size : ℕ) : MemRcyState where
  mem := r.1
  live := r.2.elim s.live fun res => Function.update s.live res (some size)

/-- The program gives up the block `ptr`. -/
def MemRcyState.lose (s : MemRcyState) (ptr : Option ℕ) : MemRcyState :=
  { s with live := ptr.elim s.live fun p => Function.update s.live p none }

/-- One call. A program reallocates what it holds, frees what it once got, and writes
inside the blocks it holds; the guard bytes stay as they are. -/
def memRcyStep (s : MemRcyState) : MemRcyAct → Option MemRcyState
  | .alloc size fresh =>
      if MallocOk s.mem size fresh then some (s.gain (memRcyAlloc s.mem fresh size) size) else none
  | .calloc nmem size fresh =>
      if MallocOk s.mem (nmem * size) fresh then
        some (s.gain (memRcyCalloc s.mem fresh nmem size) (nmem * size))
      else none
  | .realloc ptr size fresh =>
      if MallocOk s.mem size fresh ∧ (ptr.all fun p => (s.live p).isSome) then
        let r := memRcyRealloc s.mem fresh ptr size
        some ((if r.2.isSome then s.lose ptr else s).gain r size)
      else none
  | .strdup str fresh =>
      if MallocOk s.mem ((str.getD []).length + 1) fresh then
        some (s.gain (memRcyStrdup s.mem fresh str) ((str.getD []).length + 1))
      else none
  | .free ptr =>
      if ptr.all fun p => (s.mem.heap p).isSome then
        some ({ s with mem := memRcyFree s.mem ptr }.lose ptr)
      else none
  | .write ptr offset byte =>
      match s.live ptr with
      | none => none
      | some size =>
          if offset < size then
            some { s with mem := s.mem.mapNode ptr fun n => { n with data := n.data.set offset byte } }
          else none

/-- The allocator and a program that uses it, from `CMUTIL_MemRcyInit` on. -/
def memRcySystem : TransitionSystem MemRcyState MemRcyAct where
  init s := s = { mem := memRcyInit, live := fun _ => none }
  step := memRcyStep

end LibCmutils
