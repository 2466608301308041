import LibCmutils.Lib.DoublyLinked
import Mathlib.Logic.Function.Basic

/-!
The doubly linked lists of `src/lists.c`.

* `ListItem`, `ListInternal`: a node and the record of a list. `ListStore`: the nodes
  that are allocated, and the records of all list objects.
* `listAddFront`, `listAddTail`, `listRemoveFront`, `listRemoveTail`, `listRemove`,
  `listMoveAll`: the interface. A function that follows a dangling or a `NULL` pointer
  has no result.
* `listIterator`, `listIterHasNext`, `listIterNext`: the iterator, and `listIterLoop`,
  the loop that callers write with it.

`α` is the type of the data pointers other than `NULL`. The argument `alloc` is the
answer of `Alloc`, an address or `NULL`.
-/

namespace LibCmutils

/-- `CMUTIL_ListItem`. -/
structure ListItem (α : Type) where
  prev : Option ℕ
  next : Option ℕ
  data : Option α
  deriving DecidableEq

/-- The head, the tail and the size of `CMUTIL_List_Internal`. -/
structure ListInternal where
  head : Option ℕ
  tail : Option ℕ
  size : ℕ
  deriving DecidableEq

/-- The allocated nodes, and the lists. -/
structure ListStore (ι α : Type) where
  items : ℕ → Option (ListItem α)
  lists : ι → ListInternal

variable {ι α : Type}

/-- Lists as `CMUTIL_ListCreateInternal` leaves them. -/
def listCreate : ListStore ι α where
  items := fun _ => none
  lists := fun _ => { head := none, tail := none, size := 0 }

namespace ListStore

/-- A node is written. -/
def put (s : ListStore ι α) (item : ℕ) (node : ListItem α) : ListStore ι α :=
  { s with items := Function.update s.items item (some node) }

/-- A node is freed. -/
def free (s : ListStore ι α) (item : ℕ) : ListStore ι α :=
  { s with items := Function.update s.items item none }

/-- The record of a list is written. -/
def setList [DecidableEq ι] (s : ListStore ι α) (list : ι) (l : ListInternal) : ListStore ι α :=
  { s with lists := Function.update s.lists list l }

/-- The node behind a pointer. -/
def load (s : ListStore ι α) (ptr : Option ℕ) : Option (ListItem α) := ptr.bind s.items

/-- `ptr->next = value`. -/
def setNext (s : ListStore ι α) (ptr value : Option ℕ) : Option (ListStore ι α) := do
  let item ← ptr
  let node ← s.items item
  return s.put item { node with next := value }

/-- `ptr->prev = value`. -/
def setPrev (s : ListStore ι α) (ptr value : Option ℕ) : Option (ListStore ι α) := do
  let item ← ptr
  let node ← s.items item
  return s.put item { node with prev := value }

end ListStore

section Operations

variable [DecidableEq ι] (s : ListStore ι α) (list : ι)

/-- `CMUTIL_ListAddFront`. -/
def listAddFront (data : Option α) (alloc : Option ℕ) : Option (ListStore ι α) :=
  match alloc with
  | none => some s
  | some item => do
      let l := s.lists list
      let s := s.put item { prev := none, next := l.head, data := data }
      let s ← if l.head.isSome then s.setPrev l.head (some item) else some s
      return s.setList list
        { head := some item, tail := if l.tail.isSome then l.tail else some item, size := l.size + 1 }

/-- `CMUTIL_ListAddTail`. -/
def listAddTail (data : Option α) (alloc : Option ℕ) : Option (ListStore ι α) :=
  match alloc with
  | none => some s
  | some item => do
      let l := s.lists list
      let s := s.put item { prev := l.tail, next := none, data := data }
      let s ← if l.tail.isSome then s.setNext l.tail (some item) else some s
      return s.setList list
        { head := if l.head.isSome then l.head else some item, tail := some item, size := l.size + 1 }

/-- `CMUTIL_ListGetFront`. -/
def listGetFront : Option (Option α) :=
  match (s.lists list).head with
  | none => some none
  | some item => (s.items item).map ListItem.data

/-- `CMUTIL_ListGetTail`. -/
def listGetTail : Option (Option α) :=
  match (s.lists list).tail with
  | none => some none
  | some item => (s.items item).map ListItem.data

/-- `CMUTIL_ListRemoveFront`. -/
def listRemoveFront : Option (ListStore ι α × Option α) :=
  let l := s.lists list
  match l.head with
  | none => some (s, none)
  | some item => do
      let node ← s.items item
      let s ← if node.next.isSome then s.setPrev node.next none else some s
      let size := l.size - 1
      return ((s.free item).setList list
        { head := node.next, tail := if size = 0 then none else l.tail, size := size }, node.data)

/-- `CMUTIL_ListRemoveTail`. -/
def listRemoveTail : Option (ListStore ι α × Option α) :=
  let l := s.lists list
  match l.tail with
  | none => some (s, none)
  | some item => do
      let node ← s.items item
      let s ← if node.prev.isSome then s.setNext node.prev none else some s
      let size := l.size - 1
      return ((s.free item).setList list
        { head := if size = 0 then none else l.head, tail := node.prev, size := size }, node.data)

/-- The loop of `CMUTIL_ListRemove` from the node `item` on, for at most `fuel` nodes. -/
def listRemoveLoop [DecidableEq α] (data : Option α) :
    ℕ → Option ℕ → Option (ListStore ι α × Option α)
  | _, none => some (s, none)
  | 0, some _ => none
  | fuel + 1, some item => do
      let node ← s.items item
      if node.data = data then
        let l := s.lists list
        if l.head = some item then listRemoveFront s list
        else if l.tail = some item then listRemoveTail s list
        else
          let s ← s.setNext node.prev node.next
          let node ← s.items item
          let s ← s.setPrev node.next node.prev
          return ((s.free item).setList list { l with size := l.size - 1 }, data)
      else listRemoveLoop data fuel node.next

/-- `CMUTIL_ListRemove`. The loop is given as many turns as the list has nodes. -/
def listRemove [DecidableEq α] (data : Option α) : Option (ListStore ι α × Option α) :=
  listRemoveLoop s list data (s.lists list).size (s.lists list).head

/-- `CMUTIL_ListMoveAll`. -/
def listMoveAll (dest src : ι) : Option (ListStore ι α) :=
  let isrc := s.lists src
  let idest := s.lists dest
  if isrc.head.isNone then some s
  else do
    let s ←
      if idest.tail.isSome then do
        let s ← s.setNext idest.tail isrc.head
        s.setPrev isrc.head idest.tail
      else some s
    let s := s.setList dest
      { head := if idest.tail.isSome then idest.head else isrc.head
        tail := isrc.tail
        size := idest.size + isrc.size }
    return s.setList src { head := none, tail := none, size := 0 }

end Operations

/-! ### The iterator -/

/-- `CMUTIL_ListIter_st`. -/
structure ListIter where
  curr : Option ℕ
  deriving DecidableEq

/-- `CMUTIL_ListIterator`. -/
def listIterator (s : ListStore ι α) (list : ι) : ListIter where
  curr := (s.lists list).head

/-- `CMUTIL_ListIterHasNext`. -/
def listIterHasNext (iter : ListIter) : Bool := iter.curr.isSome

/-- `CMUTIL_ListIterNext`. -/
def listIterNext (s : ListStore ι α) (iter : ListIter) : Option (Option α × ListIter) :=
  match iter.curr with
  | none => some (none, iter)
  | some item => do
      let node ← s.items item
      return (node.data, if node.data.isSome then { curr := node.next } else iter)

/-- `while (HasNext) Next`, for at most `fuel` calls of `Next`: what they return. -/
def listIterLoop (s : ListStore ι α) : ℕ → ListIter → Option (List (Option α))
  | 0, iter => if listIterHasNext iter then none else some []
  | fuel + 1, iter =>
      if listIterHasNext iter then do
        let (data, iter) ← listIterNext s iter
        return data :: (← listIterLoop s fuel iter)
      else some []

end LibCmutils
